import BusBench.Proofs.Link.Dialogues

/-!
# What a dialogue spends

A read takes something of what is still to arrive, a byte or a moment of silence, or else it fails
because nothing is left. Where a read or an output fails, the talk is over. So a loop whose every
round reads something ends: it has at most as many rounds as there are arrivals, and one more that
fails.

* `Loops`: a loop that ends without any bound on its rounds.
* `Spent`: what was taken, and where the talk ended.
* `Meter`, `Meter.Passage`: the supply of a peer, and what a program does with it.
* `Dialogue.Spends`: dialogues that take at least so much.
* `Dialogue.Spends.loop`: loops of rounds that take something.
-/

namespace BusBench

/-! ## Loops -/

section Loops

variable {S σ ε α : Type} {round : σ → ExceptT ε (StateM S) (σ ⊕ α)}

/-- The loop ends, with this result and in that state. Nothing bounds its rounds. -/
inductive Loops (round : σ → ExceptT ε (StateM S) (σ ⊕ α)) : σ → S → Except ε α → S → Prop
  | goesOn {x x' : σ} {s s' t : S} {r : Except ε α} (h : (round x).run s = (.ok (.inl x'), s'))
    (hRest : Loops round x' s' r t) : Loops round x s r t
  | answers {x : σ} {s t : S} {a : α} (h : (round x).run s = (.ok (.inr a), t)) :
    Loops round x s (.ok a) t
  | fails {x : σ} {s t : S} {e : ε} (h : (round x).run s = (.error e, t)) :
    Loops round x s (.error e) t

/-- After a round that came to this, the loop comes to `r` and `t`. -/
def Loops.After (round : σ → ExceptT ε (StateM S) (σ ⊕ α)) (r : Except ε α) (t : S) :
    Except ε (σ ⊕ α) → S → Prop
  | .ok (.inl x'), mid => Loops round x' mid r t
  | .ok (.inr a), mid => r = .ok a ∧ t = mid
  | .error e, mid => r = .error e ∧ t = mid

/-- What becomes of the first round decides how the loop goes on. -/
theorem Loops.after_first {x : σ} {s mid t : S} {r : Except ε α} {out : Except ε (σ ⊕ α)}
    (h : Loops round x s r t) (hRun : (round x).run s = (out, mid)) :
    Loops.After round r t out mid := by
  cases h with
  | goesOn hFirst hRest =>
    cases hRun.symm.trans hFirst
    exact hRest
  | answers hFirst =>
    cases hRun.symm.trans hFirst
    exact ⟨rfl, rfl⟩
  | fails hFirst =>
    cases hRun.symm.trans hFirst
    exact ⟨rfl, rfl⟩

/-- Where every round that is not the last leaves less of a supply, the supply is bound enough. -/
theorem loops_rounds {supply : S → Nat}
    (hRound : ∀ {x x' s s'}, (round x).run s = (.ok (.inl x'), s') → supply s' < supply s)
    {exhausted : ExceptT ε (StateM S) α} {limit : Nat} {x : σ} {s : S}
    (hLimit : supply s < limit) :
    Loops round x s ((rounds exhausted round limit x).run s).1
      ((rounds exhausted round limit x).run s).2 := by
  -- By induction on the bound, which stays above the supply from round to round.
  induction limit generalizing x s with
  | zero => exact absurd hLimit (Nat.not_lt_zero _)
  | succ limit ih =>
    rw [rounds_succ_run]
    rcases hRun : (round x).run s with ⟨e | x' | a, s'⟩
    · exact .fails hRun
    · have hLess : supply s' < supply s := hRound hRun
      have hRest : supply s' < limit := by omega
      exact .goesOn hRun (ih hRest)
    · exact .answers hRun

end Loops

/-! ## Events of reads and failures -/

namespace Event

/-- Whether something that was to arrive has been taken: a byte, or a moment of silence. -/
def isDraw : Event → Bool
  | peer (.received _) | peer .idle => true
  | _ => false

/-- Whether the link failed. -/
def isFailure : Event → Bool
  | peer (.failed _) => true
  | _ => false

/-- Whether the link was read, successfully or not. -/
def isRead : Event → Bool
  | peer (.received _) | peer .idle | peer (.failed .endOfInput) => true
  | _ => false

theorem isFailure_of_not_peer {event : Event} (h : event.isPeer = false) :
    event.isFailure = false := by
  cases event with
  | peer event => cases h
  | board exchange => rfl
  | reached point => rfl

theorem isDraw_of_not_peer {event : Event} (h : event.isPeer = false) :
    event.isDraw = false := by
  cases event with
  | peer event => cases h
  | board exchange => rfl
  | reached point => rfl

/-- A read takes something or fails. -/
theorem isRead_le (event : Event) (h : event.isRead = true) :
    event.isDraw = true ∨ event.isFailure = true := by
  rcases event with _ | event | _
  · cases h
  · cases event with
    | received b => exact .inl rfl
    | idle => exact .inl rfl
    | failed reason => exact .inr rfl
    | sent | flushed | shown | asked | polled | passed => cases h
  · cases h

end Event

/-- How much has been taken. -/
def drawn (events : List Event) : Nat :=
  events.countP Event.isDraw

theorem drawn_append (new earlier : List Event) :
    drawn (new ++ earlier) = drawn new + drawn earlier :=
  List.countP_append

theorem drawn_of_apart {events : List Event} (h : ∀ event ∈ events, event.isPeer = false) :
    drawn events = 0 :=
  List.countP_eq_zero.mpr fun event hEvent => by
    rw [Event.isDraw_of_not_peer (h event hEvent)]
    exact Bool.false_ne_true

/-- The link has not failed. -/
def Unbroken (events : List Event) : Prop :=
  ∀ event ∈ events, event.isFailure = false

/-- The link has failed once, and nothing has passed over it since. -/
def Broken (events : List Event) : Prop :=
  ∃ later reason earlier, events = later ++ .peer (.failed reason) :: earlier ∧
    (∀ event ∈ later, event.isPeer = false) ∧ Unbroken earlier

/-- Between the first and the second amount of what is still to arrive these are the new events. The
difference was taken, and the link has failed if and only if the talk is over. -/
structure Spent (ended : Bool) (before after : Nat) (new : List Event) : Prop where
  balance : drawn new + after = before
  unbroken : ended = false → Unbroken new
  broken : ended = true → Broken new

namespace Spent

variable {ended : Bool} {before mid after : Nat} {new earlier later : List Event}

theorem nil : Spent false after after [] where
  balance := Nat.zero_add _
  unbroken _ := List.forall_mem_nil _
  broken := nofun

theorem append (h : Spent false before mid earlier) (h' : Spent ended mid after new) :
    Spent ended before after (new ++ earlier) where
  balance := by
    have hFirst := h.balance
    have hSecond := h'.balance
    rw [drawn_append]
    omega
  unbroken hEnded event hEvent := by
    rcases List.mem_append.mp hEvent with hNew | hEarlier
    · exact h'.unbroken hEnded event hNew
    · exact h.unbroken rfl event hEarlier
  broken hEnded := by
    obtain ⟨after, reason, between, rfl, hAfter, hBetween⟩ := h'.broken hEnded
    refine ⟨after, reason, between ++ earlier, ?_, hAfter, fun event hEvent => ?_⟩
    · rw [List.append_assoc, List.cons_append]
    · rcases List.mem_append.mp hEvent with hBetween' | hEarlier
      · exact hBetween event hBetween'
      · exact h.unbroken rfl event hEarlier

/-- What happens without the peer may follow even where the talk is over. -/
theorem behind (h : Spent ended before after new)
    (hLater : ∀ event ∈ later, event.isPeer = false) :
    Spent ended before after (later ++ new) where
  balance := by
    rw [drawn_append, drawn_of_apart hLater, Nat.zero_add]
    exact h.balance
  unbroken hEnded event hEvent := by
    rcases List.mem_append.mp hEvent with hMore | hNew
    · exact Event.isFailure_of_not_peer (hLater event hMore)
    · exact h.unbroken hEnded event hNew
  broken hEnded := by
    obtain ⟨after, reason, earlier, rfl, hAfter, hEarlier⟩ := h.broken hEnded
    refine ⟨later ++ after, reason, earlier, (List.append_assoc ..).symm, fun event hEvent => ?_,
      hEarlier⟩
    rcases List.mem_append.mp hEvent with hMore | hAfter'
    · exact hLater event hMore
    · exact hAfter event hAfter'

theorem apart (hLater : ∀ event ∈ later, event.isPeer = false) : Spent false after after later := by
  have h : Spent false after after (later ++ []) := nil.behind hLater
  rwa [List.append_nil] at h

/-- The link has failed exactly where the talk is over. -/
theorem failed_iff (h : Spent ended before after new) :
    (∃ reason, .peer (.failed reason) ∈ new) ↔ ended = true := by
  constructor
  · rintro ⟨reason, hFailed⟩
    cases ended with
    | true => rfl
    | false =>
      have hUnbroken := h.unbroken rfl _ hFailed
      cases hUnbroken
  · intro hEnded
    obtain ⟨later, reason, earlier, rfl, -, -⟩ := h.broken hEnded
    exact ⟨reason, List.mem_append_right _ List.mem_cons_self⟩

/-- Nothing has passed over the link since it failed. -/
theorem silent (h : Spent ended before after new) {reason : LinkError}
    (hNew : new = later ++ .peer (.failed reason) :: earlier) :
    ∀ event ∈ later, event.isPeer = false := by
  have hFailed : .peer (.failed reason) ∈ new :=
    hNew ▸ List.mem_append_right _ List.mem_cons_self
  obtain ⟨last, reason', first, hLast, hApart, hUnbroken⟩ :=
    h.broken (h.failed_iff.mp ⟨reason, hFailed⟩)
  -- There was only one failure, so both ways to cut the events at a failure are the same.
  rcases List.append_eq_append_iff.mp (hNew.symm.trans hLast) with
    ⟨between, rfl, -⟩ | ⟨_ | ⟨other, between⟩, rfl, hRest⟩
  · exact fun event hEvent => hApart event (List.mem_append_left _ hEvent)
  · rw [List.append_nil]
    exact hApart
  · obtain ⟨-, rfl⟩ := List.cons.inj hRest
    have hTwice := hUnbroken _ (List.mem_append_right between List.mem_cons_self)
    cases hTwice

/-- There are as many reads as there is to take, and at most one more, which fails. -/
theorem reads_le (h : Spent ended before after new) :
    new.countP Event.isRead ≤ before + 1 := by
  have hSplit : ∀ events : List Event, events.countP Event.isRead ≤
      drawn events + events.countP Event.isFailure := by
    intro events
    induction events with
    | nil => exact Nat.le_refl 0
    | cons event events ih =>
      have hOne := event.isRead_le
      rw [drawn] at ih ⊢
      simp only [List.countP_cons]
      split
      · next hRead =>
        rcases hOne hRead with hDraw | hFailure
        · rw [if_pos hDraw]
          omega
        · rw [if_pos hFailure]
          omega
      · omega
  have hFailures : new.countP Event.isFailure ≤ 1 := by
    have hNone : ∀ {events : List Event}, Unbroken events →
        events.countP Event.isFailure = 0 := fun hUnbroken =>
      List.countP_eq_zero.mpr fun event hEvent => by
        rw [hUnbroken event hEvent]
        exact Bool.false_ne_true
    cases ended with
    | false =>
      rw [hNone (h.unbroken rfl)]
      exact Nat.zero_le 1
    | true =>
      obtain ⟨later, reason, earlier, rfl, hApart, hUnbroken⟩ := h.broken rfl
      have hLater : Unbroken later := fun event hEvent =>
        Event.isFailure_of_not_peer (hApart event hEvent)
      have hCount : (later ++ .peer (.failed reason) :: earlier).countP Event.isFailure =
          later.countP Event.isFailure + (earlier.countP Event.isFailure + 1) := by
        rw [List.countP_append, List.countP_cons_of_pos rfl]
      have hLaterNone := hNone hLater
      have hEarlierNone := hNone hUnbroken
      omega
  have hBalance := h.balance
  have hReads := hSplit new
  omega

end Spent

/-! ## Peers with a supply -/

/-- How much is still to arrive at a peer, and which failures are failures of its link. -/
structure Meter (τ ε : Type) where
  supply : τ → Nat
  ends : ε → Bool

namespace Meter

variable {τ ε α γ : Type} {m : Meter τ ε}

/-- Whether the talk is over after a result. -/
def isOver (m : Meter τ ε) : Except ε α → Bool
  | .ok _ => false
  | .error e => m.ends e

/-- From one peer to another a program has come to this result with these new events. What was
missing at the end has been taken, and that was at least `n` unless the program failed. -/
structure Passage (m : Meter τ ε) (n : Nat) (r : Except ε α) (before after : τ)
    (new : List Event) : Prop where
  spent : Spent (m.isOver r) (m.supply before) (m.supply after) new
  least : ∀ a, r = .ok a → n ≤ drawn new

namespace Passage

variable {n n' : Nat} {r : Except ε γ} {a : α} {e : ε} {before mid after : τ}
  {new earlier : List Event}

theorem mono {r : Except ε α} (h : m.Passage n r before after new) (hLess : n' ≤ n) :
    m.Passage n' r before after new where
  spent := h.spent
  least a hOk := Nat.le_trans hLess (h.least a hOk)

/-- A result with no events. -/
theorem still {r : Except ε α} (h : m.isOver r = false) (hSupply : m.supply after = m.supply before) :
    m.Passage 0 r before after [] where
  spent := by
    rw [h, hSupply]
    exact .nil
  least _ _ := Nat.zero_le _

theorem append (h : m.Passage n (.ok a) before mid earlier)
    (h' : m.Passage n' r mid after new) : m.Passage (n + n') r before after (new ++ earlier) where
  spent := h.spent.append h'.spent
  least c hOk := by
    have hFirst := h.least a rfl
    have hSecond := h'.least c hOk
    rw [drawn_append]
    omega

theorem of_error (h : m.Passage n (.error e : Except ε α) before after new) :
    m.Passage n' (.error e : Except ε γ) before after new where
  spent := h.spent
  least := nofun

/-- What is left after a program that succeeded. -/
theorem supply_le (h : m.Passage n (.ok a) before after new) :
    m.supply after + n ≤ m.supply before := by
  have hBalance := h.spent.balance
  have hLeast := h.least a rfl
  omega

end Passage

end Meter

/-! ## Dialogues -/

namespace Dialogue

variable {τ κ ε δ α γ σ : Type} {m : Meter τ ε} {n n' : Nat}

/-- With this peer the dialogue comes to what it comes to whatever has happened before, and takes at
least `n` of what is still to arrive unless it fails. -/
def SpendsAt (m : Meter τ ε) (n : Nat) (talk : Dialogue τ ε α) (p : τ) : Prop :=
  ∃ r p' new, (∀ events, talk.run ⟨p, events⟩ = (r, ⟨p', new ++ events⟩)) ∧
    m.Passage n r p p' (new.map .peer)

/-- The dialogue takes at least `n` of what is still to arrive unless it fails. -/
def Spends (m : Meter τ ε) (n : Nat) (talk : Dialogue τ ε α) : Prop :=
  ∀ p, SpendsAt m n talk p

theorem SpendsAt.bind {talk : Dialogue τ ε α} {next : α → Dialogue τ ε γ} {p : τ}
    (h : SpendsAt m n talk p)
    (hNext : ∀ a p', m.supply p' + n ≤ m.supply p → SpendsAt m n' (next a) p') :
    SpendsAt m (n + n') (talk >>= next) p := by
  obtain ⟨r, p', new, hRun, hPassage⟩ := h
  cases r with
  | error e =>
    refine ⟨.error e, p', new, fun events => ?_, hPassage.of_error⟩
    rw [run_bind, hRun]
    rfl
  | ok a =>
    obtain ⟨r', p'', new', hRun', hPassage'⟩ := hNext a p' hPassage.supply_le
    refine ⟨r', p'', new' ++ new, fun events => ?_, ?_⟩
    · rw [bind_run (hRun events), hRun', List.append_assoc]
    · rw [List.map_append]
      exact hPassage.append hPassage'

namespace Spends

variable {talk : Dialogue τ ε α}

theorem mono (h : Spends m n talk) (hLess : n' ≤ n) : Spends m n' talk := by
  intro p
  obtain ⟨r, p', new, hRun, hPassage⟩ := h p
  exact ⟨r, p', new, hRun, hPassage.mono hLess⟩

theorem pure (a : α) : Spends m 0 (Pure.pure a : Dialogue τ ε α) :=
  fun p => ⟨.ok a, p, [], fun _ => rfl, .still rfl rfl⟩

/-- A failure that is none of the link does not end the talk. -/
theorem throw {e : ε} (h : m.ends e = false) :
    Spends m 0 (MonadExcept.throw e : Dialogue τ ε α) :=
  fun p => ⟨.error e, p, [], fun _ => rfl, .still h rfl⟩

theorem bind {next : α → Dialogue τ ε γ} (h : Spends m n talk)
    (hNext : ∀ a, Spends m 0 (next a)) : Spends m n (talk >>= next) :=
  fun p => (h p).bind fun a p' _ => hNext a p'

/-- What is asked for at least may be taken by what follows. -/
theorem bind_next {next : α → Dialogue τ ε γ} (h : Spends m 0 talk)
    (hNext : ∀ a, Spends m n (next a)) : Spends m n (talk >>= next) := by
  intro p
  have hBoth : SpendsAt m (0 + n) (talk >>= next) p := (h p).bind fun a p' _ => hNext a p'
  rwa [Nat.zero_add] at hBoth

theorem ite {condition : Prop} [Decidable condition] {yes no : Dialogue τ ε α}
    (hYes : Spends m n yes) (hNo : Spends m n no) :
    Spends m n (if condition then yes else no) := by
  split
  · exact hYes
  · exact hNo

theorem peer : Spends m 0 (Dialogue.peer : Dialogue τ ε τ) :=
  fun p => ⟨.ok p, p, [], fun _ => rfl, .still rfl rfl⟩

theorem modifyPeer {change : τ → τ} (h : ∀ p, m.supply (change p) = m.supply p) :
    Spends m 0 (Dialogue.modifyPeer change : Dialogue τ ε Unit) :=
  fun p => ⟨.ok (), change p, [], fun _ => rfl, .still rfl (h p)⟩

/-- A part of the peer that has the whole supply. -/
theorem within {m' : Meter κ δ} {get : κ → τ} {set : τ → κ → κ} {rename : ε → δ}
    (hSupply : ∀ p, m'.supply p = m.supply (get p))
    (hSet : ∀ q p, m'.supply (set q p) = m.supply q)
    (hEnds : ∀ e, m'.ends (rename e) = m.ends e) (h : Spends m n talk) :
    Spends m' n (talk.within get set rename) := by
  intro p
  obtain ⟨r, q, new, hRun, hPassage⟩ := h (get p)
  have hOver : m'.isOver (r.mapError rename) = m.isOver r := by
    cases r with
    | ok a => rfl
    | error e => exact hEnds e
  refine ⟨r.mapError rename, set q p, new, fun events => ?_, ?_, fun a hOk => ?_⟩
  · have hWithin : (talk.within get set rename).run ⟨p, events⟩ =
        ((talk.run ⟨get p, events⟩).1.mapError rename,
          ⟨set (talk.run ⟨get p, events⟩).2.peer p, (talk.run ⟨get p, events⟩).2.events⟩) := rfl
    rw [hWithin, hRun]
  · rw [hOver, hSupply, hSet]
    exact hPassage.spent
  · cases r with
    | ok a => exact hPassage.least a rfl
    | error e => cases hOk

/-! ### Loops -/

theorem forM {body : α → Dialogue τ ε PUnit} (xs : List α) (h : ∀ a, Spends m 0 (body a)) :
    Spends m 0 (xs.forM body) := by
  induction xs with
  | nil => exact pure _
  | cons a xs ih => exact (h a).bind fun _ => ih

theorem rounds {round : σ → Dialogue τ ε (σ ⊕ α)} (h : ∀ x, Spends m 1 (round x))
    {exhausted : Dialogue τ ε α} {limit : Nat} {p : τ} (hLimit : m.supply p < limit) (x : σ) :
    SpendsAt m 1 (BusBench.rounds exhausted round limit x) p := by
  induction limit generalizing x p with
  | zero => exact absurd hLimit (Nat.not_lt_zero _)
  | succ limit ih =>
    have hRounds : SpendsAt m (1 + 0) (BusBench.rounds exhausted round (limit + 1) x) p := by
      refine (h x p).bind fun next p' hLess => ?_
      cases next with
      | inr a => exact pure a p'
      | inl x' =>
        have hRest : m.supply p' < limit := by omega
        obtain ⟨r, p'', new, hRun, hPassage⟩ := ih hRest x'
        exact ⟨r, p'', new, hRun, hPassage.mono (Nat.zero_le 1)⟩
    exact hRounds

/-- Rounds that take something go on for as long as there is something, and no longer. -/
theorem loop {round : σ → Dialogue τ ε (σ ⊕ α)} (h : ∀ x, Spends m 1 (round x))
    {exhausted : Dialogue τ ε α} {limit : τ → Nat} (hLimit : ∀ p, m.supply p < limit p) (x : σ) :
    Spends m 1 (do BusBench.rounds exhausted round (limit (← Dialogue.peer)) x) :=
  fun p => rounds h (hLimit p) x

/-- The rounds need no bound. -/
theorem loops {round : σ → Dialogue τ ε (σ ⊕ α)} (h : ∀ x, Spends m 1 (round x))
    {exhausted : Dialogue τ ε α} {limit : Nat} {x : σ} {s : Recorded τ}
    (hLimit : m.supply s.peer < limit) :
    Loops round x s ((BusBench.rounds exhausted round limit x).run s).1
      ((BusBench.rounds exhausted round limit x).run s).2 := by
  have hRound : ∀ {x x' : σ} {s s' : Recorded τ}, (round x).run s = (.ok (.inl x'), s') →
      m.supply s'.peer < m.supply s.peer := by
    intro x x' s s' hRun
    obtain ⟨r, p', new, hRun', hPassage⟩ := h x s.peer
    rw [hRun' s.events] at hRun
    cases hRun
    exact hPassage.supply_le
  exact loops_rounds hRound hLimit

end Spends

end Dialogue

/-! ## The link -/

namespace Link

/-- All failures are failures of the link. -/
def meter : Meter Link LinkError where
  supply link := link.incoming.length
  ends _ := true

variable {n : Nat}

/-! ### Output -/

/-- Attempts leave alone what is still to arrive. -/
theorem insist_incoming {serve : Link → Attempt × Link}
    (hServe : ∀ link, (serve link).2.incoming = link.incoming) (n : Nat) (link : Link) :
    (insist serve n link).2.incoming = link.incoming := by
  have hAttempt : ∀ link, (attempt serve link).2.incoming = link.incoming := by
    intro link
    unfold attempt
    split
    · rfl
    · exact hServe _
  induction n generalizing link with
  | zero => exact hAttempt link
  | succ n ih =>
    unfold insist
    split
    · next mid hMid =>
      have hFirst : mid.incoming = link.incoming := by
        rw [← hAttempt link, hMid]
      exact (ih mid).trans hFirst
    · exact hAttempt link

/-- Insisting for as long as the link is stalled comes to an answer. -/
theorem insist_answers {serve : Link → Attempt × Link}
    (hServe : ∀ link, (serve link).1 ≠ .notYet) {n : Nat} {link : Link}
    (hStalled : link.stalled ≤ n) : (insist serve n link).1 ≠ .notYet := by
  induction n generalizing link with
  | zero =>
    have hReady : link.stalled = 0 := Nat.le_zero.mp hStalled
    simp only [insist, attempt, hReady]
    exact hServe _
  | succ n ih =>
    unfold insist
    split
    · next mid hMid =>
      cases hCount : link.stalled with
      | zero =>
        simp only [attempt, hCount] at hMid
        exact absurd (congrArg Prod.fst hMid) (hServe _)
      | succ k =>
        simp only [attempt, hCount] at hMid
        cases hMid
        have hFewer : k ≤ n := by omega
        exact ih hFewer
    · next hOther =>
      intro hNotYet
      exact hOther (attempt serve link).2 (Prod.ext hNotYet rfl)

theorem serveByte_answers (link : Link) : link.serveByte.1 ≠ .notYet := by
  unfold serveByte
  split <;> nofun

theorem serveFlush_answers (link : Link) : link.serveFlush.1 ≠ .notYet := by
  unfold serveFlush
  split <;> nofun

theorem serveByte_incoming (link : Link) : link.serveByte.2.incoming = link.incoming := by
  unfold serveByte
  split <;> rfl

theorem serveFlush_incoming (link : Link) : link.serveFlush.2.incoming = link.incoming := by
  unfold serveFlush
  split <;> rfl

end Link

namespace Dialogue.Spends

open Link (meter)

/-- A single event of an output that succeeded. -/
theorem spent_event {event : PeerEvent} (hDraw : Event.isDraw (.peer event) = false)
    (hFailure : Event.isFailure (.peer event) = false) (k : Nat) :
    Spent false k k [.peer event] where
  balance := by
    rw [drawn, List.countP_cons_of_neg (by rw [hDraw]; exact Bool.false_ne_true)]
    exact Nat.zero_add k
  unbroken _ event hEvent := by
    rw [List.mem_singleton.mp hEvent]
    exact hFailure
  broken := nofun

/-- A single event with which something was taken. -/
theorem spent_draw {event : PeerEvent} (hDraw : Event.isDraw (.peer event) = true)
    (hFailure : Event.isFailure (.peer event) = false) (k : Nat) :
    Spent false (k + 1) k [.peer event] where
  balance := by
    rw [drawn, List.countP_cons_of_pos hDraw]
    exact Nat.add_comm 1 k
  unbroken _ other hOther := by
    rw [List.mem_singleton.mp hOther]
    exact hFailure
  broken := nofun

/-- A single event with which the link failed. -/
theorem spent_failure (reason : LinkError) (k : Nat) :
    Spent true k k [.peer (.failed reason)] where
  balance := Nat.zero_add k
  unbroken := nofun
  broken _ := ⟨[], reason, [], rfl, List.forall_mem_nil _, List.forall_mem_nil _⟩

theorem output {serve : Link → Attempt × Link}
    (hServe : ∀ link, (serve link).2.incoming = link.incoming) {event : PeerEvent}
    (hDraw : Event.isDraw (.peer event) = false)
    (hFailure : Event.isFailure (.peer event) = false) (reason : LinkError) :
    Spends meter 0 (Link.output serve event reason) := by
  intro link
  rcases hInsist : Link.insist serve link.stalled link with ⟨result, link'⟩
  have hIncoming : link'.incoming = link.incoming := by
    rw [← Link.insist_incoming hServe link.stalled link, hInsist]
  have hRun : ∀ events, (Link.output serve event reason).run ⟨link, events⟩ =
      (if result = .done then (do note event : Dialogue Link LinkError Unit)
        else do note (.failed reason); MonadExcept.throw reason).run ⟨link', events⟩ := by
    intro events
    unfold Link.output
    rw [peer_bind, hInsist]
    rfl
  have hSupply : meter.supply link = meter.supply link' := congrArg List.length hIncoming.symm
  by_cases hDone : result = .done
  · refine ⟨.ok (), link', [event], fun events => ?_, ?_, fun _ _ => Nat.zero_le _⟩
    · rw [hRun, if_pos hDone]
      rfl
    · rw [hSupply]
      exact spent_event hDraw hFailure _
  · refine ⟨.error reason, link', [.failed reason], fun events => ?_, ?_, nofun⟩
    · rw [hRun, if_neg hDone]
      rfl
    · rw [hSupply]
      exact spent_failure reason _

theorem send (b : UInt8) : Spends meter 0 (Link.send b) :=
  output Link.serveByte_incoming rfl rfl .sendBroken

theorem flush : Spends meter 0 Link.flush :=
  output Link.serveFlush_incoming rfl rfl .flushBroken

theorem sendAll (bytes : List UInt8) : Spends meter 0 (Link.sendAll bytes) :=
  forM bytes send

theorem sendAndFlush (bytes : List UInt8) :
    Spends meter 0 (do Link.sendAll bytes; Link.flush) :=
  (sendAll bytes).bind fun _ => flush

theorem reply (status : UInt8) : Spends meter 0 (Link.reply status) :=
  (send status).bind fun _ => flush

/-! ### Input -/

/-- Waiting takes the silence and the byte, or else everything. -/
theorem awaitByte_spent (incoming : List Arrival) :
    ∃ b? rest new, (∀ events, Link.awaitByte incoming events = (b?, rest, new ++ events)) ∧
      Spent b?.isNone incoming.length rest.length (new.map .peer) ∧
      (b?.isSome → 1 ≤ drawn (new.map .peer)) := by
  induction incoming with
  | nil => exact ⟨none, [], [.failed .endOfInput], fun _ => rfl, spent_failure _ _, nofun⟩
  | cons arrival incoming ih =>
    cases arrival with
    | byte b =>
      exact ⟨some b, incoming, [.received b], fun _ => rfl, spent_draw rfl rfl _,
        fun _ => Nat.le_refl 1⟩
    | pause =>
      obtain ⟨b?, rest, new, hAwait, hSpent, hLeast⟩ := ih
      have hIdle : Spent false (incoming.length + 1) incoming.length [.peer .idle] :=
        spent_draw rfl rfl _
      refine ⟨b?, rest, new ++ [.idle], fun events => ?_, ?_, fun hSome => ?_⟩
      · rw [List.append_assoc]
        exact hAwait (.idle :: events)
      · rw [List.map_append]
        exact hIdle.append hSpent
      · rw [List.map_append, drawn_append]
        exact Nat.le_trans (hLeast hSome) (Nat.le_add_right _ _)

theorem read : Spends meter 1 Link.read := by
  intro link
  obtain ⟨b?, rest, new, hAwait, hSpent, hLeast⟩ := awaitByte_spent link.incoming
  have hRun : ∀ events, Link.read.run ⟨link, events⟩ =
      (b?.elim (.error .endOfInput) .ok, ⟨{ link with incoming := rest }, new ++ events⟩) := by
    intro events
    unfold Link.read
    rw [get_bind]
    simp only [hAwait]
    cases b? <;> rfl
  refine ⟨_, _, new, hRun, ?_⟩
  cases b? with
  | none => exact ⟨hSpent, nofun⟩
  | some b => exact ⟨hSpent, fun _ _ => hLeast rfl⟩

theorem tryRead : Spends meter 1 Link.tryRead := by
  rintro ⟨incoming, sent, flushes, sendLimit, flushLimit, busy, stalled⟩
  rcases incoming with _ | ⟨b | _, rest⟩
  · exact ⟨_, _, [.failed .endOfInput], fun _ => rfl, spent_failure _ _, nofun⟩
  · exact ⟨.ok (some b), ⟨rest, sent, flushes, sendLimit, flushLimit, busy, stalled⟩,
      [.received b], fun _ => rfl, spent_draw rfl rfl _, fun _ _ => Nat.le_refl 1⟩
  · exact ⟨.ok none, ⟨rest, sent, flushes, sendLimit, flushLimit, busy, stalled⟩,
      [.idle], fun _ => rfl, spent_draw rfl rfl _, fun _ _ => Nat.le_refl 1⟩

theorem collect (count : Nat) (collected : List UInt8) :
    Spends meter 0 (Link.collect count collected) := by
  induction count generalizing collected with
  | zero => exact pure _
  | succ count ih => exact (read.mono (Nat.zero_le 1)).bind fun b => ih (b :: collected)

theorem readExact (count : Nat) : Spends meter 0 (Link.readExact count) :=
  collect count []

theorem readCount : Spends meter 0 Link.readCount :=
  (read.mono (Nat.zero_le 1)).bind fun _ => (read.mono (Nat.zero_le 1)).bind fun _ => pure _

theorem skip (count : Nat) : Spends meter 0 (Link.skip count) := by
  induction count with
  | zero => exact pure _
  | succ count ih => exact (read.mono (Nat.zero_le 1)).bind fun _ => ih

end Dialogue.Spends

end BusBench
