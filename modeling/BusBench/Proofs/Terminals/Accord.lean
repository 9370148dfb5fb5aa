import BusBench.Board.Claim
import BusBench.Prompt.MacroTable
import BusBench.Proofs.Link.Dialogues
import BusBench.Proofs.World.Monitors

/-!
# A program on two terminals

A program that knows nothing of its terminal but what every terminal can do comes to the same on two
terminals that are in accord: they give it the same answers, and what they were told stays related.
Some failures end the talk: once such a failure is known, a program may still work on its board, but
it shows nothing and asks for nothing any more. An accord may also be lost by something that one of
the terminals is asked for; nothing is said of programs in which that happens.

* `Accord`: what two terminals have to do with each other.
* `Dialogue.Accords`, `Act.Accords`: both programs come to the same.
* `Accord.Bond`, `Accord.Even`, `Accord.Poll`: the terminals answer alike.
* `Accord.Keyed`, `Accord.Keys`: loops that wait for keys.
* `Accords.bind`, `Accords.ask`, `Accords.dialogue`: the parts of programs.
* `Takes`, `UsesUp`, `Accords.rounds_of_lt`: loops that are bounded by different supplies.
-/

namespace BusBench

/-! ## Accords -/

/-- Whether the talk is over after a result, by what is said of failures and of answers. -/
def overAfter {α : Type} (ends : Error → Bool) (said : α → Bool) : Except Error α → Bool
  | .ok a => said a
  | .error e => ends e

/-- A peer, and all that has happened. -/
abbrev Told (τ : Type) := τ × List Event

structure Accord (τ τ' : Type) where
  /-- What the peers and the events have to do with each other, while there is talk and when it is
  over. -/
  tie (ended : Bool) : Told τ → Told τ' → Prop
  /-- The failures that end the talk. -/
  ends : Error → Bool
  /-- When the accord is lost, as the first of the peers knows. -/
  lost : τ → Prop := fun _ => False
  ends_cases : ∀ {e}, ends e = true → e = .modeSwitch ∨ e = .link
  /-- What passes between a program and its board does not matter. -/
  tie_cons : ∀ {ended told told'} {event : Event}, event.isPeer = false → tie ended told told' →
    tie ended (told.1, event :: told.2) (told'.1, event :: told'.2)

namespace Accord

variable {τ τ' ω β α : Type} (A : Accord τ τ')

theorem ends_eq_false {e : Error} (hSwitch : e ≠ .modeSwitch) (hLink : e ≠ .link) :
    A.ends e = false :=
  Bool.eq_false_iff.mpr fun hEnds => (A.ends_cases hEnds).elim hSwitch hLink

/-- Whether the talk is over after a result. -/
abbrev isOver (said : α → Bool) : Except Error α → Bool :=
  overAfter A.ends said

/-- The parts of two dialogues within worlds that have seen other events before. -/
def Talks (base base' : List Event) (ended : Bool) (r : Recorded τ) (r' : Recorded τ') : Prop :=
  A.tie ended (r.peer, r.events.map .peer ++ base) (r'.peer, r'.events.map .peer ++ base')

/-- Two worlds that differ in nothing but what the terminals make of it. -/
structure Worlds (ended : Bool) (w : World ω β τ) (w' : World ω β τ') : Prop where
  own : w.own = w'.own
  board : w.board = w'.board
  told : A.tie ended (w.peer, w.events) (w'.peer, w'.events)

end Accord

/-! ## Programs with a state -/

section

variable {σ σ' α γ : Type} {ends : Error → Bool} {T : Bool → σ → σ' → Prop} {lost : σ → Prop}
  {ended : Bool} {m : ExceptT Error (StateM σ) α} {m' : ExceptT Error (StateM σ') α}
  {said : α → Bool}

/-- From states related by `T`, both programs come to the same result and to states related by `T`,
where the result decides whether the talk is over. This is said of runs in which nothing is lost;
what is lost stays so. -/
structure Accords (T : Bool → σ → σ' → Prop) (lost : σ → Prop) (ends : Error → Bool) (ended : Bool)
    (m : ExceptT Error (StateM σ) α) (m' : ExceptT Error (StateM σ') α) (said : α → Bool) :
    Prop where
  loses : ∀ s, lost s → lost (m.run s).2
  agrees : ∀ s s', ¬ lost (m.run s).2 → T ended s s' → (m.run s).1 = (m'.run s').1 ∧
    T (overAfter ends said (m.run s).1) (m.run s).2 (m'.run s').2

namespace Accords

theorem pure {a : α} (h : said a = ended) :
    Accords T lost ends ended (Pure.pure a : ExceptT Error (StateM σ) α) (Pure.pure a) said := by
  refine ⟨fun _ => id, fun s s' _ hStates => ⟨rfl, ?_⟩⟩
  change T (said a) s s'
  rw [h]
  exact hStates

theorem throw {e : Error} (h : ends e = ended) :
    Accords T lost ends ended (MonadExcept.throw e : ExceptT Error (StateM σ) α)
      (MonadExcept.throw e) said := by
  refine ⟨fun _ => id, fun s s' _ hStates => ⟨rfl, ?_⟩⟩
  change T (ends e) s s'
  rw [h]
  exact hStates

/-- What is lost in the first part of a program is lost in the whole. -/
theorem lost_bind {next : α → ExceptT Error (StateM σ) γ}
    (hNext : ∀ a s, lost s → lost ((next a).run s).2) {s : σ} (h : lost (m.run s).2) :
    lost ((m >>= next).run s).2 := by
  rw [run_bind]
  generalize m.run s = done at h ⊢
  obtain ⟨e | a, t⟩ := done
  · exact h
  · exact hNext a t h

theorem bind {next : α → ExceptT Error (StateM σ) γ} {next' : α → ExceptT Error (StateM σ') γ}
    {said' : γ → Bool} (h : Accords T lost ends ended m m' said)
    (hNext : ∀ a, Accords T lost ends (said a) (next a) (next' a) said') :
    Accords T lost ends ended (m >>= next) (m' >>= next') said' := by
  have hLost : ∀ s, lost (m.run s).2 → lost ((m >>= next).run s).2 :=
    fun s => lost_bind fun a => (hNext a).loses
  refine ⟨fun s hStart => hLost s (h.loses s hStart), fun s s' hKept hStates => ?_⟩
  obtain ⟨hResult, hFirst⟩ := h.agrees s s' (fun hGone => hKept (hLost s hGone)) hStates
  rw [run_bind] at hKept ⊢
  rw [run_bind]
  generalize m.run s = done, m'.run s' = done' at hResult hFirst hKept ⊢
  obtain ⟨r, t⟩ := done
  obtain ⟨r', t'⟩ := done'
  obtain rfl : r = r' := hResult
  cases r with
  | ok a => exact (hNext a).agrees t t' hKept hFirst
  | error e => exact ⟨rfl, hFirst⟩

/-- Where there is nothing to lose. -/
theorem of_agrees (h : ∀ s s', T ended s s' → (m.run s).1 = (m'.run s').1 ∧
    T (overAfter ends said (m.run s).1) (m.run s).2 (m'.run s').2)
    (hLost : ∀ s, lost (m.run s).2 = lost s) : Accords T lost ends ended m m' said :=
  ⟨fun s hStart => (hLost s).mpr hStart, fun s s' _ => h s s'⟩

end Accords

/-! ### Loops that use up a supply -/

section Supply

variable {ψ δ : Type} {T : Nat → Bool → σ → σ' → Prop} {k : Nat}

/-- From states that are related as long as there is enough in them for `k` rounds, both programs
come to the same. Unless they fail they have used up some of it, and `P` holds of their answer. -/
structure Takes (T : Nat → Bool → σ → σ' → Prop) (lost : σ → Prop) (ends : Error → Bool)
    (P : δ → Prop) (k : Nat) (first : ExceptT Error (StateM σ) δ)
    (first' : ExceptT Error (StateM σ') δ) : Prop where
  loses : ∀ s, lost s → lost (first.run s).2
  agrees : ∀ s s', ¬ lost (first.run s).2 → T k false s s' → (first.run s).1 = (first'.run s').1 ∧
    ∃ j ≤ k, T j false (first.run s).2 (first'.run s').2 ∧
      ((∃ e, (first.run s).1 = .error e ∧ ends e = false) ∨
        ∃ a, (first.run s).1 = .ok a ∧ P a ∧ j < k)

/-- From such states both rounds come to the same. If another round is to follow, they have used up
some of what there is. -/
structure UsesUp (T : Nat → Bool → σ → σ' → Prop) (lost : σ → Prop) (ends : Error → Bool) (k : Nat)
    (round : ExceptT Error (StateM σ) (ψ ⊕ α)) (round' : ExceptT Error (StateM σ') (ψ ⊕ α)) :
    Prop where
  loses : ∀ s, lost s → lost (round.run s).2
  agrees : ∀ s s', ¬ lost (round.run s).2 → T k false s s' → (round.run s).1 = (round'.run s').1 ∧
    ∃ j ≤ k, T j (overAfter ends (fun _ => false) (round.run s).1) (round.run s).2
        (round'.run s').2 ∧
      ∀ next, (round.run s).1 = .ok (.inl next) → j < k

theorem UsesUp.bind {first : ExceptT Error (StateM σ) δ} {first' : ExceptT Error (StateM σ') δ}
    {next : δ → ExceptT Error (StateM σ) (ψ ⊕ α)} {next' : δ → ExceptT Error (StateM σ') (ψ ⊕ α)}
    {P : δ → Prop} (hFirst : Takes T lost ends P k first first')
    (hLoses : ∀ a s, lost s → lost ((next a).run s).2)
    (hNext : ∀ j a, P a → Accords (T j) lost ends false (next a) (next' a) fun _ => false) :
    UsesUp T lost ends k (first >>= next) (first' >>= next') := by
  have hLost : ∀ s, lost (first.run s).2 → lost ((first >>= next).run s).2 :=
    fun s => Accords.lost_bind hLoses
  refine ⟨fun s hStart => hLost s (hFirst.loses s hStart), fun s s' hKept hStates => ?_⟩
  obtain ⟨hResult, j, hLess, hAfter, hUsed⟩ :=
    hFirst.agrees s s' (fun hGone => hKept (hLost s hGone)) hStates
  rw [run_bind] at hKept ⊢
  rw [run_bind]
  generalize first.run s = done, first'.run s' = done' at hResult hAfter hUsed hKept ⊢
  obtain ⟨r, t⟩ := done
  obtain ⟨r', t'⟩ := done'
  obtain rfl : r = r' := hResult
  rcases hUsed with ⟨e, rfl, hEnds⟩ | ⟨a, rfl, hWhat, hFewer⟩
  · refine ⟨rfl, j, hLess, ?_, nofun⟩
    change T j (ends e) t t'
    rw [hEnds]
    exact hAfter
  · obtain ⟨hSame, hLast⟩ := (hNext j a hWhat).agrees t t' hKept hAfter
    exact ⟨hSame, j, hLess, hLast, fun _ _ => hFewer⟩

/-- What is lost in a round stays so in the rest of the loop. -/
theorem Accords.lost_rounds {exhausted : ExceptT Error (StateM σ) α}
    {round : ψ → ExceptT Error (StateM σ) (ψ ⊕ α)}
    (hExhausted : ∀ s, lost s → lost (exhausted.run s).2)
    (hRound : ∀ x s, lost s → lost ((round x).run s).2) (n : Nat) (x : ψ) (s : σ) (h : lost s) :
    lost ((rounds exhausted round n x).run s).2 := by
  induction n generalizing x s with
  | zero => exact hExhausted s h
  | succ n ih =>
    refine lost_bind (fun next t hLost => ?_) (hRound x s h)
    cases next with
    | inl x' => exact ih x' t hLost
    | inr a => exact hLost

/-- A loop of rounds that all lose something loses it. -/
theorem Accords.lost_rounds_succ {exhausted : ExceptT Error (StateM σ) α}
    {round : ψ → ExceptT Error (StateM σ) (ψ ⊕ α)}
    (hExhausted : ∀ s, lost s → lost (exhausted.run s).2)
    (hRound : ∀ x s, lost ((round x).run s).2) (n : Nat) (x : ψ) (s : σ) :
    lost ((rounds exhausted round (n + 1) x).run s).2 := by
  refine lost_bind (fun next t hLost => ?_) (hRound x s)
  cases next with
  | inl x' => exact lost_rounds hExhausted (fun x s _ => hRound x s) n x' t hLost
  | inr a => exact hLost

/-- Loops that use up a supply come to the same, whatever bounds them. -/
theorem Accords.rounds_of_lt {exhausted : ExceptT Error (StateM σ) α}
    {exhausted' : ExceptT Error (StateM σ') α} {round : ψ → ExceptT Error (StateM σ) (ψ ⊕ α)}
    {round' : ψ → ExceptT Error (StateM σ') (ψ ⊕ α)}
    (hExhausted : ∀ s, lost s → lost (exhausted.run s).2)
    (hMono : ∀ {j k ended s s'}, j ≤ k → T j ended s s' → T k ended s s')
    (hRound : ∀ k x, UsesUp T lost ends k (round x) (round' x)) {n n' : Nat} (hLimit : k < n)
    (hLimit' : k < n') (x : ψ) :
    Accords (T k) lost ends false (rounds exhausted round n x) (rounds exhausted' round' n' x)
      fun _ => false := by
  have hLoop : ∀ n x s, lost s → lost ((rounds exhausted round n x).run s).2 :=
    lost_rounds hExhausted fun x => (hRound 0 x).loses
  refine ⟨hLoop n x, ?_⟩
  -- By induction on the one bound; what is left for the other is more than the supply as well.
  induction n generalizing k n' x with
  | zero => exact absurd hLimit (Nat.not_lt_zero _)
  | succ n ih =>
    intro s s' hKept hStates
    obtain ⟨n', rfl⟩ := Nat.exists_eq_add_one_of_ne_zero (Nat.ne_zero_of_lt hLimit')
    have hHere : ¬ lost ((round x).run s).2 := by
      refine fun hGone => hKept (lost_bind (fun next t hLost => ?_) hGone)
      cases next with
      | inl x' => exact hLoop n x' t hLost
      | inr a => exact hLost
    obtain ⟨hResult, j, hLess, hAfter, hNext⟩ := (hRound k x).agrees s s' hHere hStates
    rw [rounds_succ_run] at hKept ⊢
    rw [rounds_succ_run]
    generalize (round x).run s = done, (round' x).run s' = done' at hResult hAfter hNext hKept ⊢
    obtain ⟨r, t⟩ := done
    obtain ⟨r', t'⟩ := done'
    obtain rfl : r = r' := hResult
    rcases r with e | x' | a
    · exact ⟨rfl, hMono hLess hAfter⟩
    · have hFewer : j < k := hNext x' rfl
      have hBound : j < n := by omega
      have hBound' : j < n' := by omega
      obtain ⟨hSame, hLast⟩ := ih hBound hBound' x' t t' hKept hAfter
      exact ⟨hSame, hMono hLess hLast⟩
    · exact ⟨rfl, hMono hLess hAfter⟩

end Supply

end

/-! ## Dialogues -/

namespace Dialogue

variable {τ τ' α γ σ : Type} {A : Accord τ τ'} {ended : Bool}

/-- Both dialogues come to the same. -/
def Accords (A : Accord τ τ') (ended : Bool) (talk : Dialogue τ Error α)
    (talk' : Dialogue τ' Error α) (said : α → Bool) : Prop :=
  ∀ base base', BusBench.Accords (A.Talks base base') (A.lost ·.peer) A.ends ended talk talk' said

/-- Both dialogues come to the same, and the talk goes on, unless it ends with a failure. -/
abbrev Keeps (A : Accord τ τ') (talk : Dialogue τ Error α) (talk' : Dialogue τ' Error α) : Prop :=
  Accords A false talk talk' fun _ => false

namespace Accords

theorem pure {a : α} {said : α → Bool} (h : said a = ended) :
    Accords A ended (Pure.pure a : Dialogue τ Error α) (Pure.pure a) said :=
  fun _ _ => .pure h

theorem throw {e : Error} {said : α → Bool} (h : A.ends e = ended) :
    Accords A ended (MonadExcept.throw e : Dialogue τ Error α) (MonadExcept.throw e) said :=
  fun _ _ => .throw h

theorem bind {talk : Dialogue τ Error α} {talk' : Dialogue τ' Error α}
    {next : α → Dialogue τ Error γ} {next' : α → Dialogue τ' Error γ} {said : α → Bool}
    {said' : γ → Bool} (h : Accords A ended talk talk' said)
    (hNext : ∀ a, Accords A (said a) (next a) (next' a) said') :
    Accords A ended (talk >>= next) (talk' >>= next') said' :=
  fun base base' => .bind (h base base') fun a => hNext a base base'

/-- Where only peers matter, and what an observer makes of the events, the dialogues are held on
their own. -/
theorem of_ends {S : Type} {o : Observer S} {Q : Bool → τ → τ' → S → S → Prop}
    {talk : Dialogue τ Error α} {talk' : Dialogue τ' Error α} {said : α → Bool}
    (hLoses : ∀ r : Recorded τ, A.lost r.peer → A.lost (talk.run r).2.peer)
    (hTie : ∀ {ended told told'}, A.tie ended told told' ↔
      Q ended told.1 told'.1 (o.of told.2) (o.of told'.2))
    (h : ∀ p p' s s', Q ended p p' s s' → Ends o talk p s fun r q t =>
      Ends o talk' p' s' fun r' q' t' => ¬ A.lost q → r = r' ∧ Q (A.isOver said r) q q' t t') :
    Accords A ended talk talk' said := by
  refine fun base base' => ⟨hLoses, fun r r' hKept hTold => ?_⟩
  have hPeers := hTie.mp hTold
  rw [o.of_append_peer, o.of_append_peer] at hPeers
  obtain ⟨hResult, hAfter⟩ :=
    h r.peer r'.peer _ _ hPeers r (o.of base) rfl rfl r' (o.of base') rfl rfl hKept
  refine ⟨hResult, hTie.mpr ?_⟩
  rw [o.of_append_peer, o.of_append_peer]
  exact hAfter

theorem forM {body : α → Dialogue τ Error PUnit} {body' : α → Dialogue τ' Error PUnit} (xs : List α)
    (h : ∀ x, Keeps A (body x) (body' x)) : Keeps A (xs.forM body) (xs.forM body') := by
  induction xs with
  | nil => exact .pure rfl
  | cons x xs ih => exact .bind (h x) fun _ => ih

theorem rounds {exhausted : Dialogue τ Error α} {exhausted' : Dialogue τ' Error α}
    {round : σ → Dialogue τ Error (σ ⊕ α)} {round' : σ → Dialogue τ' Error (σ ⊕ α)}
    (hExhausted : Keeps A exhausted exhausted') (h : ∀ x, Keeps A (round x) (round' x))
    (limit : Nat) (x : σ) :
    Keeps A (BusBench.rounds exhausted round limit x)
      (BusBench.rounds exhausted' round' limit x) := by
  induction limit generalizing x with
  | zero => exact hExhausted
  | succ limit ih =>
    refine .bind (h x) fun next => ?_
    cases next with
    | inl x' => exact ih x'
    | inr a => exact .pure rfl

end Accords

end Dialogue

/-! ## Programs -/

namespace Act

variable {τ τ' ω ψ β α γ σ : Type} {A : Accord τ τ'} {ended : Bool}

/-- On every board both programs come to the same. -/
def Accords (A : Accord τ τ') (ended : Bool) (program : Act ω β τ Error α)
    (program' : Act ω β τ' Error α) (said : α → Bool) : Prop :=
  ∀ board, BusBench.Accords A.Worlds (A.lost ·.peer) A.ends ended (program board)
    (program' board) said

/-- Both programs come to the same, and the talk goes on, unless it ends with a failure. -/
abbrev Keeps (A : Accord τ τ') (program : Act ω β τ Error α) (program' : Act ω β τ' Error α) :
    Prop :=
  Accords A false program program' fun _ => false

namespace Accords

variable {program : Act ω β τ Error α} {program' : Act ω β τ' Error α} {said : α → Bool}

theorem pure {a : α} (h : said a = ended) :
    Accords A ended (Pure.pure a : Act ω β τ Error α) (Pure.pure a) said :=
  fun _ => .pure h

theorem throw {e : Error} (h : A.ends e = ended) :
    Accords A ended (MonadExcept.throw e : Act ω β τ Error α) (MonadExcept.throw e) said :=
  fun _ => .throw h

theorem bind {next : α → Act ω β τ Error γ} {next' : α → Act ω β τ' Error γ} {said' : γ → Bool}
    (h : Accords A ended program program' said)
    (hNext : ∀ a, Accords A (said a) (next a) (next' a) said') :
    Accords A ended (program >>= next) (program' >>= next') said' :=
  fun board => .bind (h board) fun a => hNext a board

theorem ite {condition : Prop} [Decidable condition] {other : Act ω β τ Error α}
    {other' : Act ω β τ' Error α} (hYes : Accords A ended program program' said)
    (hNo : Accords A ended other other' said) :
    Accords A ended (if condition then program else other)
      (if condition then program' else other') said := by
  split
  · exact hYes
  · exact hNo

/-- The boards are in the same state, so they answer alike. -/
theorem ask (request : Request) :
    Accords A ended (Act.ask request : Act ω β τ Error request.Answer) (Act.ask request)
      fun _ => ended := by
  refine fun board => .of_agrees ?_ fun _ => rfl
  rintro ⟨own, s, peer, events⟩ ⟨own', s', peer', events'⟩ ⟨hOwn, hBoard, hTold⟩
  obtain rfl : s = s' := hBoard
  exact ⟨rfl, hOwn, rfl, A.tie_cons rfl hTold⟩

theorem tell (request : Request) :
    Accords A ended (Act.tell request : Act ω β τ Error Unit) (Act.tell request) fun _ => ended :=
  .bind (ask request) fun _ => .pure rfl

theorem reach (point : Point) :
    Accords A ended (Act.reach point : Act ω β τ Error Unit) (Act.reach point) fun _ => ended :=
  fun _ => .of_agrees (fun _ _ hWorlds => ⟨rfl, hWorlds.own, hWorlds.board,
    A.tie_cons rfl hWorlds.told⟩) fun _ => rfl

theorem dialogue {talk : Dialogue τ Error α} {talk' : Dialogue τ' Error α}
    (h : Dialogue.Accords A ended talk talk' said) :
    Accords A ended (Act.dialogue talk : Act ω β τ Error α) (Act.dialogue talk') said := by
  refine fun board => ⟨fun w => (h [] []).loses ⟨w.peer, []⟩, fun w w' hKept hWorlds => ?_⟩
  obtain ⟨hResult, hTold⟩ :=
    (h w.events w'.events).agrees ⟨w.peer, []⟩ ⟨w'.peer, []⟩ hKept hWorlds.told
  exact ⟨hResult, hWorlds.own, hWorlds.board, hTold⟩

/-- A failure is an answer, after which the talk may be over. -/
theorem attempt (h : Accords A ended program program' said) :
    Accords A ended (Act.attempt program : Act ω β τ Error (Except Error α)) (Act.attempt program')
      (A.isOver said) := by
  refine fun board => ⟨(h board).loses, fun w w' hKept hWorlds => ?_⟩
  obtain ⟨hResult, hAfter⟩ := (h board).agrees w w' hKept hWorlds
  exact ⟨congrArg Except.ok hResult, hAfter⟩

theorem ofExcept {result : Except Error α} (h : A.isOver said result = ended) :
    Accords A ended (Act.ofExcept result : Act ω β τ Error α) (Act.ofExcept result) said := by
  cases result with
  | ok a => exact pure h
  | error e => exact throw h

theorem granted (answer : Except Unavailable α) :
    Keeps A (Act.ofExcept (answer.mapError .unavailable) : Act ω β τ Error α)
      (Act.ofExcept (answer.mapError .unavailable)) := by
  refine ofExcept ?_
  cases answer with
  | ok _ => rfl
  | error reason => exact A.ends_eq_false nofun nofun

theorem claimed (answer : Except Unavailable Unit) :
    Keeps A (Act.claimed answer : Act ω β τ Error Unit) (Act.claimed answer) :=
  granted answer

theorem done (answer : Except BusError α) :
    Keeps A (Act.done answer : Act ω β τ Error α) (Act.done answer) := by
  refine ofExcept ?_
  cases answer with
  | ok _ => rfl
  | error reason => exact A.ends_eq_false nofun nofun

theorem own : Accords A ended (Act.own : Act ω β τ Error ω) Act.own fun _ => ended :=
  fun _ => .of_agrees (fun _ _ hWorlds => ⟨congrArg Except.ok hWorlds.own, hWorlds⟩) fun _ => rfl

theorem modifyOwn (change : ω → ω) :
    Accords A ended (Act.modifyOwn change : Act ω β τ Error Unit) (Act.modifyOwn change)
      fun _ => ended :=
  fun _ => .of_agrees (fun _ _ hWorlds => ⟨rfl, congrArg change hWorlds.own, hWorlds.board,
    hWorlds.told⟩) fun _ => rfl

theorem board :
    Accords A ended (MonadReader.read : Act ω β τ Error (Board β)) MonadReader.read
      fun _ => ended :=
  fun _ => .of_agrees (fun _ _ hWorlds => ⟨rfl, hWorlds⟩) fun _ => rfl

theorem withOwn {own : ψ} {inner : Act ψ β τ Error α} {inner' : Act ψ β τ' Error α}
    (h : Accords A ended inner inner' said) :
    Accords A ended (Act.withOwn own inner : Act ω β τ Error (Except Error α × ψ))
      (Act.withOwn own inner') fun r => A.isOver said r.1 := by
  refine fun board => ⟨fun w => (h board).loses ⟨own, w.board, w.peer, w.events⟩,
    fun w w' hKept hWorlds => ?_⟩
  obtain ⟨hResult, hAfter⟩ := (h board).agrees ⟨own, w.board, w.peer, w.events⟩
    ⟨own, w'.board, w'.peer, w'.events⟩ hKept ⟨rfl, hWorlds.board, hWorlds.told⟩
  exact ⟨congrArg Except.ok (Prod.ext hResult hAfter.own), hWorlds.own, hAfter.board, hAfter.told⟩

/-! ### Loops -/

theorem forM {body : α → Act ω β τ Error PUnit} {body' : α → Act ω β τ' Error PUnit} (xs : List α)
    (h : ∀ x, Keeps A (body x) (body' x)) : Keeps A (xs.forM body) (xs.forM body') := by
  induction xs with
  | nil => exact pure rfl
  | cons x xs ih => exact bind (h x) fun _ => ih

theorem rounds {exhausted : Act ω β τ Error α} {exhausted' : Act ω β τ' Error α}
    {round : σ → Act ω β τ Error (σ ⊕ α)} {round' : σ → Act ω β τ' Error (σ ⊕ α)}
    (hExhausted : Keeps A exhausted exhausted') (h : ∀ x, Keeps A (round x) (round' x))
    (limit : Nat) (x : σ) :
    Keeps A (BusBench.rounds exhausted round limit x)
      (BusBench.rounds exhausted' round' limit x) := by
  induction limit generalizing x with
  | zero => exact hExhausted
  | succ limit ih =>
    refine bind (h x) fun next => ?_
    cases next with
    | inl x' => exact ih x'
    | inr a => exact pure rfl

/-! ### Buses -/

theorem takeUart : Keeps A (Act.takeUart : Act ω β τ Error _) Act.takeUart :=
  .bind (.ask _) fun _ => .ite (.pure rfl) (.bind (.ask _) fun _ => .pure rfl)

theorem readSpi (backing : Backing) (count : Nat) :
    Keeps A (Act.readSpi backing count : Act ω β τ Error _) (Act.readSpi backing count) :=
  .bind (.ask _) fun _ => .pure rfl

theorem writeSpi (backing : Backing) (bytes : List UInt8) :
    Keeps A (Act.writeSpi backing bytes : Act ω β τ Error _) (Act.writeSpi backing bytes) :=
  .bind (.ask _) fun _ => .pure rfl

theorem scanI2c (backing : Backing) :
    Keeps A (Act.scanI2c backing : Act ω β τ Error _) (Act.scanI2c backing) := by
  have hFilter : ∀ (xs found : List UInt8) (test : UInt8 → Act ω β τ Error Bool)
      (test' : UInt8 → Act ω β τ' Error Bool), (∀ x, Keeps A (test x) (test' x)) →
      Keeps A (xs.filterAuxM test found) (xs.filterAuxM test' found) := by
    intro xs found test test' hTest
    induction xs generalizing found with
    | nil => exact .pure rfl
    | cons x xs ih => exact .bind (hTest x) fun _ => ih _
  exact .bind (hFilter _ _ _ _ fun _ => .bind (.ask _) fun _ => .pure rfl) fun _ => .pure rfl

theorem claimI2c (clock data : Pin) (hz : Nat) :
    Keeps A (Act.claimI2c clock data hz : Act ω β τ Error _) (Act.claimI2c clock data hz) := by
  refine .bind (.ask _) fun answer => ?_
  cases answer with
  | ok _ => exact .pure rfl
  | error _ => exact .bind (.ask _) fun _ => .pure rfl

theorem claimSpi : Keeps A (Act.claimSpi : Act ω β τ Error _) Act.claimSpi := by
  refine .bind (.ask _) fun answer => ?_
  cases answer with
  | ok _ => exact .pure rfl
  | error _ => exact .bind (.ask _) fun _ => .pure rfl

end Accords

end Act

/-! ## Terminals -/

namespace Accord

variable {τ τ' ω β α σ : Type} [Terminal τ] [Terminal τ'] {A : Accord τ τ'}

/-- Whether the talk is over with a line. -/
def endsWith (A : Accord τ τ') : Line → Bool
  | .text _ => false
  | .modeSwitch => A.ends .modeSwitch

/-- The terminals take the same texts, and give the same lines. -/
structure Bond (A : Accord τ τ') : Prop where
  write : ∀ text, Dialogue.Keeps A (Terminal.write text) (Terminal.write text)
  writeBytes : ∀ bytes, Dialogue.Keeps A (Terminal.writeBytes bytes) (Terminal.writeBytes bytes)
  readLine : ∀ question,
    Dialogue.Accords A false (Terminal.readLine question) (Terminal.readLine question) A.endsWith
  select : ∀ message options default, Dialogue.Keeps A (Terminal.select message options default)
    (Terminal.select message options default)

/-- The terminals give equally many answers. -/
structure Even (A : Accord τ τ') : Prop where
  remaining : ∀ {told told'}, A.tie false told told' →
    Terminal.remaining told.1 = Terminal.remaining told'.1
  goesOn : A.ends .link = false

/-- Besides, they give the same keys. -/
structure Poll (A : Accord τ τ') : Prop extends Even A where
  pollKey : Dialogue.Keeps A Terminal.pollKey Terminal.pollKey

theorem Even.dialogue_askUntil (h : A.Even) {round : σ → Dialogue τ Error (σ ⊕ α)}
    {round' : σ → Dialogue τ' Error (σ ⊕ α)} (hRound : ∀ x, Dialogue.Keeps A (round x) (round' x))
    (x : σ) : Dialogue.Keeps A (Terminal.askUntil round x) (Terminal.askUntil round' x) := by
  intro base base'
  have hRounds : ∀ limit, BusBench.Accords (A.Talks base base') (A.lost ·.peer) A.ends false
      (rounds (throw .link) round limit x) (rounds (throw .link) round' limit x) fun _ => false :=
    fun limit => Dialogue.Accords.rounds (.throw h.goesOn) hRound limit x base base'
  refine ⟨fun r => (hRounds (Terminal.remaining r.peer + 1)).loses r, fun r r' hKept hTold => ?_⟩
  have hRemaining : Terminal.remaining r.peer = Terminal.remaining r'.peer := h.remaining hTold
  have hRun : (Terminal.askUntil round x).run r =
      (rounds (throw .link) round (Terminal.remaining r'.peer + 1) x).run r := by
    rw [← hRemaining]
    rfl
  rw [hRun] at hKept ⊢
  exact (hRounds _).agrees r r' hKept hTold

theorem Even.askUntil (h : A.Even) {round : σ → Act ω β τ Error (σ ⊕ α)}
    {round' : σ → Act ω β τ' Error (σ ⊕ α)} (hRound : ∀ x, Act.Keeps A (round x) (round' x))
    (x : σ) : Act.Keeps A (Act.askUntil round x) (Act.askUntil round' x) := by
  intro board
  have hRounds : ∀ limit, BusBench.Accords A.Worlds (A.lost ·.peer) A.ends false
      (rounds (throw .link) round limit x board) (rounds (throw .link) round' limit x board)
      fun _ => false :=
    fun limit => Act.Accords.rounds (.throw h.goesOn) hRound limit x board
  refine ⟨fun w => (hRounds (Terminal.remaining w.peer + 1)).loses w, fun w w' hKept hWorlds => ?_⟩
  have hRemaining : Terminal.remaining w.peer = Terminal.remaining w'.peer :=
    h.remaining hWorlds.told
  have hRun : ((Act.askUntil round x) board).run w =
      (rounds (throw .link) round (Terminal.remaining w'.peer + 1) x board).run w := by
    rw [← hRemaining]
    rfl
  rw [hRun] at hKept ⊢
  exact (hRounds _).agrees w w' hKept hWorlds

/-- Both rounds begin with a key, and what follows it comes to the same on all terminals that give
the same lines. -/
def Keyed (round : σ → Act ω β τ Error (σ ⊕ α)) (round' : σ → Act ω β τ' Error (σ ⊕ α)) : Prop :=
  ∃ (next : σ → Option UInt8 → Act ω β τ Error (σ ⊕ α))
    (next' : σ → Option UInt8 → Act ω β τ' Error (σ ⊕ α)),
    (∀ x, round x = Act.dialogue Terminal.pollKey >>= next x) ∧
    (∀ x, round' x = Act.dialogue Terminal.pollKey >>= next' x) ∧
    ∀ {A : Accord τ τ'}, A.Bond → ∀ x key?, Act.Keeps A (next x key?) (next' x key?)

/-- Loops that wait for keys come to the same. -/
structure Keys (A : Accord τ τ') : Prop where
  askUntil : ∀ {ω β σ α : Type} {round : σ → Act ω β τ Error (σ ⊕ α)}
    {round' : σ → Act ω β τ' Error (σ ⊕ α)}, Keyed round round' → ∀ x,
      Act.Keeps A (Act.askUntil round x) (Act.askUntil round' x)

theorem Poll.keys (h : A.Poll) (hBond : A.Bond) : A.Keys where
  askUntil hKeyed := by
    obtain ⟨next, next', hRound, hRound', hNext⟩ := hKeyed
    refine h.askUntil fun x => ?_
    rw [hRound, hRound']
    exact .bind (.dialogue h.pollKey) (hNext hBond x)

/-- Where the accord is lost with any key that is asked for, there is nothing to be said of keys. -/
theorem Bond.keys_of_lost (h : A.Bond) (hPoll : ∀ r : Recorded τ,
    A.lost ((Terminal.pollKey : Dialogue τ Error (Option UInt8)).run r).2.peer) : A.Keys where
  askUntil {ω β σ α round round'} hKeyed x := by
    obtain ⟨next, next', hRound, -, hNext⟩ := hKeyed
    have hFirst : ∀ (board : Board β) x (w : World ω β τ),
        A.lost ((round x board).run w).2.peer := by
      intro board x w
      have hPolled : A.lost
          (((Act.dialogue Terminal.pollKey : Act ω β τ Error _) board).run w).2.peer :=
        hPoll ⟨w.peer, []⟩
      rw [hRound]
      exact BusBench.Accords.lost_bind (fun key? => (hNext h x key? board).loses) hPolled
    have hExhausted : ∀ (board : Board β) (w : World ω β τ), A.lost w.peer →
        A.lost (((throw .link : Act ω β τ Error α) board).run w).2.peer := fun _ _ => id
    have hLoop : ∀ (board : Board β) (w : World ω β τ),
        A.lost ((Act.askUntil round x board).run w).2.peer := by
      intro board w
      have hRun : (Act.askUntil round x board).run w =
          (rounds (throw .link) round (Terminal.remaining w.peer + 1) x board).run w := rfl
      rw [hRun, Act.rounds_apply]
      exact BusBench.Accords.lost_rounds_succ (hExhausted board) (hFirst board) _ x w
    exact fun board => ⟨fun w _ => hLoop board w, fun w _ hKept => absurd (hLoop board w) hKept⟩

theorem writeOptions_keeps
    (hWrite : ∀ text, Dialogue.Keeps A (Terminal.write text) (Terminal.write text)) (n : Nat)
    (options : List String) :
    Dialogue.Keeps A (Terminal.writeOptions n options) (Terminal.writeOptions n options) := by
  induction options generalizing n with
  | nil => exact .pure rfl
  | cons option options ih => exact .bind (hWrite _) fun _ => ih (n + 1)

/-- A menu asks for lines, so terminals that give the same lines pick the same options. -/
theorem Even.select (h : A.Even)
    (hWrite : ∀ text, Dialogue.Keeps A (Terminal.write text) (Terminal.write text))
    (hRead : ∀ question, Dialogue.Accords A false (Terminal.readLine question)
      (Terminal.readLine question) A.endsWith) (message : String) (options : List String)
    (default : Nat) : Dialogue.Keeps A (Terminal.select message options default)
      (Terminal.select message options default) := by
  refine .bind (hWrite _) fun _ => .bind (writeOptions_keeps hWrite 1 options) fun _ =>
    h.dialogue_askUntil (fun _ => ?_) ()
  refine .bind (hRead _) fun line => ?_
  cases line with
  | modeSwitch => exact .throw rfl
  | text answer =>
    dsimp only
    split
    · exact .pure rfl
    · exact .bind (hWrite _) fun _ => .pure rfl

namespace Bond

variable (h : A.Bond)

include h

theorem writeLine (text : String) :
    Act.Keeps A (Act.writeLine text : Act ω β τ Error Unit) (Act.writeLine text) :=
  .dialogue (h.write _)

theorem writeLines (lines : List String) :
    Act.Keeps A (lines.forM Act.writeLine : Act ω β τ Error PUnit) (lines.forM Act.writeLine) :=
  .forM lines h.writeLine

theorem writeBytesLine (label : String) (bytes : List UInt8) :
    Act.Keeps A (Act.dialogue (Terminal.writeBytesLine label bytes) : Act ω β τ Error Unit)
      (Act.dialogue (Terminal.writeBytesLine label bytes)) :=
  .dialogue (h.write _)

theorem resolve (key : UInt8) (table : MacroTable α) :
    Dialogue.Keeps A (table.resolve key) (table.resolve key) := by
  unfold MacroTable.resolve
  split
  · exact .bind (h.write _) fun _ => .bind (.forM _ fun _ => h.write _) fun _ => .pure rfl
  · split
    · exact .pure rfl
    · exact .bind (h.write _) fun _ => .pure rfl

end Bond

end Accord

end BusBench
