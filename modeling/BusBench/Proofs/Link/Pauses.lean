import BusBench.Proofs.Link.Spending

/-!
# Programs that do not notice pauses

Two links are alike if they bring the same bytes and take the same output. Between the bytes of one
there may be pauses where there are none between those of the other, and they may make the sender
wait for different times. A dialogue that waits for whatever it reads comes to the same over both.

* `Repeats`: programs that come to the same from related states.
* `Loops.Stutters`, `Loops.agree`: loops of which some rounds only let time pass.
* `Link.Alike`: links that differ in nothing but pauses.
* `traffic`: an observer of everything but silence.
* `Dialogue.Patient`: dialogues that come to the same over links that are alike.
-/

namespace BusBench

/-! ## Programs in related states -/

section Repeats

variable {S ε α γ : Type} {T : S → S → Prop} {calm : S → Prop}

/-- From states related by `T` the program comes to the same result and to states related by `T`, as
long as things are calm after the first run. Then they were calm before it. -/
structure Repeats (T : S → S → Prop) (calm : S → Prop) (m : ExceptT ε (StateM S) α) : Prop where
  calm_before : ∀ s, calm (m.run s).2 → calm s
  agrees : ∀ s s', T s s' → calm (m.run s).2 →
    (m.run s).1 = (m.run s').1 ∧ T (m.run s).2 (m.run s').2

namespace Repeats

theorem pure (a : α) : Repeats T calm (Pure.pure a : ExceptT ε (StateM S) α) where
  calm_before _ hCalm := hCalm
  agrees _ _ hTie _ := ⟨rfl, hTie⟩

theorem throw (e : ε) : Repeats T calm (MonadExcept.throw e : ExceptT ε (StateM S) α) where
  calm_before _ hCalm := hCalm
  agrees _ _ hTie _ := ⟨rfl, hTie⟩

theorem bind {m : ExceptT ε (StateM S) α} {next : α → ExceptT ε (StateM S) γ}
    (h : Repeats T calm m) (hNext : ∀ a, Repeats T calm (next a)) :
    Repeats T calm (m >>= next) where
  calm_before s hCalm := by
    have hFirst := h.calm_before s
    rw [run_bind] at hCalm
    generalize m.run s = done at hFirst hCalm
    obtain ⟨_ | a, t⟩ := done
    · exact hFirst hCalm
    · exact hFirst ((hNext a).calm_before t hCalm)
  agrees s s' hTie hCalm := by
    have hFirst := h.agrees s s' hTie
    rw [run_bind] at hCalm
    rw [run_bind, run_bind]
    generalize m.run s = done, m.run s' = done' at hFirst hCalm ⊢
    obtain ⟨r, t⟩ := done
    obtain ⟨r', t'⟩ := done'
    cases r with
    | error e =>
      obtain ⟨rfl, hTie'⟩ := hFirst hCalm
      exact ⟨rfl, hTie'⟩
    | ok a =>
      obtain ⟨rfl, hTie'⟩ := hFirst ((hNext a).calm_before t hCalm)
      exact (hNext a).agrees t t' hTie' hCalm

end Repeats

end Repeats

/-! ## Loops in related states -/

section Loops

variable {S σ ε α : Type} {T : S → S → Prop} {calm quiet : S → Prop} {I : σ → Prop}
  {round : σ → ExceptT ε (StateM S) (σ ⊕ α)} {x : σ} {s s' t t' : S} {r r' : Except ε α}

/-- Rounds that in a quiet state let time pass and do nothing else, and otherwise come to the same
from related states. The loop itself is as `I` says. -/
structure Loops.Stutters (T : S → S → Prop) (calm quiet : S → Prop) (I : σ → Prop)
    (round : σ → ExceptT ε (StateM S) (σ ⊕ α)) : Prop where
  calm_before : ∀ x s, calm ((round x).run s).2 → calm s
  waits : ∀ x s, I x → quiet s → ∃ t, (round x).run s = (.ok (.inl x), t) ∧ T s t
  agrees : ∀ x s s', I x → ¬ quiet s → ¬ quiet s' → T s s' → calm ((round x).run s).2 →
    ((round x).run s).1 = ((round x).run s').1 ∧ T ((round x).run s).2 ((round x).run s').2 ∧
      ∀ x', ((round x).run s).1 = .ok (.inl x') → I x'

namespace Loops

theorem calm_before (hRound : ∀ x s, calm ((round x).run s).2 → calm s)
    (h : Loops round x s r t) (hCalm : calm t) : calm s := by
  induction h with
  | @goesOn x x' s mid t r hRun _ ih =>
    refine hRound x s ?_
    rw [hRun]
    exact ih hCalm
  | @answers x s t a hRun =>
    refine hRound x s ?_
    rw [hRun]
    exact hCalm
  | @fails x s t e hRun =>
    refine hRound x s ?_
    rw [hRun]
    exact hCalm

/-- The last round is not one that only lets time pass. -/
theorem not_quiet_of_last (hRound : Stutters T calm quiet I round) (hx : I x)
    {out : Except ε (σ ⊕ α)} {mid : S} (hRun : (round x).run s = (out, mid))
    (hLast : ∀ x', out ≠ .ok (.inl x')) : ¬ quiet s := by
  intro hQuiet
  obtain ⟨u, hWait, -⟩ := hRound.waits x s hx hQuiet
  cases hRun.symm.trans hWait
  exact hLast x rfl

/-- A loop that ends gets through the quiet. -/
theorem skip_quiet (hT : Equivalence T) (hRound : Stutters T calm quiet I round) (hx : I x)
    (h : Loops round x s r t) : ∃ u, T s u ∧ ¬ quiet u ∧ Loops round x u r t := by
  induction h with
  | @goesOn x x' s mid t r hRun hRest ih =>
    by_cases hQuiet : quiet s
    · obtain ⟨u, hWait, hSame⟩ := hRound.waits x s hx hQuiet
      cases hRun.symm.trans hWait
      obtain ⟨v, hLater, hAwake, hLoops⟩ := ih hx
      exact ⟨v, hT.trans hSame hLater, hAwake, hLoops⟩
    · exact ⟨s, hT.refl s, hQuiet, .goesOn hRun hRest⟩
  | @answers x s t a hRun =>
    exact ⟨s, hT.refl s, not_quiet_of_last hRound hx hRun nofun, .answers hRun⟩
  | @fails x s t e hRun =>
    exact ⟨s, hT.refl s, not_quiet_of_last hRound hx hRun nofun, .fails hRun⟩

/-- Before a round that counts the other loop gets through its own quiet, and makes the same round.
-/
theorem catch_up (hT : Equivalence T) (hRound : Stutters T calm quiet I round) (hx : I x)
    (h' : Loops round x s' r' t') (hTie : T s s') (hAwake : ¬ quiet s)
    {out : Except ε (σ ⊕ α)} {mid : S} (hRun : (round x).run s = (out, mid)) (hCalm : calm mid) :
    ∃ mid', T mid mid' ∧ (∀ x', out = .ok (.inl x') → I x') ∧ After round r' t' out mid' := by
  obtain ⟨u, hSame, hAwake', hLoops⟩ := h'.skip_quiet hT hRound hx
  have hBoth := hRound.agrees x s u hx hAwake hAwake' (hT.trans hTie hSame)
  rw [hRun] at hBoth
  obtain ⟨hResult, hTie', hx'⟩ := hBoth hCalm
  exact ⟨((round x).run u).2, hTie', hx', hLoops.after_first (Prod.ext hResult.symm rfl)⟩

/-- In related states the loops come to the same, however often each of them only lets time pass. -/
theorem agree (hT : Equivalence T) (hRound : Stutters T calm quiet I round) (hx : I x)
    (h : Loops round x s r t) (h' : Loops round x s' r' t') (hTie : T s s') (hCalm : calm t) :
    r = r' ∧ T t t' := by
  -- By induction on the first loop, whose quiet rounds keep its state related to that of the other.
  induction h generalizing s' with
  | @goesOn x x' s mid t r hRun hRest ih =>
    by_cases hQuiet : quiet s
    · obtain ⟨u, hWait, hSame⟩ := hRound.waits x s hx hQuiet
      cases hRun.symm.trans hWait
      exact ih hx h' (hT.trans (hT.symm hSame) hTie) hCalm
    · have hCalm' : calm mid := hRest.calm_before hRound.calm_before hCalm
      obtain ⟨mid', hTie', hx', hLoops⟩ := h'.catch_up hT hRound hx hTie hQuiet hRun hCalm'
      exact ih (hx' x' rfl) hLoops hTie' hCalm
  | @answers x s t a hRun =>
    have hAwake : ¬ quiet s := not_quiet_of_last hRound hx hRun nofun
    obtain ⟨mid', hTie', -, rfl, rfl⟩ := h'.catch_up hT hRound hx hTie hAwake hRun hCalm
    exact ⟨rfl, hTie'⟩
  | @fails x s t e hRun =>
    have hAwake : ¬ quiet s := not_quiet_of_last hRound hx hRun nofun
    obtain ⟨mid', hTie', -, rfl, rfl⟩ := h'.catch_up hT hRound hx hTie hAwake hRun hCalm
    exact ⟨rfl, hTie'⟩

end Loops

end Loops

/-! ## Links -/

/-- The links bring the same bytes, and take or refuse the same output. -/
structure Link.Alike (link link' : Link) : Prop where
  bytes : bytesOf link.incoming = bytesOf link'.incoming
  sent : link.sent = link'.sent
  flushes : link.flushes = link'.flushes
  sendLimit : link.sendLimit = link'.sendLimit
  flushLimit : link.flushLimit = link'.flushLimit

theorem Link.alike_equivalence : Equivalence Link.Alike where
  refl _ := ⟨rfl, rfl, rfl, rfl, rfl⟩
  symm h := ⟨h.bytes.symm, h.sent.symm, h.flushes.symm, h.sendLimit.symm, h.flushLimit.symm⟩
  trans h h' := ⟨h.bytes.trans h'.bytes, h.sent.trans h'.sent, h.flushes.trans h'.flushes,
    h.sendLimit.trans h'.sendLimit, h.flushLimit.trans h'.flushLimit⟩

theorem Link.unread_eq (link : Link) : link.unread = (bytesOf link.incoming).length := by
  have hCount (arrivals : List Arrival) :
      (arrivals.countP fun arrival => arrival != .pause) = (bytesOf arrivals).length := by
    induction arrivals with
    | nil => rfl
    | cons arrival arrivals ih =>
      cases arrival with
      | pause => exact ih
      | byte b => exact (List.countP_cons_of_pos rfl).trans (congrArg (· + 1) ih)
  exact hCount link.incoming

theorem map_fst_nextByte (arrivals : List Arrival) :
    (nextByte arrivals).map Prod.fst = (bytesOf arrivals).head? := by
  induction arrivals with
  | nil => rfl
  | cons arrival arrivals ih =>
    cases arrival with
    | pause => exact ih
    | byte b => rfl

theorem bytesOf_after_nextByte (arrivals : List Arrival) :
    bytesOf (((nextByte arrivals).map Prod.snd).getD []) = (bytesOf arrivals).tail := by
  induction arrivals with
  | nil => rfl
  | cons arrival arrivals ih =>
    cases arrival with
    | pause => exact ih
    | byte b => rfl

namespace Link

/-- Insisting for as long as the link is stalled comes to what it does once it is not. -/
theorem insist_stalled (serve : Link → Attempt × Link) (link : Link) :
    insist serve link.stalled link = serve { link with stalled := link.busy } := by
  have hInsist (n : Nat) (link : Link) (hStalled : link.stalled = n) :
      insist serve n link = serve { link with stalled := link.busy } := by
    induction n generalizing link with
    | zero => simp only [insist, attempt, hStalled]
    | succ n ih =>
      simp only [insist, attempt, hStalled]
      exact ih { link with stalled := n } rfl
  exact hInsist link.stalled link rfl

/-- Links that are alike are served alike. -/
def ServesAlike (serve : Link → Attempt × Link) : Prop :=
  ∀ {link link' : Link}, link.Alike link' →
    (serve link).1 = (serve link').1 ∧ (serve link).2.Alike (serve link').2

theorem serveByte_alike : ServesAlike serveByte := by
  intro link link' ⟨hBytes, hSent, hFlushes, hSendLimit, hFlushLimit⟩
  unfold serveByte
  rw [hSendLimit, hSent]
  split
  · exact ⟨rfl, hBytes, hSent, hFlushes, hSendLimit, hFlushLimit⟩
  · exact ⟨rfl, hBytes, rfl, hFlushes, rfl, hFlushLimit⟩

theorem serveFlush_alike : ServesAlike serveFlush := by
  intro link link' ⟨hBytes, hSent, hFlushes, hSendLimit, hFlushLimit⟩
  unfold serveFlush
  rw [hFlushLimit, hFlushes]
  split
  · exact ⟨rfl, hBytes, hSent, hFlushes, hSendLimit, hFlushLimit⟩
  · exact ⟨rfl, hBytes, hSent, rfl, hSendLimit, rfl⟩

end Link

/-! ## Traffic -/

/-- Whether the event is an exchange with the board, or with the peer something other than silence.
-/
def Event.isTraffic : Event → Bool
  | .peer .idle | .reached _ => false
  | _ => true

/-- The observer that keeps everything but silence and the places in a program. -/
def traffic : Observer (List Event) where
  start := []
  see event seen := if event.isTraffic then event :: seen else seen
  see_idle _ := rfl

namespace traffic

theorem of_eq_filter (events : List Event) : traffic.of events = events.filter Event.isTraffic := by
  induction events with
  | nil => rfl
  | cons event events ih =>
    rw [List.filter_cons, ← ih]
    rfl

/-- Silence and places are not written to the log. -/
theorem log_filter (events : List Event) :
    Event.log (events.filter Event.isTraffic) = Event.log events := by
  have hEntries : (events.filter Event.isTraffic).reverse.filterMap Event.entry? =
      events.reverse.filterMap Event.entry? := by
    rw [← List.filter_reverse, List.filterMap_filter]
    congr 1
    funext event
    rcases event with _ | event | _
    · rfl
    · cases event <;> rfl
    · rfl
  unfold Event.log
  rw [hEntries]

end traffic

/-! ## Dialogues -/

namespace Dialogue

variable {ε α γ : Type}

/-- The links are alike, and the traffic was the same, including what there was before. -/
structure Abreast (base base' : List Event) (r r' : Recorded Link) : Prop where
  link : r.peer.Alike r'.peer
  traffic : traffic.overhear r.events base = traffic.overhear r'.events base'

/-- The dialogue comes to the same over links that are alike. -/
def Patient (talk : Dialogue Link ε α) : Prop :=
  ∀ base base', Repeats (Abreast base base') (fun _ => True) talk

namespace Patient

theorem pure (a : α) : Patient (Pure.pure a : Dialogue Link ε α) :=
  fun _ _ => .pure a

theorem bind {talk : Dialogue Link ε α} {next : α → Dialogue Link ε γ} (h : Patient talk)
    (hNext : ∀ a, Patient (next a)) : Patient (talk >>= next) :=
  fun base base' => (h base base').bind fun a => hNext a base base'

theorem ite {condition : Prop} [Decidable condition] {yes no : Dialogue Link ε α}
    (hYes : Patient yes) (hNo : Patient no) : Patient (if condition then yes else no) := by
  split
  · exact hYes
  · exact hNo

theorem of_agrees {talk : Dialogue Link ε α}
    (h : ∀ base base' r r', Abreast base base' r r' →
      (talk.run r).1 = (talk.run r').1 ∧ Abreast base base' (talk.run r).2 (talk.run r').2) :
    Patient talk :=
  fun base base' => ⟨fun _ _ => trivial, fun r r' hAbreast _ => h base base' r r' hAbreast⟩

/-! ### Output -/

theorem output {serve : Link → Attempt × Link} (hServe : Link.ServesAlike serve)
    (event : PeerEvent) (reason : LinkError) : Patient (Link.output serve event reason) := by
  refine of_agrees fun base base' r r' hAbreast => ?_
  have hReady : Link.Alike { r.peer with stalled := r.peer.busy }
      { r'.peer with stalled := r'.peer.busy } :=
    ⟨hAbreast.link.bytes, hAbreast.link.sent, hAbreast.link.flushes, hAbreast.link.sendLimit,
      hAbreast.link.flushLimit⟩
  obtain ⟨hResult, hAlike⟩ := hServe hReady
  unfold Link.output
  rw [peer_bind, peer_bind, Link.insist_stalled, Link.insist_stalled]
  generalize serve { r.peer with stalled := r.peer.busy } = done,
    serve { r'.peer with stalled := r'.peer.busy } = done' at hResult hAlike
  obtain ⟨result, link⟩ := done
  obtain ⟨result', link'⟩ := done'
  obtain rfl : result = result' := hResult
  by_cases hDone : result = .done
  · simp only [if_pos hDone]
    exact ⟨rfl, hAlike, congrArg (traffic.see (.peer event)) hAbreast.traffic⟩
  · simp only [if_neg hDone]
    exact ⟨rfl, hAlike, congrArg (traffic.see (.peer (.failed reason))) hAbreast.traffic⟩

theorem send (b : UInt8) : Patient (Link.send b) :=
  output Link.serveByte_alike _ _

theorem flush : Patient Link.flush :=
  output Link.serveFlush_alike _ _

theorem sendAll (bytes : List UInt8) : Patient (Link.sendAll bytes) := by
  induction bytes with
  | nil => exact pure _
  | cons b bytes ih => exact (send b).bind fun _ => ih

theorem sendAndFlush (bytes : List UInt8) : Patient (do Link.sendAll bytes; Link.flush) :=
  (sendAll bytes).bind fun _ => flush

theorem reply (status : UInt8) : Patient (Link.reply status) :=
  (send status).bind fun _ => flush

/-! ### Input -/

theorem read : Patient Link.read := by
  refine of_agrees fun base base' r r' hAbreast => ?_
  obtain ⟨new, hRun, hSeen⟩ := Yields.read_run (o := traffic) r base
  obtain ⟨new', hRun', hSeen'⟩ := Yields.read_run (o := traffic) r' base'
  have hNext : (nextByte r.peer.incoming).map Prod.fst =
      (nextByte r'.peer.incoming).map Prod.fst := by
    rw [map_fst_nextByte, map_fst_nextByte, hAbreast.link.bytes]
  have hRest : bytesOf (((nextByte r.peer.incoming).map Prod.snd).getD []) =
      bytesOf (((nextByte r'.peer.incoming).map Prod.snd).getD []) := by
    rw [bytesOf_after_nextByte, bytesOf_after_nextByte, hAbreast.link.bytes]
  rw [hRun, hRun']
  refine ⟨by rw [hNext], ⟨hRest, hAbreast.link.sent, hAbreast.link.flushes,
    hAbreast.link.sendLimit, hAbreast.link.flushLimit⟩, ?_⟩
  rw [hSeen, hSeen', hNext, hAbreast.traffic]

theorem collect (count : Nat) (collected : List UInt8) :
    Patient (Link.collect count collected) := by
  induction count generalizing collected with
  | zero => exact pure _
  | succ count ih => exact read.bind fun b => ih (b :: collected)

theorem readExact (count : Nat) : Patient (Link.readExact count) :=
  collect count []

theorem readCount : Patient Link.readCount :=
  read.bind fun _ => read.bind fun _ => pure _

theorem skip (count : Nat) : Patient (Link.skip count) := by
  induction count with
  | zero => exact pure _
  | succ count ih => exact read.bind fun _ => ih

end Patient

end Dialogue

end BusBench
