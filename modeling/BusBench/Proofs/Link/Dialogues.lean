import BusBench.Link.Basic
import BusBench.World

/-!
# Dialogues over a link that does not break

What a dialogue does is told by an observer, who looks at every event and keeps a state of his own.
On a link whose output never fails, a dialogue is determined by what is still to arrive, and ends
with a result, the rest of the arrivals and a state of the observer.

* `Observer`: what is made of events.
* `Dialogue.Ends`: what a dialogue comes to.
* `Dialogue.Yields`: what a dialogue on an open link comes to.
* `nextByte`, `fetch`, `bytesOf`: the bytes of the arrivals.
* `Dialogue.Yields.read`, `Dialogue.Yields.readExact`, `Dialogue.Yields.sendAll`: the parts of
  dialogues.
-/

namespace BusBench

/-- What follows a program is run on its result, in the state after it. -/
theorem run_bind {σ ε α γ : Type} (program : ExceptT ε (StateM σ) α)
    (next : α → ExceptT ε (StateM σ) γ) (s : σ) :
    (program >>= next).run s = (ExceptT.bindCont next (program.run s).1).run (program.run s).2 :=
  rfl

/-- A loop makes one round, and goes on from there. -/
theorem rounds_succ_run {σ ψ ε α : Type} (exhausted : ExceptT ε (StateM σ) α)
    (round : ψ → ExceptT ε (StateM σ) (ψ ⊕ α)) (n : Nat) (x : ψ) (s : σ) :
    (rounds exhausted round (n + 1) x).run s =
      match (round x).run s with
      | (.ok (.inl x'), s') => (rounds exhausted round n x').run s'
      | (.ok (.inr a), s') => (.ok a, s')
      | (.error e, s') => (.error e, s') := by
  change StateT.run (ExceptT.bindCont _ ((round x).run s).1) ((round x).run s).2 = _
  generalize (round x).run s = done
  rcases done with ⟨e | x' | a, s'⟩
  · rfl
  · rfl
  · rfl

/-! ## Observers -/

/-- Somebody who looks at events, the oldest first, and takes no notice of silence. -/
structure Observer (S : Type) where
  start : S
  see : Event → S → S
  see_idle : ∀ s, see (.peer .idle) s = s

namespace Observer

variable {S : Type} (o : Observer S)

/-- What is made of events, of which the newest stands first. -/
def of (events : List Event) : S :=
  events.foldr o.see o.start

/-- What the events of a dialogue make of a state. -/
def overhear (events : List PeerEvent) (s : S) : S :=
  events.foldr (fun event => o.see (.peer event)) s

/-- What bytes that arrive make of a state. -/
def hearAll (bytes : List UInt8) (s : S) : S :=
  bytes.foldl (fun s b => o.see (.peer (.received b)) s) s

/-- What bytes that are sent make of a state. -/
def sayAll (bytes : List UInt8) (s : S) : S :=
  bytes.foldl (fun s b => o.see (.peer (.sent b)) s) s

theorem of_append_peer (events : List PeerEvent) (earlier : List Event) :
    o.of (events.map .peer ++ earlier) = o.overhear events (o.of earlier) := by
  rw [of, List.foldr_append, List.foldr_map]
  rfl

/-- The observer takes no notice of input, nor of when the output is flushed. -/
structure Deaf (o : Observer S) : Prop where
  see_received : ∀ b s, o.see (.peer (.received b)) s = s
  see_end : ∀ s, o.see (.peer (.failed .endOfInput)) s = s
  see_flushed : ∀ s, o.see (.peer .flushed) s = s

theorem sayAll_append (bytes more : List UInt8) (s : S) :
    o.sayAll (bytes ++ more) s = o.sayAll more (o.sayAll bytes s) :=
  List.foldl_append

/-- An observer who sees nothing. -/
def blind : Observer Unit :=
  ⟨(), fun _ s => s, fun _ => rfl⟩

theorem deaf_blind : blind.Deaf :=
  ⟨fun _ _ => rfl, fun _ => rfl, fun _ => rfl⟩

end Observer

/-! ## Arrivals -/

/-- The next byte of the arrivals, and what arrives after it. -/
def nextByte : List Arrival → Option (UInt8 × List Arrival)
  | [] => none
  | .pause :: rest => nextByte rest
  | .byte b :: rest => some (b, rest)

/-- The next `n` bytes of the arrivals, or as many as there are, and what arrives after them. -/
def fetch : Nat → List Arrival → List UInt8 × List Arrival
  | 0, arrivals => ([], arrivals)
  | n + 1, arrivals =>
    match nextByte arrivals with
    | none => ([], [])
    | some (b, rest) => (b :: (fetch n rest).1, (fetch n rest).2)

/-- The bytes of the arrivals. -/
def bytesOf : List Arrival → List UInt8
  | [] => []
  | .pause :: rest => bytesOf rest
  | .byte b :: rest => b :: bytesOf rest

theorem bytesOf_map_byte (bytes : List UInt8) : bytesOf (bytes.map .byte) = bytes := by
  induction bytes with
  | nil => rfl
  | cons b bytes ih => exact congrArg (b :: ·) ih

theorem bytesOf_of_none {arrivals : List Arrival} (h : nextByte arrivals = none) :
    bytesOf arrivals = [] := by
  induction arrivals with
  | nil => rfl
  | cons arrival arrivals ih =>
    cases arrival with
    | pause => exact ih h
    | byte b => cases h

theorem bytesOf_of_nextByte {arrivals rest : List Arrival} {b : UInt8}
    (h : nextByte arrivals = some (b, rest)) : bytesOf arrivals = b :: bytesOf rest := by
  induction arrivals with
  | nil => cases h
  | cons arrival arrivals ih =>
    cases arrival with
    | pause => exact ih h
    | byte b' =>
      cases h
      rfl

theorem length_bytesOf_le (arrivals : List Arrival) :
    (bytesOf arrivals).length ≤ arrivals.length := by
  induction arrivals with
  | nil => exact Nat.le_refl _
  | cons arrival arrivals ih =>
    cases arrival with
    | pause => exact Nat.le_succ_of_le ih
    | byte b => exact Nat.succ_le_succ ih

theorem length_of_nextByte {arrivals rest : List Arrival} {b : UInt8}
    (h : nextByte arrivals = some (b, rest)) : rest.length < arrivals.length := by
  induction arrivals with
  | nil => cases h
  | cons arrival arrivals ih =>
    cases arrival with
    | pause => exact Nat.lt_succ_of_lt (ih h)
    | byte b' =>
      cases h
      exact Nat.lt_succ_self _

theorem length_fetch_le (n : Nat) (arrivals : List Arrival) :
    (fetch n arrivals).2.length ≤ arrivals.length := by
  induction n generalizing arrivals with
  | zero => exact Nat.le_refl _
  | succ n ih =>
    unfold fetch
    split
    · exact Nat.zero_le _
    · next hNext => exact Nat.le_trans (ih _) (Nat.le_of_lt (length_of_nextByte hNext))

theorem length_fetch (n : Nat) (arrivals : List Arrival) : (fetch n arrivals).1.length ≤ n := by
  induction n generalizing arrivals with
  | zero => exact Nat.le_refl _
  | succ n ih =>
    unfold fetch
    split
    · exact Nat.zero_le _
    · exact Nat.succ_le_succ (ih _)

theorem fetch_nil (n : Nat) : fetch n [] = ([], []) := by
  cases n <;> rfl

theorem fetch_add (m n : Nat) (arrivals : List Arrival) :
    fetch (m + n) arrivals =
      ((fetch m arrivals).1 ++ (fetch n (fetch m arrivals).2).1, (fetch n (fetch m arrivals).2).2) := by
  induction m generalizing arrivals with
  | zero => simp only [Nat.zero_add, fetch, List.nil_append]
  | succ m ih =>
    rw [Nat.succ_add]
    simp only [fetch]
    cases nextByte arrivals with
    | none => simp only [fetch_nil, List.append_nil]
    | some next => simp only [ih, List.cons_append]

/-- Nothing is lost. -/
theorem fetch_append_bytesOf (n : Nat) (arrivals : List Arrival) :
    (fetch n arrivals).1 ++ bytesOf (fetch n arrivals).2 = bytesOf arrivals := by
  induction n generalizing arrivals with
  | zero => rfl
  | succ n ih =>
    unfold fetch
    split
    · next hNone => exact (bytesOf_of_none hNone).symm
    · next b rest hNext => rw [List.cons_append, ih, bytesOf_of_nextByte hNext]

theorem fetch_fst (n : Nat) (arrivals : List Arrival) :
    (fetch n arrivals).1 = (bytesOf arrivals).take n := by
  induction n generalizing arrivals with
  | zero => rfl
  | succ n ih =>
    unfold fetch
    split
    · next hNone => rw [bytesOf_of_none hNone]; rfl
    · next b rest hNext => rw [bytesOf_of_nextByte hNext, List.take_succ_cons, ih]

theorem length_fetch_of_le {n : Nat} {arrivals : List Arrival} (h : n ≤ (bytesOf arrivals).length) :
    (fetch n arrivals).1.length = n := by
  rw [fetch_fst, List.length_take, Nat.min_eq_left h]

/-- Bytes are missing only where nothing arrives any more. -/
theorem fetch_cut {n : Nat} {arrivals : List Arrival} (h : (fetch n arrivals).1.length ≠ n) :
    (fetch n arrivals).2 = [] := by
  induction n generalizing arrivals with
  | zero => exact absurd rfl h
  | succ n ih =>
    unfold fetch at h ⊢
    split at h
    · rfl
    · next b rest hNext => exact ih fun hLength => h (congrArg (· + 1) hLength)

/-- The output of the link never fails. -/
structure Link.IsOpen (link : Link) : Prop where
  sendLimit : link.sendLimit = none
  flushLimit : link.flushLimit = none

namespace Dialogue

/-! ## Dialogues with any peer -/

section Ends

variable {S τ ε α γ : Type} {o : Observer S} {p : τ} {s : S}

/-- After a dialogue that succeeded the next one follows. -/
theorem bind_run {talk : Dialogue τ ε α} {next : α → Dialogue τ ε γ} {a : α} {r r' : Recorded τ}
    (h : talk.run r = (.ok a, r')) : (talk >>= next).run r = (next a).run r' := by
  rw [run_bind, h]
  rfl

/-- What a dialogue with a part of the peer comes to, where failures keep their names. -/
theorem within_run {κ : Type} (get : κ → τ) (set : τ → κ → κ) (talk : Dialogue τ ε α)
    (r : Recorded κ) : (talk.within get set id).run r =
      let done := talk.run ⟨get r.peer, r.events⟩
      (done.1, ⟨set done.2.peer r.peer, done.2.events⟩) := by
  have hId : ∀ result : Except ε α, result.mapError id = result := by
    intro result
    cases result <;> rfl
  change ((talk.run ⟨get r.peer, r.events⟩).1.mapError id, _) = _
  rw [hId]
  rfl

/-- Held with this peer, and with this state of the observer, the dialogue comes to a result, a peer
and a state that `post` accepts. -/
def Ends (o : Observer S) (talk : Dialogue τ ε α) (peer : τ) (s : S)
    (post : Except ε α → τ → S → Prop) : Prop :=
  ∀ (r : Recorded τ) (base : S), r.peer = peer → o.overhear r.events base = s →
    post (talk.run r).1 (talk.run r).2.peer (o.overhear (talk.run r).2.events base)

namespace Ends

variable {talk : Dialogue τ ε α} {post : Except ε α → τ → S → Prop}

theorem mono {weak : Except ε α → τ → S → Prop} (h : Ends o talk p s post)
    (hPost : ∀ r peer s, post r peer s → weak r peer s) : Ends o talk p s weak :=
  fun r base hPeer hState => hPost _ _ _ (h r base hPeer hState)

theorem pure {a : α} (h : post (.ok a) p s) :
    Ends o (Pure.pure a : Dialogue τ ε α) p s post := by
  rintro r base rfl rfl
  exact h

theorem bind {next : α → Dialogue τ ε γ} {post : Except ε γ → τ → S → Prop}
    (h : Ends o talk p s fun
      | .ok a, peer, s => Ends o (next a) peer s post
      | .error e, peer, s => post (.error e) peer s) :
    Ends o (talk >>= next) p s post := by
  intro r base hPeer hState
  have hFirst := h r base hPeer hState
  rw [run_bind]
  generalize talk.run r = done at hFirst ⊢
  obtain ⟨_ | a, r'⟩ := done
  · exact hFirst
  · exact hFirst r' base rfl rfl

theorem peer {post : Except ε τ → τ → S → Prop} (h : post (.ok p) p s) :
    Ends o (Dialogue.peer : Dialogue τ ε τ) p s post := by
  rintro r base rfl rfl
  exact h

theorem modifyPeer {change : τ → τ} {post : Except ε Unit → τ → S → Prop}
    (h : post (.ok ()) (change p) s) :
    Ends o (Dialogue.modifyPeer change : Dialogue τ ε Unit) p s post := by
  rintro r base rfl rfl
  exact h

theorem within {κ : Type} {get : κ → τ} {set : τ → κ → κ} {q : κ}
    {post : Except ε α → κ → S → Prop}
    (h : Ends o talk (get q) s fun r peer => post r (set peer q)) :
    Ends o (talk.within get set id) q s post := by
  rintro r base rfl hState
  rw [within_run]
  exact h ⟨get r.peer, r.events⟩ base rfl hState

end Ends

end Ends

/-! ## Dialogues on an open link -/

variable {S ε α β : Type} {o : Observer S}

/-- On an open link with these arrivals, and with this state of the observer, the dialogue comes to
a result, further arrivals and a state that `post` accepts. The link stays open. -/
def Yields (o : Observer S) (program : Dialogue Link ε α) (incoming : List Arrival) (s : S)
    (post : Except ε α → List Arrival → S → Prop) : Prop :=
  ∀ (r : Recorded Link) (base : S), r.peer.IsOpen → r.peer.incoming = incoming →
    o.overhear r.events base = s →
    (program.run r).2.peer.IsOpen ∧
      post (program.run r).1 (program.run r).2.peer.incoming
        (o.overhear (program.run r).2.events base)

theorem get_bind (next : Recorded Link → Dialogue Link ε α) (r : Recorded Link) :
    (get >>= next).run r = (next r).run r :=
  rfl

theorem peer_bind (next : Link → Dialogue Link ε α) (r : Recorded Link) :
    (peer >>= next).run r = (next r.peer).run r :=
  rfl

namespace Yields

variable {incoming : List Arrival} {s : S} {post : Except ε α → List Arrival → S → Prop}

theorem pure {a : α} (h : post (.ok a) incoming s) :
    Yields o (Pure.pure a : Dialogue Link ε α) incoming s post := by
  rintro r base hOpen rfl rfl
  exact ⟨hOpen, h⟩

theorem bind {program : Dialogue Link ε α} {next : α → Dialogue Link ε β}
    {post : Except ε β → List Arrival → S → Prop}
    (h : Yields o program incoming s fun
      | .ok a, incoming, s => Yields o (next a) incoming s post
      | .error e, incoming, s => post (.error e) incoming s) :
    Yields o (program >>= next) incoming s post := by
  intro r base hOpen hIncoming hState
  have hFirst := h r base hOpen hIncoming hState
  rw [run_bind]
  generalize program.run r = done at hFirst ⊢
  obtain ⟨_ | a, r'⟩ := done
  · exact hFirst
  · exact hFirst.2 r' base hFirst.1 rfl rfl

theorem ite {condition : Prop} [Decidable condition] {yes no : Dialogue Link ε α}
    (hYes : condition → Yields o yes incoming s post)
    (hNo : ¬ condition → Yields o no incoming s post) :
    Yields o (if condition then yes else no) incoming s post := by
  split
  · next h => exact hYes h
  · next h => exact hNo h

/-! ## Output -/

section Output

variable {post : Except LinkError Unit → List Arrival → S → Prop}

/-- Whatever the link makes the sender wait for, an attempt that cannot fail succeeds. -/
theorem insist_done {serve : Link → Attempt × Link} (hServe : ∀ link : Link, link.IsOpen →
      (serve link).1 = .done ∧ (serve link).2.IsOpen ∧ (serve link).2.incoming = link.incoming)
    (n : Nat) {link : Link} (hOpen : link.IsOpen) (hStalled : link.stalled ≤ n) :
    (Link.insist serve n link).1 = .done ∧ (Link.insist serve n link).2.IsOpen ∧
      (Link.insist serve n link).2.incoming = link.incoming := by
  induction n generalizing link with
  | zero =>
    have hReady : link.stalled = 0 := Nat.le_zero.mp hStalled
    simp only [Link.insist, Link.attempt, hReady]
    exact hServe _ ⟨hOpen.sendLimit, hOpen.flushLimit⟩
  | succ n ih =>
    cases hReady : link.stalled with
    | zero =>
      have hDone := hServe { link with stalled := link.busy } ⟨hOpen.sendLimit, hOpen.flushLimit⟩
      have hAttempt : Link.attempt serve link = serve { link with stalled := link.busy } := by
        simp only [Link.attempt, hReady]
      simp only [Link.insist, hAttempt]
      split
      · next hNotYet =>
        rw [hNotYet] at hDone
        cases hDone.1
      · exact hDone
    | succ k =>
      have hAttempt : Link.attempt serve link = (.notYet, { link with stalled := k }) := by
        simp only [Link.attempt, hReady]
      simp only [Link.insist, hAttempt]
      exact ih ⟨hOpen.sendLimit, hOpen.flushLimit⟩ (by simp only; omega)

/-- On an open link an output succeeds and leaves one event. What is still to arrive is unchanged. -/
theorem output_run {serve : Link → Attempt × Link} (hServe : ∀ link : Link, link.IsOpen →
      (serve link).1 = .done ∧ (serve link).2.IsOpen ∧ (serve link).2.incoming = link.incoming)
    (event : PeerEvent) (reason : LinkError) {r : Recorded Link} (hOpen : r.peer.IsOpen) :
    ∃ link : Link, (Link.output serve event reason).run r = (.ok (), ⟨link, event :: r.events⟩) ∧
      link.IsOpen ∧ link.incoming = r.peer.incoming := by
  obtain ⟨hDone, hOpen', hIncoming⟩ := insist_done hServe r.peer.stalled hOpen (Nat.le_refl _)
  refine ⟨_, ?_, hOpen', hIncoming⟩
  rcases hInsist : Link.insist serve r.peer.stalled r.peer with ⟨result, link⟩
  rw [hInsist] at hDone
  change result = .done at hDone
  subst hDone
  unfold Link.output
  rw [peer_bind, hInsist]
  rfl

theorem serveByte_done (link : Link) (hOpen : link.IsOpen) :
    link.serveByte.1 = .done ∧ link.serveByte.2.IsOpen ∧
      link.serveByte.2.incoming = link.incoming := by
  have hDone : link.serveByte = (.done, { link with sent := link.sent + 1 }) := by
    simp [Link.serveByte, Link.isOver, hOpen.sendLimit]
  rw [hDone]
  exact ⟨rfl, ⟨hOpen.sendLimit, hOpen.flushLimit⟩, rfl⟩

theorem serveFlush_done (link : Link) (hOpen : link.IsOpen) :
    link.serveFlush.1 = .done ∧ link.serveFlush.2.IsOpen ∧
      link.serveFlush.2.incoming = link.incoming := by
  have hDone : link.serveFlush = (.done, { link with flushes := link.flushes + 1 }) := by
    simp [Link.serveFlush, Link.isOver, hOpen.flushLimit]
  rw [hDone]
  exact ⟨rfl, ⟨hOpen.sendLimit, hOpen.flushLimit⟩, rfl⟩

theorem output {serve : Link → Attempt × Link} (hServe : ∀ link : Link, link.IsOpen →
      (serve link).1 = .done ∧ (serve link).2.IsOpen ∧ (serve link).2.incoming = link.incoming)
    {event : PeerEvent} {reason : LinkError} (h : post (.ok ()) incoming (o.see (.peer event) s)) :
    Yields o (Link.output serve event reason) incoming s post := by
  rintro r base hOpen rfl rfl
  obtain ⟨link, hRun, hOpen', hIncoming⟩ := output_run hServe event reason hOpen
  rw [hRun]
  refine ⟨hOpen', ?_⟩
  simp only [hIncoming]
  exact h

theorem send {b : UInt8} (h : post (.ok ()) incoming (o.see (.peer (.sent b)) s)) :
    Yields o (Link.send b) incoming s post :=
  output serveByte_done h

theorem flush (h : post (.ok ()) incoming (o.see (.peer .flushed) s)) :
    Yields o Link.flush incoming s post :=
  output serveFlush_done h

theorem sendAll {bytes : List UInt8} (h : post (.ok ()) incoming (o.sayAll bytes s)) :
    Yields o (Link.sendAll bytes) incoming s post := by
  induction bytes generalizing s with
  | nil => exact pure h
  | cons b bytes ih => exact bind (send (ih h))

theorem sendAll_run (bytes : List UInt8) {r : Recorded Link} (hOpen : r.peer.IsOpen) :
    ∃ link : Link, (Link.sendAll bytes).run r =
        (.ok (), ⟨link, (bytes.map .sent).reverse ++ r.events⟩) ∧
      link.IsOpen ∧ link.incoming = r.peer.incoming := by
  induction bytes generalizing r with
  | nil => exact ⟨r.peer, rfl, hOpen, rfl⟩
  | cons b bytes ih =>
    obtain ⟨mid, hSent, hOpen', hIncoming⟩ := output_run serveByte_done (.sent b) .sendBroken hOpen
    obtain ⟨link, hRest, hOpen'', hIncoming'⟩ := ih (r := ⟨mid, .sent b :: r.events⟩) hOpen'
    have hRun : (Link.sendAll (b :: bytes)).run r =
        (Link.sendAll bytes).run ⟨mid, .sent b :: r.events⟩ := bind_run hSent
    refine ⟨link, ?_, hOpen'', hIncoming'.trans hIncoming⟩
    rw [hRun, List.map_cons, List.reverse_cons, List.append_assoc]
    exact hRest

end Output

/-! ## Input -/

/-- Waiting leaves an observer with the byte alone, or with the end. -/
theorem awaitByte_eq (incoming : List Arrival) (events : List PeerEvent) (base : S) :
    ∃ new, Link.awaitByte incoming events =
        ((nextByte incoming).map Prod.fst, ((nextByte incoming).map Prod.snd).getD [], new) ∧
      o.overhear new base =
        o.see (.peer (match nextByte incoming with
          | some (b, _) => .received b
          | none => .failed .endOfInput)) (o.overhear events base) := by
  induction incoming generalizing events with
  | nil => exact ⟨_, rfl, rfl⟩
  | cons arrival incoming ih =>
    cases arrival with
    | byte b => exact ⟨_, rfl, rfl⟩
    | pause =>
      obtain ⟨new, hAwait, hSeen⟩ := ih (.idle :: events)
      refine ⟨new, hAwait, hSeen.trans ?_⟩
      simp only [Observer.overhear, List.foldr_cons, o.see_idle, nextByte]

/-- A read leaves an observer with the byte alone, or with the end. -/
theorem read_run (r : Recorded Link) (base : S) :
    ∃ new, Link.read.run r =
        (((nextByte r.peer.incoming).map Prod.fst).elim (.error .endOfInput) .ok,
          ⟨{ r.peer with incoming := ((nextByte r.peer.incoming).map Prod.snd).getD [] }, new⟩) ∧
      o.overhear new base =
        o.see (.peer (((nextByte r.peer.incoming).map Prod.fst).elim (.failed .endOfInput)
          .received)) (o.overhear r.events base) := by
  obtain ⟨new, hAwait, hSeen⟩ := awaitByte_eq (o := o) r.peer.incoming r.events base
  refine ⟨new, ?_, hSeen.trans ?_⟩
  · unfold Link.read
    rw [get_bind]
    simp only [hAwait]
    cases nextByte r.peer.incoming <;> rfl
  · cases nextByte r.peer.incoming <;> rfl

theorem read {post : Except LinkError UInt8 → List Arrival → S → Prop}
    (hByte : ∀ b rest, nextByte incoming = some (b, rest) →
      post (.ok b) rest (o.see (.peer (.received b)) s))
    (hEnd : nextByte incoming = none →
      post (.error .endOfInput) [] (o.see (.peer (.failed .endOfInput)) s)) :
    Yields o Link.read incoming s post := by
  rintro r base hOpen rfl rfl
  obtain ⟨new, hRun, hSeen⟩ := read_run (o := o) r base
  rw [hRun]
  refine ⟨⟨hOpen.sendLimit, hOpen.flushLimit⟩, ?_⟩
  simp only [hSeen]
  cases hNext : nextByte r.peer.incoming with
  | none => exact hEnd hNext
  | some next => exact hByte next.1 next.2 hNext

/-- A moment of silence is seen as such. -/
theorem tryRead {post : Except LinkError (Option UInt8) → List Arrival → S → Prop}
    (hByte : ∀ b rest, incoming = .byte b :: rest →
      post (.ok (some b)) rest (o.see (.peer (.received b)) s))
    (hPause : ∀ rest, incoming = .pause :: rest → post (.ok none) rest s)
    (hEnd : incoming = [] → post (.error .endOfInput) [] (o.see (.peer (.failed .endOfInput)) s)) :
    Yields o Link.tryRead incoming s post := by
  rintro ⟨⟨arrivals, _, _, _, _, _, _⟩, events⟩ base hOpen rfl rfl
  cases arrivals with
  | nil => exact ⟨hOpen, hEnd rfl⟩
  | cons arrival rest =>
    cases arrival with
    | byte b => exact ⟨⟨hOpen.sendLimit, hOpen.flushLimit⟩, hByte b rest rfl⟩
    | pause =>
      refine ⟨⟨hOpen.sendLimit, hOpen.flushLimit⟩, ?_⟩
      have hSeen := hPause rest rfl
      rwa [← o.see_idle (o.overhear events base)] at hSeen

/-- Bytes are collected until there are enough of them or no more arrive. -/
theorem collect {post : Except LinkError (List UInt8) → List Arrival → S → Prop} {n : Nat}
    {collected : List UInt8}
    (hAll : ∀ bytes rest, fetch n incoming = (bytes, rest) → bytes.length = n →
      post (.ok (collected.reverse ++ bytes)) rest (o.hearAll bytes s))
    (hFew : ∀ bytes, fetch n incoming = (bytes, []) → bytes.length < n →
      post (.error .endOfInput) []
        (o.see (.peer (.failed .endOfInput)) (o.hearAll bytes s))) :
    Yields o (Link.collect n collected) incoming s post := by
  induction n generalizing incoming s collected with
  | zero =>
    have hNone := hAll [] incoming rfl rfl
    rw [List.append_nil] at hNone
    exact pure hNone
  | succ n ih =>
    refine bind (read (fun b rest hNext => ih (fun bytes rest' hFetch hLength => ?_)
      fun bytes hFetch hLength => ?_) fun hNext => ?_)
    · rw [List.reverse_cons, List.append_assoc]
      exact hAll (b :: bytes) rest' (by simp only [fetch, hNext, hFetch]) (by simp [hLength])
    · exact hFew (b :: bytes) (by simp only [fetch, hNext, hFetch]) (by simpa using hLength)
    · exact hFew [] (by simp only [fetch, hNext]) (Nat.succ_pos n)

theorem readExact {post : Except LinkError (List UInt8) → List Arrival → S → Prop} {n : Nat}
    (hAll : ∀ bytes rest, fetch n incoming = (bytes, rest) → bytes.length = n →
      post (.ok bytes) rest (o.hearAll bytes s))
    (hFew : ∀ bytes, fetch n incoming = (bytes, []) → bytes.length < n →
      post (.error .endOfInput) []
        (o.see (.peer (.failed .endOfInput)) (o.hearAll bytes s))) :
    Yields o (Link.readExact n) incoming s post :=
  collect hAll hFew

/-- Both bytes of a count are read, or there are not as many. -/
theorem readCount {post : Except LinkError Nat → List Arrival → S → Prop}
    (hBoth : ∀ high low rest, fetch 2 incoming = ([high, low], rest) →
      post (.ok (high.toNat * 256 + low.toNat)) rest (o.hearAll [high, low] s))
    (hFew : ∀ bytes, fetch 2 incoming = (bytes, []) → bytes.length < 2 →
      post (.error .endOfInput) []
        (o.see (.peer (.failed .endOfInput)) (o.hearAll bytes s))) :
    Yields o Link.readCount incoming s post := by
  refine bind (read (fun high mid hHigh => bind (read (fun low rest hLow => ?_) fun hLow => ?_))
    fun hHigh => ?_)
  · exact pure (hBoth high low rest (by simp only [fetch, hHigh, hLow]))
  · exact hFew [high] (by simp only [fetch, hHigh, hLow]) (Nat.lt_succ_self 1)
  · exact hFew [] (by simp only [fetch, hHigh]) (Nat.succ_pos 1)

theorem skip {post : Except LinkError Unit → List Arrival → S → Prop} {n : Nat}
    (hAll : ∀ bytes rest, fetch n incoming = (bytes, rest) → bytes.length = n →
      post (.ok ()) rest (o.hearAll bytes s))
    (hFew : ∀ bytes, fetch n incoming = (bytes, []) → bytes.length < n →
      post (.error .endOfInput) []
        (o.see (.peer (.failed .endOfInput)) (o.hearAll bytes s))) :
    Yields o (Link.skip n) incoming s post := by
  induction n generalizing incoming s with
  | zero => exact pure (hAll [] incoming rfl rfl)
  | succ n ih =>
    refine bind (read (fun b rest hNext => ih (fun bytes rest' hFetch hLength => ?_)
      fun bytes hFetch hLength => ?_) fun hNext => ?_)
    · exact hAll (b :: bytes) rest' (by simp only [fetch, hNext, hFetch]) (by simp [hLength])
    · exact hFew (b :: bytes) (by simp only [fetch, hNext, hFetch]) (by simpa using hLength)
    · exact hFew [] (by simp only [fetch, hNext]) (Nat.succ_pos n)

end Yields

end Dialogue

end BusBench
