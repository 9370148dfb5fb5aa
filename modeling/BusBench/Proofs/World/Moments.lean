import BusBench.CommandLine
import BusBench.Proofs.Link.Dialogues
import BusBench.Proofs.World.Monitors

/-!
# Moments of a loop

A loop that has not come to an end yet is at a moment between two of its rounds. What is so at every
moment follows from what the rounds do that go on, and what a program does is told by the events it
records. A program that fails is not looked at, so nothing has to be known of the peer.

* `Dialogue.Records`, `Act.Records`: the events of a program that succeeds.
* `Act.Emits`: the same, where each event is looked at alone.
* `Act.Passes`: the moments of a loop.
* `Act.Passes.records`: what the rounds record, the loop has recorded at every moment.
-/

namespace BusBench

/-! ## Exchanges -/

theorem Board.Answers.of_append {β : Type} {board : Board β} {s s' : β}
    {trace trace' : List Exchange} (h : board.Answers s (trace ++ trace') s') :
    ∃ mid, board.Answers s trace mid ∧ board.Answers mid trace' s' := by
  induction trace generalizing s with
  | nil => exact ⟨s, .nil s, h⟩
  | cons exchange trace ih =>
    cases h with
    | cons request h =>
      obtain ⟨mid, hFirst, hRest⟩ := ih h
      exact ⟨mid, .cons request hFirst, hRest⟩

/-- Only exchanges are among the exchanges. -/
theorem exchanges_cons {event : Event} (h : event.exchange? = none) (earlier : List Event) :
    exchanges (event :: earlier) = exchanges earlier := by
  have hNone : exchanges [event] = [] := by
    rw [exchanges, List.reverse_singleton, List.filterMap_cons_none h]
    rfl
  rw [← List.singleton_append, exchanges_append, hNone, List.append_nil]

/-! ## What passes between a program and its peer -/

open CommandLine (sentBytes)

/-- The bytes that came from the peer, among events of which the newest stands first. -/
def heardBytes (events : List Event) : List UInt8 :=
  events.reverse.filterMap fun
    | .peer (.received b) => some b
    | _ => none

theorem heardBytes_append (new earlier : List Event) :
    heardBytes (new ++ earlier) = heardBytes earlier ++ heardBytes new := by
  simp only [heardBytes, List.reverse_append, List.filterMap_append]

/-- The bytes sent, as those heard are given. -/
theorem sentBytes_eq (events : List Event) :
    sentBytes events =
      events.reverse.filterMap fun
        | .peer (.sent b) => some b
        | _ => none := by
  have hFrom : ∀ (events : List Event) (bytes : List UInt8),
      events.foldl (fun bytes event =>
        match event with
        | .peer (.sent byte) => byte :: bytes
        | _ => bytes) bytes =
        (events.reverse.filterMap fun
          | .peer (.sent b) => some b
          | _ => none) ++ bytes := by
    intro events
    induction events with
    | nil => exact fun bytes => rfl
    | cons event events ih =>
      intro bytes
      rw [List.foldl_cons, ih, List.reverse_cons, List.filterMap_append, List.append_assoc]
      rcases event with _ | event | _
      · rfl
      · cases event <;> rfl
      · rfl
  exact (hFrom events []).trans (List.append_nil _)

theorem sentBytes_append (new earlier : List Event) :
    sentBytes (new ++ earlier) = sentBytes earlier ++ sentBytes new := by
  simp only [sentBytes_eq, List.reverse_append, List.filterMap_append]

/-! ## Programs that succeed -/

/-- What follows a program is only run if the program succeeded. -/
theorem of_run_bind {σ ε α γ : Type} {program : ExceptT ε (StateM σ) α}
    {next : α → ExceptT ε (StateM σ) γ} {s s' : σ} {c : γ}
    (h : (program >>= next).run s = (.ok c, s')) :
    ∃ a mid, program.run s = (.ok a, mid) ∧ (next a).run mid = (.ok c, s') := by
  rw [run_bind] at h
  generalize program.run s = done at h ⊢
  obtain ⟨_ | a, mid⟩ := done
  · cases h
  · exact ⟨a, mid, rfl, h⟩

/-- Whatever errors are, what a program succeeded with tells its result. -/
theorem eq_ok_of_toOption {ε α : Type} {result : Except ε α} {a : α}
    (h : result.toOption = some a) : result = .ok a := by
  cases result with
  | error e => cases h
  | ok b => exact congrArg _ (Option.some.inj h)

namespace Dialogue

variable {τ κ ε δ α γ : Type}

/-- If the dialogue succeeds, it does so with an answer and with new events that `post` accepts. -/
def Records (talk : Dialogue τ ε α) (post : α → List PeerEvent → Prop) : Prop :=
  ∀ (r r' : Recorded τ) (a : α), talk.run r = (.ok a, r') →
    ∃ new, r'.events = new ++ r.events ∧ post a new

namespace Records

variable {talk : Dialogue τ ε α} {post : α → List PeerEvent → Prop}

theorem mono {weak : α → List PeerEvent → Prop} (h : Records talk post)
    (hPost : ∀ a new, post a new → weak a new) : Records talk weak := by
  intro r r' a hRun
  obtain ⟨new, hNew, hResult⟩ := h r r' a hRun
  exact ⟨new, hNew, hPost a new hResult⟩

theorem pure {a : α} (h : post a []) : Records (Pure.pure a : Dialogue τ ε α) post := by
  intro r r' a' hRun
  cases hRun
  exact ⟨[], rfl, h⟩

theorem throw (e : ε) : Records (MonadExcept.throw e : Dialogue τ ε α) post := by
  intro r r' a hRun
  cases hRun

theorem peer {post : τ → List PeerEvent → Prop} (h : ∀ x, post x []) :
    Records (Dialogue.peer : Dialogue τ ε τ) post := by
  intro r r' a hRun
  cases hRun
  exact ⟨[], rfl, h _⟩

theorem modifyPeer {change : τ → τ} {post : Unit → List PeerEvent → Prop} (h : post () []) :
    Records (Dialogue.modifyPeer change : Dialogue τ ε Unit) post := by
  intro r r' a hRun
  cases hRun
  exact ⟨[], rfl, h⟩

theorem note {event : PeerEvent} {post : Unit → List PeerEvent → Prop} (h : post () [event]) :
    Records (Dialogue.note event : Dialogue τ ε Unit) post := by
  intro r r' a hRun
  cases hRun
  exact ⟨[event], rfl, h⟩

theorem bind {next : α → Dialogue τ ε γ} {post : γ → List PeerEvent → Prop}
    (h : Records talk fun a new => Records (next a) fun c new' => post c (new' ++ new)) :
    Records (talk >>= next) post := by
  intro r r' c hRun
  obtain ⟨a, mid, hFirst, hNext⟩ := of_run_bind hRun
  obtain ⟨new, hNew, hRest⟩ := h r mid a hFirst
  obtain ⟨new', hNew', hResult⟩ := hRest mid r' c hNext
  exact ⟨new' ++ new, by rw [hNew', hNew, List.append_assoc], hResult⟩

theorem within {get : κ → τ} {set : τ → κ → κ} {rename : ε → δ} (h : Records talk post) :
    Records (talk.within get set rename) post := by
  intro r r' a hRun
  change (((talk.run ⟨get r.peer, r.events⟩).1).mapError rename,
    (⟨set (talk.run ⟨get r.peer, r.events⟩).2.peer r.peer,
      (talk.run ⟨get r.peer, r.events⟩).2.events⟩ : Recorded κ)) = (.ok a, r') at hRun
  rcases hTalk : talk.run ⟨get r.peer, r.events⟩ with ⟨e | a', mid⟩
  · rw [hTalk] at hRun
    cases hRun
  · rw [hTalk] at hRun
    cases hRun
    exact h _ mid a hTalk

/-! ### Links -/

theorem output {serve : Link → Attempt × Link} {event : PeerEvent} {reason : LinkError}
    {post : Unit → List PeerEvent → Prop} (h : post () [event]) :
    Records (Link.output serve event reason) post := by
  intro r r' a hRun
  unfold Link.output at hRun
  rw [peer_bind] at hRun
  rcases hInsist : Link.insist serve r.peer.stalled r.peer with ⟨result, link⟩
  rw [hInsist] at hRun
  by_cases hDone : result = .done
  · subst hDone
    cases hRun
    exact ⟨[event], rfl, h⟩
  · simp only [if_neg hDone] at hRun
    cases hRun

theorem send {b : UInt8} {post : Unit → List PeerEvent → Prop} (h : post () [.sent b]) :
    Records (Link.send b) post :=
  output h

theorem flush {post : Unit → List PeerEvent → Prop} (h : post () [.flushed]) :
    Records Link.flush post :=
  output h

theorem sendAll {bytes : List UInt8} {post : Unit → List PeerEvent → Prop}
    (h : post () (bytes.map .sent).reverse) : Records (Link.sendAll bytes) post := by
  induction bytes generalizing post with
  | nil => exact .pure h
  | cons b bytes ih =>
    refine .bind (.send (ih ?_))
    rw [List.map_cons, List.reverse_cons] at h
    exact h

theorem tryRead {post : Option UInt8 → List PeerEvent → Prop} (hPause : post none [.idle])
    (hByte : ∀ b, post (some b) [.received b]) : Records Link.tryRead post := by
  rintro ⟨⟨arrivals, _, _, _, _, _, _⟩, events⟩ r' a hRun
  cases arrivals with
  | nil => cases hRun
  | cons arrival rest =>
    cases arrival with
    | byte b =>
      cases hRun
      exact ⟨[.received b], rfl, hByte b⟩
    | pause =>
      cases hRun
      exact ⟨[.idle], rfl, hPause⟩

/-- The byte may have been waited for. -/
theorem read {post : UInt8 → List PeerEvent → Prop}
    (h : ∀ b silence, (∀ event ∈ silence, event = PeerEvent.idle) →
      post b (.received b :: silence)) : Records Link.read post := by
  have hAwait : ∀ (arrivals : List Arrival) (events : List PeerEvent) (b : UInt8),
      (Link.awaitByte arrivals events).1 = some b →
        ∃ silence, (∀ event ∈ silence, event = PeerEvent.idle) ∧
          (Link.awaitByte arrivals events).2.2 = .received b :: silence ++ events := by
    intro arrivals
    induction arrivals with
    | nil => intro events b hNone; cases hNone
    | cons arrival arrivals ih =>
      intro events b hSome
      cases arrival with
      | byte b' =>
        cases hSome
        exact ⟨[], fun _ hEvent => absurd hEvent List.not_mem_nil, rfl⟩
      | pause =>
        obtain ⟨silence, hSilence, hEvents⟩ := ih (.idle :: events) b hSome
        refine ⟨silence ++ [.idle], fun event hEvent => ?_, by simp [Link.awaitByte, hEvents]⟩
        rcases List.mem_append.mp hEvent with hEvent | hEvent
        · exact hSilence event hEvent
        · exact List.mem_singleton.mp hEvent
  intro r r' a hRun
  unfold Link.read at hRun
  rw [get_bind] at hRun
  have hByte := hAwait r.peer.incoming r.events
  rcases hResult : Link.awaitByte r.peer.incoming r.events with ⟨_ | b, rest, events⟩
  · rw [hResult] at hRun
    cases hRun
  · rw [hResult] at hRun hByte
    cases hRun
    obtain ⟨silence, hSilence, hEvents⟩ := hByte a rfl
    exact ⟨.received a :: silence, hEvents, h a silence hSilence⟩

end Records

end Dialogue

namespace Act

variable {ω β τ κ ε δ α γ σ : Type}

/-- If the program succeeds, it does so with an answer and with new events that `post` accepts, and
the board answered as they say. -/
def Records (program : Act ω β τ ε α) (post : α → List Event → Prop) : Prop :=
  ∀ (board : Board β) (world world' : World ω β τ) (a : α),
    (program board).run world = (.ok a, world') →
      ∃ new, world'.events = new ++ world.events ∧
        board.Answers world.board (exchanges new) world'.board ∧ post a new

namespace Records

variable {program : Act ω β τ ε α} {post : α → List Event → Prop}

theorem mono {weak : α → List Event → Prop} (h : Records program post)
    (hPost : ∀ a new, post a new → weak a new) : Records program weak := by
  intro board world world' a hRun
  obtain ⟨new, hNew, hAnswers, hResult⟩ := h board world world' a hRun
  exact ⟨new, hNew, hAnswers, hPost a new hResult⟩

theorem pure {a : α} (h : post a []) : Records (Pure.pure a : Act ω β τ ε α) post := by
  intro board world world' a' hRun
  cases hRun
  exact ⟨[], rfl, .nil _, h⟩

theorem throw (e : ε) : Records (MonadExcept.throw e : Act ω β τ ε α) post := by
  intro board world world' a hRun
  cases hRun

theorem bind {next : α → Act ω β τ ε γ} {post : γ → List Event → Prop}
    (h : Records program fun a new => Records (next a) fun c new' => post c (new' ++ new)) :
    Records (program >>= next) post := by
  intro board world world' c hRun
  obtain ⟨a, mid, hFirst, hNext⟩ := of_run_bind hRun
  obtain ⟨new, hNew, hAnswers, hRest⟩ := h board world mid a hFirst
  obtain ⟨new', hNew', hAnswers', hResult⟩ := hRest board mid world' c hNext
  refine ⟨new' ++ new, by rw [hNew', hNew, List.append_assoc], ?_, hResult⟩
  rw [exchanges_append]
  exact hAnswers.append hAnswers'

theorem ite {condition : Prop} [Decidable condition] {yes no : Act ω β τ ε α}
    (hYes : condition → Records yes post) (hNo : ¬ condition → Records no post) :
    Records (if condition then yes else no) post := by
  split
  · next h => exact hYes h
  · next h => exact hNo h

/-- The answer of the board may be anything. -/
theorem ask {request : Request} {post : request.Answer → List Event → Prop}
    (h : ∀ answer, post answer [.board ⟨request, answer⟩]) :
    Records (Act.ask request : Act ω β τ ε request.Answer) post := by
  intro board world world' a hRun
  cases hRun
  exact ⟨[.board ⟨request, (board.answer request world.board).1⟩], rfl,
    .cons request (.nil _), h _⟩

theorem tell {request : Request} {post : Unit → List Event → Prop}
    (h : ∀ answer, post () [.board ⟨request, answer⟩]) :
    Records (Act.tell request : Act ω β τ ε Unit) post :=
  .bind (.ask fun answer => .pure (h answer))

theorem reach {point : Point} {post : Unit → List Event → Prop} (h : post () [.reached point]) :
    Records (Act.reach point : Act ω β τ ε Unit) post := by
  intro board world world' a hRun
  cases hRun
  exact ⟨[.reached point], rfl, .nil _, h⟩

theorem dialogue {talk : Dialogue τ ε α}
    (h : Dialogue.Records talk fun a new => post a (new.map .peer)) :
    Records (Act.dialogue talk : Act ω β τ ε α) post := by
  intro board world world' a hRun
  rcases hTalk : talk.run ⟨world.peer, []⟩ with ⟨result, r⟩
  rw [dialogue_run hTalk] at hRun
  cases hRun
  obtain ⟨new, hNew, hResult⟩ := h _ r a hTalk
  rw [List.append_nil] at hNew
  refine ⟨new.map .peer, by simp only [hNew], ?_, hResult⟩
  rw [exchanges_map_peer]
  exact .nil _

/-- Whatever is talked about, the board is not concerned. -/
theorem talk {talk : Dialogue τ ε α}
    (h : ∀ (a : α) (new : List PeerEvent), post a (new.map .peer)) :
    Records (Act.dialogue talk : Act ω β τ ε α) post := by
  intro board world world' a hRun
  rcases hTalk : talk.run ⟨world.peer, []⟩ with ⟨result, r⟩
  rw [dialogue_run hTalk] at hRun
  cases hRun
  refine ⟨r.events.map .peer, rfl, ?_, h a _⟩
  rw [exchanges_map_peer]
  exact .nil _

/-- A dialogue whose failure is an answer like any other. -/
theorem attempt_dialogue {talk : Dialogue τ ε α} {post : Except ε α → List Event → Prop}
    (h : Dialogue.Records talk fun a new => post (.ok a) (new.map .peer))
    (hFailed : ∀ e new, post (.error e) new) :
    Records (Act.attempt (Act.dialogue talk) : Act ω β τ δ (Except ε α)) post := by
  intro board world world' result hRun
  rcases hTalk : talk.run ⟨world.peer, []⟩ with ⟨answer, r⟩
  rw [attempt_run (dialogue_run hTalk)] at hRun
  cases hRun
  refine ⟨r.events.map .peer, rfl, ?_, ?_⟩
  · rw [exchanges_map_peer]
    exact .nil _
  · rcases result with e | a
    · exact hFailed e _
    · obtain ⟨new, hNew, hResult⟩ := h _ r a hTalk
      rw [List.append_nil] at hNew
      rw [hNew]
      exact hResult

/-- A loop whose rounds never answer does not succeed. -/
theorem serveUntil_never {round : σ → Binary.Talk ω β (σ ⊕ α)} {x : σ}
    {post : α → List Event → Prop}
    (h : ∀ x, Records (round x) fun result _ => ∀ a, result ≠ .inr a) :
    Records (Binary.serveUntil round x) post := by
  have hRounds (limit : Nat) (x : σ) :
      Records (rounds (MonadExcept.throw LinkError.endOfInput) round limit x)
        fun _ _ => False := by
    induction limit generalizing x with
    | zero => exact .throw _
    | succ limit ih =>
      refine .bind ((h x).mono fun result _ hResult => ?_)
      cases result with
      | inl x' => exact ih x'
      | inr a => exact absurd rfl (hResult a)
  intro board world world' a hRun
  obtain ⟨_, -, -, hNever⟩ := hRounds _ x board world world' a hRun
  exact hNever.elim

end Records

/-- What a program records is known of a single run that succeeds. -/
theorem Ends.of_records (board : Board β) {program : Act ω β τ ε α} {world : World ω β τ}
    {post : α → List Event → Prop} (h : Records program post) :
    Ends board program world fun r w =>
      ∀ a, r = .ok a → ∃ new, w.events = new ++ world.events ∧ post a new := by
  intro a hOk
  obtain ⟨new, hNew, -, hPost⟩ := h board world _ a (Prod.ext hOk rfl)
  exact ⟨new, hNew, hPost⟩

/-- If the program succeeds, its answer is such as `post` says, and all its events are such as `P`
says. -/
def Emits (P : Event → Prop) (program : Act ω β τ ε α) (post : α → Prop) : Prop :=
  Records program fun a new => (∀ event ∈ new, P event) ∧ post a

namespace Emits

variable {P : Event → Prop} {program : Act ω β τ ε α} {post : α → Prop}

theorem pure {a : α} (h : post a) : Emits P (Pure.pure a : Act ω β τ ε α) post :=
  Records.pure ⟨fun _ hEvent => absurd hEvent List.not_mem_nil, h⟩

theorem bind {next : α → Act ω β τ ε γ} {post : γ → Prop}
    (h : Emits P program fun a => Emits P (next a) post) : Emits P (program >>= next) post :=
  Records.bind (h.mono fun _ _ hFirst => hFirst.2.mono fun _ _ hSecond =>
    ⟨List.forall_mem_append.mpr ⟨hSecond.1, hFirst.1⟩, hSecond.2⟩)

theorem ite {condition : Prop} [Decidable condition] {yes no : Act ω β τ ε α}
    (hYes : condition → Emits P yes post) (hNo : ¬ condition → Emits P no post) :
    Emits P (if condition then yes else no) post :=
  Records.ite hYes hNo

theorem ask {request : Request} {post : request.Answer → Prop}
    (h : ∀ answer, P (.board ⟨request, answer⟩)) (hPost : ∀ answer, post answer) :
    Emits P (Act.ask request : Act ω β τ ε request.Answer) post :=
  Records.ask fun answer => ⟨List.forall_mem_singleton.mpr (h answer), hPost answer⟩

theorem tell {request : Request} {post : Unit → Prop}
    (h : ∀ answer, P (.board ⟨request, answer⟩)) (hPost : post ()) :
    Emits P (Act.tell request : Act ω β τ ε Unit) post :=
  bind (ask h fun _ => pure hPost)

theorem dialogue {talk : Dialogue τ ε α} (h : ∀ event, P (.peer event)) (hPost : ∀ a, post a) :
    Emits P (Act.dialogue talk : Act ω β τ ε α) post := by
  refine Records.talk fun a new => ⟨fun event hEvent => ?_, hPost a⟩
  obtain ⟨peerEvent, -, rfl⟩ := List.mem_map.mp hEvent
  exact h peerEvent

theorem peripheralCommand {byte : UInt8} {post : UInt8 → Prop}
    (hPower : ∀ on answer, P (.board ⟨.power on, answer⟩))
    (hPullups : ∀ on answer, P (.board ⟨.pullups on, answer⟩))
    (hPin : ∀ pin high answer, P (.board ⟨.pin pin (.output high), answer⟩))
    (h : ∀ b, post b) :
    Emits P (Binary.peripheralCommand byte : Act ω β τ ε UInt8) post := by
  unfold Binary.peripheralCommand
  split
  · exact .pure (h _)
  · refine .bind (.bind (.tell (hPower _) (.bind (.tell (hPullups _) (.bind (.ask (hPin _ _)
      fun answer => ?_))))))
    cases answer with
    | error reason => exact .pure (.pure (h _))
    | ok _ => exact .ask (hPin _ _) fun _ => .pure (h _)

end Emits

/-! ## Moments -/

/-- The loop that began in state `x` and this world is about to make the next round in another state
and world. -/
inductive Passes (board : Board β) (round : σ → Act ω β τ ε (σ ⊕ α)) (x : σ) (w : World ω β τ) :
    σ → World ω β τ → Prop
  | start : Passes board round x w x w
  | next {x' w' x'' w''} (h : Passes board round x w x' w')
    (hRound : (round x' board).run w' = (.ok (.inl x''), w'')) : Passes board round x w x'' w''

namespace Passes

variable {board : Board β} {round : σ → Act ω β τ ε (σ ⊕ α)} {x x' x'' : σ} {w w' w'' : World ω β τ}

theorem trans (h : Passes board round x w x' w') (h' : Passes board round x' w' x'' w'') :
    Passes board round x w x'' w'' := by
  induction h' with
  | start => exact h
  | next h' hRound ih => exact .next ih hRound

theorem step (h : Passes board round x w x' w')
    (hRound : ((round x' board).run w').1.toOption = some (.inl x'')) :
    Passes board round x w x'' ((round x').after board w') :=
  .next h (Prod.ext (eq_ok_of_toOption hRound) rfl)

/-- What is said of events, and carried on from each round to the next, is said of all events since
the loop began. -/
theorem records {P : σ → σ → List Event → Prop} (hStart : ∀ x, P x x [])
    (hTrans : ∀ {x x' x'' new new'}, P x x' new → P x' x'' new' → P x x'' (new' ++ new))
    (hRound : ∀ x, Records (round x) fun result new => ∀ x', result = .inl x' → P x x' new)
    (h : Passes board round x w x' w') :
    ∃ new, w'.events = new ++ w.events ∧ board.Answers w.board (exchanges new) w'.board ∧
      P x x' new := by
  induction h with
  | start => exact ⟨[], rfl, .nil _, hStart x⟩
  | @next x' w' x'' w'' h hRun ih =>
    obtain ⟨new, hNew, hAnswers, hSoFar⟩ := ih
    obtain ⟨new', hNew', hAnswers', hMore⟩ := hRound x' board w' w'' _ hRun
    refine ⟨new' ++ new, by rw [hNew', hNew, List.append_assoc], ?_,
      hTrans hSoFar (hMore x'' rfl)⟩
    rw [exchanges_append]
    exact hAnswers.append hAnswers'

/-- Whether a loop that ends within so many rounds passes only worlds like this. -/
def passesOnly (board : Board β) (round : σ → Act ω β τ ε (σ ⊕ α)) (test : World ω β τ → Bool) :
    Nat → σ → World ω β τ → Bool
  | 0, _, _ => false
  | n + 1, x, w => test w && match (round x board).run w with
    | (.ok (.inl x'), w') => passesOnly board round test n x' w'
    | _ => true

theorem of_passesOnly {test : World ω β τ → Bool} {n : Nat}
    (hTest : passesOnly board round test n x w = true) (h : Passes board round x w x' w') :
    test w' = true := by
  have hHere : ∃ n, passesOnly board round test n x' w' = true := by
    induction h with
    | start => exact ⟨n, hTest⟩
    | next h hRound ih =>
      obtain ⟨n, hOnly⟩ := ih
      cases n with
      | zero => cases hOnly
      | succ n =>
        rw [passesOnly, hRound, Bool.and_eq_true] at hOnly
        exact ⟨n, hOnly.2⟩
  obtain ⟨n, hOnly⟩ := hHere
  cases n with
  | zero => cases hOnly
  | succ n =>
    rw [passesOnly, Bool.and_eq_true] at hOnly
    exact hOnly.1

end Passes

end Act

end BusBench
