import BusBench.Binary.Session

/-!
# Monitors of the exchanges with a board

A monitor looks at every exchange with a board, keeps a state of its own, and objects to exchanges
that must not happen. A program that obeys a monitor never makes an exchange to which it objects,
whatever the board answers and whatever its peer does.

* `exchanges`: the exchanges among events.
* `Board.Answers`: a board answers as some exchanges say.
* `Monitor`: what is made of exchanges.
* `Act.Obeys`: what a program comes to under a monitor.
* `Act.Stays`: the program leaves the monitor in the state in which it was.
* `Act.Succeeds`: besides, it does not fail.
* `Act.Ends`: what a program comes to in a single run.
-/

namespace BusBench

/-! ## Exchanges -/

def Event.exchange? : Event → Option Exchange
  | board exchange => some exchange
  | _ => none

/-- The exchanges among events, of which the newest stands first. The oldest exchange stands first.
-/
def exchanges (events : List Event) : List Exchange :=
  events.reverse.filterMap Event.exchange?

theorem exchanges_append (new earlier : List Event) :
    exchanges (new ++ earlier) = exchanges earlier ++ exchanges new := by
  rw [exchanges, List.reverse_append, List.filterMap_append]
  rfl

theorem exchanges_cons_board (exchange : Exchange) (earlier : List Event) :
    exchanges (.board exchange :: earlier) = exchanges earlier ++ [exchange] :=
  exchanges_append [.board exchange] earlier

/-- A dialogue with the peer asks nothing of the board. -/
theorem exchanges_map_peer (events : List PeerEvent) : exchanges (events.map .peer) = [] := by
  rw [exchanges, List.filterMap_eq_nil_iff]
  intro event hEvent
  rw [List.mem_reverse, List.mem_map] at hEvent
  obtain ⟨_, -, rfl⟩ := hEvent
  rfl

theorem exchanges_peer_append (new : List PeerEvent) (earlier : List Event) :
    exchanges (new.map .peer ++ earlier) = exchanges earlier := by
  rw [exchanges_append, exchanges_map_peer, List.append_nil]

namespace Board

variable {β : Type} {board : Board β}

/-- Going from one state to another, the board answers as the exchanges say. -/
inductive Answers (board : Board β) : β → List Exchange → β → Prop
  | nil (s) : Answers board s [] s
  | cons (request) {s trace s'} (h : Answers board (board.answer request s).2 trace s') :
    Answers board s (⟨request, (board.answer request s).1⟩ :: trace) s'

theorem Answers.append {s mid s' : β} {trace trace' : List Exchange}
    (h : board.Answers s trace mid) (h' : board.Answers mid trace' s') :
    board.Answers s (trace ++ trace') s' := by
  induction h with
  | nil s => exact h'
  | cons request h ih => exact .cons request (ih h')

end Board

/-! ## Monitors -/

/-- What is made of an exchange; `none` if it must not happen. -/
structure Monitor (S : Type) where
  step : Exchange → S → Option S

namespace Monitor

variable {S : Type} (m : Monitor S)

/-- What is made of exchanges, the oldest first. -/
def run : List Exchange → S → Option S
  | [], s => some s
  | exchange :: trace, s => (m.step exchange s).bind (run trace)

theorem run_append (trace trace' : List Exchange) (s : S) :
    m.run (trace ++ trace') s = (m.run trace s).bind (m.run trace') := by
  induction trace generalizing s with
  | nil => rfl
  | cons exchange trace ih =>
    rw [List.cons_append, run, run, Option.bind_assoc]
    exact congrArg _ (funext ih)

end Monitor

namespace Act

variable {S ω ψ β τ κ ε δ α γ σ : Type} {m : Monitor S}

/-- The world after the program. -/
abbrev after (program : Act ω β τ ε α) (board : Board β) (world : World ω β τ) : World ω β τ :=
  ((program board).run world).2

/-- What follows a program is run on its result, in the world after it. -/
theorem run_bind {board : Board β} {program : Act ω β τ ε α} {next : α → Act ω β τ ε γ}
    {world : World ω β τ} :
    ((program >>= next) board).run world =
      (ExceptT.bindCont (next · board) ((program board).run world).1).run
        ((program board).run world).2 :=
  rfl

/-- A loop on a board is a loop of its rounds on that board. -/
theorem rounds_apply (exhausted : Act ω β τ ε α) (round : σ → Act ω β τ ε (σ ⊕ α)) (n : Nat) (x : σ)
    (board : Board β) : BusBench.rounds exhausted round n x board =
      BusBench.rounds (exhausted board) (fun x => round x board) n x := by
  induction n generalizing x with
  | zero => rfl
  | succ n ih =>
    unfold BusBench.rounds
    change round x board >>= _ = round x board >>= _
    refine bind_congr fun next => ?_
    cases next with
    | inl x' => exact ih x'
    | inr a => rfl

/-- After a program that succeeded the next one follows. -/
theorem bind_run {board : Board β} {program : Act ω β τ ε α} {next : α → Act ω β τ ε γ}
    {world world' : World ω β τ} {a : α} (h : (program board).run world = (.ok a, world')) :
    ((program >>= next) board).run world = ((next a) board).run world' := by
  rw [run_bind, h]
  rfl

/-- From this own state and this state of the monitor, the program makes only exchanges to which
the monitor does not object, and comes to a result, an own state and a state of the monitor that
`post` accepts. -/
def Obeys (m : Monitor S) (program : Act ω β τ ε α) (x : ω) (s : S)
    (post : Except ε α → ω → S → Prop) : Prop :=
  ∀ (board : Board β) (world : World ω β τ), world.own = x →
    ∃ trace s', exchanges (program.after board world).events = exchanges world.events ++ trace ∧
      board.Answers world.board trace (program.after board world).board ∧
      m.run trace s = some s' ∧
      post ((program board).run world).1 (program.after board world).own s'

namespace Obeys

variable {program : Act ω β τ ε α} {x : ω} {s : S} {post : Except ε α → ω → S → Prop}

theorem mono {weak : Except ε α → ω → S → Prop} (h : Obeys m program x s post)
    (hPost : ∀ r x' s', post r x' s' → weak r x' s') : Obeys m program x s weak := by
  intro board world hOwn
  obtain ⟨trace, s', hTrace, hAnswers, hRun, hResult⟩ := h board world hOwn
  exact ⟨trace, s', hTrace, hAnswers, hRun, hPost _ _ _ hResult⟩

/-- A program without exchanges is known by its result and its own state. -/
theorem of_quiet (h : ∀ board world, world.own = x →
      exchanges (program.after board world).events = exchanges world.events ∧
        (program.after board world).board = world.board ∧
        post ((program board).run world).1 (program.after board world).own s) :
    Obeys m program x s post := by
  intro board world hOwn
  obtain ⟨hEvents, hBoard, hResult⟩ := h board world hOwn
  refine ⟨[], s, ?_, ?_, rfl, hResult⟩
  · rw [hEvents, List.append_nil]
  · rw [hBoard]
    exact .nil _

theorem pure {a : α} (h : post (.ok a) x s) :
    Obeys m (Pure.pure a : Act ω β τ ε α) x s post :=
  of_quiet fun _ _ hOwn => ⟨rfl, rfl, hOwn ▸ h⟩

theorem throw {e : ε} (h : post (.error e) x s) :
    Obeys m (MonadExcept.throw e : Act ω β τ ε α) x s post :=
  of_quiet fun _ _ hOwn => ⟨rfl, rfl, hOwn ▸ h⟩

theorem bind {next : α → Act ω β τ ε γ} {post : Except ε γ → ω → S → Prop}
    (h : Obeys m program x s fun
      | .ok a, x', s' => Obeys m (next a) x' s' post
      | .error e, x', s' => post (.error e) x' s') :
    Obeys m (program >>= next) x s post := by
  intro board world hOwn
  obtain ⟨trace, mid, hTrace, hAnswers, hRun, hFirst⟩ := h board world hOwn
  unfold after at hTrace hAnswers hFirst ⊢
  rw [run_bind]
  generalize (program board).run world = done at hTrace hAnswers hFirst ⊢
  obtain ⟨_ | a, world'⟩ := done
  · exact ⟨trace, mid, hTrace, hAnswers, hRun, hFirst⟩
  · obtain ⟨trace', s', hTrace', hAnswers', hRun', hResult⟩ := hFirst board world' rfl
    refine ⟨trace ++ trace', s', ?_, hAnswers.append hAnswers', ?_, hResult⟩
    · exact hTrace'.trans (by rw [hTrace, List.append_assoc])
    · rw [Monitor.run_append, hRun]
      exact hRun'

/-- The answer of the board may be anything. -/
theorem ask {request : Request} {post : Except ε request.Answer → ω → S → Prop}
    (h : ∀ answer, ∃ s', m.step ⟨request, answer⟩ s = some s' ∧ post (.ok answer) x s') :
    Obeys m (Act.ask request : Act ω β τ ε request.Answer) x s post := by
  rintro board world rfl
  obtain ⟨s', hStep, hResult⟩ := h (board.answer request world.board).1
  refine ⟨[⟨request, (board.answer request world.board).1⟩], s', ?_, ?_, ?_, hResult⟩
  · exact exchanges_cons_board _ _
  · exact .cons request (.nil _)
  · rw [Monitor.run, hStep]
    rfl

theorem tell {request : Request} {post : Except ε Unit → ω → S → Prop}
    (h : ∀ answer, ∃ s', m.step ⟨request, answer⟩ s = some s' ∧ post (.ok ()) x s') :
    Obeys m (Act.tell request : Act ω β τ ε Unit) x s post := by
  refine bind (ask fun answer => ?_)
  obtain ⟨s', hStep, hResult⟩ := h answer
  exact ⟨s', hStep, pure hResult⟩

theorem reach {point : Point} {post : Except ε Unit → ω → S → Prop} (h : post (.ok ()) x s) :
    Obeys m (Act.reach point : Act ω β τ ε Unit) x s post :=
  of_quiet fun _ world hOwn => ⟨exchanges_append [.reached point] world.events |>.trans
    (List.append_nil _), rfl, hOwn ▸ h⟩

/-- The peer may be anything. -/
theorem dialogue {talk : Dialogue τ ε α} (h : ∀ peer, post (talk.run ⟨peer, []⟩).1 x s) :
    Obeys m (Act.dialogue talk : Act ω β τ ε α) x s post := by
  exact of_quiet fun board world hOwn =>
    ⟨exchanges_peer_append _ world.events, rfl, hOwn ▸ h world.peer⟩

theorem attempt {post : Except δ (Except ε α) → ω → S → Prop}
    (h : Obeys m program x s fun r => post (.ok r)) :
    Obeys m (Act.attempt program : Act ω β τ δ (Except ε α)) x s post :=
  h

theorem ofExcept {result : Except ε α} (h : post result x s) :
    Obeys m (Act.ofExcept result : Act ω β τ ε α) x s post := by
  cases result with
  | ok a => exact pure h
  | error e => exact throw h

theorem own {post : Except ε ω → ω → S → Prop} (h : post (.ok x) x s) :
    Obeys m (Act.own : Act ω β τ ε ω) x s post :=
  of_quiet fun _ world hOwn => ⟨rfl, rfl, by subst hOwn; exact h⟩

theorem modifyOwn {change : ω → ω} {post : Except ε Unit → ω → S → Prop}
    (h : post (.ok ()) (change x) s) :
    Obeys m (Act.modifyOwn change : Act ω β τ ε Unit) x s post :=
  of_quiet fun _ world hOwn => ⟨rfl, rfl, by subst hOwn; exact h⟩

theorem board {post : Except ε (Board β) → ω → S → Prop} (h : ∀ board, post (.ok board) x s) :
    Obeys m (MonadReader.read : Act ω β τ ε (Board β)) x s post :=
  of_quiet fun board _ hOwn => ⟨rfl, rfl, hOwn ▸ h board⟩

theorem modifyPeer (change : τ → τ) {post : Except ε Unit → ω → S → Prop}
    (h : post (.ok ()) x s) :
    Obeys m (modify fun world => { world with peer := change world.peer } : Act ω β τ ε Unit) x s
      post :=
  of_quiet fun _ _ hOwn => ⟨rfl, rfl, hOwn ▸ h⟩

/-- The peer decides how the program goes on. -/
theorem at_peer (next : τ → Act ω β τ ε α) (h : ∀ peer, Obeys m (next peer) x s post) :
    Obeys m (do next (← get).peer) x s post :=
  fun board world hOwn => h world.peer board world hOwn

theorem withOwn {y : ψ} {inner : Act ψ β τ ε α} {post : Except δ (Except ε α × ψ) → ω → S → Prop}
    (h : Obeys m inner y s fun r y' s' => post (.ok (r, y')) x s') :
    Obeys m (Act.withOwn y inner : Act ω β τ δ (Except ε α × ψ)) x s post := by
  rintro board world rfl
  exact h board ⟨y, world.board, world.peer, world.events⟩ rfl

theorem onPart {get : τ → κ} {set : κ → τ → τ} {inner : Act ω β κ ε α}
    (h : Obeys m inner x s post) : Obeys m (Act.onPart get set inner) x s post := by
  rintro board world rfl
  exact h board ⟨world.own, world.board, get world.peer, world.events⟩ rfl

end Obeys

/-! ## Programs that leave a monitor as it is -/

/-- As long as its own state is as `P` says and the monitor is in this state, both are so after the
program. -/
def Stays (m : Monitor S) (P : ω → Prop) (s : S) (program : Act ω β τ ε α) : Prop :=
  ∀ x, P x → Obeys m program x s fun _ x' s' => P x' ∧ s' = s

namespace Stays

variable {P : ω → Prop} {s : S} {program : Act ω β τ ε α}

theorem pure (a : α) : Stays m P s (Pure.pure a : Act ω β τ ε α) :=
  fun _ hOwn => .pure ⟨hOwn, rfl⟩

theorem throw (e : ε) : Stays m P s (MonadExcept.throw e : Act ω β τ ε α) :=
  fun _ hOwn => .throw ⟨hOwn, rfl⟩

/-- After a program that leaves the monitor alone any other program may follow. -/
theorem obeys_bind {next : α → Act ω β τ ε γ} {x : ω} {post : Except ε γ → ω → S → Prop}
    (h : Stays m P s program) (hOwn : P x) (hNext : ∀ a x, P x → Obeys m (next a) x s post)
    (hError : ∀ e x, P x → post (.error e) x s) : Obeys m (program >>= next) x s post := by
  refine .bind ((h x hOwn).mono fun r x' s' hFirst => ?_)
  obtain ⟨hOwn', rfl⟩ := hFirst
  cases r with
  | ok a => exact hNext a x' hOwn'
  | error e => exact hError e x' hOwn'

theorem bind {next : α → Act ω β τ ε γ} (h : Stays m P s program)
    (hNext : ∀ a, Stays m P s (next a)) : Stays m P s (program >>= next) :=
  fun _ hOwn => h.obeys_bind hOwn (fun a => hNext a) fun _ _ hOwn' => ⟨hOwn', rfl⟩

theorem ite {condition : Prop} [Decidable condition] {yes no : Act ω β τ ε α}
    (hYes : Stays m P s yes) (hNo : Stays m P s no) :
    Stays m P s (if condition then yes else no) := by
  split
  · exact hYes
  · exact hNo

/-- Exchanges of which the monitor takes no notice. -/
theorem ask {request : Request} (h : ∀ answer, m.step ⟨request, answer⟩ s = some s) :
    Stays m P s (Act.ask request : Act ω β τ ε request.Answer) :=
  fun _ hOwn => .ask fun answer => ⟨s, h answer, hOwn, rfl⟩

theorem tell {request : Request} (h : ∀ answer, m.step ⟨request, answer⟩ s = some s) :
    Stays m P s (Act.tell request : Act ω β τ ε Unit) :=
  (ask h).bind fun _ => pure ()

theorem reach (point : Point) : Stays m P s (Act.reach point : Act ω β τ ε Unit) :=
  fun _ hOwn => .reach ⟨hOwn, rfl⟩

theorem dialogue (talk : Dialogue τ ε α) : Stays m P s (Act.dialogue talk : Act ω β τ ε α) :=
  fun _ hOwn => .dialogue fun _ => ⟨hOwn, rfl⟩

theorem ofExcept (result : Except ε α) : Stays m P s (Act.ofExcept result : Act ω β τ ε α) :=
  fun _ hOwn => .ofExcept ⟨hOwn, rfl⟩

theorem own_bind {next : ω → Act ω β τ ε α} (h : ∀ x, P x → Stays m P s (next x)) :
    Stays m P s (Act.own >>= next) :=
  fun x hOwn => .bind (.own (h x hOwn x hOwn))

theorem modifyOwn {change : ω → ω} (h : ∀ x, P x → P (change x)) :
    Stays m P s (Act.modifyOwn change : Act ω β τ ε Unit) :=
  fun x hOwn => .modifyOwn ⟨h x hOwn, rfl⟩

theorem board : Stays m P s (MonadReader.read : Act ω β τ ε (Board β)) :=
  fun _ hOwn => .board fun _ => ⟨hOwn, rfl⟩

theorem onPart {get : τ → κ} {set : κ → τ → τ} {inner : Act ω β κ ε α} (h : Stays m P s inner) :
    Stays m P s (Act.onPart get set inner) :=
  fun x hOwn => .onPart (h x hOwn)

theorem attempt (h : Stays m P s program) :
    Stays m P s (Act.attempt program : Act ω β τ δ (Except ε α)) :=
  fun x hOwn => .attempt (h x hOwn)

theorem withOwn {Q : ψ → Prop} {inner : Act ψ β τ ε α} {y : ψ} (h : Stays m Q s inner) (hy : Q y) :
    Stays m P s (Act.withOwn y inner : Act ω β τ δ (Except ε α × ψ)) :=
  fun _ hOwn => .withOwn ((h y hy).mono fun _ _ _ hInner => ⟨hOwn, hInner.2⟩)

/-! ### Loops -/

theorem forM {body : α → Act ω β τ ε PUnit} (xs : List α) (h : ∀ a, Stays m P s (body a)) :
    Stays m P s (xs.forM body) := by
  induction xs with
  | nil => exact .pure _
  | cons a xs ih => exact (h a).bind fun _ => ih

theorem filterM {test : α → Act ω β τ ε Bool} (xs : List α) (h : ∀ a, Stays m P s (test a)) :
    Stays m P s (xs.filterM test) := by
  have hAux : ∀ found, Stays m P s (xs.filterAuxM test found) := by
    induction xs with
    | nil => exact fun found => .pure found
    | cons a xs ih => exact fun found => (h a).bind fun _ => ih _
  exact (hAux []).bind fun _ => .pure _

theorem rounds {exhausted : Act ω β τ ε α} {round : σ → Act ω β τ ε (σ ⊕ α)}
    (hExhausted : Stays m P s exhausted) (h : ∀ state, Stays m P s (round state)) (limit : Nat)
    (state : σ) : Stays m P s (BusBench.rounds exhausted round limit state) := by
  induction limit generalizing state with
  | zero => exact hExhausted
  | succ limit ih =>
    refine (h state).bind fun next => ?_
    cases next with
    | inl state' => exact ih state'
    | inr a => exact .pure a

theorem askUntil [Terminal τ] {round : σ → Act ω β τ Error (σ ⊕ α)}
    (h : ∀ state, Stays m P s (round state)) (state : σ) :
    Stays m P s (Act.askUntil round state) :=
  fun x hOwn => Obeys.at_peer
    (fun peer => BusBench.rounds _ round (Terminal.remaining peer + 1) state)
    fun _ => rounds (.throw _) h _ state x hOwn

theorem serveUntil {round : σ → Binary.Talk ω β (σ ⊕ α)} (h : ∀ state, Stays m P s (round state))
    (state : σ) : Stays m P s (Binary.serveUntil round state) :=
  fun x hOwn => Obeys.at_peer
    (fun link => BusBench.rounds _ round (link.incoming.length + 1) state)
    fun _ => rounds (.throw _) h _ state x hOwn

end Stays

/-! ## Programs that cannot fail -/

/-- The program leaves the monitor as it is, and does not fail. -/
def Succeeds (m : Monitor S) (P : ω → Prop) (s : S) (program : Act ω β τ ε α) : Prop :=
  ∀ x, P x → Obeys m program x s fun r x' s' => (∃ a, r = .ok a) ∧ P x' ∧ s' = s

namespace Succeeds

variable {P : ω → Prop} {s : S} {program : Act ω β τ ε α}

theorem pure (a : α) : Succeeds m P s (Pure.pure a : Act ω β τ ε α) :=
  fun _ hOwn => .pure ⟨⟨a, rfl⟩, hOwn, rfl⟩

theorem ask {request : Request} (h : ∀ answer, m.step ⟨request, answer⟩ s = some s) :
    Succeeds m P s (Act.ask request : Act ω β τ ε request.Answer) :=
  fun _ hOwn => .ask fun answer => ⟨s, h answer, ⟨answer, rfl⟩, hOwn, rfl⟩

theorem attempt (h : Stays m P s program) :
    Succeeds m P s (Act.attempt program : Act ω β τ δ (Except ε α)) :=
  fun x hOwn => .attempt ((h x hOwn).mono fun r _ _ hResult => ⟨⟨r, rfl⟩, hResult⟩)

theorem bind {next : α → Act ω β τ ε γ} (h : Succeeds m P s program)
    (hNext : ∀ a, Succeeds m P s (next a)) : Succeeds m P s (program >>= next) := by
  intro x hOwn
  refine .bind ((h x hOwn).mono fun r x' s' hFirst => ?_)
  obtain ⟨⟨a, rfl⟩, hOwn', rfl⟩ := hFirst
  exact hNext a x' hOwn'

theorem ite {condition : Prop} [Decidable condition] {yes no : Act ω β τ ε α}
    (hYes : Succeeds m P s yes) (hNo : Succeeds m P s no) :
    Succeeds m P s (if condition then yes else no) := by
  split
  · exact hYes
  · exact hNo

theorem filterM {test : α → Act ω β τ ε Bool} (xs : List α) (h : ∀ a, Succeeds m P s (test a)) :
    Succeeds m P s (xs.filterM test) := by
  have hAux : ∀ found, Succeeds m P s (xs.filterAuxM test found) := by
    induction xs with
    | nil => exact fun found => .pure found
    | cons a xs ih => exact fun found => (h a).bind fun _ => ih _
  exact (hAux []).bind fun _ => .pure _

/-- After a program that succeeds another one follows. -/
theorem obeys_bind {next : α → Act ω β τ ε γ} {x : ω} {post : Except ε γ → ω → S → Prop}
    (h : Succeeds m P s program) (hOwn : P x) (hNext : ∀ a x, P x → Obeys m (next a) x s post) :
    Obeys m (program >>= next) x s post := by
  refine .bind ((h x hOwn).mono fun r x' s' hFirst => ?_)
  obtain ⟨⟨a, rfl⟩, hOwn', rfl⟩ := hFirst
  exact hNext a x' hOwn'

end Succeeds

/-! ## Single runs -/

theorem dialogue_run {board : Board β} {talk : Dialogue τ ε α} {world : World ω β τ} {peer : τ}
    {result : Except ε α} {events : List PeerEvent}
    (h : talk.run ⟨world.peer, []⟩ = (result, ⟨peer, events⟩)) :
    ((Act.dialogue talk) board).run world =
      (result, ⟨world.own, world.board, peer, events.map .peer ++ world.events⟩) := by
  have hRun : ((Act.dialogue talk) board).run world = ((talk.run ⟨world.peer, []⟩).1,
      ⟨world.own, world.board, (talk.run ⟨world.peer, []⟩).2.peer,
        (talk.run ⟨world.peer, []⟩).2.events.map .peer ++ world.events⟩) := rfl
  rw [hRun, h]

theorem ask_run {board : Board β} {request : Request} {world : World ω β τ}
    {answer : request.Answer} {s : β} (h : board.answer request world.board = (answer, s)) :
    ((Act.ask request : Act ω β τ ε request.Answer) board).run world =
      (.ok answer, { world with
        board := s
        events := .board ⟨request, answer⟩ :: world.events }) := by
  have hRun : ((Act.ask request : Act ω β τ ε request.Answer) board).run world =
      (.ok (board.answer request world.board).1, { world with
        board := (board.answer request world.board).2
        events := .board ⟨request, (board.answer request world.board).1⟩ :: world.events }) := rfl
  rw [hRun, h]

theorem attempt_run {board : Board β} {program : Act ω β τ ε α} {world world' : World ω β τ}
    {result : Except ε α} (h : (program board).run world = (result, world')) :
    ((Act.attempt program : Act ω β τ δ (Except ε α)) board).run world = (.ok result, world') := by
  have hRun : ((Act.attempt program : Act ω β τ δ (Except ε α)) board).run world =
      (.ok ((program board).run world).1, ((program board).run world).2) := rfl
  rw [hRun, h]

theorem onPart_run {board : Board β} {get : τ → κ} {set : κ → τ → τ} {inner : Act ω β κ ε α}
    {world : World ω β τ} {result : Except ε α} {after : World ω β κ}
    (h : (inner board).run ⟨world.own, world.board, get world.peer, world.events⟩ =
      (result, after)) :
    ((Act.onPart get set inner) board).run world =
      (result, ⟨after.own, after.board, set after.peer world.peer, after.events⟩) := by
  have hRun : ((Act.onPart get set inner) board).run world =
      (((inner board).run ⟨world.own, world.board, get world.peer, world.events⟩).1,
        let inner := ((inner board).run ⟨world.own, world.board, get world.peer, world.events⟩).2
        ⟨inner.own, inner.board, set inner.peer world.peer, inner.events⟩) := rfl
  rw [hRun, h]

/-- Run on this board from this world, the program comes to a result and a world that `post`
accepts. -/
def Ends (board : Board β) (program : Act ω β τ ε α) (world : World ω β τ)
    (post : Except ε α → World ω β τ → Prop) : Prop :=
  post ((program board).run world).1 ((program board).run world).2

namespace Ends

variable {board : Board β} {program : Act ω β τ ε α} {world : World ω β τ}
  {post : Except ε α → World ω β τ → Prop}

theorem mono {weak : Except ε α → World ω β τ → Prop} (h : Ends board program world post)
    (hPost : ∀ r w, post r w → weak r w) : Ends board program world weak :=
  hPost _ _ h

theorem and {more : Except ε α → World ω β τ → Prop} (h : Ends board program world post)
    (hMore : Ends board program world more) :
    Ends board program world fun r w => post r w ∧ more r w :=
  ⟨h, hMore⟩

theorem bind {next : α → Act ω β τ ε γ} {post : Except ε γ → World ω β τ → Prop}
    (h : Ends board program world fun
      | .ok a, w => Ends board (next a) w post
      | .error e, w => post (.error e) w) :
    Ends board (program >>= next) world post := by
  unfold Ends at h ⊢
  rw [run_bind]
  generalize (program board).run world = done at h ⊢
  obtain ⟨_ | a, w⟩ := done
  · exact h
  · exact h

theorem bind_run {next : α → Act ω β τ ε γ} {a : α} {world' : World ω β τ}
    {post : Except ε γ → World ω β τ → Prop} (h : (program board).run world = (.ok a, world'))
    (hNext : Ends board (next a) world' post) : Ends board (program >>= next) world post := by
  unfold Ends
  rw [Act.bind_run h]
  exact hNext

theorem read {post : Except ε (Board β) → World ω β τ → Prop} (h : post (.ok board) world) :
    Ends board (MonadReader.read : Act ω β τ ε (Board β)) world post :=
  h

theorem tell {request : Request} {post : Except ε Unit → World ω β τ → Prop}
    (h : post (.ok ()) { world with
      board := (board.answer request world.board).2
      events := .board ⟨request, (board.answer request world.board).1⟩ :: world.events }) :
    Ends board (Act.tell request : Act ω β τ ε Unit) world post :=
  h

theorem attempt {post : Except δ (Except ε α) → World ω β τ → Prop}
    (h : Ends board program world fun r => post (.ok r)) :
    Ends board (Act.attempt program : Act ω β τ δ (Except ε α)) world post :=
  h

theorem modifyOwn {change : ω → ω} {post : Except ε Unit → World ω β τ → Prop}
    (h : post (.ok ()) { world with own := change world.own }) :
    Ends board (Act.modifyOwn change : Act ω β τ ε Unit) world post :=
  h

/-- The run itself is known of what it comes to. -/
theorem with_run (h : Ends board program world post) :
    Ends board program world fun r w => (program board).run world = (r, w) ∧ post r w :=
  ⟨rfl, h⟩

theorem pure {a : α} (h : post (.ok a) world) :
    Ends board (Pure.pure a : Act ω β τ ε α) world post :=
  h

theorem throw {e : ε} (h : post (.error e) world) :
    Ends board (MonadExcept.throw e : Act ω β τ ε α) world post :=
  h

theorem own {post : Except ε ω → World ω β τ → Prop} (h : post (.ok world.own) world) :
    Ends board (Act.own : Act ω β τ ε ω) world post :=
  h

/-- A peer changes nothing of the program's own and asks nothing of the board. -/
theorem dialogue {talk : Dialogue τ ε α}
    (h : ∀ r w, w.own = world.own → w.board = world.board →
      exchanges w.events = exchanges world.events → post r w) :
    Ends board (Act.dialogue talk) world post :=
  h _ _ rfl rfl (exchanges_peer_append _ world.events)

/-- What every round keeps, the loop keeps. -/
theorem rounds {exhausted : Act ω β τ ε α} {round : σ → Act ω β τ ε (σ ⊕ α)}
    {I : World ω β τ → Prop} (hExhausted : ∀ w, I w → Ends board exhausted w post)
    (hRound : ∀ state w, I w → Ends board (round state) w fun
      | .ok (.inl _), w' => I w'
      | .ok (.inr a), w' => post (.ok a) w'
      | .error e, w' => post (.error e) w')
    (limit : Nat) (state : σ) (h : I world) :
    Ends board (BusBench.rounds exhausted round limit state) world post := by
  induction limit generalizing state world with
  | zero => exact hExhausted world h
  | succ limit ih =>
    refine bind (mono (hRound state world h) fun r w' hNext => ?_)
    rcases r with e | state' | a
    · exact hNext
    · exact ih state' hNext
    · exact pure hNext

theorem of_obeys (board : Board β) {s : S} {post : Except ε α → ω → S → Prop}
    (h : Obeys m program world.own s post) :
    Ends board program world fun r w =>
      exchanges world.events <+: exchanges w.events ∧ ∃ s', post r w.own s' := by
  obtain ⟨trace, s', hTrace, -, -, hPost⟩ := h board world rfl
  exact ⟨⟨trace, hTrace.symm⟩, s', hPost⟩

end Ends

theorem Stays.ends {s : S} {program : Act ω β τ ε α} {board : Board β} {world : World ω β τ}
    (h : Stays m (· = world.own) s program) :
    Ends board program world fun _ w =>
      exchanges world.events <+: exchanges w.events ∧ w.own = world.own := by
  refine (Ends.of_obeys board (h world.own rfl)).mono fun r w hEnds => ?_
  obtain ⟨hEvents, s', hOwn, -⟩ := hEnds
  exact ⟨hEvents, hOwn⟩

end Act

end BusBench
