import BusBench.Proofs.Binary.Root
import BusBench.Proofs.Resources.Ownership
import BusBench.Proofs.Terminals.Lines

/-!
# From the prompt to the binary protocol and back

The prompt hands the link over with nothing but AUX held, and with chip select claimed for the
binary protocol. When the host leaves the protocol the prompt is as it was at its start, and reads
what arrives next.

* `Bench.AtRoot`: the root of the binary protocol is about to await its first command.
* `Bench.runBinary_run`: how a binary session begins, or is refused.
* `Bench.Left`, `Bench.serveRoot_run`: how it ends.
* `Bench.serveRound_eq`: the two parts of a round of the prompt.
-/

namespace BusBench

variable {β ω τ ε α : Type} {board : Board β}

/-- What is said of the dialogue alone is known of the world around it. -/
theorem Act.Ends.talk {talk : Dialogue τ ε α} {world : World ω β τ}
    {post : Except ε α → World ω β τ → Prop}
    (h : Dialogue.Ends .blind talk world.peer () fun r peer _ => ∀ events : List PeerEvent,
      post r ⟨world.own, world.board, peer, events.map .peer ++ world.events⟩) :
    Ends board (Act.dialogue talk) world post :=
  h ⟨world.peer, []⟩ () rfl rfl _

namespace Bench

open Act (Ends Obeys Stays)

variable {w w' v : World Bench β Console} {rest : List Arrival}

/-! ## Texts -/

/-- Between the worlds nothing happened but that something was sent. -/
structure Sent (w w' : World Bench β Console) : Prop where
  own : w'.own = w.own
  exchanges : exchanges w'.events = exchanges w.events
  isOpen : w'.peer.link.IsOpen
  incoming : w'.peer.link.incoming = w.peer.link.incoming
  detector : w'.peer.detector = w.peer.detector

theorem Sent.trans {w'' : World Bench β Console} (h : Sent w w') (h' : Sent w' w'') : Sent w w'' :=
  ⟨h'.own.trans h.own, h'.exchanges.trans h.exchanges, h'.isOpen, h'.incoming.trans h.incoming,
    h'.detector.trans h.detector⟩

theorem writeLine_ends {text : String} {post : Except Error Unit → World Bench β Console → Prop}
    (hOpen : w.peer.link.IsOpen) (h : ∀ w', Sent w w' → post (.ok ()) w') :
    Ends board (Act.writeLine text) w post := by
  refine .talk (Console.sendAll_ends hOpen fun link hOpen' hIncoming events =>
    h _ ⟨rfl, exchanges_peer_append events w.events, hOpen', hIncoming, rfl⟩)

theorem showVersion_ends (hOpen : w.peer.link.IsOpen) :
    Ends board (showVersion : Act Bench β Console Error Unit) w
      fun r w' => r = .ok () ∧ Sent w w' :=
  Ends.bind (.read (.bind (writeLine_ends hOpen fun _ h₁ => .bind (writeLine_ends h₁.isOpen
    fun _ h₂ => .bind (.own (writeLine_ends h₂.isOpen
      fun _ h₃ => ⟨rfl, (h₁.trans h₂).trans h₃⟩))))))

/-! ## At rest -/

/-- The prompt is in HiZ, and holds no pin but AUX. -/
structure Rests (bench : Bench) : Prop where
  mode : bench.mode = .hiz
  capabilities : bench.capabilities = ModeKind.hiz.capabilities
  select : bench.holdsSelect = false

theorem rests_rested (bench : Bench) : bench.rested.Rests :=
  ⟨rfl, rfl, rfl⟩

/-- A prompt at rest has nothing to leave. -/
theorem Rests.releaseMode_run (h : w.own.Rests) :
    ((releaseMode : Act Bench β Console Error Unit) board).run w = (.ok (), w) := by
  obtain ⟨⟨mode, capabilities, select, userPin⟩, s, peer, events⟩ := w
  obtain ⟨rfl, rfl, rfl⟩ := h
  rfl

/-- No terminal is needed to leave a mode. -/
theorem releaseMode_peer :
    ((releaseMode : Act Bench β Console Error Unit).after board w).peer = w.peer := by
  obtain ⟨⟨mode, capabilities, select, userPin⟩, s, peer, events⟩ := w
  cases mode <;> cases select <;> rfl

/-- The exchange that switches the LED of the mode off. -/
def ledOff : Exchange :=
  ⟨.modeLed false, ()⟩

theorem Rests.softReset_ends (board : Board β) (h : w.own.Rests) (hOpen : w.peer.link.IsOpen) :
    Ends board (softReset : Act Bench β Console Error Unit) w fun r w' => r = .ok () ∧
      w'.own = {} ∧ exchanges w'.events = exchanges w.events ++ [ledOff] ∧
      w'.peer.link.IsOpen ∧ w'.peer.link.incoming = w.peer.link.incoming ∧
      w'.peer.detector = w.peer.detector := by
  refine .bind_run h.releaseMode_run (.bind (.modifyOwn (.bind (.tell ?_))))
  refine Ends.mono (showVersion_ends hOpen) fun r w' hShown => ?_
  obtain ⟨rfl, hSent⟩ := hShown
  refine ⟨rfl, hSent.own.trans ?_, hSent.exchanges.trans (exchanges_cons_board _ _),
    hSent.isOpen, hSent.incoming, hSent.detector⟩
  obtain ⟨bench, s, peer, events⟩ := w
  obtain ⟨mode, capabilities, select, userPin⟩ := bench
  obtain ⟨rfl, rfl, rfl⟩ := h
  rfl

/-! ## At the root of the binary protocol -/

/-- Goes back to the prompt after the root of the binary protocol was left, or its link failed. -/
def leaveRoot (result : Except LinkError Unit) : Act Bench β Console Error Unit := do
  Act.tell (.pin .cs .release)
  match result with
  | .error _ => throw .link
  | .ok _ => softReset

/-- Serves the root of the binary protocol and goes back to the prompt. -/
def serveRoot : Act Bench β Console Error Unit := do
  let result ← Act.attempt (Act.onPart (·.link) (fun link console => { console with link })
    (Binary.serveUntil Binary.serveRound ()))
  leaveRoot result

/-- The granted claim of chip select. -/
def selectClaimed : Exchange :=
  ⟨.pin .cs .claim, .ok ()⟩

/-- After the prompt was in `w`, the root of the binary protocol is about to await its first
command. The mode was left and its LED switched off, then chip select was claimed, and the last that
was sent is the banner. -/
structure AtRoot (w v : World Bench β Console) (rest : List Arrival) : Prop where
  rests : v.own.Rests
  held : custody.run (exchanges v.events) {} = some (.settled none true)
  isOpen : v.peer.link.IsOpen
  incoming : v.peer.link.incoming = rest
  detector : v.peer.detector = {}
  events : ∃ earlier, exchanges w.events <+: exchanges earlier ∧
    (∀ resource, resource ∈ openResources (exchanges earlier) ↔ resource = .pin .aux) ∧
    v.events = .peer .flushed ::
      ((Binary.banner.toUTF8.toList.map .sent).reverse.map .peer ++
        .board selectClaimed :: .board ledOff :: earlier)

/-- The claim of chip select is refused although nothing but AUX is open. -/
def Refused (board : Board β) (w : World Bench β Console) : Prop :=
  ∃ trace s, board.Answers w.board trace s ∧
    (∀ resource, resource ∈ openResources (exchanges w.events ++ trace) ↔ resource = .pin .aux) ∧
    (board.answer (.pin .cs .claim) s).1 ≠ .ok ()

theorem sendBanner_run (board : Board β) {world : World Bench β Link} (hOpen : world.peer.IsOpen)
    (letters : String) :
    ∃ link : Link, link.IsOpen ∧ link.incoming = world.peer.incoming ∧
      ((Binary.sendBanner letters : Binary.Talk Bench β Unit) board).run world =
        (.ok (), ⟨world.own, world.board, link, .peer .flushed ::
          ((letters.toUTF8.toList.map .sent).reverse.map .peer ++ world.events)⟩) := by
  obtain ⟨mid, hSent, hOpen', hIncoming⟩ :=
    Dialogue.Yields.sendAll_run letters.toUTF8.toList (r := ⟨world.peer, []⟩) hOpen
  rw [List.append_nil] at hSent
  obtain ⟨link, hFlushed, hOpen'', hIncoming'⟩ :=
    Dialogue.Yields.output_run Dialogue.Yields.serveFlush_done .flushed .flushBroken
      (r := ⟨mid, (letters.toUTF8.toList.map .sent).reverse⟩) hOpen'
  have hTalk :
      (do Link.sendAll letters.toUTF8.toList; Link.flush : Dialogue Link LinkError Unit).run
          ⟨world.peer, []⟩ =
        (.ok (), ⟨link, .flushed :: (letters.toUTF8.toList.map .sent).reverse⟩) :=
    (Dialogue.bind_run hSent).trans hFlushed
  exact ⟨link, hOpen'', hIncoming'.trans hIncoming, Act.dialogue_run hTalk⟩

theorem mem_open_of_resting {trace : List Exchange} {resource : Resource}
    (h : custody.run trace {} = some .resting) :
    resource ∈ openResources trace ↔ resource = .pin .aux := by
  refine ((Custody.describes_nil.run h).mem_iff resource).trans ?_
  cases resource with
  | bus bus => exact ⟨nofun, nofun⟩
  | pin pin => exact List.mem_singleton.trans ⟨congrArg _, Resource.pin.inj⟩

/-- A prompt that is left for the binary protocol closes its bus, and all its pins but AUX. -/
theorem releaseMode_run (h : Prompting board w) :
    ∃ trace w', ((releaseMode : Act Bench β Console Error Unit) board).run w = (.ok (), w') ∧
      w'.own = w.own.rested ∧ w'.peer = w.peer ∧
      exchanges w'.events = exchanges w.events ++ trace ∧
      board.Answers w.board trace w'.board ∧
      custody.run (exchanges w'.events) {} = some .resting := by
  obtain ⟨hSound, hHeld⟩ := h.in_custody
  obtain ⟨trace, s', hTrace, hAnswers, hTraceRun, hOk, hOwn, rfl⟩ :=
    releaseMode_obeys hSound board w rfl
  refine ⟨trace, _, Prod.ext hOk rfl, hOwn, releaseMode_peer, hTrace, hAnswers, ?_⟩
  have hCustody : custody.run (exchanges w.events ++ trace) {} = some .resting := by
    rw [Monitor.run_append, hHeld]
    exact hTraceRun
  exact hTrace ▸ hCustody

theorem exchanges_banner (letters : String) (events : List Event) :
    exchanges (.peer .flushed ::
      ((letters.toUTF8.toList.map .sent).reverse.map .peer ++ events)) = exchanges events :=
  exchanges_peer_append (.flushed :: (letters.toUTF8.toList.map PeerEvent.sent).reverse) events

/-- The root of the binary protocol begins with its banner. -/
theorem onBareLink_run (board : Board β) {w : World Bench β Console}
    (hOpen : w.peer.link.IsOpen) :
    ∃ v : World Bench β Console, v.own = w.own ∧ v.board = w.board ∧ v.peer.link.IsOpen ∧
      v.peer.link.incoming = w.peer.link.incoming ∧ v.peer.detector = {} ∧
      v.events = .peer .flushed ::
        ((Binary.banner.toUTF8.toList.map .sent).reverse.map .peer ++ w.events) ∧
      ((do leaveRoot (← onBareLink Binary.run)) board).run w = (serveRoot board).run v := by
  let w₀ : World Bench β Link := ⟨w.own, w.board, w.peer.link, w.events⟩
  have hOpen₀ : w₀.peer.IsOpen := hOpen
  obtain ⟨link, hOpen', hIncoming, hBanner⟩ := sendBanner_run board hOpen₀ Binary.banner
  let v : World Bench β Console := ⟨w.own, w.board, { w.peer with link, detector := {} },
    .peer .flushed :: ((Binary.banner.toUTF8.toList.map .sent).reverse.map .peer ++ w.events)⟩
  refine ⟨v, rfl, rfl, hOpen', hIncoming, rfl, rfl, ?_⟩
  rcases hRoot : ((Binary.serveUntil Binary.serveRound () : Binary.Talk Bench β Unit) board).run
    ⟨v.own, v.board, v.peer.link, v.events⟩ with ⟨result, u⟩
  have hWhole : ((Binary.run : Binary.Talk Bench β Unit) board).run
      ⟨w.own, w.board, w.peer.link, w.events⟩ = (result, u) :=
    (Act.bind_run hBanner).trans hRoot
  let bare : World Bench β Console := ⟨w.own, w.board, { w.peer with detector := {} }, w.events⟩
  have hPart : ((Act.onPart (·.link) (fun link console => { console with link }) Binary.run :
      Act Bench β Console LinkError Unit) board).run bare =
        (result, ⟨u.own, u.board, { v.peer with link := u.peer }, u.events⟩) :=
    Act.onPart_run hWhole
  have hBare :
      ((onBareLink Binary.run : Act Bench β Console Error (Except LinkError Unit)) board).run w =
        (.ok result, ⟨u.own, u.board, { v.peer with link := u.peer }, u.events⟩) :=
    Act.attempt_run hPart
  have hRest : (serveRoot board).run v = (leaveRoot result board).run
      ⟨u.own, u.board, { v.peer with link := u.peer }, u.events⟩ :=
    Act.bind_run (Act.attempt_run (Act.onPart_run hRoot))
  exact (Act.bind_run hBare).trans hRest.symm

theorem runBinary_run (h : Prompting board w) (hOpen : w.peer.link.IsOpen) :
    (Refused board w ∧ ((runBinary board).run w).1 ≠ .ok ()) ∨
      ∃ v, AtRoot w v w.peer.link.incoming ∧
        (runBinary board).run w = (serveRoot board).run v := by
  obtain ⟨trace, w₁, hRelease, hOwn, hPeer, hTrace, hAnswers, hCustody⟩ := releaseMode_run h
  let w₂ : World Bench β Console := { w₁ with
    board := (board.answer (.modeLed false) w₁.board).2
    events := .board ledOff :: w₁.events }
  have hTrace₂ : exchanges w₂.events = exchanges w.events ++ (trace ++ [ledOff]) := by
    refine (exchanges_cons_board _ _).trans ?_
    rw [hTrace, List.append_assoc]
  have hCustody₂ : custody.run (exchanges w₂.events) {} = some .resting := by
    rw [exchanges_cons_board, Monitor.run_append, hCustody]
    rfl
  have hAsked : (runBinary board).run w =
      ((do
        Act.claimed (← Act.ask (.pin .cs .claim))
        leaveRoot (← onBareLink Binary.run) : Act Bench β Console Error Unit) board).run w₂ :=
    Act.bind_run hRelease
  rcases hAnswer : board.answer (.pin .cs .claim) w₂.board with ⟨reason | _, s⟩
  · refine .inl ⟨⟨trace ++ [ledOff], w₂.board, hAnswers.append (.cons (.modeLed false) (.nil _)),
      fun resource => ?_, ?_⟩, ?_⟩
    · rw [← hTrace₂]
      exact mem_open_of_resting hCustody₂
    · rw [hAnswer]
      exact nofun
    · rw [hAsked, Act.bind_run (Act.ask_run hAnswer)]
      exact nofun
  · let w₃ : World Bench β Console :=
      { w₂ with board := s, events := .board selectClaimed :: w₂.events }
    have hOpen₃ : w₃.peer.link.IsOpen := hPeer ▸ hOpen
    obtain ⟨v, hOwn', -, hOpen', hIncoming, hDetector, hEvents, hRun⟩ :=
      onBareLink_run board hOpen₃
    refine .inr ⟨v, ⟨?_, ?_, hOpen', ?_, hDetector, w₁.events, ⟨trace, hTrace.symm⟩,
      fun resource => mem_open_of_resting hCustody, hEvents⟩, ?_⟩
    · rw [hOwn', hOwn]
      exact rests_rested _
    · rw [hEvents, exchanges_banner, exchanges_cons_board, Monitor.run_append, hCustody₂]
      rfl
    · rw [hIncoming, ← hPeer]
    · exact (hAsked.trans (Act.bind_run (Act.ask_run hAnswer))).trans hRun

/-! ## Back at the prompt -/

/-- After the root of the binary protocol was left in `u`, the prompt is as it was at its start. -/
structure Left (u : World Bench β Link) (w : World Bench β Console) : Prop where
  own : w.own = {}
  exchanges : exchanges w.events = exchanges u.events ++ [⟨.pin .cs .release, ()⟩, ledOff]
  isOpen : w.peer.link.IsOpen
  incoming : w.peer.link.incoming = u.peer.incoming
  detector : w.peer.detector = {}

theorem AtRoot.serveRoot_run (h : AtRoot w v rest) {u : World Bench β Link}
    {result : Except LinkError Unit}
    (hRoot : ((Binary.serveUntil Binary.serveRound () : Binary.Talk Bench β Unit) board).run
      ⟨v.own, v.board, v.peer.link, v.events⟩ = (result, u)) :
    match result with
    | .ok _ => ∃ w', (serveRoot board).run v = (.ok (), w') ∧ Left u w'
    | .error _ => ((serveRoot board).run v).1 = .error .link := by
  have hStays : Stays custody (· = v.own) (.settled none true)
      (Binary.serveUntil Binary.serveRound () : Binary.Talk Bench β Unit) :=
    .serveUntil (Binary.serveRound_stays rfl rfl (by decide) (by decide)) ()
  obtain ⟨-, -, -, -, -, hOwn, -⟩ :=
    hStays v.own rfl board ⟨v.own, v.board, v.peer.link, v.events⟩ rfl
  obtain ⟨hOpen, -⟩ := Act.Yields.serveUntil (fun _ _ _ => Binary.serveRound_yields) () board
    ⟨v.own, v.board, v.peer.link, v.events⟩ h.isOpen rfl rfl
  unfold Act.after at hOwn
  rw [hRoot] at hOwn hOpen
  have hRun : (serveRoot board).run v = (leaveRoot result board).run
      ⟨u.own, u.board, { v.peer with link := u.peer }, u.events⟩ :=
    Act.bind_run (Act.attempt_run (Act.onPart_run hRoot))
  cases result with
  | error e => exact congrArg Prod.fst hRun
  | ok _ =>
    let w₁ : World Bench β Console := ⟨u.own, (board.answer (.pin .cs .release) u.board).2,
      { v.peer with link := u.peer }, .board ⟨.pin .cs .release, ()⟩ :: u.events⟩
    have hRests : w₁.own.Rests := hOwn ▸ h.rests
    obtain ⟨hOk, hInitial, hTrace, hOpen', hIncoming, hDetector⟩ :=
      hRests.softReset_ends board hOpen
    refine ⟨_, hRun.trans (Prod.ext hOk rfl), hInitial, hTrace.trans ?_, hOpen', hIncoming,
      hDetector.trans h.detector⟩
    rw [exchanges_cons_board, List.append_assoc]
    rfl

/-! ## Rounds -/

/-- Awaits a line and does what it says, up to the binary protocol. -/
def awaitFlow [Terminal τ] : Act Bench β τ Error Flow := do
  let line ← Act.dialogue (Terminal.readLine (← Act.own).prompt)
  answerLine line

/-- Goes on as is to be done after a line. -/
def carryOn : Flow → Act Bench β Console Error (Unit ⊕ Unit)
  | .continue => return .inl ()
  | .reset => return .inr ()
  | .binary => do
    runBinary
    return .inl ()

theorem serveRound_eq : (serveRound () : Act Bench β Console Error (Unit ⊕ Unit)) =
    awaitFlow >>= carryOn := by
  simp only [serveRound, awaitFlow, bind_assoc]
  rfl

theorem serveRound_run {flow : Flow} (hRun : (awaitFlow board).run w = (.ok flow, w')) :
    ((serveRound ()) board).run w = ((carryOn flow) board).run w' := by
  rw [serveRound_eq]
  exact Act.bind_run hRun

end Bench

end BusBench
