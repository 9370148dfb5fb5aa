import BusBench.Proofs.Resources.Recorded
import BusBench.Proofs.Serve.Handover
import BusBench.Proofs.Terminals.Attended
import BusBench.Proofs.Terminals.Commands

/-!
# The announcement is heard wherever a line is waited for

While a link is served, lines are waited for at the prompt, and in the course of commands: in the
list of modes, in the menus of a mode that is being entered, and where something has to be
confirmed. Wherever twenty zeros arrive instead of the rest of a line, everything that was begun is
given up, and the root of the binary protocol takes what arrives after them.

* `Bench.Serving`: the worlds in which the prompt waits for a line.
* `Bench.AwaitsLine`: the waits of a round.
* `Bench.announcement_reaches_root`: what becomes of the announcement.
-/

namespace BusBench.Bench

open Act (Ends)

variable {β : Type} {board : Board β} {w w' : World Bench β Console} {console : Console}
  {rest : List Arrival}

/-! ## Waiting for lines -/

/-- A link is served, and the prompt is about to be shown: serving may begin between any two
commands, on a link whose output does not fail, and goes on from round to round. -/
inductive Serving (board : Board β) : World Bench β Console → Prop
  | start {w : World Bench β Console} (h : Prompting board w) (hOpen : w.peer.link.IsOpen)
    (hDetector : w.peer.detector = {}) : Serving board w
  | round {w w' : World Bench β Console} (h : Serving board w)
    (hRound : ((serveRound ()) board).run w = (.ok (.inl ()), w')) : Serving board w'

/-- The same world with a console of which it is written down when a line is waited for. -/
def attend (w : World Bench β Console) : World Bench β Attended :=
  ⟨w.own, w.board, ⟨w.peer, []⟩, w.events⟩

/-- The waits of a command that is run in `w`. -/
def CommandAwaits (board : Board β) (w : World Bench β Console) (line : List Char)
    (console : Console) : Prop :=
  console ∈ ((runCommand line).after board (attend w)).peer.waits

/-- In the round that begins in `w` a line is waited for with this console: at the prompt, or by the
command that the prompt was given. -/
inductive AwaitsLine (board : Board β) (w : World Bench β Console) : Console → Prop
  | prompt : AwaitsLine board w w.peer
  | command {line : List Char} {w' : World Bench β Console} {console : Console}
    (hLine : ((Act.dialogue (Console.readLine w.own.prompt) : Act Bench β Console Error Line)
      board).run w = (.ok (.text line), w'))
    (hWait : CommandAwaits board w' line console) : AwaitsLine board w console

/-- Whatever is exchanged with the board from now on, it grants chip select where it is not open. -/
def GrantsSelect (board : Board β) (w : World Bench β Console) : Prop :=
  ∀ trace s, board.Answers w.board trace s →
    .pin .cs ∉ openResources (exchanges w.events ++ trace) →
    (board.answer (.pin .cs .claim) s).1 = .ok ()

/-! ## Lines -/

/-- What holds whenever the prompt is about to be shown. -/
structure Ready (board : Board β) (w : World Bench β Console) : Prop where
  prompting : Prompting board w
  isOpen : w.peer.link.IsOpen
  settled : w.peer.Settled

theorem readLine_ends (hOpen : w.peer.link.IsOpen) (question : String) :
    Ends board (Act.dialogue (Console.readLine question)) w fun r w' =>
      w'.own = w.own ∧ w'.board = w.board ∧ exchanges w'.events = exchanges w.events ∧
        Console.Awaited .blind () (Console.scan w.peer.detector w.peer.afterReturn []
          w.peer.link.incoming) r w'.peer () := by
  exact .talk ((Console.readLine_ends Observer.deaf_blind hOpen question).mono
    fun r peer _ hAwaited events => ⟨rfl, rfl, exchanges_peer_append events w.events, hAwaited⟩)

/-- What is known when it is known what a line asks for, where these were the waits on the way. If
the binary protocol was announced in one of them, it is to be served next. -/
structure Answered (board : Board β) (w : World Bench β Console) (Waits : Console → Prop)
    (r : Except Error Flow) (w' : World Bench β Console) : Prop where
  prompting : Prompting board w'
  isOpen : w'.peer.link.IsOpen
  trace : ∃ trace, exchanges w'.events = exchanges w.events ++ trace ∧
    board.Answers w.board trace w'.board
  settled : r ≠ .ok .binary → w'.peer.Settled
  announced : ∀ {console rest}, Waits console → console.Announces rest →
    r = .ok .binary ∧ w'.peer.link.incoming = rest

theorem runCommand_ends (h : Ready board w) (line : List Char) :
    Ends board (runCommand line) w fun r w' => Prompting board w' ∧
      (∃ trace, exchanges w'.events = exchanges w.events ++ trace ∧
        board.Answers w.board trace w'.board) ∧
      Attended.Tie (Attended.accord.isOver Attended.accord.endsAfter r)
        ((runCommand line).after board (attend w)).peer w'.peer := by
  have hTalking : Attended.Talking (attend w).peer w.peer :=
    ⟨⟨h.isOpen, h.isOpen, rfl, rfl, rfl⟩, h.settled, nofun⟩
  have hKeys : Attended.accord.Keys := Attended.poll.keys Attended.bond
  obtain ⟨hResult, hWorlds⟩ := (runCommand_accords Attended.bond line (fun _ => hKeys) board).agrees
    (attend w) w not_false ⟨rfl, rfl, hTalking⟩
  obtain ⟨trace, -, hTrace, hAnswers, -, -⟩ :=
    runCommand_conserves line w.own h.prompting.in_custody.1 board w rfl
  refine ⟨AtPrompt.command line h.prompting rfl, ⟨trace, hTrace, hAnswers⟩, ?_⟩
  rw [← hResult]
  exact hWorlds.told

/-- A command in which the binary protocol is announced ends, and says so. -/
theorem answerLine_ends (h : Ready board w) (line : List Char) :
    Ends board (answerLine (.text line)) w (Answered board w (CommandAwaits board w line)) := by
  refine .bind (.attempt ((runCommand_ends h line).mono fun r w' hEnds => ?_))
  obtain ⟨hPrompting, hTrace, hTie⟩ := hEnds
  have hOver : Attended.Over ((runCommand line).after board (attend w)).peer w'.peer →
      Answered board w (CommandAwaits board w line) (.ok .binary) w' := fun hOver =>
    ⟨hPrompting, hOver.alike.isOpen', hTrace, fun hTalking => absurd rfl hTalking,
      fun hWait hAnnounces => ⟨rfl, hOver.latest _ hWait _ hAnnounces⟩⟩
  have hTalking : Attended.Talking ((runCommand line).after board (attend w)).peer w'.peer →
      ∀ r, Answered board w (CommandAwaits board w line) r w' := fun hTalking r =>
    ⟨hPrompting, hTalking.alike.isOpen', hTrace, fun _ => hTalking.settled,
      fun hWait hAnnounces => absurd hAnnounces (hTalking.unannounced _ hWait _)⟩
  rcases r with e | flow
  · cases e with
    | modeSwitch => exact hOver hTie
    | _ => exact hTalking hTie _
  · cases flow with
    | binary => exact hOver hTie
    | _ => exact hTalking hTie _

/-! ## Rounds -/

theorem awaitFlow_ends (h : Ready board w) :
    Ends board awaitFlow w (Answered board w (AwaitsLine board w)) := by
  refine .bind (.own (.bind ((readLine_ends h.isOpen _).with_run.mono fun r w₁ hRead => ?_)))
  obtain ⟨hRun, hOwn, hBoard, hTrace, hAwaited⟩ := hRead
  have hPrompting : Prompting board w₁ := by
    rw [Prompting, hOwn, hBoard, hTrace]
    exact h.prompting
  have hQuiet : ∃ trace, exchanges w₁.events = exchanges w.events ++ trace ∧
      board.Answers w.board trace w₁.board := by
    refine ⟨[], hTrace.trans (List.append_nil _).symm, ?_⟩
    rw [hBoard]
    exact .nil _
  have hPrompt : ∀ {rest}, w.peer.Announces rest → r = .ok .modeSwitch ∧
      w₁.peer.link.incoming = rest := hAwaited.of_announces h.settled
  rcases r with e | chars | -
  · refine ⟨hPrompting, hAwaited.isOpen, hQuiet, fun _ => hAwaited.settled (by simp), ?_⟩
    intro console rest hAwaits hAnnounces
    cases hAwaits with
    | prompt => cases (hPrompt hAnnounces).1
    | command hLine hWait =>
      rw [hRun] at hLine
      cases hLine
  · have hReady : Ready board w₁ := ⟨hPrompting, hAwaited.isOpen, hAwaited.settled (by simp)⟩
    refine (answerLine_ends hReady chars).mono fun r w₂ hAnswered => ?_
    obtain ⟨trace, hTrace₂, hAnswers⟩ := hAnswered.trace
    refine ⟨hAnswered.prompting, hAnswered.isOpen, ⟨trace, hTrace ▸ hTrace₂, hBoard ▸ hAnswers⟩,
      hAnswered.settled, ?_⟩
    intro console rest hAwaits hAnnounces
    cases hAwaits with
    | prompt => cases (hPrompt hAnnounces).1
    | command hLine hWait =>
      rw [hRun] at hLine
      cases hLine
      exact hAnswered.announced hWait hAnnounces
  · refine Ends.pure ⟨hPrompting, hAwaited.isOpen, hQuiet, fun h => absurd rfl h, ?_⟩
    intro console rest hAwaits hAnnounces
    cases hAwaits with
    | prompt => exact ⟨rfl, (hPrompt hAnnounces).2⟩
    | command hLine hWait =>
      rw [hRun] at hLine
      cases hLine

/-- A round that goes on at the prompt after it served the root of the binary protocol. -/
def rootRound : Act Bench β Console Error (Unit ⊕ Unit) := do
  serveRoot
  return .inl ()

/-- A binary session that is carried on with is a binary session. -/
theorem prompting_carryOn (h : Prompting board w) :
    Prompting board ((carryOn .binary).after board w) := by
  have hSame : (carryOn .binary).after board w = runBinary.after board w := by
    unfold Act.after
    rw [carryOn, Act.run_bind]
    generalize (runBinary board).run w = done
    obtain ⟨e | _, w'⟩ := done
    · rfl
    · rfl
  rw [hSame]
  exact AtPrompt.binary h rfl

/-- The binary protocol is refused, or its root is served. -/
theorem carryOn_binary (h : Prompting board w) (hOpen : w.peer.link.IsOpen) :
    (Refused board w ∧ ∀ next, (((carryOn .binary) board).run w).1 ≠ .ok next) ∨
      ∃ v, AtRoot w v w.peer.link.incoming ∧
        ((carryOn .binary) board).run w = (rootRound board).run v := by
  rcases runBinary_run h hOpen with ⟨hRefused, hFails⟩ | ⟨v, hRoot, hRun⟩
  · refine .inl ⟨hRefused, fun next => ?_⟩
    rw [carryOn, Act.run_bind]
    generalize (runBinary board).run w = done at hFails ⊢
    obtain ⟨e | _, w'⟩ := done
    · exact nofun
    · exact absurd rfl hFails
  · refine .inr ⟨v, hRoot, ?_⟩
    rw [carryOn, rootRound, Act.run_bind, Act.run_bind, hRun]

/-- After the root was left the next round begins. -/
theorem AtRoot.rootRound_run {v : World Bench β Console} (h : AtRoot w v rest)
    {u : World Bench β Link}
    (hRoot : ((Binary.serveUntil Binary.serveRound () : Binary.Talk Bench β Unit) board).run
      ⟨v.own, v.board, v.peer.link, v.events⟩ = (.ok (), u)) :
    ∃ w', (rootRound board).run v = (.ok (.inl ()), w') ∧ Left u w' := by
  obtain ⟨w', hRun, hLeft⟩ := serveRoot_run h hRoot
  exact ⟨w', Act.bind_run hRun, hLeft⟩

/-- The next round begins only after the root was left. -/
theorem AtRoot.left_of_rootRound {v : World Bench β Console} (h : AtRoot w v rest)
    {next : Unit ⊕ Unit} (hRound : (rootRound board).run v = (.ok next, w')) : ∃ u, Left u w' := by
  rcases hLoop : ((Binary.serveUntil Binary.serveRound () : Binary.Talk Bench β Unit) board).run
    ⟨v.own, v.board, v.peer.link, v.events⟩ with ⟨e | _, u⟩
  · have hFails := serveRoot_run h hLoop
    rw [rootRound, Act.run_bind] at hRound
    generalize (serveRoot board).run v = done at hFails hRound
    obtain ⟨e' | _, w''⟩ := done
    · cases hRound
    · cases hFails
  · obtain ⟨w'', hRun, hLeft⟩ := h.rootRound_run hLoop
    cases hRound.symm.trans hRun
    exact ⟨u, hLeft⟩

/-- Round after round the prompt is ready for the next. -/
theorem Serving.ready (h : Serving board w) : Ready board w := by
  induction h with
  | start h hOpen hDetector => exact ⟨h, hOpen, .inl hDetector⟩
  | @round w w' h hRound ih =>
    have hAnswered := awaitFlow_ends ih
    unfold Ends at hAnswered
    rcases hFlow : (awaitFlow board).run w with ⟨e | flow, w₁⟩
    · rw [serveRound_eq, Act.run_bind, hFlow] at hRound
      cases hRound
    · rw [hFlow] at hAnswered
      rw [serveRound_run hFlow] at hRound
      cases flow with
      | «continue» =>
        cases hRound
        exact ⟨hAnswered.prompting, hAnswered.isOpen, hAnswered.settled nofun⟩
      | reset => cases hRound
      | binary =>
        have hPrompting := prompting_carryOn hAnswered.prompting
        rw [Act.after, hRound] at hPrompting
        rcases carryOn_binary hAnswered.prompting hAnswered.isOpen with
          ⟨-, hFails⟩ | ⟨v, hRoot, hRun⟩
        · exact absurd (congrArg Prod.fst hRound) (hFails _)
        · rw [hRun] at hRound
          obtain ⟨u, hLeft⟩ := hRoot.left_of_rootRound hRound
          exact ⟨hPrompting, hLeft.isOpen, .inl hLeft.detector⟩

/-! ## The announcement -/

/-- Wherever a link is served and a line is waited for, on a board that grants chip select, twenty
zeros after the start of a line reach the root of the binary protocol: the mode is left and its LED
off, nothing but AUX and then chip select is open, the banner is sent, and what arrives next is the
first command. When the root is left the prompt is as at its start, and reads on from there. -/
theorem announcement_reaches_root (hServing : Serving board w) (hGrants : GrantsSelect board w)
    (hAwaits : AwaitsLine board w console) (hAnnounces : console.Announces rest) :
    ∃ v, AtRoot w v rest ∧ ((serveRound ()) board).run w = (rootRound board).run v ∧
      ∀ u, ((Binary.serveUntil Binary.serveRound () : Binary.Talk Bench β Unit) board).run
          ⟨v.own, v.board, v.peer.link, v.events⟩ = (.ok (), u) →
        ∃ w', ((serveRound ()) board).run w = (.ok (.inl ()), w') ∧ Left u w' ∧
          Serving board w' ∧
          ∀ resource, resource ∈ openResources (exchanges w'.events) ↔ resource = .pin .aux := by
  have hAnswered := awaitFlow_ends hServing.ready
  unfold Ends at hAnswered
  rcases hFlow : (awaitFlow board).run w with ⟨r, w₁⟩
  rw [hFlow] at hAnswered
  obtain ⟨rfl, rfl⟩ := hAnswered.announced hAwaits hAnnounces
  obtain ⟨trace, hTrace, hAnswers⟩ := hAnswered.trace
  rcases carryOn_binary hAnswered.prompting hAnswered.isOpen with
    ⟨⟨trace', s, hAnswers', hOpen, hRefused⟩, -⟩ | ⟨v, hRoot, hRun⟩
  -- When chip select is claimed nothing but AUX is open, so the claim is not refused.
  · refine absurd (hGrants _ s (hAnswers.append hAnswers') fun hSelect => ?_) hRefused
    rw [← List.append_assoc, ← hTrace] at hSelect
    cases (hOpen _).mp hSelect
  · have hRound := (serveRound_run hFlow).trans hRun
    obtain ⟨earlier, hEarlier, hEvents⟩ := hRoot.events
    refine ⟨v, ⟨hRoot.rests, hRoot.held, hRoot.isOpen, hRoot.incoming, hRoot.detector, earlier,
      (hTrace ▸ List.prefix_append _ _).trans hEarlier, hEvents⟩, hRound, fun u hLoop => ?_⟩
    obtain ⟨w', hLeave, hLeft⟩ := hRoot.rootRound_run hLoop
    have hNext : ((serveRound ()) board).run w = (.ok (.inl ()), w') := hRound.trans hLeave
    have hServing' : Serving board w' := hServing.round hNext
    refine ⟨w', hNext, hLeft, hServing', fun resource => ?_⟩
    refine hServing'.ready.prompting.mem_open_iff.trans ?_
    rw [hLeft.own]
    exact List.mem_singleton

/-! ### An announcement in a menu -/

/-- What the host sends after its announcement: it leaves the binary protocol at once and asks for
the version. -/
def afterZeros : List Arrival :=
  [.byte 0x0F, .byte 'i'.toUInt8, .byte 0x0D]

/-- Something that is typed, then the announcement. -/
def announcing (typed : List Char) : List Arrival :=
  typed.map (fun c => .byte c.toUInt8) ++ List.replicate 19 (.byte 0) ++ .byte 0 :: afterZeros

/-- The host enters the I2C mode, picks a speed, and has typed one character in the last menu when
it announces the binary protocol. -/
def entering : World Bench Recording.State Console where
  own := {}
  board := (started {}).2.board
  peer := { link := { incoming := announcing "m 4\r1\r2".toList } }
  events := (started {}).2.events

/-- The console as the last menu begins to wait, with the controller claimed. -/
def lastMenu : Console where
  link := { incoming := announcing ['2'], sent := 117, flushes := 6 }
  afterReturn := true

theorem announcement_in_menu :
    let board := Recording.board "fake" {}
    Serving board entering ∧ GrantsSelect board entering ∧ AwaitsLine board entering lastMenu ∧
      lastMenu.Announces afterZeros ∧
      (((serveRound ()) board).run entering).1 = .ok (.inl ()) ∧
      ∃ v, AtRoot entering v afterZeros ∧
        ((serveRound ()) board).run entering = (rootRound board).run v := by
  intro board
  have hServing : Serving board entering :=
    .start (prompting_recorded (s := {}) {} rfl) ⟨rfl, rfl⟩ rfl
  have hGrants : GrantsSelect board entering := by
    intro trace s hAnswers hClosed
    have hAgrees : Recording.Agrees entering.board (stillOpen (exchanges entering.events)) :=
      ⟨rfl, by decide +kernel⟩
    refine Recording.grants_pin hAgrees hAnswers ?_
    rwa [openResources, stillOpen, List.foldl_append] at hClosed
  have hAwaits : AwaitsLine board entering lastMenu := by
    have hLine : ((Act.dialogue (Console.readLine entering.own.prompt) board).run entering).1 =
        .ok (.text "m 4".toList) := by
      decide +kernel
    refine .command (Prod.ext hLine rfl) ?_
    · unfold CommandAwaits
      decide +kernel
  have hAnnounces : lastMenu.Announces afterZeros := by
    refine ⟨_, List.replicate 19 (.byte 0), rfl, ?_, rfl⟩
    refine ⟨⟨['2'.toUInt8], .inl rfl, by decide, by decide⟩, fun hZeros => ?_, by decide⟩
    have hLength := hZeros.length_le
    exact absurd hLength (by decide)
  obtain ⟨v, hRoot, hRun, -⟩ := announcement_reaches_root hServing hGrants hAwaits hAnnounces
  exact ⟨hServing, hGrants, hAwaits, hAnnounces, by decide +kernel, v, hRoot, hRun⟩

end BusBench.Bench
