import BusBench.Binary.Spi
import BusBench.Board.Recording
import BusBench.Proofs.I2c.Counterparts

/-!
# Chip select around binary SPI transfers

A command that writes and reads with chip select drives CS low, makes its transfers, and drives CS
high again, whatever has failed in between. Only a pin that cannot be driven low keeps it from its
transfers, and nothing is replied before CS has been driven high.

* `Transfers`: the exchanges of a write and a read.
* `Selects`: the same exchanges between those with CS.
* `chip_select_brackets`: rounds of the engine.
-/

namespace BusBench

variable {ω β ε : Type}

open CommandLine (sentBytes)
open Act (Ends)

namespace Binary.Spi

open BusBench.Spi (Config)
open BusBench.I2c (pairedFrame pairedReply)

/-! ## The exchanges of a command -/

variable {backing : Backing} {paired : Paired}

/-- CS is driven. -/
def csDriven (high : Bool) (answer : Except BusError Unit) : Exchange :=
  ⟨.pin .cs (.output high), answer⟩

/-- Bytes go out and others come in. -/
def transferred (backing : Backing) (bytes : List UInt8)
    (answer : Except BusError (Bytes bytes.length)) : Exchange :=
  ⟨.spi backing (.transfer bytes), answer⟩

/-- The exchanges of a write, and of a read unless the write failed; and what comes of them. -/
inductive Transfers (backing : Backing) (paired : Paired) :
    List Exchange → Except BusError (List UInt8) → Prop
  | unwritten (reason) :
    Transfers backing paired [transferred backing paired.writes (.error reason)] (.error reason)
  | unread (back reason) :
    Transfers backing paired
      [transferred backing paired.writes (.ok back),
        transferred backing (List.replicate paired.readCount 0) (.error reason)] (.error reason)
  | read (back) (bytes : Bytes _) :
    Transfers backing paired
      [transferred backing paired.writes (.ok back),
        transferred backing (List.replicate paired.readCount 0) (.ok bytes)] (.ok bytes.val)

/-- The same exchanges after CS was driven low, and before it is driven high; and what comes of all
of them. -/
inductive Selects (backing : Backing) (paired : Paired) :
    List Exchange → Except BusError (List UInt8) → Prop
  | unselected (reason) : Selects backing paired [csDriven false (.error reason)] (.error reason)
  | failed {trace reason} (h : Transfers backing paired trace (.error reason)) (released) :
    Selects backing paired (csDriven false (.ok ()) :: trace ++ [csDriven true released])
      (.error reason)
  | unreleased {trace bytes} (h : Transfers backing paired trace (.ok bytes)) (reason) :
    Selects backing paired (csDriven false (.ok ()) :: trace ++ [csDriven true (.error reason)])
      (.error reason)
  | read {trace bytes} (h : Transfers backing paired trace (.ok bytes)) :
    Selects backing paired (csDriven false (.ok ()) :: trace ++ [csDriven true (.ok ())])
      (.ok bytes)

/-! ## Programs -/

section Programs

variable {board : Board β} {before world : World ω β Link} {trace : List Exchange}
  {post : Except ε (Except BusError (List UInt8)) → World ω β Link → Prop}

theorem writeThenRead_asks (h : Asked board before trace world)
    (hPost : ∀ new result after, Transfers backing paired new result →
      Asked board before (trace ++ new) after → post (.ok result) after) :
    Ends board (writeThenRead backing paired) world post := by
  refine .bind (.bind (h.ask fun answer mid hWritten => .pure ?_))
  cases answer with
  | error reason => exact .pure (hPost _ _ mid (.unwritten reason) hWritten)
  | ok back =>
    refine .bind (hWritten.ask fun answer after hRead => .pure ?_)
    rw [List.append_assoc] at hRead
    cases answer with
    | error reason => exact hPost _ _ after (.unread back reason) hRead
    | ok bytes => exact hPost _ _ after (.read back bytes) hRead

theorem selectedWriteThenRead_asks
    (hPost : ∀ new result after, Selects backing paired new result →
      Asked board world new after → post (.ok result) after) :
    Ends board (selectedWriteThenRead backing paired) world post := by
  refine .bind ((Asked.start world).ask fun answer mid hSelected => ?_)
  cases answer with
  | error reason => exact .pure (hPost _ _ mid (.unselected reason) hSelected)
  | ok _ =>
    refine .bind (writeThenRead_asks hSelected fun new result mid hTransfers hMoved =>
      .bind (hMoved.ask fun released after hReleased => ?_))
    cases result with
    | error reason =>
      cases released <;> exact .pure (hPost _ _ after (.failed hTransfers _) hReleased)
    | ok bytes =>
      cases released with
      | error reason => exact .pure (hPost _ _ after (.unreleased hTransfers reason) hReleased)
      | ok _ => exact .pure (hPost _ _ after (.read hTransfers) hReleased)

end Programs

/-! ## Replies -/

/-- What comes of the transfers is said over the link, however far that goes. -/
theorem replyResult_ends {board : Board β} {world : World ω β Link}
    {result : Except BusError (List UInt8)} {post : Except LinkError Unit → World ω β Link → Prop}
    (h : ∀ new r link, Link.Uttered (pairedReply result) () world.peer new r link →
      post r { world with peer := link, events := new.map .peer ++ world.events }) :
    Ends board (replyResult result) world post := by
  suffices hTalk : ∃ talk, (replyResult result : Talk ω β Unit) = Act.dialogue talk ∧
      Link.Utters talk (pairedReply result) by
    obtain ⟨talk, hReply, hUtters⟩ := hTalk
    obtain ⟨new, hNew, hUttered⟩ := hUtters ⟨world.peer, []⟩
    have hPost := h new _ _ hUttered
    rw [← List.append_nil new, ← hNew] at hPost
    rw [hReply]
    exact hPost
  cases result with
  | error reason => exact ⟨_, rfl, .bind (.send 0) .flush⟩
  | ok bytes =>
    have hUtters : Link.Utters (do Link.send 1; Link.sendAll bytes; Link.flush)
        ([1] ++ (bytes ++ [])) :=
      .bind (.send 1) (.bind (.sendAll bytes) .flush)
    rw [List.append_nil] at hUtters
    exact ⟨_, rfl, hUtters⟩

/-! ## Rounds -/

/-- From one world to another a round heard its command, until this was left to arrive, then made
these exchanges, and then said this reply, as far as the link went along. Before that it said
nothing. -/
structure Serves (board : Board β) (before heard : World ω β Link) (rest : List Arrival)
    (trace : List Exchange) (reply : List UInt8) (config : Config) (replied : List PeerEvent)
    (r : Except LinkError (Config ⊕ Unit)) (after : World ω β Link) : Prop where
  listened : Listened before heard rest
  answers : board.Answers before.board trace after.board
  events : after.events = replied.map .peer ++ ((trace.map Event.board).reverse ++ heard.events)
  uttered : Link.Uttered reply (.inl config) heard.peer replied r after.peer

section Rounds

variable {board : Board β} {world : World ω β Link} {rest : List Arrival} {config : Config}

/-- The reply ends the round. -/
theorem reply_serves {trace : List Exchange} {result : Except BusError (List UInt8)}
    {heard asked : World ω β Link} (hHeard : Listened world heard rest)
    (hAsked : Asked board heard trace asked) :
    Ends board (do
      replyResult result
      return .inl config) asked fun r after => ∃ replied,
        Serves board world heard rest trace (pairedReply result) config replied r after := by
  refine .bind (replyResult_ends fun new r link hUttered => ?_)
  rw [hAsked.peer] at hUttered
  have hAnswers := hAsked.answers
  rw [hHeard.state] at hAnswers
  cases r with
  | error e =>
    exact ⟨new, hHeard, hAnswers, congrArg _ hAsked.events, hUttered.some, nofun,
      fun hOpen => nomatch (hUttered.isOpen hOpen).1⟩
  | ok =>
    refine .pure ⟨new, hHeard, hAnswers, congrArg _ hAsked.events, hUttered.some, ?_, fun hOpen =>
      ⟨rfl, (hUttered.isOpen hOpen).2⟩⟩
    rintro _ ⟨⟩
    exact ⟨rfl, (hUttered.all () rfl).2⟩

/-- The round of a command that writes and reads, after its byte. -/
def servePaired (config : Config)
    (transfer : Paired → Talk ω β (Except BusError (List UInt8))) : Talk ω β (Config ⊕ Unit) := do
  match ← Act.dialogue readPaired with
  | some paired => replyResult (← transfer paired)
  | none => pure ()
  return .inl config

/-- The two commands differ in what they do between the frame and the reply. -/
theorem serveRound_paired {command : UInt8} {bytes : List UInt8}
    {transfer : Paired → Talk ω β (Except BusError (List UInt8))}
    {post : Except LinkError (Config ⊕ Unit) → World ω β Link → Prop}
    (hCommand : command = 0x04 ∧ transfer = selectedWriteThenRead backing ∨
      command = 0x05 ∧ transfer = writeThenRead backing)
    (hArrives : Arrives world.peer.incoming (command :: bytes) rest)
    (h : ∀ start mid, Listened world start mid → Arrives mid bytes rest →
      Ends board (servePaired config transfer) start post) :
    Ends board (serveRound backing config) world post := by
  refine .bind (.reach (.bind ((Listened.reach (.command .spi)).listen
    (.read_of_arrives hArrives fun mid hPayload => ⟨rfl, _, rfl, fun start hStart => ?_⟩))))
  have hServe := h start mid hStart hPayload
  rcases hCommand with ⟨rfl, rfl⟩ | ⟨rfl, rfl⟩
  · exact hServe
  · exact hServe

/-- Of a frame with counts, all is heard before anything is asked, and all is asked before anything
is said. -/
theorem serveRound_serves {command : UInt8} {bytes : List UInt8} {count : Nat}
    {transfer : Paired → Talk ω β (Except BusError (List UInt8))}
    {Makes : List Exchange → Except BusError (List UInt8) → Prop}
    (hCommand : command = 0x04 ∧ transfer = selectedWriteThenRead backing ∨
      command = 0x05 ∧ transfer = writeThenRead backing)
    (hTransfer : ∀ {heard : World ω β Link} {post},
      (∀ trace result asked, Makes trace result → Asked board heard trace asked →
        post (.ok result) asked) → Ends board (transfer ⟨bytes, count⟩) heard post)
    (hArrives : Arrives world.peer.incoming (pairedFrame command bytes count) rest)
    (hBytes : bytes ≠ []) (hLength : bytes.length < 65536) (hCount : count ≠ 0)
    (hBound : count < 65536) :
    Ends board (serveRound backing config) world fun r after => ∃ heard trace result replied,
      Makes trace result ∧
        Serves board world heard rest trace (pairedReply result) config replied r after := by
  refine serveRound_paired hCommand hArrives fun start mid hStart hPayload => ?_
  refine .bind (hStart.listen (I2c.readPaired_of_arrives hPayload hBytes hLength hCount hBound
    ⟨rfl, rest, rfl, fun heard hHeard => ?_⟩))
  refine .bind (hTransfer fun trace result asked hMakes hAsked => ?_)
  refine (reply_serves hHeard hAsked).mono fun r after hServes => ?_
  obtain ⟨replied, hServes⟩ := hServes
  exact ⟨heard, trace, result, replied, hMakes, hServes⟩

/-! ## Chip select -/

/-- CS could not be driven. -/
def CsFailed (exchange : Exchange) : Prop :=
  ∃ high reason, exchange = csDriven high (.error reason)

/-- CS is high after the exchanges of a command, unless it could not be driven. -/
theorem Selects.released {trace : List Exchange} {result : Except BusError (List UInt8)}
    (h : Selects backing paired trace result) :
    (∃ exchange ∈ trace, CsFailed exchange) ∨ trace.getLast? = some (csDriven true (.ok ())) := by
  cases h with
  | unselected reason => exact .inl ⟨_, List.mem_singleton_self _, false, reason, rfl⟩
  | failed h released =>
    cases released with
    | error reason =>
      exact .inl ⟨_, List.mem_append_right _ (List.mem_singleton_self _), true, reason, rfl⟩
    | ok => exact .inr List.getLast?_concat
  | unreleased h reason =>
    exact .inl ⟨_, List.mem_append_right _ (List.mem_singleton_self _), true, reason, rfl⟩
  | read h => exact .inr List.getLast?_concat

/-- A write and a read have nothing to do with CS. -/
theorem Transfers.ne_pin {trace : List Exchange} {result : Except BusError (List UInt8)}
    (h : Transfers backing paired trace result) :
    ∀ exchange ∈ trace, ∀ pin call, exchange.request ≠ .pin pin call := by
  cases h <;> simp [transferred]

/-- Whatever arrives behind the byte of the command, and whatever becomes of the reply, the command
makes all of its exchanges or none. -/
theorem serveRound_brackets {mid : List Arrival}
    (hNext : nextByte world.peer.incoming = some (0x04, mid)) :
    Ends board (serveRound backing config) world fun _ after => ∃ trace,
      exchanges after.events = exchanges world.events ++ trace ∧
      board.Answers world.board trace after.board ∧
      (trace = [] ∨ ∃ paired result, Selects backing paired trace result) := by
  refine serveRound_paired (.inl ⟨rfl, rfl⟩) (.cons hNext (.nil mid)) fun start _ hStart _ => ?_
  refine .bind (.dialogue fun r heard _ hState hHeard => ?_)
  have hQuiet : exchanges heard.events = exchanges world.events ++ [] := by
    rw [hHeard, hStart.exchanges, List.append_nil]
  have hBoard : heard.board = world.board := hState.trans hStart.state
  rcases r with e | _ | paired
  · exact ⟨[], hQuiet, hBoard ▸ .nil _, .inl rfl⟩
  · exact .pure ⟨[], hQuiet, hBoard ▸ .nil _, .inl rfl⟩
  · refine .bind (selectedWriteThenRead_asks fun trace result asked hSelects hAsked =>
      .bind (replyResult_ends fun new r link _ => ?_))
    have hTrace : exchanges (new.map .peer ++ asked.events) = exchanges world.events ++ trace := by
      rw [exchanges_peer_append, hAsked.exchanges_eq, hHeard, hStart.exchanges]
    have hAnswers := hAsked.answers
    rw [hBoard] at hAnswers
    cases r with
    | error e => exact ⟨trace, hTrace, hAnswers, .inr ⟨paired, result, hSelects⟩⟩
    | ok => exact .pure ⟨trace, hTrace, hAnswers, .inr ⟨paired, result, hSelects⟩⟩

/-- A command that writes and reads with chip select drives CS low. If that fails nothing else is
asked of the board; otherwise the transfers follow, and then CS is driven high, whether or not they
failed. Only then the reply is said: 1 and the bytes that were read if all of this succeeded, else
0. The command without chip select makes the same transfers and leaves CS alone. However the first
command ends, CS is high again unless it could not be driven. -/
theorem chip_select_brackets (board : Board β) (backing : Backing) (config : Config)
    (world : World ω β Link) :
    (∀ (bytes : List UInt8) (count : Nat) (rest : List Arrival),
      bytes ≠ [] → bytes.length < 65536 → count ≠ 0 → count < 65536 →
      Arrives world.peer.incoming (pairedFrame 0x04 bytes count) rest →
      Ends board (serveRound backing config) world fun r after => ∃ heard trace result replied,
        Selects backing ⟨bytes, count⟩ trace result ∧
          Serves board world heard rest trace (pairedReply result) config replied r after) ∧
    (∀ (bytes : List UInt8) (count : Nat) (rest : List Arrival),
      bytes ≠ [] → bytes.length < 65536 → count ≠ 0 → count < 65536 →
      Arrives world.peer.incoming (pairedFrame 0x05 bytes count) rest →
      Ends board (serveRound backing config) world fun r after => ∃ heard trace result replied,
        Transfers backing ⟨bytes, count⟩ trace result ∧
          (∀ exchange ∈ trace, ∀ call, exchange.request ≠ .pin .cs call) ∧
          Serves board world heard rest trace (pairedReply result) config replied r after) ∧
    ∀ mid : List Arrival, nextByte world.peer.incoming = some (0x04, mid) →
      Ends board (serveRound backing config) world fun _ after => ∃ trace,
        exchanges after.events = exchanges world.events ++ trace ∧
        board.Answers world.board trace after.board ∧
        (trace = [] ∨ trace.getLast? = some (csDriven true (.ok ())) ∨
          ∃ exchange ∈ trace, CsFailed exchange) := by
  refine ⟨fun bytes count rest hBytes hLength hCount hBound hArrives =>
    serveRound_serves (.inl ⟨rfl, rfl⟩) selectedWriteThenRead_asks hArrives hBytes hLength hCount
      hBound, fun bytes count rest hBytes hLength hCount hBound hArrives => ?_, fun mid hNext => ?_⟩
  · refine (serveRound_serves (.inr ⟨rfl, rfl⟩) (writeThenRead_asks (.start _)) hArrives hBytes
      hLength hCount hBound).mono fun r after hServes => ?_
    obtain ⟨heard, trace, result, replied, hTransfers, hServes⟩ := hServes
    exact ⟨heard, trace, result, replied, hTransfers, fun exchange hExchange =>
      hTransfers.ne_pin exchange hExchange .cs, hServes⟩
  · refine (serveRound_brackets hNext).mono fun r after hBrackets => ?_
    obtain ⟨trace, hTrace, hAnswers, rfl | ⟨paired, result, hSelects⟩⟩ := hBrackets
    · exact ⟨[], hTrace, hAnswers, .inl rfl⟩
    · exact ⟨trace, hTrace, hAnswers, .inr hSelects.released.symm⟩

end Rounds

/-- The second transfer fails. Of the command with chip select not even the reply gets through, and
still CS is high; the command without is replied to. -/
theorem chip_select_brackets_faults :
    let board := Recording.board "fake" {}
    let faulty : Recording.State := { faults := { rules := [⟨"spi.transfer", some 2⟩] } }
    let selected : World Unit Recording.State Link :=
      ⟨(), faulty, { incoming := [4, 0, 1, 0, 2, 0xAA].map .byte, sendLimit := some 0 }, []⟩
    let plain : World Unit Recording.State Link :=
      ⟨(), faulty, { incoming := [5, 0, 1, 0, 2, 0xAA].map .byte }, []⟩
    let after := (serveRound .hardware {}).after board selected
    let after' := (serveRound .hardware {}).after board plain
    (∃ trace result, Selects .hardware ⟨[0xAA], 2⟩ trace result ∧
      board.Answers faulty trace after.board) ∧
    (∃ trace, exchanges after.events = trace ∧ (trace = [] ∨
      trace.getLast? = some (csDriven true (.ok ())) ∨ ∃ exchange ∈ trace, CsFailed exchange)) ∧
    sentBytes after.events = [] ∧ Recording.level .cs after.board = true ∧
    (∃ trace result, Transfers .hardware ⟨[0xAA], 2⟩ trace result ∧
      board.Answers faulty trace after'.board) ∧
    sentBytes after'.events = [0] := by
  intro board faulty selected plain after after'
  obtain ⟨hSelected, -, hBracket⟩ := chip_select_brackets board .hardware {} selected
  obtain ⟨-, hPlain, -⟩ := chip_select_brackets board .hardware {} plain
  obtain ⟨_, trace, result, _, hSelects, hServes⟩ := hSelected [0xAA] 2 [] (by decide) (by decide)
    (by decide) (by decide) (.of_bytes [4, 0, 1, 0, 2, 0xAA] [])
  obtain ⟨_, trace', result', _, hTransfers, -, hServes'⟩ := hPlain [0xAA] 2 [] (by decide)
    (by decide) (by decide) (by decide) (.of_bytes [5, 0, 1, 0, 2, 0xAA] [])
  obtain ⟨_, hTrace, -, hReleased⟩ := hBracket _ rfl
  refine ⟨⟨trace, result, hSelects, hServes.answers⟩, ⟨_, hTrace, hReleased⟩, by decide +kernel,
    by decide +kernel, ⟨trace', result', hTransfers, hServes'.answers⟩, by decide +kernel⟩

end Binary.Spi

end BusBench
