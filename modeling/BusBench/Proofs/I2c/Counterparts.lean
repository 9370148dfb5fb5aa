import BusBench.Binary.I2c
import BusBench.Proofs.I2c.Groups
import BusBench.Proofs.I2c.Lines
import BusBench.Proofs.Link.Frames
import BusBench.Proofs.World.Listening

/-!
# Groups of the prompt and frames of the binary protocol

The prompt takes a transaction as a group of typed actions, the binary protocol as a frame with two
counts, or as a command byte with a few bytes behind it. Where they mean the same, they ask the bus
for the same, and show and reply the same.

* `Transaction.outcome`: what comes of a transaction, by the answer of the bus.
* `Transaction.make`: a transaction as a program, which all of them run.
* `Makes`: a program made this one transaction under the lock, and said so much of it.
* `group_and_frame_agree`: the groups and the frames that mean the same.
-/

namespace BusBench.I2c

variable {ω ψ β τ ε : Type}

open CommandLine (sentBytes)
open Act (Ends)
open Binary (Talk Paired)

/-! ## Address bytes -/

/-- The next address byte after an even one reads from the same device. -/
theorem even_address {address : UInt8} (h : address % 2 = 0) :
    isRead address = false ∧ isRead (address + 1) = true ∧
      (address + 1) >>> 1 = address >>> 1 :=
  Byte.forall_of_lt (P := fun address => address % 2 = 0 → isRead address = false ∧
    isRead (address + 1) = true ∧ (address + 1) >>> 1 = address >>> 1) (by decide +kernel) address h

/-! ## Transactions as programs -/

namespace Transaction

/-- What comes of a transaction: the bytes that were read. -/
def outcome (backing : Backing) : (t : Transaction) → (t.request backing).Answer →
    Except BusError (List UInt8)
  | .write .., answer => Except.map (fun _ => []) (show Except BusError Unit from answer)
  | .read _ count, answer => Except.map (·.val) (show Except BusError (Bytes count) from answer)
  | .writeRead _ _ count, answer =>
    Except.map (·.val) (show Except BusError (Bytes count) from answer)

/-- As many bytes are read as the transaction asks for. -/
theorem length_of_outcome {backing : Backing} {t : Transaction} {answer : (t.request backing).Answer}
    {data : List UInt8} (h : t.outcome backing answer = .ok data) : data.length = t.count := by
  cases t with
  | write address bytes =>
    rcases answer with reason | done
    · cases h
    · cases h
      rfl
  | read address count | writeRead address bytes count =>
    rcases answer with reason | back
    · cases h
    · cases h
      exact back.property

def make (backing : Backing) (t : Transaction) : Act ω β τ ε (Except BusError (List UInt8)) := do
  let answer ← Act.ask (t.request backing)
  return t.outcome backing answer

end Transaction

theorem transact_eq (backing : Backing) (group : Group) :
    (transact backing group : Act ω β τ Error _) = group.transaction.make backing := by
  unfold transact Group.transaction Transaction.moving
  split
  · rfl
  · split <;> rfl

theorem writeThenRead_eq (backing : Backing) (address : UInt8) (bytes : List UInt8) {count : Nat}
    (h : count ≠ 0) :
    (Binary.I2c.writeThenRead backing ⟨address :: bytes, count⟩ : Act ω β Link ε _) =
      (Transaction.moving (address >>> 1) bytes count).make backing := by
  unfold Transaction.moving
  rw [if_neg h]
  cases bytes <;> rfl

/-! ## Under the lock -/

/-- The bus after its lock was taken. -/
def locked (board : Board β) (backing : Backing) (s : β) : β :=
  (board.answer (.i2c backing .lock) s).2

/-- The answer to a transaction under the lock, and the bus after it. -/
def answered (board : Board β) (backing : Backing) (t : Transaction) (s : β) :
    (t.request backing).Answer × β :=
  board.answer (t.request backing) (locked board backing s)

/-- What comes of a transaction under the lock. -/
def result (board : Board β) (backing : Backing) (t : Transaction) (s : β) :
    Except BusError (List UInt8) :=
  t.outcome backing (answered board backing t s).1

/-- Coming to this result and this world, a program made this transaction under the lock and asked
for nothing else of the board. If nothing stood in the way of its output, it is done and sent these
bytes, by what came of the transaction. -/
structure Makes {α : Type} (board : Board β) (backing : Backing) (t : Transaction)
    (said : Except BusError (List UInt8) → List UInt8) (isOpen : Prop) (done : α)
    (before : World ω β τ) (r : Except ε α) (after : World ω β τ) : Prop where
  exchanges : exchanges after.events = exchanges before.events ++
    [⟨.i2c backing .lock, true⟩, ⟨t.request backing, (answered board backing t before.board).1⟩,
      ⟨.i2c backing .unlock, ()⟩]
  state : after.board =
    (board.answer (.i2c backing .unlock) (answered board backing t before.board).2).2
  succeeds : isOpen → r = .ok done
  said : isOpen → sentBytes after.events =
    sentBytes before.events ++ said (result board backing t before.board)

namespace Makes

variable {α γ : Type} {board : Board β} {backing : Backing} {t : Transaction}
  {said : Except BusError (List UInt8) → List UInt8} {isOpen : Prop} {done : α}
  {before after : World ω β τ} {r : Except ε α}

/-- The transaction in the middle of what a program said before and after it. -/
theorem of_events (early late : List PeerEvent)
    (hEvents : after.events = late.map .peer ++ .board ⟨.i2c backing .unlock, ()⟩ ::
      .board ⟨t.request backing, (answered board backing t before.board).1⟩ ::
        (early.map .peer ++ .board ⟨.i2c backing .lock, true⟩ :: before.events))
    (hState : after.board =
      (board.answer (.i2c backing .unlock) (answered board backing t before.board).2).2)
    (hOpen : isOpen → r = .ok done ∧ sentBytes (early.map .peer) ++ sentBytes (late.map .peer) =
      said (result board backing t before.board)) :
    Makes board backing t said isOpen done before r after where
  exchanges := by
    rw [hEvents, exchanges_peer_append, exchanges_cons_board, exchanges_cons_board,
      exchanges_peer_append, exchanges_cons_board]
    simp only [List.append_assoc, List.cons_append, List.nil_append]
  state := hState
  succeeds isOpen := (hOpen isOpen).1
  said isOpen := by
    have hBoard (x : Exchange) (events : List Event) :
        sentBytes (.board x :: events) = sentBytes events :=
      (sentBytes_append [.board x] events).trans (List.append_nil _)
    rw [hEvents, sentBytes_append, hBoard, hBoard, sentBytes_append, hBoard, List.append_assoc,
      (hOpen isOpen).2]

theorem of_said (h : Makes board backing t said isOpen done before r after)
    {said' : Except BusError (List UInt8) → List UInt8}
    (hSaid : said (result board backing t before.board) =
      said' (result board backing t before.board)) :
    Makes board backing t said' isOpen done before r after :=
  { h with said := fun isOpen => hSaid ▸ h.said isOpen }

/-- A program that has made it may still do something else, as long as nobody notices. -/
theorem of_succeeds (h : Makes board backing t said isOpen done before r after) {done' : γ}
    {r' : Except ε γ} (hSucceeds : isOpen → r' = .ok done') :
    Makes board backing t said isOpen done' before r' after :=
  { h with succeeds := hSucceeds }

end Makes

/-! ## The prompt -/

/-- What the prompt shows of a group, by what came of its transaction. -/
def Group.lines (group : Group) (result : Except BusError (List UInt8)) : List String :=
  "I2C START BIT" ::
    match result with
    | .ok data => group.transcript data
    | .error _ => group.failedTranscript

theorem execute_ends {board : Board β} {backing : Backing} {group : Group}
    {world : World ω β Console} (hFree : (board.answer (.i2c backing .lock) world.board).1 = true) :
    Ends board (execute backing group) world fun r after => r ≠ .ok false ∧
      Makes board backing group.transaction (fun result => shown (group.lines result))
        world.peer.link.IsOpen true world r after := by
  refine .bind (.ask ?_)
  simp only [hFree]
  refine .bind (.attempt (.writeLine fun started console new hStarted => ?_))
  rw [transact_eq]
  refine .bind (.bind (.ask (.pure (.bind (.tell (.bind ?_))))))
  cases started with
  | error e =>
    exact ⟨nofun, .of_events new [] rfl rfl fun hOpen => nomatch (hStarted hOpen).succeeds⟩
  | ok =>
    refine .pure (.bind (.writeLines fun r console' new' hShows => ?_))
    have hShown (hOpen : world.peer.link.IsOpen) := hShows (hStarted hOpen).isOpen
    cases r with
    | error e =>
      exact ⟨nofun, .of_events new new' rfl rfl fun hOpen => nomatch (hShown hOpen).succeeds⟩
    | ok =>
      refine .pure ⟨nofun, .of_events new new' rfl rfl fun hOpen => ⟨rfl, ?_⟩⟩
      rw [(hStarted hOpen).said, (hShown hOpen).said]
      exact List.flatMap_append.symm

theorem plan_writeRead {address : UInt8} (hEven : address % 2 = 0) {writing : List Action}
    (hStart : .start ∉ writing) (n : UInt16) :
    plan (.write address 1 :: writing ++ [.start, .write (address + 1) 1, .read n]) =
      .ok ⟨address, some (address + 1), writing, [.read n]⟩ := by
  obtain ⟨hWrite, hRead, hSame⟩ := even_address hEven
  rw [plan_append hStart]
  simp [hWrite, hRead, hSame]

theorem run_ends {board : Board β} {backing : Backing} {body : List Action} {group : Group}
    {world : World ω β Console} (hFree : (board.answer (.i2c backing .lock) world.board).1 = true)
    (hBody : .stop ∉ body) (hPlan : plan body = .ok group) :
    Ends board (run backing (.start :: body ++ [.stop])) world
      (Makes board backing group.transaction (fun result => shown (group.lines result))
        world.peer.link.IsOpen () world) := by
  have hLength : (.start :: body ++ [Action.stop]).length = body.length + 1 + 1 := by simp
  rw [run, hLength, runGroups_accepted hBody hPlan]
  refine .bind ((execute_ends hFree).mono fun r after hMade => ?_)
  obtain ⟨hGranted, hMakes⟩ := hMade
  rcases r with e | _ | _
  · exact hMakes.of_succeeds fun hOpen => by cases hMakes.succeeds hOpen
  · exact absurd rfl hGranted
  · exact hMakes.of_succeeds fun _ => rfl

/-! ## The binary protocol -/

/-- The two bytes of a count. -/
def countBytes (n : Nat) : List UInt8 :=
  [UInt8.ofNat (n / 256), UInt8.ofNat n]

/-- The frame of a command that writes these bytes and then reads so many. -/
def pairedFrame (command : UInt8) (bytes : List UInt8) (count : Nat) : List UInt8 :=
  command :: (countBytes bytes.length ++ (countBytes count ++ bytes))

/-- The frame of a command that writes up to sixteen bytes. -/
def bulkFrame (bytes : List UInt8) : List UInt8 :=
  UInt8.ofNat (0x10 + (bytes.length - 1)) :: bytes

theorem toNat_countBytes {n : Nat} (h : n < 65536) :
    (UInt8.ofNat (n / 256)).toNat * 256 + (UInt8.ofNat n).toNat = n := by
  rw [UInt8.toNat_ofNat', UInt8.toNat_ofNat']
  omega

theorem readPaired_of_arrives {said : List UInt8} {link : Link} {rest : List Arrival}
    {bytes : List UInt8} {count : Nat}
    {post : Except LinkError (Option Paired) → Link → List UInt8 → Prop}
    (hArrives : Arrives link.incoming (countBytes bytes.length ++ (countBytes count ++ bytes)) rest)
    (hBytes : bytes ≠ []) (hLength : bytes.length < 65536) (hCount : count ≠ 0)
    (hBound : count < 65536)
    (h : post (.ok (some ⟨bytes, count⟩)) { link with incoming := rest } said) :
    Dialogue.Ends saying Binary.readPaired link said post := by
  refine .bind (.readCount_of_arrives hArrives fun mid hCounts => .bind
    (.readCount_of_arrives hCounts fun mid' hRest => ?_))
  have hSome : ¬(bytes.length = 0 ∨ count = 0) := by
    rw [not_or]
    exact ⟨fun hNone => hBytes (List.length_eq_zero_iff.mp hNone), hCount⟩
  rw [toNat_countBytes hLength, toNat_countBytes hBound]
  dsimp only
  rw [if_neg hSome]
  refine .bind (.readExact_of_arrives hRest (.pure ?_))
  rw [saying.hearAll]
  exact h

section Frames

variable {board : Board β} {backing : Backing} {world : World ω β Link} {rest : List Arrival}
  {address : UInt8} {bytes : List UInt8} {count : Nat}

/-- The reply to a command that writes and reads. -/
def pairedReply : Except BusError (List UInt8) → List UInt8
  | .ok data => 1 :: data
  | .error _ => [0]

/-- The reply to a command that writes so many bytes. -/
def bulkReply (n : Nat) : Except BusError (List UInt8) → List UInt8
  | .ok _ => 1 :: List.replicate n 0
  | .error _ => 1 :: List.replicate n 1

/-- Nothing is read where bytes are only written, and every byte has its bit in the reply. -/
theorem bulkReply_write (n : Nat) (answer : Except BusError Unit) :
    bulkReply n (answer.map fun _ => []) =
      1 :: List.replicate n (match some answer with | some (.ok _) => 0 | _ => 1) := by
  cases answer <;> rfl

/-- A program that makes a transaction, run under the lock. -/
theorem locked_ends {α : Type} {t : Transaction} {program : Act ω β Link LinkError α}
    {f : (t.request backing).Answer → α}
    {post : Except LinkError (Option α) → World ω β Link → Prop}
    (hFree : (board.answer (.i2c backing .lock) world.board).1 = true)
    (hProgram : ∀ {world : World ω β Link} {post : Except LinkError α → World ω β Link → Prop},
      post (.ok (f (board.answer (t.request backing) world.board).1)) { world with
        board := (board.answer (t.request backing) world.board).2
        events := .board ⟨t.request backing, (board.answer (t.request backing) world.board).1⟩ ::
          world.events } → Ends board program world post)
    (h : post (.ok (some (f (answered board backing t world.board).1))) { world with
      board := (board.answer (.i2c backing .unlock) (answered board backing t world.board).2).2
      events := .board ⟨.i2c backing .unlock, ()⟩ ::
        .board ⟨t.request backing, (answered board backing t world.board).1⟩ ::
          .board ⟨.i2c backing .lock, true⟩ :: world.events }) :
    Ends board (Binary.I2c.locked backing program) world post := by
  refine .bind (.ask ?_)
  simp only [hFree]
  exact .bind (.attempt (hProgram (.bind (.tell (.bind (.pure (.pure h)))))))

/-- The reply to a transaction, which ends the round of its command. -/
theorem replied_ends {t : Transaction} {said : Except BusError (List UInt8) → List UInt8}
    {talk : Dialogue Link LinkError Unit}
    (hTalk : Dialogue.Yields saying talk world.peer.incoming [] fun r rest sent =>
      r = .ok () ∧ rest = world.peer.incoming ∧ sent = said (result board backing t world.board)) :
    Ends board (do
      Act.dialogue talk
      return .inl ()) { world with
        board := (board.answer (.i2c backing .unlock) (answered board backing t world.board).2).2
        events := .board ⟨.i2c backing .unlock, ()⟩ ::
          .board ⟨t.request backing, (answered board backing t world.board).1⟩ ::
            .board ⟨.i2c backing .lock, true⟩ :: world.events } fun r after =>
      Makes board backing t said world.peer.IsOpen (.inl () : Unit ⊕ Unit) world r after ∧
        (world.peer.IsOpen → after.peer.incoming = world.peer.incoming) := by
  have hTalk' (hOpen : world.peer.IsOpen) : Dialogue.Ends saying talk world.peer []
      fun r link sent => r = .ok () ∧ link.incoming = world.peer.incoming ∧
        sent = said (result board backing t world.board) :=
    fun r base hPeer hState => (hTalk r base (hPeer ▸ hOpen) (congrArg _ hPeer) hState).2
  refine .bind (.dialogue_of_told hTalk' fun r link new hTold => ?_)
  cases r with
  | error e =>
    exact ⟨.of_events [] new rfl rfl fun hOpen => (nomatch (hTold hOpen).1),
      fun hOpen => nomatch (hTold hOpen).1⟩
  | ok =>
    exact .pure ⟨.of_events [] new rfl rfl fun hOpen => ⟨rfl, (hTold hOpen).2.2⟩,
      fun hOpen => (hTold hOpen).2.1⟩

theorem makes_of_listened {α ε : Type} {incoming : List Arrival} {t : Transaction}
    {said : Except BusError (List UInt8) → List UInt8} {before after : World ω β Link}
    {mid : World ω β Link} {done : α} {r : Except ε α} (h : Listened before mid incoming)
    (hMakes : Makes board backing t said mid.peer.IsOpen done mid r after ∧
      (mid.peer.IsOpen → after.peer.incoming = mid.peer.incoming)) :
    Makes board backing t said before.peer.IsOpen done before r after ∧
      (before.peer.IsOpen → after.peer.incoming = incoming) := by
  have hOpen (hOpen : before.peer.IsOpen) : mid.peer.IsOpen := by
    rw [h.peer]
    exact ⟨hOpen.sendLimit, hOpen.flushLimit⟩
  obtain ⟨hMakes, hRest⟩ := hMakes
  refine ⟨⟨?_, ?_, fun h' => hMakes.succeeds (hOpen h'), fun h' => ?_⟩, fun h' => ?_⟩
  · rw [← h.state, ← h.exchanges, hMakes.exchanges]
  · rw [← h.state, hMakes.state]
  · rw [← h.state, ← h.said, hMakes.said (hOpen h')]
  · rw [hRest (hOpen h'), h.peer]

/-- The round of a command that writes and reads, after its byte. -/
def servePaired (backing : Backing) : Talk ω β (Unit ⊕ Unit) := do
  match ← Act.dialogue Binary.readPaired with
  | none => pure ()
  | some paired =>
    match ← Binary.I2c.locked backing (Binary.I2c.writeThenRead backing paired) with
    | some (.ok bytes) => Binary.replyData bytes
    | _ => Binary.reply 0
  return .inl ()

theorem servePaired_ends {start : World ω β Link} {incoming : List Arrival}
    (hListened : Listened world start incoming)
    (hArrives : Arrives incoming (countBytes (address :: bytes).length ++
      (countBytes count ++ address :: bytes)) rest)
    (hLength : bytes.length < 65535) (hCount : count ≠ 0) (hBound : count < 65536)
    (hFree : (board.answer (.i2c backing .lock) world.board).1 = true) :
    Ends board (servePaired backing) start fun r after =>
      Makes board backing (.moving (address >>> 1) bytes count) pairedReply world.peer.IsOpen
        (.inl ()) world r after ∧ (world.peer.IsOpen → after.peer.incoming = rest) := by
  refine .bind (hListened.listen (readPaired_of_arrives hArrives (List.cons_ne_nil _ _)
    (Nat.succ_lt_succ hLength) hCount hBound ⟨rfl, _, rfl, fun mid hMid => ?_⟩))
  have hFree' : (board.answer (.i2c backing .lock) mid.board).1 = true := by
    rw [hMid.state, hFree]
  dsimp only
  rw [writeThenRead_eq backing address bytes hCount]
  refine .bind (locked_ends hFree' (fun h => .bind (.ask (.pure h))) ?_)
  cases hResult : Transaction.outcome backing (.moving (address >>> 1) bytes count)
    (answered board backing _ mid.board).1 with
  | ok data =>
    refine (replied_ends (.bind (.send (.bind (.sendAll (.flush ⟨rfl, rfl, ?_⟩)))))).mono
      fun r after => makes_of_listened hMid
    rw [result, hResult]
    exact saying.sayAll data [1]
  | error reason =>
    refine (replied_ends (.bind (.send (.flush ⟨rfl, rfl, ?_⟩)))).mono
      fun r after => makes_of_listened hMid
    rw [result, hResult]
    rfl

theorem serveRound_paired {command : UInt8} (hCommand : command = 0x08 ∨ command = 0x09)
    (hArrives : Arrives world.peer.incoming (pairedFrame command (address :: bytes) count) rest)
    (hLength : bytes.length < 65535) (hCount : count ≠ 0) (hBound : count < 65536)
    (hFree : (board.answer (.i2c backing .lock) world.board).1 = true) :
    Ends board (Binary.I2c.serveRound backing () : Talk ω β _) world fun r after =>
      Makes board backing (.moving (address >>> 1) bytes count) pairedReply world.peer.IsOpen
        (.inl ()) world r after ∧ (world.peer.IsOpen → after.peer.incoming = rest) := by
  refine .bind (.reach (.bind ((Listened.reach (.command .i2c)).listen
    (.read_of_arrives hArrives fun mid hPayload => ⟨rfl, _, rfl, fun start hStart => ?_⟩))))
  have hServe := servePaired_ends hStart hPayload hLength hCount hBound hFree
  rcases hCommand with rfl | rfl
  · exact hServe
  · exact hServe

theorem serveRound_bulk (hArrives : Arrives world.peer.incoming (bulkFrame (address :: bytes)) rest)
    (hLength : bytes.length ≤ 15) (hFree : (board.answer (.i2c backing .lock) world.board).1 = true) :
    Ends board (Binary.I2c.serveRound backing () : Talk ω β _) world fun r after =>
      Makes board backing (.moving (address >>> 1) bytes 0) (bulkReply (1 + bytes.length))
        world.peer.IsOpen (.inl ()) world r after ∧
          (world.peer.IsOpen → after.peer.incoming = rest) := by
  have hCommand : (UInt8.ofNat (0x10 + ((address :: bytes).length - 1))).toNat =
      0x10 + bytes.length := by
    rw [UInt8.toNat_ofNat', List.length_cons]
    omega
  refine .bind (.reach (.bind ((Listened.reach (.command .i2c)).listen
    (.read_of_arrives hArrives fun mid hPayload => ⟨rfl, _, rfl, fun heard hHeard => ?_⟩))))
  dsimp only
  split
  case h_1 hByte | h_2 hByte | h_3 hByte | h_4 hByte | h_5 hByte | h_6 hByte => omega
  case h_7 =>
    rw [hCommand, if_pos ⟨by omega, by omega⟩,
      show (0x10 + bytes.length) % 16 + 1 = (address :: bytes).length by
        rw [List.length_cons]; omega]
    refine .bind (hHeard.listen (.readExact_of_arrives hPayload
      ⟨saying.hearAll _ _, _, rfl, fun start hStart => ?_⟩))
    have hFree' : (board.answer (.i2c backing .lock) start.board).1 = true := by
      rw [hStart.state, hFree]
    refine .bind (locked_ends (t := .write (address >>> 1) bytes) (f := id) hFree'
      (fun h => .ask h) ?_)
    refine (replied_ends (.bind (.send (.bind (.sendAll (.flush ⟨rfl, rfl, ?_⟩)))))).mono
      fun r after => makes_of_listened hStart
    rw [List.length_cons, Nat.add_comm]
    refine (saying.sayAll _ [1]).trans (bulkReply_write (1 + bytes.length)
      (answered board backing (.write (address >>> 1) bytes) start.board).1).symm

end Frames

/-! ## Agreement -/

/-- What is shown of bytes that were read together. -/
def readLines : List UInt8 → List String
  | [b] => ["READ " ++ acknowledged b]
  | data =>
    ["READ 0x" ++ Text.hex data.length ++ " BYTES:", " ".intercalate (data.map acknowledged)]

theorem runLines_read {data : List UInt8} (h : data ≠ []) :
    runLines "READ" [data.length] data = readLines data := by
  have hCut : Cut [data.length] data [data] := ⟨List.append_nil data, rfl⟩
  have hSome : 0 ∉ [data.length] := by
    rw [List.mem_singleton, eq_comm, List.length_eq_zero_iff]
    exact h
  rw [runLines_eq hCut hSome]
  match data with
  | [] => exact absurd rfl h
  | [b] => rfl
  | b :: b' :: data => rfl

/-- What is shown of a group that addresses a device, writes to it and shows what comes of it. -/
def groupLines (address : UInt8) (writing : List Action) (rest : List UInt8 → List String) :
    Except BusError (List UInt8) → List String
  | .ok data =>
    ["I2C START BIT", "WRITE " ++ acknowledged address] ++
      runLines "WRITE" (Group.writeRuns ⟨address, none, writing, []⟩) (writtenBytes writing) ++
        rest data ++ ["I2C STOP BIT"]
  | .error _ => ["I2C START BIT", "WRITE 0x" ++ Text.hex address.toNat ++ " NACK", "I2C STOP BIT"]

theorem lines_writeRead {address : UInt8} {writing : List Action} {count : UInt16}
    (hCount : count ≠ 0) {result : Except BusError (List UInt8)}
    (hLength : ∀ data, result = .ok data → data.length = count.toNat) :
    Group.lines ⟨address, some (address + 1), writing, [.read count]⟩ result =
      groupLines address writing (fun data =>
        ["I2C START BIT", "WRITE " ++ acknowledged (address + 1)] ++ readLines data) result := by
  cases result with
  | error reason => rfl
  | ok data =>
    have hData : data.length = count.toNat := hLength data rfl
    have hSome : data ≠ [] := by
      rintro rfl
      exact hCount (UInt16.toNat_inj.mp hData.symm)
    have hRuns : Group.readRuns ⟨address, some (address + 1), writing, [.read count]⟩ =
        [data.length] := congrArg (fun n => [n]) hData.symm
    simp only [Group.lines, Group.transcript, groupLines, hRuns, runLines_read hSome,
      Group.written_eq, Group.writeRuns, List.append_assoc, List.cons_append, List.nil_append]

theorem lines_write (address : UInt8) (writing : List Action)
    (result : Except BusError (List UInt8)) :
    Group.lines ⟨address, none, writing, []⟩ result =
      groupLines address writing (fun _ => []) result := by
  cases result with
  | error reason => rfl
  | ok data =>
    simp only [Group.lines, Group.transcript, groupLines, Group.written_eq, Group.readRuns,
      List.filterMap_nil, runLines, List.cons_append, List.nil_append, List.append_nil]

/-- A group that writes, starts again and reads makes the same transaction as a frame with the same
bytes and the same count, and the frame is replied to with the bytes that are shown. A group that
only writes makes the same as a frame of the bytes alone. -/
theorem group_and_frame_agree {board : Board β} {backing : Backing} {typed : World ω β Console}
    {framed : World ψ β Link} {address : UInt8} {writing : List Action} (hEven : address % 2 = 0)
    (hStart : .start ∉ writing) (hStop : .stop ∉ writing) (hState : framed.board = typed.board)
    (hFree : (board.answer (.i2c backing .lock) typed.board).1 = true) :
    (∀ (count : UInt16) (command : UInt8) (rest : List Arrival),
      count ≠ 0 → command = 0x08 ∨ command = 0x09 → (writtenBytes writing).length < 65535 →
      Arrives framed.peer.incoming
        (pairedFrame command (address :: writtenBytes writing) count.toNat) rest →
      Ends board
        (run backing (.start :: (.write address 1 :: writing ++
          [.start, .write (address + 1) 1, .read count]) ++ [.stop])) typed
        (Makes board backing (.moving (address >>> 1) (writtenBytes writing) count.toNat)
          (shown ∘ groupLines address writing fun data =>
            ["I2C START BIT", "WRITE " ++ acknowledged (address + 1)] ++ readLines data)
          typed.peer.link.IsOpen () typed) ∧
      Ends board (Binary.I2c.serveRound backing ()) framed fun r after =>
        Makes board backing (.moving (address >>> 1) (writtenBytes writing) count.toNat)
          pairedReply framed.peer.IsOpen (.inl ()) framed r after ∧
            (framed.peer.IsOpen → after.peer.incoming = rest)) ∧
    (∀ rest : List Arrival, (writtenBytes writing).length ≤ 15 →
      Arrives framed.peer.incoming (bulkFrame (address :: writtenBytes writing)) rest →
      Ends board (run backing (.start :: (.write address 1 :: writing) ++ [.stop])) typed
        (Makes board backing (.moving (address >>> 1) (writtenBytes writing) 0)
          (shown ∘ groupLines address writing fun _ => []) typed.peer.link.IsOpen () typed) ∧
      Ends board (Binary.I2c.serveRound backing ()) framed fun r after =>
        Makes board backing (.moving (address >>> 1) (writtenBytes writing) 0)
          (bulkReply (1 + (writtenBytes writing).length)) framed.peer.IsOpen (.inl ()) framed r
            after ∧ (framed.peer.IsOpen → after.peer.incoming = rest)) := by
  have hFree' : (board.answer (.i2c backing .lock) framed.board).1 = true := by
    rw [hState, hFree]
  obtain ⟨hWrite, -, -⟩ := even_address hEven
  refine ⟨fun count command rest hCount hCommand hLength hArrives => ⟨?_, ?_⟩,
    fun rest hLength hArrives => ⟨?_, serveRound_bulk hArrives hLength hFree'⟩⟩
  · have hBody : .stop ∉ .write address 1 :: writing ++
        [.start, .write (address + 1) 1, .read count] := by
      simpa using hStop
    have hGroup : Group.transaction ⟨address, some (address + 1), writing, [.read count]⟩ =
        .moving (address >>> 1) (writtenBytes writing) count.toNat := by
      rw [Group.transaction, Group.written_eq, Group.readLength_eq]
      rfl
    refine (run_ends hFree hBody (plan_writeRead hEven hStart count)).mono fun r after hMakes => ?_
    rw [hGroup] at hMakes
    refine hMakes.of_said (congrArg shown (lines_writeRead hCount fun data hData => ?_))
    rw [Transaction.length_of_outcome hData, Transaction.count_moving]
  · exact serveRound_paired hCommand hArrives hLength
      (fun hZero => hCount (UInt16.toNat_inj.mp hZero)) count.toNat_lt hFree'
  · have hBody : .stop ∉ .write address 1 :: writing := by
      simpa using hStop
    have hPlan : plan (.write address 1 :: writing) = .ok ⟨address, none, writing, []⟩ := by
      rw [plan_of_not_mem hStart, hWrite]
      rfl
    have hGroup : Group.transaction ⟨address, none, writing, []⟩ =
        .moving (address >>> 1) (writtenBytes writing) 0 := by
      rw [Group.transaction, Group.written_eq]
      rfl
    refine (run_ends hFree hBody hPlan).mono fun r after hMakes => ?_
    rw [hGroup] at hMakes
    exact hMakes.of_said (congrArg shown (lines_write address writing _))

/-- Reading two bytes of a memory, from the prompt and with a frame. -/
theorem group_and_frame_agree_memory :
    let board := Recording.board "fake" {}
    let memory : Recording.State := { settings := { i2cDevices := [0x50] } }
    let typed : World Unit Recording.State Console := ⟨(), memory, ⟨{}, {}, false⟩, []⟩
    let framed : World Unit Recording.State Link :=
      ⟨(), memory, { incoming := [8, 0, 3, 0, 2, 0xA0, 1, 1].map .byte }, []⟩
    let shown := ((run .bitBanged [.start, .write 0xA0 1, .write 1 2, .start, .write 0xA1 1, .read 2,
      .stop]) board).run typed
    let replied := ((Binary.I2c.serveRound .bitBanged ()) board).run framed
    exchanges shown.2.events = exchanges replied.2.events ∧
      sentBytes replied.2.events = [1, 0xA0, 0xA1] := by
  intro board memory typed framed
  have hAgree := (@group_and_frame_agree Unit Unit _ board .bitBanged typed framed 0xA0 [.write 1 2]
    (by decide) (by decide) (by decide) rfl (by decide +kernel)).1 2 8 [] (by decide) (.inl rfl)
      (by decide) (.of_bytes [8, 0, 3, 0, 2, 0xA0, 1, 1] [])
  exact ⟨hAgree.1.exchanges.trans hAgree.2.1.exchanges.symm,
    (hAgree.2.1.said ⟨rfl, rfl⟩).trans (by decide +kernel)⟩

end BusBench.I2c
