import BusBench.Board.Claim
import BusBench.Prompt.MacroTable
import BusBench.Sequence.Action

/-!
# The I2C mode

A sequence is cut into groups, each from a start to the next stop, and every group becomes exactly
one bus transaction. The first byte of a group is the address byte, whose lowest bit picks the
direction. A second start inside the group turns it into a write, a repeated start and a read.

* `I2c.plan`: the transaction of a group, or what is wrong with it.
* `I2c.Group.transcript`: what is shown of a transaction that succeeded.
* `I2c.run`: runs a sequence.
-/

namespace BusBench.I2c

variable {ω β τ : Type}

/-! ## Groups -/

/-- A transaction as it was typed. -/
structure Group where
  /-- The address byte with its direction bit. -/
  address : UInt8
  /-- The address byte after a repeated start. -/
  repeated? : Option UInt8
  /-- The actions of the part that writes. -/
  writing : List Action
  /-- The actions of the part that reads. -/
  reading : List Action
  deriving DecidableEq, Repr

/-- Why a group cannot become a transaction. -/
inductive GroupFault where
  | noAddress
  | readBeforeRepeatedStart
  | noSecondAddress
  | addressMismatch
  deriving DecidableEq, Repr

def GroupFault.message : GroupFault → String
  | noAddress => "Address not single byte write"
  | readBeforeRepeatedStart => "First address must be write with repeated start"
  | noSecondAddress => "Second address must be read with repeat 1"
  | addressMismatch => "Addresses don't match"

/-- Whether an address byte asks to read. -/
def isRead (address : UInt8) : Bool :=
  Byte.bit address 0

/-- The transaction of the actions between a start and its stop. -/
def plan : List Action → Except GroupFault Group
  | .write address 1 :: rest =>
    let (writing, tail) := rest.span (· ≠ .start)
    match tail with
    | [] =>
      if isRead address then pure ⟨address, none, [], rest⟩ else pure ⟨address, none, rest, []⟩
    | _ :: tail =>
      if isRead address then throw .readBeforeRepeatedStart
      else
        match tail with
        | .write second 1 :: reading =>
          if !isRead second then throw .noSecondAddress
          else if second >>> 1 ≠ address >>> 1 then throw .addressMismatch
          else pure ⟨address, some second, writing, reading⟩
        | _ => throw .noSecondAddress
  | _ => throw .noAddress

namespace Group

def device (group : Group) : UInt8 :=
  group.address >>> 1

def written (group : Group) : List UInt8 :=
  group.writing.flatMap fun
    | .write value count => List.replicate count.toNat value
    | _ => []

/-- The lengths of the runs to write. -/
def writeRuns (group : Group) : List Nat :=
  group.writing.filterMap fun
    | .write _ count => some count.toNat
    | _ => none

/-- The lengths of the runs to read. -/
def readRuns (group : Group) : List Nat :=
  group.reading.filterMap fun
    | .read count => some count.toNat
    | _ => none

def readLength (group : Group) : Nat :=
  group.readRuns.foldr (· + ·) 0

end Group

/-! ## Transcripts -/

def acknowledged (b : UInt8) : String :=
  "0x" ++ Text.hex b.toNat ++ " ACK"

/-- The lines of runs of bytes: one line for a single byte, else a header and a line of all bytes.
-/
def runLines (verb : String) : List Nat → List UInt8 → List String
  | [], _ => []
  | 1 :: runs, b :: data => (verb ++ " " ++ acknowledged b) :: runLines verb runs data
  | 1 :: runs, [] => runLines verb runs []
  | n :: runs, data =>
    (verb ++ " 0x" ++ Text.hex n ++ " BYTES:") ::
      " ".intercalate ((data.take n).map acknowledged) :: runLines verb runs (data.drop n)

/-- What is shown of a transaction that succeeded, after the line of its start. -/
def Group.transcript (group : Group) (data : List UInt8) : List String :=
  ["WRITE " ++ acknowledged group.address] ++ runLines "WRITE" group.writeRuns group.written ++
    (match group.repeated? with
      | some second => ["I2C START BIT", "WRITE " ++ acknowledged second]
      | none => []) ++
    runLines "READ" group.readRuns data ++ ["I2C STOP BIT"]

/-- What is shown of a transaction that failed, after the line of its start. -/
def Group.failedTranscript (group : Group) : List String :=
  ["WRITE 0x" ++ Text.hex group.address.toNat ++ " NACK", "I2C STOP BIT"]

/-! ## Running -/

/-- Makes the transaction of a group and answers the bytes read. -/
def transact (backing : Backing) (group : Group) :
    Act ω β τ Error (Except BusError (List UInt8)) := do
  if group.readLength = 0 then
    let answer : Except BusError Unit ← Act.ask (.i2c backing (.write group.device group.written))
    return answer.map fun _ => []
  else if group.written.isEmpty then
    let answer : Except BusError _ ← Act.ask (.i2c backing (.read group.device group.readLength))
    return answer.map (·.val)
  else
    let answer : Except BusError _ ←
      Act.ask (.i2c backing (.writeRead group.device group.written group.readLength))
    return answer.map (·.val)

variable [Terminal τ]

/-- Runs one group under the bus lock; answers whether the lock was granted. -/
def execute (backing : Backing) (group : Group) : Act ω β τ Error Bool := do
  let granted : Bool ← Act.ask (.i2c backing .lock)
  if !granted then return false
  let started ← Act.attempt (Act.writeLine "I2C START BIT")
  let result ← transact backing group
  Act.tell (.i2c backing .unlock)
  Act.ofExcept started
  let lines :=
    match result with
    | .ok data => group.transcript data
    | .error _ => group.failedTranscript
  lines.forM Act.writeLine
  return true

/-- Runs the groups of a sequence, up to the first action between groups that is no start; `n`
bounds their number. -/
def runGroups (backing : Backing) : Nat → List Action → Act ω β τ Error Unit
  | n + 1, .start :: actions => do
    let (body, tail) := actions.span (· ≠ .stop)
    match tail with
    | [] => Act.writeLine "Missing stop"
    | _ :: tail =>
      match plan body with
      | .error fault =>
        Act.writeLine fault.message
        runGroups backing n tail
      | .ok group =>
        if ← execute backing group then runGroups backing n tail
  | _, _ => return

def run (backing : Backing) (actions : List Action) : Act ω β τ Error Unit :=
  runGroups backing actions.length actions

/-! ## Macros -/

inductive Shortcut where
  | addressSearch
  deriving DecidableEq, Repr

def shortcuts : MacroTable Shortcut :=
  .ofList [(1, "7bit address search", .addressSearch)]

def foundLine (address : UInt8) : String :=
  "0x" ++ Text.hex (address <<< 1).toNat ++ "(0x" ++ Text.hex address.toNat ++ " W)"

/-- The lines of the devices found, all but the first behind a space. -/
def foundLines : List UInt8 → List String
  | [] => []
  | address :: rest => foundLine address :: rest.map fun address => " " ++ foundLine address

/-- Shows the devices on the bus. -/
def searchAddresses (backing : Backing) : Act ω β τ Error Unit := do
  let granted : Bool ← Act.ask (.i2c backing .lock)
  if !granted then return
  let found ← Act.scanI2c backing
  Act.tell (.i2c backing .unlock)
  Act.writeLine "Searching I2C address space. Found devices at:"
  (foundLines found).forM Act.writeLine

def runShortcut (backing : Backing) (key : UInt8) : Act ω β τ Error Unit := do
  match ← Act.dialogue (shortcuts.resolve key) with
  | some .addressSearch => searchAddresses backing
  | none => return

/-! ## Entering -/

/-- The bus speeds of the menu and of the binary protocol, in kilohertz. -/
def speedsKhz : List Nat :=
  [5, 50, 100, 400]

/-- Asks which pins to use where the board has a header for I2C. -/
def choosePins (header : Header) : Dialogue τ Error (Pin × Pin) := do
  if header.scl && header.sda then
    let index ← Terminal.select "I2C pinout:" ["CLK/MOSI", "SCL/SDA"] 0
    return if index = 1 then (.scl, .sda) else (.clk, .mosi)
  else return (.clk, .mosi)

/-- Claims the bus. A controller may be turned down for the pins. -/
def claimBus (clock data : Pin) (hz : Nat) : Act ω β τ Error Backing := do
  match ← Act.ofExcept ((← Act.claimI2c clock data hz).mapError Error.unavailable) with
  | .bitBanged => return .bitBanged
  | .hardware =>
    let choice ←
      Act.attempt (Act.dialogue (Terminal.select "I2C mode:" ["Software", "Hardware"] 0))
    match choice with
    | .error e =>
      Act.tell (.i2c .hardware .release)
      throw e
    | .ok 0 =>
      Act.tell (.i2c .hardware .release)
      let answer : Except Unavailable Unit ← Act.ask (.i2c .bitBanged (.claim clock data hz))
      Act.claimed answer
      return .bitBanged
    | .ok _ => return .hardware

/-- Asks for the settings and claims the bus. -/
def enter : Act ω β τ Error Backing := do
  let board ← read
  let (clock, data) ← Act.dialogue (choosePins board.header)
  let speeds := ["~5KHz", "~50KHz", "~100KHz", "~400KHz"]
  let speed ← Act.dialogue (Terminal.select "Set speed:" speeds 0)
  let hz := speedsKhz.getD speed 0 * 1000
  Act.reach .i2cMode
  claimBus clock data hz

def leave (backing : Backing) : Act ω β τ Error Unit := do
  Act.tell (.i2c backing .release)

end BusBench.I2c
