import BusBench.CommandLine
import BusBench.Proofs.Memory.Store
import BusBench.Proofs.Resources.Sessions

/-!
# The EEPROM over whole sessions

The prompt opens a bus for as long as it is in I2C mode, driven pin by pin or by the controller, and
the binary protocol opens one of its own. The EEPROM is the same behind all of them: what one of
them wrote the next one reads.

* `eeprom_remembers`: the EEPROM behaves as one store, whatever a user does.
-/

namespace BusBench.Simulated

/-- Over a whole session, text and binary, on a board with controllers or without, the EEPROM
behaves as one store that starts with all bits set; and so it does, from whatever it kept before,
over any lines that are typed at any terminals and any binary sessions, whatever they came to. -/
theorem eeprom_remembers :
    (∀ (controllers : Bool) (console : Console),
      let world := (CommandLine.session controllers console).2
      Store.Follows 0x50 .blank (exchanges world.events) world.board.eeprom.toStore) ∧
    ∀ {bench : Bench} {s : State} {trace : List Exchange},
      Bench.AtPrompt board bench s trace →
        ∃ s₀, board.Answers s₀ trace s ∧
          Store.Follows 0x50 s₀.eeprom.toStore trace s.eeprom.toStore := by
  constructor
  · intro controllers console world
    obtain ⟨trace, hTrace, hAnswers⟩ :=
      Bench.run_answers board ⟨{}, initial controllers, console, []⟩
    have hEvents : exchanges world.events = trace := hTrace
    have hFollows := follows_of_answers hAnswers
    have hBlank : (initial controllers).eeprom.toStore = .blank := Eeprom.toStore_new
    rw [hEvents, ← hBlank]
    exact hFollows
  · intro bench s trace h
    obtain ⟨s₀, hAnswers⟩ := h.answers
    exact ⟨s₀, hAnswers, follows_of_answers hAnswers⟩

/-- What the transactions of a trace read, if they read something. -/
def readings (trace : List Exchange) : List (List UInt8) :=
  trace.filterMap fun
    | ⟨.i2c _ (.read ..), .ok bytes⟩ | ⟨.i2c _ (.writeRead ..), .ok bytes⟩ => some bytes.val
    | _ => none

/-- A host stores three bytes across the last address from the prompt, on a bus that is driven pin
by pin; reads them in the binary protocol, on that of the controller; and back at the prompt reads
the last two of them once more. -/
def threeBytes : Console where
  link :=
    { incoming := (("m 4\r\r\r[0xa0 0xfe 1 2 3]\r".toUTF8.toList ++
        List.replicate 20 0 ++ [0x02, 0x08, 0, 2, 0, 3, 0xA0, 0xFE, 0, 0x0F] ++
        "m 4\r\r\r[0xa0 0xff [0xa1 r:2]\r".toUTF8.toList).map .byte) }

theorem eeprom_remembers_threeBytes :
    let start := ((Bench.start : Act Unit _ _ Error Bench) board).run
      ⟨(), initial true, threeBytes, []⟩
    let world := Bench.serve.after board ⟨{}, start.2.board, start.2.peer, start.2.events⟩
    (∃ s₀, board.Answers s₀ (exchanges world.events) world.board ∧
      Store.Follows 0x50 s₀.eeprom.toStore (exchanges world.events) world.board.eeprom.toStore) ∧
      readings (exchanges world.events) = [[1, 2, 3], [2, 3]] ∧
      world.board.eeprom.toStore.pointer = 1 := by
  intro start world
  have hRun : ((Bench.start : Act Unit _ _ Error Bench) board).run
      ⟨(), initial true, threeBytes, []⟩ = (.ok {}, start.2) := by
    refine Prod.ext ?_ rfl
    rfl
  have hStart : Bench.AtPrompt board {} start.2.board (exchanges start.2.events) :=
    .start rfl hRun
  have hPrompting : Bench.Prompting board
      (⟨{}, start.2.board, start.2.peer, start.2.events⟩ : World Bench State Console) := hStart
  have hWorld : Bench.Prompting board world := hPrompting.serve
  exact ⟨eeprom_remembers.2 hWorld, by decide +kernel, by decide +kernel⟩

end BusBench.Simulated
