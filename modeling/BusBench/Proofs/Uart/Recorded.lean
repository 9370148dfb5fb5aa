import BusBench.Board.Recording
import BusBench.Proofs.Uart.Port

/-!
# The UART of a recording board

The UART of a recording board has a buffer, to which bytes come where it receives what it sends.

* `Recording.answer_received`: the requests that have nothing to do with the buffer.
* `Recording.port`: the buffer of the UART.
-/

namespace BusBench.Recording

open Uart (taken discards)

variable {s : State} {word : String}

theorem guarded_received {α : Type} {call : State → Except BusError α × State}
    (h : ∀ s, (call s).2.received = s.received) :
    (guarded word s call).2.received = s.received := by
  unfold guarded
  dsimp only
  split
  · rfl
  · exact h _

theorem claim_received (resource : String) :
    (claim resource s).2.received = s.received := by
  unfold claim
  split <;> rfl

theorem lock_received (resource : String) :
    (lock resource word s).2.received = s.received := by
  unfold lock
  dsimp only
  split <;> rfl

theorem addressed_received {α : Type} {address : UInt8} {a : α} :
    (addressed word address a s).2.received = s.received :=
  guarded_received fun _ => by split <;> rfl

/-- Only the UART fills or empties its buffer. -/
theorem answer_received {request : Request} (h : ∀ call, request ≠ .uart call) :
    (answer request s).2.received = s.received := by
  cases request with
  | i2c backing call =>
    cases call with
    | claim => exact claim_received _
    | lock => exact lock_received _
    | release | unlock => rfl
    | setFrequency => exact guarded_received fun _ => rfl
    | write | read | writeRead => exact addressed_received
  | spi backing call =>
    cases call with
    | claim => exact claim_received _
    | lock => exact lock_received _
    | release | unlock => rfl
    | configure | transfer => exact guarded_received fun _ => rfl
  | uart call => exact absurd rfl (h call)
  | oneWire call =>
    cases call with
    | claim => exact claim_received _
    | release => rfl
    | reset | read | search => exact guarded_received fun _ => rfl
    | write => exact guarded_received fun _ => by split <;> rfl
  | pin p call =>
    cases call with
    | claim =>
      change (claimPin p s).2.received = s.received
      unfold claimPin
      split
      · rfl
      · have hClaim := claim_received (s := s) p.name
        split
        · next hGranted => rw [hGranted] at hClaim; exact hClaim
        · exact hClaim
    | release => rfl
    | output | input | sample => exact guarded_received fun _ => rfl
  | _ => rfl

/-- What a write brings back to the UART that sent it. -/
def loopback (request : Request) (s : State) : List UInt8 :=
  match request with
  | .uart (.write bytes) =>
    if s.settings.uartLoopback && !(count (Request.uart (.write bytes)).word s).1 then bytes
    else []
  | _ => []

theorem write_received (bytes : List UInt8) :
    (answer (.uart (.write bytes)) s).2.received =
      s.received ++ loopback (.uart (.write bytes)) s := by
  change (guarded _ s _).2.received = _
  simp only [guarded, loopback]
  cases hFails : (count (Request.uart (.write bytes)).word s).1 with
  | true => simp [count]
  | false =>
    simp only [Bool.false_eq_true, if_false, Bool.not_false, Bool.and_true]
    change (if s.settings.uartLoopback = true then _ else _ : State).received = _
    split
    · rfl
    · exact (List.append_nil _).symm

/-- Apart from the UART, nothing is taken from the buffer and nothing comes to it. -/
theorem pass_of_not_uart {request : Request} (h : ∀ call, request ≠ .uart call) :
    taken ⟨request, (answer request s).1⟩ ++ (answer request s).2.received =
      s.received ++ loopback request s := by
  rw [answer_received h]
  cases request with
  | uart call => exact absurd rfl (h call)
  | _ => exact (List.append_nil _).symm

/-- The buffer of the UART of a recording board. -/
def port (name : String) (header : Header) : Uart.Port (board name header) where
  buffer s := s.received
  arriving := loopback
  pass request s h := by
    cases request with
    | uart call =>
      cases call with
      | claim | release | clear => cases h
      | configure config => exact (guarded_received fun _ => rfl).trans (List.append_nil _).symm
      | write bytes => exact write_received bytes
      | read n => exact (List.take_append_drop _ _).trans (List.append_nil _).symm
      | available => exact (List.append_nil _).symm
    | _ => exact pass_of_not_uart nofun
  clear s := rfl

end BusBench.Recording
