/-!
# The announcement of the binary protocol

A host that wants to speak the binary protocol sends zero bytes until it is answered. They are no
part of the text, and the twentieth in a row is the announcement.

* `Detector.feed`: what becomes of an input byte.
-/

namespace BusBench

/-- How many zero bytes in a row announce the binary protocol. -/
def announcementLength : Nat := 20

/-- How many zero bytes have come in a row. -/
structure Detector where
  zeros : Nat := 0
  deriving DecidableEq, Repr

/-- What an input byte means. -/
inductive Heard where
  /-- A zero byte, swallowed. -/
  | nothing
  | data (byte : UInt8)
  /-- The host has announced the binary protocol. -/
  | modeSwitch
  deriving DecidableEq, Repr

/-- What an input byte means after those that came before. -/
def Detector.feed (byte : UInt8) (detector : Detector) : Heard × Detector :=
  if byte ≠ 0 then (.data byte, ⟨0⟩)
  else if announcementLength ≤ detector.zeros + 1 then (.modeSwitch, ⟨0⟩)
  else (.nothing, ⟨detector.zeros + 1⟩)

end BusBench
