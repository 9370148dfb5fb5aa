/-!
# Calls that fail

Rules that make some calls fail, by the word of the call and by how often it has been made.

* `Faults.count`: counts a call and tells whether it fails.
-/

namespace BusBench

/-- A rule that makes calls fail. -/
structure FaultRule where
  word : String
  /-- Which call fails, counted from one; `none` for every call. -/
  call? : Option Nat
  deriving DecidableEq, Repr

/-- Rules, and how often each call has been made. -/
structure Faults where
  rules : List FaultRule := []
  calls : List (String × Nat) := []
  deriving DecidableEq, Repr

namespace Faults

/-- How often a call has been made. -/
def calledTimes (word : String) (faults : Faults) : Nat :=
  (faults.calls.lookup word).getD 0

/-- Counts a call; answers whether it fails. -/
def count (word : String) (faults : Faults) : Bool × Faults :=
  let n := faults.calledTimes word + 1
  let fails := faults.rules.any fun rule =>
    rule.word == word && (rule.call?.isNone || rule.call? == some n)
  (fails, { faults with calls := (word, n) :: faults.calls.filter (·.1 != word) })

end Faults

end BusBench
