import BusBench.Terminal.Basic

/-!
# Macro tables

A bus mode offers macros by number. Number 0 shows the list.

* `MacroTable.register`, `MacroTable.remove`: entries, kept in the order of their numbers.
* `MacroTable.resolve`: what a number stands for, or a hint for the user.
-/

namespace BusBench

/-- Macros with their numbers and names, in ascending order of the numbers. -/
structure MacroTable (α : Type) where
  entries : List (UInt8 × String × α) := []

namespace MacroTable

variable {α τ : Type}

/-- Puts an entry in its place, instead of one with the same number. -/
def insert (key : UInt8) (name : String) (action : α) :
    List (UInt8 × String × α) → List (UInt8 × String × α)
  | [] => [(key, name, action)]
  | entry :: entries =>
    if key < entry.1 then (key, name, action) :: entry :: entries
    else if key = entry.1 then (key, name, action) :: entries
    else entry :: insert key name action entries

/-- The table with an entry, which replaces one with the same number. -/
def register (key : UInt8) (name : String) (action : α) (table : MacroTable α) : MacroTable α :=
  ⟨insert key name action table.entries⟩

/-- The table of some entries, of which a later one replaces an earlier one with the same number. -/
def ofList (entries : List (UInt8 × String × α)) : MacroTable α :=
  entries.foldl (fun table (key, name, action) => table.register key name action) {}

/-- The table without the entry of a number. -/
def remove (key : UInt8) (table : MacroTable α) : MacroTable α :=
  ⟨table.entries.filter (·.1 ≠ key)⟩

/-- What a number stands for. -/
def get? (key : UInt8) (table : MacroTable α) : Option α :=
  (table.entries.find? (·.1 = key)).map (·.2.2)

def entryLine (entry : UInt8 × String × α) : String :=
  Text.decimal entry.1.toNat ++ ". " ++ entry.2.1

/-- What a number stands for. Number 0 shows the list and an unknown number a hint; neither stands
for anything. -/
def resolve [Terminal τ] (key : UInt8) (table : MacroTable α) : Dialogue τ Error (Option α) :=
  if key = 0 then do
    Terminal.writeLine "0. Macro menu"
    table.entries.forM fun entry => Terminal.writeLine (entryLine entry)
    return none
  else
    match table.get? key with
    | some action => return some action
    | none => do
      Terminal.writeLine "Unknown macro, try ? or (0) for help"
      return none

end MacroTable

end BusBench
