import BusBench.Prompt.I2c
import Mathlib.Algebra.GroupWithZero.Nat
import Mathlib.Data.List.Basic

/-!
# Lines of I2C transcripts

The lines of a transcript are made by walking along the typed runs and the bytes at once. Where the
runs cut up the bytes completely, each part of them has lines of its own, and none of these can be
taken for the line of the stop.

* `Cut`: bytes that are cut up into runs.
* `partLines`: the lines of bytes that were moved together.
* `runLines_eq`: the lines of runs, part by part.
-/

namespace BusBench.I2c

/-! ## Runs of bytes -/

/-- One after the other, the parts are the bytes, and they are as long as the runs say. -/
structure Cut (runs : List Nat) (bytes : List UInt8) (parts : List (List UInt8)) : Prop where
  flatten : parts.flatten = bytes
  lengths : parts.map List.length = runs

theorem exists_cut {runs : List Nat} {bytes : List UInt8} (h : runs.sum = bytes.length) :
    ∃ parts, Cut runs bytes parts := by
  induction runs generalizing bytes with
  | nil => exact ⟨[], (List.length_eq_zero_iff.mp h.symm).symm, rfl⟩
  | cons n runs ih =>
    rw [List.sum_cons] at h
    have hRest : runs.sum = (bytes.drop n).length := by
      rw [List.length_drop]
      omega
    have hFirst : (bytes.take n).length = n := by
      rw [List.length_take]
      omega
    obtain ⟨parts, hFlatten, hLengths⟩ := ih hRest
    refine ⟨bytes.take n :: parts, ?_, ?_⟩
    · rw [List.flatten_cons, hFlatten, List.take_append_drop]
    · rw [List.map_cons, hFirst, hLengths]

/-- The lines of bytes that were moved together. -/
def partLines (verb : String) : List UInt8 → List String
  | [b] => [verb ++ " " ++ acknowledged b]
  | bytes =>
    [verb ++ " 0x" ++ Text.hex bytes.length ++ " BYTES:", " ".intercalate (bytes.map acknowledged)]

/-- The walk along the runs never runs out of bytes. -/
theorem runLines_eq {verb : String} {runs : List Nat} {bytes : List UInt8}
    {parts : List (List UInt8)} (h : Cut runs bytes parts) (hRuns : 0 ∉ runs) :
    runLines verb runs bytes = parts.flatMap (partLines verb) := by
  obtain ⟨rfl, rfl⟩ := h
  induction parts with
  | nil => rfl
  | cons part parts ih =>
    obtain ⟨hPart, hParts⟩ := not_or.mp (List.mem_cons.not.mp hRuns)
    rw [List.flatMap_cons, ← ih hParts, List.map_cons, List.flatten_cons]
    match part with
    | [] => exact absurd rfl hPart
    | [b] => rfl
    | b :: b' :: bytes =>
      -- The walk takes only longer runs off the bytes by their length.
      have hLong : runLines verb ((b :: b' :: bytes).length :: parts.map List.length)
          (b :: b' :: bytes ++ parts.flatten) =
        (verb ++ " 0x" ++ Text.hex (b :: b' :: bytes).length ++ " BYTES:") ::
          " ".intercalate (((b :: b' :: bytes ++ parts.flatten).take
            (b :: b' :: bytes).length).map acknowledged) ::
          runLines verb (parts.map List.length)
            ((b :: b' :: bytes ++ parts.flatten).drop (b :: b' :: bytes).length) := rfl
      rw [hLong, List.take_left, List.drop_left]
      rfl

/-! ## The line of the stop -/

theorem acknowledged_ne_stop (bytes : List UInt8) :
    " ".intercalate (bytes.map acknowledged) ≠ "I2C STOP BIT" := by
  intro h
  have hChars := congrArg String.toList h
  rw [String.toList_intercalate] at hChars
  match bytes with
  | [] => cases hChars
  | [b] => simp [List.intercalate, acknowledged] at hChars
  | b :: b' :: bytes => simp [List.intercalate, acknowledged] at hChars

theorem append_ne_stop {word : String} {c : Char} {cs : List Char} (hWord : word.toList = c :: cs)
    (hFirst : c ≠ 'I') (rest : String) : word ++ rest ≠ "I2C STOP BIT" := by
  intro h
  have hChars := congrArg String.toList h
  rw [String.toList_append, hWord] at hChars
  exact hFirst (List.cons.inj hChars).1

theorem stop_not_mem_parts {verb : String} {c : Char} {cs : List Char}
    (hVerb : verb.toList = c :: cs) (hFirst : c ≠ 'I') (parts : List (List UInt8)) :
    "I2C STOP BIT" ∉ parts.flatMap (partLines verb) := by
  intro hStop
  obtain ⟨part, -, hLine⟩ := List.mem_flatMap.mp hStop
  unfold partLines at hLine
  split at hLine
  · have hEq := List.mem_singleton.mp hLine
    rw [String.append_assoc] at hEq
    exact append_ne_stop hVerb hFirst _ hEq.symm
  · rcases List.mem_pair.mp hLine with hEq | hEq
    · rw [String.append_assoc, String.append_assoc] at hEq
      exact append_ne_stop hVerb hFirst _ hEq.symm
    · exact acknowledged_ne_stop _ hEq.symm

end BusBench.I2c
