import Mathlib.Data.List.Basic
import Mathlib.Data.List.Infix
import BusBench.Terminal.Console

/-!
# Keys, and what a terminal shows of them

A key that is pressed while a line is typed changes the line, and something is sent for it. The line
editor keeps the line as characters and a terminal shows bytes, so here a line is what the keys make
of it, and the editor and the screen are both compared to that.

* `splitLines`, `edited`: the lines of a text, and what is left of a line when it was edited.
* `edit_finish`, `edit_continue`: the editor does to its characters what the key does to the line.
* `Screen`: what a terminal makes of what it is sent.
* `Screen.Shows.echo`: what is sent for a key does to the screen what the key does to the line.
-/

namespace BusBench

namespace Console

variable {previous : Option UInt8} {b : UInt8}

/-! ## Keys -/

/-- Whether a byte ends a line: a carriage return does, and a line feed unless it comes right after
one. -/
def endsLine (previous : Option UInt8) (b : UInt8) : Bool :=
  b == 0x0D || (b == 0x0A && previous != some 0x0D)

/-- The complete lines of a text, without their ends. `pending` has come since the last line end. -/
def splitLines (previous : Option UInt8) (pending : List UInt8) : List UInt8 → List (List UInt8)
  | [] => []
  | b :: bytes =>
    if endsLine previous b then pending :: splitLines (some b) [] bytes
    else splitLines (some b) (pending ++ [b]) bytes

def isVisible (b : UInt8) : Bool :=
  0x20 ≤ b && b ≤ 0x7E

/-- Backspace or delete. -/
def isErase (b : UInt8) : Bool :=
  b == 0x08 || b == 0x7F

/-- A key at the end of a line: visible ones are added, and the last one can be taken back. -/
def keyed (line : List UInt8) (b : UInt8) : List UInt8 :=
  if isVisible b then line ++ [b] else if isErase b then line.dropLast else line

/-- A line when all its keys were pressed. -/
def edited (keys : List UInt8) : List UInt8 :=
  keys.foldl keyed []

/-- The text of an ASCII line. -/
def lineText (line : List UInt8) : List Char :=
  line.map fun b => Char.ofNat b.toNat

/-- What is sent for a key. -/
def echo (line : List UInt8) (b : UInt8) : List UInt8 :=
  if isVisible b then [b] else if isErase b && !line.isEmpty then [0x08, 0x20, 0x08] else []

theorem edited_concat (keys : List UInt8) (b : UInt8) :
    edited (keys ++ [b]) = keyed (edited keys) b := by
  rw [edited, List.foldl_append]
  rfl

theorem edit_finish (h : endsLine previous b) (line : List Char) :
    edit (previous == some 0x0D) line b = .finish := by
  simp only [endsLine, Bool.or_eq_true, Bool.and_eq_true, beq_iff_eq, bne_iff_ne] at h
  unfold edit
  rcases h with rfl | ⟨rfl, hPrevious⟩
  · rfl
  · simp [hPrevious]

/-- Within a line the editor does to its characters what the key does to the line. -/
theorem edit_continue (h : endsLine previous b = false) (line : List UInt8) :
    edit (previous == some 0x0D) (lineText line).reverse b =
      .continue (lineText (keyed line b)).reverse (echo line b) := by
  simp only [endsLine, Bool.or_eq_false_iff, Bool.and_eq_false_imp, beq_eq_false_iff_ne, beq_iff_eq,
    bne_eq_false_iff_eq] at h
  obtain ⟨hReturn, hFeed⟩ := h
  by_cases hAfter : b = 0x0A
  · subst hAfter
    rw [hFeed rfl]
    rfl
  have hEnds : ¬ (b = 0x0D ∨ b = 0x0A) := by simp [hReturn, hAfter]
  unfold edit keyed echo
  rw [if_neg (fun hBoth => hAfter hBoth.1), if_neg hEnds]
  by_cases hErase : b = 0x08 ∨ b = 0x7F
  · have hVisible : isVisible b = false := by rcases hErase with rfl | rfl <;> rfl
    have hIsErase : isErase b = true := by rcases hErase with rfl | rfl <;> rfl
    rw [if_pos hErase, hVisible, hIsErase]
    rcases List.eq_nil_or_concat' line with rfl | ⟨front, last, rfl⟩
    · rfl
    · simp [lineText]
  · have hIsErase : isErase b = false := by
      simpa [isErase] using hErase
    rw [if_neg hErase, hIsErase]
    by_cases hVisible : 0x20 ≤ b ∧ b ≤ 0x7E
    · have hIsVisible : isVisible b = true := by simpa [isVisible] using hVisible
      rw [if_pos hVisible, hIsVisible]
      simp [lineText]
    · have hIsVisible : isVisible b = false := by simpa [isVisible] using hVisible
      rw [if_neg hVisible, hIsVisible]
      rfl

/-! ## Screens -/

/-- What a terminal shows, one cell for each byte. -/
structure Screen where
  /-- The lines that are finished, the last one first. -/
  above : List (List UInt8) := []
  /-- What is left of the cursor, the nearest cell first. -/
  left : List UInt8 := []
  /-- What is under the cursor and right of it. -/
  right : List UInt8 := []

namespace Screen

def blank : UInt8 := 0x20

/-- What a byte does to the screen. Backspace only moves the cursor, and other bytes are written
over what is there. -/
def print (screen : Screen) (b : UInt8) : Screen :=
  if b = 0x08 then
    match screen.left with
    | [] => screen
    | cell :: left => { screen with left, right := cell :: screen.right }
  else if b = 0x0D then { screen with left := [], right := screen.left.reverse ++ screen.right }
  else if b = 0x0A then
    ⟨(screen.left.reverse ++ screen.right) :: screen.above,
      List.replicate screen.left.length blank, []⟩
  else { screen with left := b :: screen.left, right := screen.right.tail }

def printAll (screen : Screen) (bytes : List UInt8) : Screen :=
  bytes.foldl print screen

theorem printAll_append (screen : Screen) (bytes more : List UInt8) :
    screen.printAll (bytes ++ more) = (screen.printAll bytes).printAll more :=
  List.foldl_append

/-- Bytes that move no cursor stand one after the other. -/
theorem printAll_plain (bytes : List UInt8) (hPlain : ∀ b ∈ bytes, b ∉ [0x08, 0x0D, 0x0A])
    (above : List (List UInt8)) (left : List UInt8) :
    (⟨above, left, []⟩ : Screen).printAll bytes = ⟨above, bytes.reverse ++ left, []⟩ := by
  induction bytes generalizing left with
  | nil => rfl
  | cons b bytes ih =>
    have hFirst := hPlain b List.mem_cons_self
    simp only [List.mem_cons, List.not_mem_nil, or_false, not_or] at hFirst
    have hPrinted : (⟨above, left, []⟩ : Screen).print b = ⟨above, b :: left, []⟩ := by
      simp [print, hFirst]
    have hRest := ih (fun c hc => hPlain c (List.mem_cons_of_mem b hc)) (b :: left)
    rw [printAll, List.foldl_cons, hPrinted, List.reverse_cons, List.append_assoc]
    exact hRest

/-- Behind what `base` shows left of its cursor stands this line and nothing else, apart from what
stood there before and was not written over yet. -/
structure Shows (base : Screen) (line : List UInt8) (now : Screen) : Prop where
  above : now.above = base.above
  left : now.left = line.reverse ++ base.left
  right : ∃ erased stale, now.right = List.replicate erased blank ++ stale ∧ stale <:+ base.right

/-- What `base` shows left of its cursor is untouched. -/
structure Keeps (base now : Screen) : Prop where
  above : now.above = base.above
  left : base.left <:+ now.left

theorem Shows.refl (base : Screen) : Shows base [] base :=
  ⟨rfl, rfl, 0, base.right, rfl, List.suffix_rfl⟩

variable {base now : Screen} {line : List UInt8} {b : UInt8}

theorem Shows.keeps (h : Shows base line now) : Keeps base now :=
  ⟨h.above, line.reverse, h.left.symm⟩

theorem print_visible (hVisible : isVisible b) (screen : Screen) :
    screen.print b = { screen with left := b :: screen.left, right := screen.right.tail } := by
  have hControls : b ≠ 0x08 ∧ b ≠ 0x0D ∧ b ≠ 0x0A := by
    refine ⟨?_, ?_, ?_⟩ <;> rintro rfl <;> exact absurd hVisible (by decide)
  simp [print, hControls]

/-- A visible key writes over the next cell. -/
theorem Shows.visible (h : Shows base line now) (hVisible : isVisible b) :
    Shows base (line ++ [b]) (now.print b) := by
  obtain ⟨erased, stale, hRight, hStale⟩ := h.right
  rw [print_visible hVisible]
  refine ⟨h.above, ?_, ?_⟩
  · rw [h.left, List.reverse_append]
    rfl
  · cases erased with
    | zero =>
      have hTail : now.right.tail = stale.tail := by rw [hRight]; rfl
      exact ⟨0, stale.tail, hTail, (List.tail_suffix stale).trans hStale⟩
    | succ erased => exact ⟨erased, stale, by rw [hRight]; rfl, hStale⟩

/-- Three bytes take back the last cell. -/
theorem printAll_erase {above : List (List UInt8)} {cell : UInt8} {left right : List UInt8} :
    (⟨above, cell :: left, right⟩ : Screen).printAll [0x08, 0x20, 0x08] =
      ⟨above, left, blank :: right⟩ :=
  rfl

theorem Shows.erase {cell : UInt8} (h : Shows base (line ++ [cell]) now) :
    Shows base line (now.printAll [0x08, 0x20, 0x08]) := by
  obtain ⟨erased, stale, hRight, hStale⟩ := h.right
  obtain ⟨above, left, right⟩ := now
  obtain rfl : left = cell :: (line.reverse ++ base.left) := by simpa using h.left
  rw [printAll_erase]
  refine ⟨h.above, rfl, erased + 1, stale, ?_, hStale⟩
  simp only at hRight
  rw [hRight]
  rfl

/-- The echo of a key does to the screen what the key does to the line. -/
theorem Shows.echo (h : Shows base line now) (b : UInt8) :
    Shows base (keyed line b) (now.printAll (echo line b)) := by
  unfold keyed Console.echo
  by_cases hVisible : isVisible b = true
  · rw [if_pos hVisible, if_pos hVisible]
    exact h.visible hVisible
  rw [if_neg hVisible, if_neg hVisible]
  by_cases hErase : isErase b = true
  · rw [if_pos hErase, hErase]
    rcases List.eq_nil_or_concat' line with rfl | ⟨front, last, rfl⟩
    · exact h
    · rw [List.dropLast_concat]
      simpa using h.erase
  · rw [if_neg hErase, if_neg (by simp [hErase])]
    exact h

/-- Not even in the middle of an echo does the cursor leave the line. -/
theorem Shows.keeps_echo (h : Shows base line now) (b : UInt8) {part : List UInt8}
    (hPart : part <+: Console.echo line b) : Keeps base (now.printAll part) := by
  rw [← List.mem_inits] at hPart
  unfold Console.echo at hPart
  by_cases hVisible : isVisible b = true
  · rw [if_pos hVisible] at hPart
    rcases List.mem_pair.mp hPart with rfl | rfl
    · exact h.keeps
    · exact (h.visible hVisible).keeps
  rw [if_neg hVisible] at hPart
  split at hPart
  · next hErase =>
    have hSome : line ≠ [] := by
      rintro rfl
      simp at hErase
    obtain ⟨front, last, rfl⟩ := (List.eq_nil_or_concat' line).resolve_left hSome
    obtain ⟨above, left, right⟩ := now
    obtain rfl : left = last :: (front.reverse ++ base.left) := by simpa using h.left
    -- The cursor goes back over the last cell, over the blank that is written there, and back.
    simp only [List.inits, List.map_cons, List.map_nil, List.mem_cons, List.not_mem_nil,
      or_false] at hPart
    rcases hPart with rfl | rfl | rfl | rfl
    · exact h.keeps
    · exact ⟨h.above, front.reverse, rfl⟩
    · exact ⟨h.above, blank :: front.reverse, rfl⟩
    · exact ⟨h.above, front.reverse, rfl⟩
  · rcases List.mem_singleton.mp hPart with rfl
    exact h.keeps

end Screen

end Console

end BusBench
