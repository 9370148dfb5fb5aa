import BusBench.BitBang.Search
import Mathlib.Data.Nat.Find

/-!
# The order of ROM codes

A search walks a binary tree whose leaves are ROM codes, from the bit that is sent first to the bit
that is sent last. The order of its leaves is the lexicographic order of the bits.

* `Rom.Before`: the order.
* `Rom.exists_ascending`: the codes of a list in this order, each once.
* `Rom.Branches`: where another code leaves the path to a code on its upper side. The codes after a
  code are those that branch off somewhere, and the next one branches off last
  (`Rom.Next.leaves`).
-/

namespace BusBench.Rom

/-! ## Common beginnings -/

/-- The first `n` bits are the same. -/
def Agree (n : Nat) (a b : Rom) : Prop := ∀ i < n, a.getLsbD i = b.getLsbD i

theorem Agree.refl (n : Nat) (a : Rom) : Agree n a a := fun _ _ => rfl

theorem Agree.symm {n : Nat} {a b : Rom} (h : Agree n a b) : Agree n b a :=
  fun i hi => (h i hi).symm

theorem Agree.trans {n : Nat} {a b c : Rom} (hab : Agree n a b) (hbc : Agree n b c) :
    Agree n a c := fun i hi => (hab i hi).trans (hbc i hi)

theorem Agree.mono {m n : Nat} {a b : Rom} (h : Agree n a b) (hmn : m ≤ n) : Agree m a b :=
  fun i hi => h i (by omega)

theorem Agree.succ {n : Nat} {a b : Rom} (h : Agree n a b) (hn : a.getLsbD n = b.getLsbD n) :
    Agree (n + 1) a b := by
  intro i hi
  rcases Nat.lt_succ_iff_lt_or_eq.mp hi with hlt | rfl
  · exact h i hlt
  · exact hn

theorem Agree.eq {a b : Rom} (h : Agree 64 a b) : a = b :=
  BitVec.eq_of_getLsbD_eq h

/-! ## The order -/

/-- The first bit at which the codes differ, in the order in which bits are sent, is zero in `a` and
one in `b`. -/
def Before (a b : Rom) : Prop := ∃ i, Agree i a b ∧ a.getLsbD i = false ∧ b.getLsbD i = true

theorem Before.irrefl (a : Rom) : ¬ Before a a := by
  rintro ⟨i, -, h₀, h₁⟩
  rw [h₀] at h₁
  cases h₁

theorem Before.trans {a b c : Rom} (hab : Before a b) (hbc : Before b c) : Before a c := by
  obtain ⟨i, hi, ha, hb⟩ := hab
  obtain ⟨j, hj, hb', hc⟩ := hbc
  rcases Nat.lt_trichotomy i j with hlt | rfl | hgt
  · exact ⟨i, hi.trans (hj.mono (Nat.le_of_lt hlt)), ha, (hj i hlt).symm.trans hb⟩
  · rw [hb] at hb'
    cases hb'
  · exact ⟨j, (hi.mono (Nat.le_of_lt hgt)).trans hj, (hi j hgt).trans hb', hc⟩

theorem Before.asymm {a b : Rom} (hab : Before a b) : ¬ Before b a :=
  fun hba => Before.irrefl a (hab.trans hba)

theorem before_or_before {a b : Rom} (h : a ≠ b) : Before a b ∨ Before b a := by
  classical
  have hDiffer : ∃ i, a.getLsbD i ≠ b.getLsbD i := by
    by_contra hNone
    exact h (Agree.eq fun i _ => not_not.mp fun hi => hNone ⟨i, hi⟩)
  have hFirst : Agree (Nat.find hDiffer) a b := fun i hi => not_not.mp (Nat.find_min hDiffer hi)
  have hBits := Nat.find_spec hDiffer
  cases ha : a.getLsbD (Nat.find hDiffer) with
  | false =>
    rw [ha] at hBits
    exact Or.inl ⟨_, hFirst, ha, by simpa using hBits⟩
  | true =>
    rw [ha] at hBits
    exact Or.inr ⟨_, hFirst.symm, by simpa using hBits, ha⟩

/-! ## Ascending lists -/

/-- A code finds its place in an ascending list. -/
theorem exists_ascending_insert (a : Rom) :
    ∀ codes : List Rom, codes.Pairwise Before →
      ∃ more : List Rom, more.Pairwise Before ∧ ∀ r, r ∈ more ↔ r = a ∨ r ∈ codes
  | [], _ => ⟨[a], List.pairwise_singleton _ _, by simp⟩
  | b :: rest, h => by
    obtain ⟨hb, hRest⟩ := List.pairwise_cons.mp h
    by_cases hab : a = b
    · subst hab
      exact ⟨a :: rest, h, by simp⟩
    · rcases before_or_before hab with hlt | hgt
      · refine ⟨a :: b :: rest, List.pairwise_cons.mpr ⟨?_, h⟩, by simp⟩
        intro r hr
        rcases List.mem_cons.mp hr with rfl | hr
        · exact hlt
        · exact hlt.trans (hb r hr)
      · obtain ⟨more, hMore, hMem⟩ := exists_ascending_insert a rest hRest
        refine ⟨b :: more, List.pairwise_cons.mpr ⟨?_, hMore⟩, ?_⟩
        · intro r hr
          rcases (hMem r).mp hr with rfl | hr
          · exact hgt
          · exact hb r hr
        · intro r
          simp only [List.mem_cons, hMem]
          exact or_left_comm

/-- The codes of any list can be put in order, each once. -/
theorem exists_ascending (codes : List Rom) :
    ∃ ascending : List Rom, ascending.Pairwise Before ∧ ∀ r, r ∈ ascending ↔ r ∈ codes := by
  induction codes with
  | nil => exact ⟨[], List.Pairwise.nil, by simp⟩
  | cons a codes ih =>
    obtain ⟨ascending, hOrder, hMem⟩ := ih
    obtain ⟨more, hMore, hMem'⟩ := exists_ascending_insert a ascending hOrder
    exact ⟨more, hMore, by simp [hMem', hMem]⟩

/-! ## Branches -/

/-- Some code leaves the path to `r` at bit `p`, where `r` has a zero and it has a one. -/
def Branches (codes : List Rom) (r : Rom) (p : Nat) : Prop :=
  r.getLsbD p = false ∧ ∃ c ∈ codes, Agree p c r ∧ c.getLsbD p = true

theorem Branches.lt {codes : List Rom} {r : Rom} {p : Nat} (h : Branches codes r p) : p < 64 := by
  obtain ⟨-, c, -, -, hc⟩ := h
  exact BitVec.lt_of_getLsbD hc

theorem Before.branches {codes : List Rom} {r c : Rom} (h : Before r c) (hc : c ∈ codes) :
    ∃ p, Branches codes r p ∧ Agree p c r ∧ c.getLsbD p = true := by
  obtain ⟨p, hAgree, hr, hOne⟩ := h
  exact ⟨p, ⟨hr, c, hc, hAgree.symm, hOne⟩, hAgree.symm, hOne⟩

theorem Branches.exists_after {codes : List Rom} {r : Rom} {p : Nat} (h : Branches codes r p) :
    ∃ c ∈ codes, Before r c ∧ Agree p c r ∧ c.getLsbD p = true := by
  obtain ⟨hr, c, hc, hAgree, hOne⟩ := h
  exact ⟨c, hc, ⟨p, hAgree.symm, hr, hOne⟩, hAgree, hOne⟩

/-- Among the first `n` bits of the path to `r`, the last branch is at position `last`, counted from
one; there is none if `last = 0`. -/
structure LastBranch (codes : List Rom) (r : Rom) (n last : Nat) : Prop where
  le : last ≤ n
  branches : 0 < last → Branches codes r (last - 1)
  none_after : ∀ p, last ≤ p → p < n → ¬ Branches codes r p

theorem LastBranch.zero (codes : List Rom) (r : Rom) : LastBranch codes r 0 0 :=
  ⟨Nat.le_refl _, fun h => absurd h (Nat.lt_irrefl _), fun _ _ h => absurd h (Nat.not_lt_zero _)⟩

/-- One more bit, at which a code branches off. -/
theorem LastBranch.succ_of_branches {codes : List Rom} {r : Rom} {n : Nat}
    (h : Branches codes r n) : LastBranch codes r (n + 1) (n + 1) :=
  ⟨Nat.le_refl _, fun _ => h, fun p hp hlt => by omega⟩

/-- One more bit, at which none branches off. -/
theorem LastBranch.succ_of_not {codes : List Rom} {r : Rom} {n last : Nat}
    (h : LastBranch codes r n last) (hNot : ¬ Branches codes r n) :
    LastBranch codes r (n + 1) last := by
  refine ⟨Nat.le_succ_of_le h.le, h.branches, fun p hp hlt => ?_⟩
  rcases Nat.lt_succ_iff_lt_or_eq.mp hlt with hlt | rfl
  · exact h.none_after p hp hlt
  · exact hNot

/-- No branch on the whole path means that `r` is the last code. -/
theorem LastBranch.not_before {codes : List Rom} {r c : Rom} (h : LastBranch codes r 64 0)
    (hc : c ∈ codes) : ¬ Before r c := by
  intro hBefore
  obtain ⟨p, hp, -⟩ := hBefore.branches hc
  exact h.none_after p (Nat.zero_le _) hp.lt hp

/-! ## The next code -/

/-- The first of the codes after `previous`, or the first of all where there is none. -/
structure Next (codes : List Rom) (previous? : Option Rom) (r : Rom) : Prop where
  mem : r ∈ codes
  after : ∀ previous ∈ previous?, Before previous r
  least : ∀ c ∈ codes, (∀ previous ∈ previous?, Before previous c) → ¬ Before c r

/-- The next code leaves the path to the previous one at its last branch. -/
theorem Next.leaves {codes : List Rom} {previous r : Rom} {last : Nat}
    (h : Next codes (some previous) r) (hLast : LastBranch codes previous 64 last) :
    0 < last ∧ Agree (last - 1) r previous ∧ r.getLsbD (last - 1) = true ∧
      previous.getLsbD (last - 1) = false := by
  have hAfter : Before previous r := h.after previous rfl
  obtain ⟨p, hBranch, hAgree, hOne⟩ := hAfter.branches h.mem
  have hp : p < last := by
    by_contra hge
    exact hLast.none_after p (by omega) hBranch.lt hBranch
  obtain ⟨c, hc, hcAfter, hcAgree, hcOne⟩ := (hLast.branches (by omega)).exists_after
  have heq : p = last - 1 := by
    -- A code that left earlier would come after the one that leaves at the last branch.
    by_contra hne
    have hlt : p < last - 1 := by omega
    refine h.least c hc (by rintro _ ⟨⟩; exact hcAfter) ⟨p, ?_, ?_, hOne⟩
    · exact (hcAgree.mono (Nat.le_of_lt hlt)).trans hAgree.symm
    · exact (hcAgree p hlt).trans hBranch.1
  subst heq
  exact ⟨by omega, hAgree, hOne, hBranch.1⟩

end BusBench.Rom
