import BusBench.Proofs.OneWire.SearchPass
import Mathlib.Data.Nat.Bitwise

/-!
# When a search ends

A search makes one pass after the other, and sets itself no limit. Each pass follows the path of the
pass before up to its last branch and takes one there, so it finds a later code (`Rom.Before`), and
there are only so many codes. All this hangs on the answers of the devices. A line may contradict
itself and answer, at a bit on that path, that there is no device in the direction of the path. The
pass is led astray then, and may find an earlier code, or the same one again.

So a search ends on every line that does not contradict itself for ever, and on other lines it need
not end.

* `Search.Contradicted`: a pass that is led astray.
* `Search.before_of_pass`: any other pass finds a later code.
* `EndlessLine`: a line that shows levels without an end.
* `search_ends_or_contradicted`: after the last contradiction there are at most `2 ^ 64` passes.
* `not_search_ends`: a line on which the search does not end.
-/

namespace BusBench

open BitBang (Drive Gpio OneWireLine Search)
open BitBang.Drive (Runs)
open Rom (Agree Before)

/-! ## How many codes there are -/

namespace Rom

/-- The place of a code in the order of all codes. -/
def rank (r : Rom) : Nat := r.reverse.toNat

theorem rank_lt (r : Rom) : r.rank < 2 ^ 64 := r.reverse.isLt

theorem testBit_rank (r : Rom) (i : Nat) :
    r.rank.testBit i = (decide (i < 64) && r.getLsbD (63 - i)) := by
  show r.reverse.getLsbD i = _
  rw [BitVec.getLsbD_reverse, BitVec.getMsbD]

theorem Before.rank_lt {a b : Rom} (h : Before a b) : a.rank < b.rank := by
  obtain ⟨i, hAgree, ha, hb⟩ := h
  have hi : i < 64 := BitVec.lt_of_getLsbD hb
  have hPlace : 63 - (63 - i) = i := by omega
  apply Nat.lt_of_testBit (63 - i)
  · rw [testBit_rank, hPlace, ha, Bool.and_false]
  · rw [testBit_rank, hPlace, hb, Bool.and_true]
    exact decide_eq_true (by omega)
  · intro j hj
    rw [testBit_rank, testBit_rank]
    by_cases hLt : j < 64
    · rw [hAgree (63 - j) (by omega)]
    · simp [hLt]

end Rom

/-! ## One pass -/

namespace BitBang.Search

variable {answer answer' : Nat → Bool × Bool} {start search next : Search} {i n : Nat}

/-- The search after some bits, from a bit on, for which the line answered like this: first the bit,
then its complement. It is `none` where nobody answered. -/
def follow (answer : Nat → Bool × Bool) : Nat → Nat → Search → Option Search
  | 0, _, search => some search
  | n + 1, bit, search =>
    match search.choose bit (answer bit).1 (answer bit).2 with
    | (none, _) => none
    | (some _, search) => follow answer n (bit + 1) search

/-- The search after a whole pass. -/
def pass (answer : Nat → Bool × Bool) (search : Search) : Option Search :=
  (follow answer 64 0 search.startPass).map finishPass

/-- The line answers for a bit that there is no device in this direction. -/
def Denies (answer : Bool × Bool) (direction : Bool) : Prop :=
  answer = (!direction, direction)

/-- On the path to the last branch of the pass before, the line denies a direction that has to be
taken. -/
def Contradicted (answer : Nat → Bool × Bool) (search : Search) : Prop :=
  ∃ bit < search.lastDiscrepancy, Denies (answer bit) (search.branch bit)

theorem follow_congr (h : ∀ bit, i ≤ bit → bit < i + n → answer bit = answer' bit) :
    follow answer n i search = follow answer' n i search := by
  induction n generalizing i search with
  | zero => rfl
  | succ n ih =>
    unfold follow
    rw [h i (Nat.le_refl i) (by omega)]
    split
    · rfl
    · exact ih fun bit hLe hLt => h bit (by omega) (by omega)

/-- The direction is the one of the path, unless the line denies it, and zero is the last that was
taken where one was possible too. -/
theorem choose_some {id complement direction : Bool}
    (h : search.choose i id complement = (some direction, next)) :
    ∃ lastZero, next = take i direction { search with lastZero := lastZero } ∧
      (lastZero = search.lastZero ∨ lastZero = i + 1 ∧ direction = false) ∧
      (¬ Denies (id, complement) (search.branch i) → direction = search.branch i) := by
  have hForced : ¬ Denies (direction, !direction) (search.branch i) →
      direction = search.branch i := by
    intro hNot
    by_contra hOther
    apply hNot
    cases direction <;> cases hBranch : search.branch i <;> simp_all [Denies]
  cases id with
  | true =>
    cases complement with
    | true => simp [choose] at h
    | false =>
      obtain ⟨rfl, rfl⟩ : true = direction ∧ search.take i true = next := by
        simpa [choose] using h
      exact ⟨search.lastZero, rfl, .inl rfl, hForced⟩
  | false =>
    cases complement with
    | true =>
      obtain ⟨rfl, rfl⟩ : false = direction ∧ search.take i false = next := by
        simpa [choose] using h
      exact ⟨search.lastZero, rfl, .inl rfl, hForced⟩
    | false =>
      cases hBranch : search.branch i with
      | true =>
        obtain ⟨rfl, rfl⟩ : true = direction ∧ search.take i true = next := by
          simpa [choose, hBranch] using h
        exact ⟨search.lastZero, rfl, .inl rfl, fun _ => rfl⟩
      | false =>
        obtain ⟨rfl, rfl⟩ :
            false = direction ∧ take i false { search with lastZero := i + 1 } = next := by
          simpa [choose, hBranch] using h
        exact ⟨i + 1, rfl, .inr ⟨rfl, rfl⟩, fun _ => rfl⟩

/-- A pass that began as `start`, before bit `i`. -/
structure Underway (answer : Nat → Bool × Bool) (start : Search) (i : Nat) (search : Search) :
    Prop where
  memory : ∀ j, i ≤ j → search.rom.getLsbD j = start.rom.getLsbD j
  lastDiscrepancy : search.lastDiscrepancy = start.lastDiscrepancy
  finished : search.finished = start.finished
  lastZero_le : search.lastZero ≤ i
  lastZero : 0 < search.lastZero → search.rom.getLsbD (search.lastZero - 1) = false
  path : ∀ j < i, ¬ Denies (answer j) (start.branch j) → search.rom.getLsbD j = start.branch j

theorem Underway.startPass (answer : Nat → Bool × Bool) (start : Search) :
    Underway answer start 0 start.startPass where
  memory _ _ := rfl
  lastDiscrepancy := rfl
  finished := rfl
  lastZero_le := Nat.le_refl 0
  lastZero h := absurd h (Nat.lt_irrefl 0)
  path j hj := absurd hj (Nat.not_lt_zero j)

theorem Underway.branch_eq (h : Underway answer start i search) :
    search.branch i = start.branch i := by
  unfold branch
  rw [h.lastDiscrepancy, h.memory i (Nat.le_refl i)]

theorem Underway.step (h : Underway answer start i search) (hi : i < 64) {direction : Bool}
    (hChoose : search.choose i (answer i).1 (answer i).2 = (some direction, next)) :
    Underway answer start (i + 1) next := by
  obtain ⟨lastZero, rfl, hZero, hDirection⟩ := choose_some hChoose
  have hBit : ∀ j, (setBit search.rom i direction).getLsbD j =
      if j = i then direction else search.rom.getLsbD j := getLsbD_setBit search.rom hi direction
  refine ⟨?_, h.lastDiscrepancy, h.finished, ?_, ?_, ?_⟩
  · intro j hj
    show (setBit search.rom i direction).getLsbD j = _
    rw [hBit, if_neg (by omega)]
    exact h.memory j (by omega)
  · show lastZero ≤ i + 1
    have hLe := h.lastZero_le
    omega
  · show 0 < lastZero → (setBit search.rom i direction).getLsbD (lastZero - 1) = false
    intro hPos
    have hLe := h.lastZero_le
    rw [hBit]
    rcases hZero with rfl | ⟨rfl, rfl⟩
    · rw [if_neg (by omega)]
      exact h.lastZero hPos
    · rw [if_pos (by omega)]
  · intro j hj hNot
    show (setBit search.rom i direction).getLsbD j = _
    rw [hBit]
    by_cases hji : j = i
    · subst hji
      rw [if_pos rfl, ← h.branch_eq]
      exact hDirection (h.branch_eq ▸ hNot)
    · rw [if_neg hji]
      exact h.path j (by omega) hNot

theorem Underway.follow (h : Underway answer start i search) (hEnd : n + i = 64)
    (hFollow : follow answer n i search = some next) : Underway answer start 64 next := by
  induction n generalizing i search with
  | zero =>
    obtain rfl : i = 64 := by omega
    obtain rfl : search = next := by simpa [Search.follow] using hFollow
    exact h
  | succ n ih =>
    unfold Search.follow at hFollow
    split at hFollow
    · cases hFollow
    · next direction search' hChoose =>
      exact ih (h.step (by omega) hChoose) (by omega) hFollow

/-- At its last branch the code that was found last has a zero. -/
structure Recorded (search : Search) : Prop where
  le : search.lastDiscrepancy ≤ 64
  zero : 0 < search.lastDiscrepancy → search.rom.getLsbD (search.lastDiscrepancy - 1) = false

theorem underway_of_pass (h : pass answer start = some next) :
    ∃ search, Underway answer start 64 search ∧ next = search.finishPass := by
  obtain ⟨search, hFollow, rfl⟩ := Option.map_eq_some_iff.mp h
  exact ⟨search, (Underway.startPass answer start).follow rfl hFollow, rfl⟩

theorem recorded_of_pass (h : pass answer start = some next) : Recorded next := by
  obtain ⟨search, hUnderway, rfl⟩ := underway_of_pass h
  exact ⟨hUnderway.lastZero_le, hUnderway.lastZero⟩

/-- The search is finished, or has a branch to explore. -/
theorem goesOn_of_pass (h : pass answer start = some next) (hFinished : next.finished = false) :
    0 < next.lastDiscrepancy := by
  obtain ⟨search, -, rfl⟩ := underway_of_pass h
  have hZero : (search.lastZero == 0) = false := (Bool.or_eq_false_iff.mp hFinished).2
  have hNe : search.lastZero ≠ 0 := by simpa using hZero
  show 0 < search.lastZero
  omega

/-- A pass that is not contradicted finds a later code. -/
theorem before_of_pass (h : pass answer start = some next) (hStart : Recorded start)
    (hBranch : 0 < start.lastDiscrepancy) (hNot : ¬ Contradicted answer start) :
    Before start.rom next.rom := by
  obtain ⟨search, hUnderway, rfl⟩ := underway_of_pass h
  have hLe := hStart.le
  have hPath : ∀ j < start.lastDiscrepancy, search.rom.getLsbD j = start.branch j := by
    intro j hj
    apply hUnderway.path j (by omega)
    intro hDenies
    exact hNot ⟨j, hj, hDenies⟩
  refine ⟨start.lastDiscrepancy - 1, ?_, hStart.zero hBranch, ?_⟩
  · intro j hj
    show start.rom.getLsbD j = search.rom.getLsbD j
    rw [hPath j (by omega), branch, if_pos (by omega)]
  · show search.rom.getLsbD (start.lastDiscrepancy - 1) = true
    rw [hPath _ (by omega), branch, if_neg (by omega), beq_iff_eq]
    omega

end BitBang.Search

/-! ## Lines without an end -/

namespace Wire

/-- A line that shows one level after the other, whatever the controller does. They never end. -/
structure EndlessLine where
  levels : Nat → Bool
  /-- How often the line has been sampled. -/
  samples : Nat := 0

namespace EndlessLine

open BitBang.OneWire

instance : Gpio EndlessLine OneWireLine where
  drive _ _ := pure ()
  sample _ := do
    let line ← get
    set { line with samples := line.samples + 1 }
    return line.levels line.samples
  wait _ := pure ()

variable {levels : Nat → Bool} {p n limit samples : Nat} {search next : Search} {found : List Rom}

/-- A line that has not been sampled yet. -/
def new (levels : Nat → Bool) : EndlessLine :=
  { levels }

/-- The line before a pass, if all passes before it were whole ones. -/
def before (levels : Nat → Bool) (p : Nat) : EndlessLine :=
  { levels, samples := 129 * p }

/-! ### Passes -/

/-- Whether any device shows its presence before a pass. A whole pass takes 128 samples more. -/
def present (levels : Nat → Bool) (p : Nat) : Bool :=
  !levels (129 * p)

/-- What the line answers for a bit in a pass, if all passes before it were whole ones. -/
def answer (levels : Nat → Bool) (p bit : Nat) : Bool × Bool :=
  (levels (129 * p + 1 + 2 * bit), levels (129 * p + 2 + 2 * bit))

/-- The search after some passes; `none` if it ends before. -/
def afterPasses (levels : Nat → Bool) : Nat → Option Search
  | 0 => some {}
  | p + 1 =>
    (afterPasses levels p).bind fun search =>
      if search.finished || !present levels p then none else search.pass (answer levels p)

/-- The pass is made as a whole, and the line contradicts the path of the pass before. -/
def Contradicts (levels : Nat → Bool) (p : Nat) : Prop :=
  (afterPasses levels (p + 1)).isSome ∧
    ∃ search ∈ afterPasses levels p, search.Contradicted (answer levels p)

/-- The search returns after at most so many passes, and no limit above makes a difference. -/
def ReturnsAfter (levels : Nat → Bool) (passes : Nat) : Prop :=
  ∃ found line, ∀ limit, passes < limit →
    Runs (searchWithin limit) (new levels) (.ok (some found)) line

theorem runs_writeBit (bit : Bool) (line : EndlessLine) :
    Runs (writeBit bit) line (.ok ()) line := by
  cases bit <;> rfl

theorem runs_writeByte (byte : UInt8) (line : EndlessLine) :
    Runs (writeByte byte) line (.ok ()) line := by
  have hAll : ∀ bits : List Bool, Runs (bits.forM writeBit) line (.ok ()) line := by
    intro bits
    induction bits with
    | nil => exact Runs.forM_nil _
    | cons bit bits ih => exact Runs.forM_cons (runs_writeBit bit line) ih
  exact hAll _

theorem runs_readBit (levels : Nat → Bool) (samples : Nat) :
    Runs readBit (⟨levels, samples⟩ : EndlessLine) (.ok (levels samples)) ⟨levels, samples + 1⟩ :=
  rfl

theorem runs_resetPulse (levels : Nat → Bool) (samples : Nat) :
    Runs resetPulse (⟨levels, samples⟩ : EndlessLine) (.ok (!levels samples))
      ⟨levels, samples + 1⟩ :=
  rfl

theorem runs_walk (levels : Nat → Bool) (p n bit : Nat) (search : Search) :
    ∃ line : EndlessLine, Runs (walk n bit search) ⟨levels, 129 * p + 1 + 2 * bit⟩
        (.ok (search.follow (answer levels p) n bit)) line ∧
      ((search.follow (answer levels p) n bit).isSome →
        line = ⟨levels, 129 * p + 1 + 2 * (bit + n)⟩) := by
  induction n generalizing bit search with
  | zero => exact ⟨_, Runs.pure _, fun _ => rfl⟩
  | succ n ih =>
    have hBit := runs_readBit levels (129 * p + 1 + 2 * bit)
    have hComplement := runs_readBit levels (129 * p + 1 + 2 * bit + 1)
    have hAnswer : levels (129 * p + 1 + 2 * bit + 1) = (answer levels p bit).2 :=
      congrArg levels (by omega)
    rw [hAnswer] at hComplement
    unfold Search.follow
    rcases hChoose : search.choose bit (answer levels p bit).1 (answer levels p bit).2 with
      ⟨_ | direction, search'⟩
    · refine ⟨⟨levels, 129 * p + 1 + 2 * bit + 1 + 1⟩,
        Runs.bind hBit (Runs.bind hComplement ?_), ?_⟩
      · have hNobody : search.choose bit (levels (129 * p + 1 + 2 * bit))
            (answer levels p bit).2 = (none, search') := hChoose
        rw [hNobody]
        exact Runs.pure _
      · intro hSome
        cases hSome
    · obtain ⟨line, hRest, hLine⟩ := ih (bit + 1) search'
      refine ⟨line, Runs.bind hBit (Runs.bind hComplement ?_), ?_⟩
      · have hSome : search.choose bit (levels (129 * p + 1 + 2 * bit))
            (answer levels p bit).2 = (some direction, search') := hChoose
        rw [hSome]
        exact Runs.bind (runs_writeBit direction _) hRest
      · intro hFollow
        rw [hLine hFollow]
        congr 1
        omega

theorem runs_searchPass (levels : Nat → Bool) (p : Nat) (search : Search) :
    ∃ line : EndlessLine, Runs (searchPass search) ⟨levels, 129 * p + 1⟩
        (.ok (search.pass (answer levels p))) line ∧
      ((search.pass (answer levels p)).isSome → line = before levels (p + 1)) := by
  obtain ⟨line, hWalk, hLine⟩ := runs_walk levels p 64 0 search.startPass
  refine ⟨line, Runs.bind (runs_writeByte 0xF0 _) (Runs.bind hWalk (Runs.pure _)), ?_⟩
  intro hPass
  rw [Search.pass, Option.isSome_map] at hPass
  rw [hLine hPass]
  rfl

/-! ### Whole searches -/

theorem afterPasses_mono (h : afterPasses levels p = none) (n : Nat) :
    afterPasses levels (p + n) = none := by
  induction n with
  | zero => exact h
  | succ n ih =>
    show afterPasses levels (p + n + 1) = none
    rw [afterPasses, ih]
    rfl

theorem isSome_of_le {q : Nat} (h : (afterPasses levels q).isSome) (hLe : p ≤ q) :
    (afterPasses levels p).isSome := by
  by_contra hNone
  have hEnd := afterPasses_mono (Option.not_isSome_iff_eq_none.mp hNone) (q - p)
  rw [Nat.add_sub_cancel' hLe] at hEnd
  rw [hEnd] at h
  cases h

/-- Where the search does not come to the end of a pass it returns. -/
theorem runs_last (h : afterPasses levels p = some search)
    (hNext : afterPasses levels (p + 1) = none) (found : List Rom) :
    ∃ line, ∀ limit, Runs (searchFrom (limit + 1) search found) (before levels p)
      (.ok (some found.reverse)) line := by
  rw [afterPasses, h, Option.bind_some] at hNext
  by_cases hFinished : search.finished = true
  · refine ⟨before levels p, fun limit => ?_⟩
    unfold searchFrom
    rw [hFinished]
    exact Runs.pure _
  · rw [Bool.not_eq_true] at hFinished
    have hReset := runs_resetPulse levels (129 * p)
    by_cases hPresent : present levels p = true
    · have hPass : search.pass (answer levels p) = none := by
        simpa [hFinished, hPresent] using hNext
      obtain ⟨line, hRun, -⟩ := runs_searchPass levels p search
      refine ⟨line, fun limit => ?_⟩
      unfold searchFrom
      rw [hFinished]
      refine Runs.bind hReset ?_
      have hThere : (!levels (129 * p)) = true := hPresent
      rw [hThere]
      refine Runs.bind hRun ?_
      rw [hPass]
      exact Runs.pure _
    · refine ⟨⟨levels, 129 * p + 1⟩, fun limit => ?_⟩
      unfold searchFrom
      rw [hFinished]
      refine Runs.bind hReset ?_
      have hAbsent : (!levels (129 * p)) = false := Bool.not_eq_true _ ▸ hPresent
      rw [hAbsent]
      exact Runs.pure _

/-- Where it does, it goes on with the next pass. -/
theorem runs_next (h : afterPasses levels p = some search)
    (hNext : afterPasses levels (p + 1) = some next) {result : Except BitBang.BitError _}
    {line : EndlessLine}
    (hRest : Runs (searchFrom limit next (next.rom :: found)) (before levels (p + 1)) result line) :
    Runs (searchFrom (limit + 1) search found) (before levels p) result line := by
  rw [afterPasses, h, Option.bind_some] at hNext
  split at hNext
  · cases hNext
  · next hGoesOn =>
    obtain ⟨hFinished, hPresent⟩ : search.finished = false ∧ present levels p = true := by
      simpa using hGoesOn
    obtain ⟨line', hRun, hLine⟩ := runs_searchPass levels p search
    rw [hNext] at hRun hLine
    obtain rfl := hLine rfl
    unfold searchFrom
    rw [hFinished]
    refine Runs.bind (runs_resetPulse levels (129 * p)) ?_
    have hThere : (!levels (129 * p)) = true := hPresent
    rw [hThere]
    exact Runs.bind hRun hRest

theorem runs_searchFrom_none (found : List Rom) (h : afterPasses levels p = some search)
    (hOn : (afterPasses levels (p + limit)).isSome) :
    ∃ line, Runs (searchFrom limit search found) (before levels p) (.ok none) line := by
  induction limit generalizing p search found with
  | zero => exact ⟨_, Runs.pure none⟩
  | succ limit ih =>
    have hSome : (afterPasses levels (p + 1)).isSome := isSome_of_le hOn (by omega)
    obtain ⟨next, hNext⟩ := Option.isSome_iff_exists.mp hSome
    have hOn' : (afterPasses levels (p + 1 + limit)).isSome := by
      rwa [Nat.add_assoc, Nat.add_comm 1]
    obtain ⟨line, hRest⟩ := ih (next.rom :: found) hNext hOn'
    exact ⟨line, runs_next h hNext hRest⟩

theorem runs_searchFrom_some (found : List Rom) (h : afterPasses levels p = some search)
    (hEnd : afterPasses levels (p + n) = none) :
    ∃ all line, ∀ limit, n ≤ limit →
      Runs (searchFrom limit search found) (before levels p) (.ok (some all)) line := by
  induction n generalizing p search found with
  | zero => cases h.symm.trans hEnd
  | succ n ih =>
    have hGo : ∀ {all line}, (∀ limit, n ≤ limit →
        Runs (searchFrom (limit + 1) search found) (before levels p) (.ok (some all)) line) →
        ∃ all line, ∀ limit, n + 1 ≤ limit →
          Runs (searchFrom limit search found) (before levels p) (.ok (some all)) line := by
      intro all line hAll
      refine ⟨all, line, fun limit hLimit => ?_⟩
      obtain ⟨limit, rfl⟩ : ∃ k, limit = k + 1 := ⟨limit - 1, by omega⟩
      exact hAll limit (by omega)
    cases hNext : afterPasses levels (p + 1) with
    | none =>
      obtain ⟨line, hLast⟩ := runs_last h hNext found
      exact hGo fun limit _ => hLast limit
    | some next =>
      have hEnd' : afterPasses levels (p + 1 + n) = none := by
        rwa [Nat.add_assoc, Nat.add_comm 1]
      obtain ⟨all, line, hRest⟩ := ih (next.rom :: found) hNext hEnd'
      exact hGo fun limit hLimit => runs_next h hNext (hRest limit hLimit)

theorem returnsAfter_iff : ReturnsAfter levels n ↔ afterPasses levels (n + 1) = none := by
  constructor
  · rintro ⟨found, line, hRuns⟩
    by_contra hOn
    have hSome : (afterPasses levels (0 + (n + 1))).isSome := by
      rw [Nat.zero_add]
      exact Option.isSome_iff_ne_none.mpr hOn
    obtain ⟨line', hNone⟩ := runs_searchFrom_none [] (p := 0) rfl hSome
    have hBoth := (hRuns (n + 1) (Nat.lt_succ_self n)).symm.trans hNone
    cases congrArg Prod.fst hBoth
  · intro hEnd
    have hEnd' : afterPasses levels (0 + (n + 1)) = none := by rwa [Nat.zero_add]
    exact runs_searchFrom_some [] (p := 0) rfl hEnd'

/-! ### Contradictions -/

theorem pass_of_afterPasses (h : afterPasses levels (p + 1) = some next) :
    ∃ search, afterPasses levels p = some search ∧ search.finished = false ∧
      search.pass (answer levels p) = some next := by
  obtain ⟨search, hSearch, hNext⟩ := Option.bind_eq_some_iff.mp h
  split at hNext
  · cases hNext
  · next hGoesOn =>
    obtain ⟨hFinished, -⟩ : search.finished = false ∧ present levels p = true := by
      simpa using hGoesOn
    exact ⟨search, hSearch, hFinished, hNext⟩

/-- As long as the line does not contradict itself, the codes ascend from pass to pass. -/
theorem rank_ascends {m : Nat} (hm : 0 < m)
    (hNot : ∀ p, m ≤ p → p < m + n → ¬ Contradicts levels p)
    (h : afterPasses levels (m + n) = some next) : n ≤ next.rom.rank := by
  induction n generalizing next with
  | zero => exact Nat.zero_le _
  | succ n ih =>
    obtain ⟨search, hSearch, hFinished, hPass⟩ :=
      pass_of_afterPasses (show afterPasses levels (m + n + 1) = some next from h)
    have hBelow := ih (fun p hLe hLt => hNot p hLe (by omega)) hSearch
    obtain ⟨q, hq⟩ : ∃ q, m + n = q + 1 := ⟨m + n - 1, by omega⟩
    obtain ⟨_, -, -, hEarlier⟩ := pass_of_afterPasses (hq ▸ hSearch)
    have hKept : ¬ search.Contradicted (answer levels (m + n)) := by
      intro hContradicted
      apply hNot (m + n) (by omega) (by omega)
      exact ⟨Option.isSome_of_eq_some h, search, hSearch, hContradicted⟩
    have hBefore := Search.before_of_pass hPass (Search.recorded_of_pass hEarlier)
      (Search.goesOn_of_pass hEarlier hFinished) hKept
    have hRank := hBefore.rank_lt
    omega

/-- Whatever levels the line shows, the search makes at most `n + 2 ^ 64` passes and returns, or the
line contradicts itself in a pass from the `n`-th on. So the search returns on every line that
contradicts itself in finitely many passes only. -/
theorem search_ends_or_contradicted (levels : Nat → Bool) (n : Nat) :
    ReturnsAfter levels (n + 2 ^ 64) ∨ ∃ p, n ≤ p ∧ Contradicts levels p := by
  by_cases hEnds : ReturnsAfter levels (n + 2 ^ 64)
  · exact .inl hEnds
  · right
    by_contra hNone
    rw [returnsAfter_iff] at hEnds
    obtain ⟨next, hNext⟩ := Option.ne_none_iff_exists'.mp hEnds
    have hSplit : n + 2 ^ 64 + 1 = n + 1 + 2 ^ 64 := by omega
    rw [hSplit] at hNext
    have hRank := rank_ascends (Nat.succ_pos n)
      (fun p hLe _ hContradicts => hNone ⟨p, by omega, hContradicts⟩) hNext
    have hBound := next.rom.rank_lt
    omega

/-! ### A line that contradicts itself for ever -/

/-- In one pass the devices differ in the last bit of their codes, in the next pass in the bit
before it, and so on in turns. All other bits are zero. -/
def alternating (k : Nat) : Bool :=
  k % 129 % 2 = 0 && k % 129 ≠ 0 && k % 258 ≠ 128 && k % 258 ≠ 255

theorem answer_alternating {bit : Nat} (hBit : bit < 64) (p : Nat) :
    answer alternating p bit = (false, decide (bit ≠ 63 - p % 2)) := by
  have hFirst : (129 * p + 1 + 2 * bit) % 129 = 1 + 2 * bit := by omega
  have hSecond : (129 * p + 2 + 2 * bit) % 129 = 2 + 2 * bit := by omega
  have hFork : ((129 * p + 2 + 2 * bit) % 258 ≠ 128 ∧ (129 * p + 2 + 2 * bit) % 258 ≠ 255) ↔
      bit ≠ 63 - p % 2 := by
    obtain ⟨q, rfl | rfl⟩ : ∃ q, p = 2 * q ∨ p = 2 * q + 1 := ⟨p / 2, by omega⟩
    · omega
    · omega
  have hOdd : ¬ (1 + 2 * bit) % 2 = 0 := by omega
  have hEven : (2 + 2 * bit) % 2 = 0 := by omega
  rw [answer, alternating, alternating, hFirst, hSecond]
  simp only [hOdd, hEven, ← hFork]
  simp [Bool.decide_and]

theorem pass_alternating (p : Nat) (search : Search) :
    search.pass (answer alternating p) =
      search.pass fun bit => (false, decide (bit ≠ 63 - p % 2)) := by
  unfold Search.pass
  rw [Search.follow_congr]
  intro bit _ hLt
  exact answer_alternating (by omega) p

/-- A search that found the code of zeros only, and has its last branch at this position. -/
def atZeros (position : Nat) : Search :=
  { lastDiscrepancy := position, lastZero := position }

/-- The search goes round in a circle of two passes. -/
theorem afterPasses_alternating (n : Nat) :
    afterPasses alternating (2 * n + 1) = some (atZeros 64) ∧
      afterPasses alternating (2 * n + 2) = some (atZeros 63) := by
  have hPresent : ∀ p, present alternating p = true := by
    intro p
    simp [present, alternating]
  have hStep : ∀ p search, afterPasses alternating p = some search → search.finished = false →
      afterPasses alternating (p + 1) =
        search.pass fun bit => (false, decide (bit ≠ 63 - p % 2)) := by
    intro p search hSearch hFinished
    rw [afterPasses, hSearch, Option.bind_some, hFinished, hPresent, ← pass_alternating]
    rfl
  have hOdd : ∀ p, p % 2 = 1 → afterPasses alternating p = some (atZeros 64) →
      afterPasses alternating (p + 1) = some (atZeros 63) := by
    intro p hp hSearch
    rw [hStep p _ hSearch rfl, hp]
    decide +kernel
  have hEven : ∀ p, p % 2 = 0 → afterPasses alternating p = some (atZeros 63) →
      afterPasses alternating (p + 1) = some (atZeros 64) := by
    intro p hp hSearch
    rw [hStep p _ hSearch rfl, hp]
    decide +kernel
  induction n with
  | zero =>
    have hFirst : afterPasses alternating 1 = some (atZeros 64) := by
      rw [hStep 0 {} rfl rfl]
      decide +kernel
    exact ⟨hFirst, hOdd 1 rfl hFirst⟩
  | succ n ih =>
    have hFirst := hEven (2 * n + 2) (by omega) ih.2
    exact ⟨hFirst, hOdd (2 * n + 3) (by omega) hFirst⟩

/-- There is a line on which the search never returns. -/
theorem not_search_ends : ¬ ∀ levels, ∃ passes, ReturnsAfter levels passes := by
  intro hAll
  obtain ⟨passes, hReturns⟩ := hAll alternating
  rw [returnsAfter_iff] at hReturns
  have hOn : (afterPasses alternating (2 * passes + 1)).isSome := by
    rw [(afterPasses_alternating passes).1]
    rfl
  have hSome : (afterPasses alternating (passes + 1)).isSome := isSome_of_le hOn (by omega)
  rw [hReturns] at hSome
  cases hSome

end EndlessLine

end Wire

end BusBench
