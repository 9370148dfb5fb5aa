import BusBench.Proofs.OneWire.RomOrder
import BusBench.Proofs.OneWire.Slots

/-!
# One pass of a search

In a pass the controller reads for every bit what the devices in play send, and the devices that do
not follow its direction drop out. The pass ends at one code: the first of all codes where the
search is new, else the first one after the code found before (`Rom.Next`).

* `Search.branch_eq`: at a fork the search turns towards the next code.
* `Search.OnPath.choose`: so it does at any bit.
* `OneWireWires.runs_walk`: all bits, on the timed line.
* `OneWireWires.runs_searchPass`: a whole pass.
-/

namespace BusBench

open BitBang (Search)
open BitBang.Drive (Runs)
open Rom (Agree Branches LastBranch Next)

/-! ## Directions -/

namespace BitBang.Search

theorem getLsbD_setBit (rom : Rom) {bit : Nat} (hBit : bit < 64) (value : Bool) (i : Nat) :
    (setBit rom bit value).getLsbD i = if i = bit then value else rom.getLsbD i := by
  have hMask : ((1 <<< bit : Nat) : Rom) = BitVec.twoPow 64 bit := by
    apply BitVec.eq_of_toNat_eq
    rw [BitVec.toNat_twoPow, Nat.shiftLeft_eq, Nat.one_mul]
    rfl
  simp only [setBit]
  rw [hMask]
  have hBits : (BitVec.twoPow 64 bit).getLsbD i = decide (i = bit) := by
    simp [BitVec.getLsbD_twoPow, hBit, eq_comm]
  by_cases hi : i < 64
  · rcases Decidable.em (i = bit) with rfl | hne
    · cases value <;> simp only [Bool.false_eq_true, if_false, if_true, BitVec.getLsbD_and,
        BitVec.getLsbD_or, BitVec.getLsbD_not, hBits, decide_true, Bool.not_true, Bool.and_false,
        Bool.or_true]
    · cases value <;> simp only [Bool.false_eq_true, if_false, if_true, BitVec.getLsbD_and,
        BitVec.getLsbD_or, BitVec.getLsbD_not, hBits, hne, hi, decide_false, decide_true,
        Bool.not_false, Bool.and_true, Bool.or_false]
  · have hOut (x : Rom) : x.getLsbD i = false := BitVec.getLsbD_of_ge x i (Nat.le_of_not_lt hi)
    have hne : i ≠ bit := fun h => hi (h ▸ hBit)
    rw [if_neg hne, hOut, hOut]

/-- What a search knows between passes: nothing where it is new, else the code found last and where
the path to it has its last branch. -/
structure Recalls (codes : List Rom) (search : Search) (previous? : Option Rom) : Prop where
  fresh : previous? = none → search.lastDiscrepancy = 0
  found : ∀ previous ∈ previous?,
    search.rom = previous ∧ LastBranch codes previous 64 search.lastDiscrepancy

variable {codes : List Rom} {start search : Search} {previous? : Option Rom} {r : Rom} {i : Nat}

/-- Where devices with either bit are in play, the search turns towards the next code. -/
theorem branch_eq (hRecalls : Recalls codes start previous?) (hNext : Next codes previous? r)
    (hDiscrepancy : search.lastDiscrepancy = start.lastDiscrepancy)
    (hBit : search.rom.getLsbD i = start.rom.getLsbD i)
    (hZero : ∃ c ∈ codes, Agree i c r ∧ c.getLsbD i = false) :
    search.branch i = r.getLsbD i := by
  obtain ⟨c, hc, hAgree, hcZero⟩ := hZero
  unfold branch
  rw [hDiscrepancy, hBit]
  cases hp : previous? with
  | none =>
    rw [hRecalls.fresh hp, if_neg (Nat.not_lt_zero _)]
    cases hr : r.getLsbD i with
    | false => rfl
    | true => exact absurd ⟨i, hAgree, hcZero, hr⟩ (hNext.least c hc (by simp [hp]))
  | some previous =>
    subst hp
    obtain ⟨hRom, hLast⟩ := hRecalls.found previous rfl
    obtain ⟨hPos, hCommon, hOne, hPrevious⟩ := hNext.leaves hLast
    rw [hRom]
    generalize start.lastDiscrepancy = last at hPos hCommon hOne hPrevious
    rcases Nat.lt_trichotomy (i + 1) last with hlt | rfl | hgt
    · rw [if_pos hlt]
      exact (hCommon i (by omega)).symm
    · rw [if_neg (Nat.lt_irrefl _)]
      simpa using hOne.symm
    · rw [if_neg (by omega)]
      have hne : (i + 1 == last) = false := by simpa using (by omega : ¬ i + 1 = last)
      rw [hne]
      cases hr : r.getLsbD i with
      | false => rfl
      | true =>
        -- The device with the zero also comes after the previous code, but before `r`.
        refine absurd ⟨i, hAgree, hcZero, hr⟩ (hNext.least c hc ?_)
        rintro _ ⟨⟩
        refine ⟨last - 1, ?_, hPrevious, (hAgree _ (by omega)).trans hOne⟩
        exact hCommon.symm.trans (hAgree.mono (by omega)).symm

/-- A search on its way to `r`, before bit `i`. -/
structure OnPath (codes : List Rom) (start : Search) (r : Rom) (i : Nat) (search : Search) :
    Prop where
  rom : Agree i search.rom r
  memory : ∀ j, i ≤ j → search.rom.getLsbD j = start.rom.getLsbD j
  lastDiscrepancy : search.lastDiscrepancy = start.lastDiscrepancy
  finished : search.finished = start.finished
  lastZero : LastBranch codes r i search.lastZero

theorem OnPath.startPass (codes : List Rom) (start : Search) (r : Rom) :
    OnPath codes start r 0 start.startPass where
  rom _ h := absurd h (Nat.not_lt_zero _)
  memory _ _ := rfl
  lastDiscrepancy := rfl
  finished := rfl
  lastZero := LastBranch.zero codes r

/-- One bit further in the direction of `r`. -/
theorem OnPath.step (h : OnPath codes start r i search) (hi : i < 64) {lastZero : Nat}
    (hLast : LastBranch codes r (i + 1) lastZero) :
    OnPath codes start r (i + 1)
      (take i (r.getLsbD i) { search with lastZero := lastZero }) where
  rom := by
    intro j hj
    change (setBit search.rom i (r.getLsbD i)).getLsbD j = _
    rw [getLsbD_setBit _ hi]
    split
    · subst j
      rfl
    · exact h.rom j (by omega)
  memory j hj := by
    change (setBit search.rom i (r.getLsbD i)).getLsbD j = _
    rw [getLsbD_setBit _ hi, if_neg (by omega)]
    exact h.memory j (by omega)
  lastDiscrepancy := h.lastDiscrepancy
  finished := h.finished
  lastZero := hLast

/-- What the devices in play answer for a bit, when those are all codes that agree with `r` so far,
sends the search on towards `r`. -/
theorem OnPath.choose (hPath : OnPath codes start r i search)
    (hRecalls : Recalls codes start previous?) (hNext : Next codes previous? r) (hi : i < 64)
    {playing : List Rom}
    (hPlaying : ∀ c, c ∈ playing ↔ c ∈ codes ∧ Agree i c r) :
    ∃ search', search.choose i (playing.all (·.getLsbD i)) (playing.all fun c => !c.getLsbD i) =
        (some (r.getLsbD i), search') ∧ OnPath codes start r (i + 1) search' := by
  have hr : r ∈ playing := (hPlaying r).mpr ⟨hNext.mem, Agree.refl i r⟩
  have hBranches : Branches codes r i ↔
      r.getLsbD i = false ∧ (playing.all fun c => !c.getLsbD i) = false := by
    simp only [Branches, List.all_eq_false, hPlaying, Bool.not_eq_true', Bool.not_eq_false]
    exact and_congr_right fun _ => exists_congr fun c => by rw [and_assoc]
  have hKeep : ¬ Branches codes r i → OnPath codes start r (i + 1) (search.take i (r.getLsbD i)) :=
    fun hNot => hPath.step hi (hPath.lastZero.succ_of_not hNot)
  cases hId : playing.all (·.getLsbD i) with
  | true =>
    have hOne : r.getLsbD i = true := List.all_eq_true.mp hId r hr
    cases hComplement : playing.all fun c => !c.getLsbD i with
    | true =>
      have := List.all_eq_true.mp hComplement r hr
      rw [hOne] at this
      cases this
    | false =>
      refine ⟨_, ?_, hKeep (by rw [hBranches, hOne]; simp)⟩
      rw [hOne]
      rfl
  | false =>
    cases hComplement : playing.all fun c => !c.getLsbD i with
    | true =>
      have hZero : r.getLsbD i = false := by simpa using List.all_eq_true.mp hComplement r hr
      refine ⟨_, ?_, hKeep (by rw [hBranches, hComplement]; simp)⟩
      rw [hZero]
      rfl
    | false =>
      obtain ⟨c, hc, hcZero⟩ := List.all_eq_false.mp hId
      obtain ⟨hcMem, hcAgree⟩ := (hPlaying c).mp hc
      have hTurn : search.branch i = r.getLsbD i :=
        branch_eq hRecalls hNext hPath.lastDiscrepancy (hPath.memory i (Nat.le_refl _))
          ⟨c, hcMem, hcAgree, by simpa using hcZero⟩
      cases hBit : r.getLsbD i with
      | true =>
        refine ⟨search.take i true, ?_, ?_⟩
        · simp only [Search.choose, hTurn, hBit, if_true]
        · rw [← hBit]
          exact hKeep (by rw [hBranches, hBit]; simp)
      | false =>
        refine ⟨take i false { search with lastZero := i + 1 }, ?_, ?_⟩
        · simp only [Search.choose, hTurn, hBit, Bool.false_eq_true, if_false]
        · rw [← hBit]
          exact hPath.step hi (LastBranch.succ_of_branches (hBranches.mpr ⟨hBit, hComplement⟩))

/-- At the end of the path the code is `r`, and the search knows its last branch. -/
theorem OnPath.finishPass (h : OnPath codes start r 64 search) :
    search.finishPass.rom = r ∧ Recalls codes search.finishPass (some r) ∧
      search.finishPass.finished = (start.finished || search.finishPass.lastDiscrepancy == 0) := by
  have hRom : search.rom = r := Agree.eq h.rom
  refine ⟨hRom, ⟨by rintro ⟨⟩, ?_⟩, ?_⟩
  · rintro _ ⟨⟩
    exact ⟨hRom, h.lastZero⟩
  · simp only [Search.finishPass, h.finished]

end BitBang.Search

/-! ## The devices in play -/

namespace Wire.OneWireWires

open BitBang.OneWire (readBit writeBit walk searchPass)

/-- The codes of the devices on the line. -/
def codes (wires : OneWireWires) : List Rom :=
  wires.devices.map (·.1)

/-- The codes of the devices that still take part. -/
def playing (wires : OneWireWires) : List Rom :=
  (wires.devices.filter (·.2)).map (·.1)

theorem wiredAnd_eq (wires : OneWireWires) (bitOf : Rom → Bool) :
    wires.wiredAnd bitOf = wires.playing.all bitOf := by
  simp only [wiredAnd, playing, List.all_map, List.all_filter]
  rfl

theorem codes_keepDirection (wires : OneWireWires) (bit : Nat) (direction : Bool) :
    (wires.keepDirection bit direction).codes = wires.codes := by
  simp only [codes, keepDirection, List.map_map]
  rfl

theorem mem_playing {wires : OneWireWires} {c : Rom} :
    c ∈ wires.playing ↔ (c, true) ∈ wires.devices := by
  simp only [playing, List.mem_map, List.mem_filter, Prod.exists, exists_and_right]
  constructor
  · rintro ⟨_, ⟨active, hMem, hOn⟩, rfl⟩
    rwa [show active = true from hOn] at hMem
  · exact fun h => ⟨c, ⟨true, h, rfl⟩, rfl⟩

theorem mem_playing_keepDirection (wires : OneWireWires) (bit : Nat) (direction : Bool) (c : Rom) :
    c ∈ (wires.keepDirection bit direction).playing ↔
      c ∈ wires.playing ∧ c.getLsbD bit = direction := by
  simp only [mem_playing, keepDirection, List.mem_map, Prod.exists, Prod.mk.injEq,
    Bool.and_eq_true, beq_iff_eq]
  constructor
  · rintro ⟨_, _, hMem, rfl, rfl, hBit⟩
    exact ⟨hMem, hBit⟩
  · exact fun ⟨hMem, hBit⟩ => ⟨c, true, hMem, rfl, rfl, hBit⟩

/-! ## The walk -/

variable {wires : OneWireWires} {i : Nat}

theorem elapse_search_bit (hProtocol : wires.protocol = .search i 0) (bit : Bool) :
    (wires.elapse bit).protocol = .search i 1 ∧ (wires.elapse bit).devices = wires.devices := by
  simp only [elapse, slot, hProtocol, and_self]

theorem elapse_search_complement (hProtocol : wires.protocol = .search i 1) (bit : Bool) :
    (wires.elapse bit).protocol = .search i 2 ∧ (wires.elapse bit).devices = wires.devices := by
  simp only [elapse, slot, hProtocol, and_self]

theorem elapse_search_direction (hProtocol : wires.protocol = .search i 2) (direction : Bool) :
    (wires.elapse direction).protocol = (if i = 63 then .ignoring else .search (i + 1) 0) ∧
      (wires.elapse direction).devices = (wires.keepDirection i direction).devices := by
  simp only [elapse, slot, hProtocol, keepDirection, and_self]

theorem readBit_sending {bit : Bool} (h : Settled wires) (hSends : wires.sending? = some bit) :
    Runs readBit wires (.ok bit) (wires.elapse true) := by
  have hRead := runs_readBit h
  cases bit <;> simpa [hSends] using hRead

/-- The line during the walk to `r`: the devices are about to send bit `i`, and those in play are
the ones that agree with `r` so far. -/
structure AtBit (codes : List Rom) (r : Rom) (i : Nat) (wires : OneWireWires) : Prop where
  settled : Settled wires
  protocol : i < 64 → wires.protocol = .search i 0
  onLine : wires.codes = codes
  inPlay : ∀ c, c ∈ wires.playing ↔ c ∈ codes ∧ Agree i c r

/-- The two answers for a bit, and the direction of `r`. -/
theorem AtBit.step {codes : List Rom} {r : Rom} (h : AtBit codes r i wires) (hi : i < 64) :
    ∃ asked answered,
      Runs readBit wires (.ok (wires.playing.all (·.getLsbD i))) asked ∧
      Runs readBit asked (.ok (wires.playing.all fun c => !c.getLsbD i)) answered ∧
      ∃ next, Runs (writeBit (r.getLsbD i)) answered (.ok ()) next ∧
        AtBit codes r (i + 1) next ∧ next.now = wires.now + 210 := by
  have hSettled := h.settled.elapse true
  have hSettled' := hSettled.elapse true
  obtain ⟨hProtocol, hDevices⟩ := elapse_search_bit (h.protocol hi) true
  obtain ⟨hProtocol', hDevices'⟩ := elapse_search_complement hProtocol true
  obtain ⟨hProtocol'', hDevices''⟩ := elapse_search_direction hProtocol' (r.getLsbD i)
  have hSame : ((wires.elapse true).elapse true).devices = wires.devices :=
    hDevices'.trans hDevices
  refine ⟨_, _, readBit_sending h.settled ?_, readBit_sending hSettled ?_, _,
    runs_writeBit hSettled' _, ⟨hSettled'.elapse _, fun hNext => ?_, ?_, fun c => ?_⟩, rfl⟩
  · simp only [sending?, h.protocol hi, wiredAnd_eq]
  · simp only [sending?, hProtocol, wiredAnd_eq, playing, hDevices]
  · rw [hProtocol'', if_neg (by omega)]
  · rw [← h.onLine]
    change List.map _ _ = List.map _ _
    rw [hDevices'']
    exact (codes_keepDirection _ _ _).trans (by simp only [OneWireWires.codes, hSame])
  · have hKeep := mem_playing_keepDirection ((wires.elapse true).elapse true) i (r.getLsbD i) c
    rw [mem_playing, hDevices'', ← mem_playing, hKeep, mem_playing, hSame, ← mem_playing,
      h.inPlay, and_assoc]
    refine and_congr_right fun _ => ⟨fun ⟨hAgree, hBit⟩ => hAgree.succ hBit, fun hAgree => ?_⟩
    exact ⟨hAgree.mono (Nat.le_succ i), hAgree i (Nat.lt_succ_self i)⟩

/-- The walk ends at `r`, whatever the search did before. -/
theorem runs_walk {codes : List Rom} {start : Search} {previous? : Option Rom} {r : Rom}
    (hRecalls : Search.Recalls codes start previous?) (hNext : Next codes previous? r) (n : Nat)
    {search : Search} {wires : OneWireWires} {i : Nat} (hi : n + i = 64)
    (hBit : AtBit codes r i wires) (hPath : Search.OnPath codes start r i search) :
    ∃ search' wires', Runs (walk n i search) wires (.ok (some search')) wires' ∧
      Search.OnPath codes start r 64 search' ∧ Settled wires' ∧ wires'.codes = codes ∧
      wires'.now = wires.now + 210 * n := by
  induction n generalizing search wires i with
  | zero =>
    obtain rfl : i = 64 := by omega
    exact ⟨search, wires, Runs.pure _, hPath, hBit.settled, hBit.onLine, rfl⟩
  | succ n ih =>
    obtain ⟨asked, answered, hId, hComplement, next, hWrite, hBit', hNow⟩ := hBit.step (by omega)
    obtain ⟨search', hChoose, hPath'⟩ := hPath.choose hRecalls hNext (by omega) hBit.inPlay
    obtain ⟨search'', wires', hWalk, hEnd, hSettled, hCodes, hNow'⟩ :=
      ih (by omega) hBit' hPath'
    refine ⟨search'', wires', Runs.bind hId (Runs.bind hComplement ?_), hEnd, hSettled, hCodes,
      by omega⟩
    rw [hChoose]
    exact Runs.bind hWrite hWalk

/-- A pass that begins after a reset ends at the next code. -/
theorem runs_searchPass {codes : List Rom} {start : Search} {previous? : Option Rom} {r : Rom}
    (hRecalls : Search.Recalls codes start previous?) (hNext : Next codes previous? r)
    {wires : OneWireWires} (hSettled : Settled wires) (hProtocol : wires.protocol = .command 0 0)
    (hCodes : wires.codes = codes) (hAll : ∀ c, c ∈ wires.playing ↔ c ∈ codes) :
    ∃ search wires', Runs (searchPass start) wires (.ok (some search)) wires' ∧
      search.rom = r ∧ Search.Recalls codes search (some r) ∧
      search.finished = (start.finished || search.lastDiscrepancy == 0) ∧
      Settled wires' ∧ wires'.codes = codes ∧ wires'.now = wires.now + 14000 := by
  obtain ⟨hSearch, hDevices, -, hNow⟩ := elapseByte_command 0xF0 hProtocol
  have hBit : AtBit codes r 0 (wires.elapseByte 0xF0) := by
    refine ⟨hSettled.elapseByte _, fun _ => hSearch, ?_, fun c => ?_⟩
    · rw [← hCodes]
      simp only [OneWireWires.codes, hDevices]
    · rw [mem_playing, hDevices, ← mem_playing, hAll]
      exact (and_iff_left fun _ h => absurd h (Nat.not_lt_zero _)).symm
  obtain ⟨search, wires', hWalk, hEnd, hSettled', hCodes', hNow'⟩ :=
    runs_walk hRecalls hNext 64 rfl hBit (Search.OnPath.startPass codes start r)
  obtain ⟨hRom, hKnows, hFinished⟩ := hEnd.finishPass
  exact ⟨search.finishPass, wires',
    Runs.bind (runs_writeByte hSettled _) (Runs.bind hWalk (Runs.pure _)), hRom, hKnows, hFinished,
    hSettled', hCodes', by omega⟩

end Wire.OneWireWires

end BusBench
