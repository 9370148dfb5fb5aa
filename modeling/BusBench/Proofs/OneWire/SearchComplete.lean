import BusBench.Proofs.OneWire.SearchPass
import Mathlib.Data.List.Perm.Subperm

/-!
# A search finds every device once

Whatever has happened on the line before, a search answers the codes of all devices in the order of
their bits, each once, and makes one pass for each of them. A limit of `n` allows a search `n - 1`
passes, so the number of passes is the largest limit that is not enough.

* `runs_searchFrom`: the passes that are left find the codes that are left.
* `Operation`: what a controller can do with the line.
* `search_finds_each_once`: the whole search.
-/

namespace BusBench.Wire.OneWireWires

open BitBang (Drive Search)
open BitBang.Drive (Runs)
open BitBang.OneWire
open Rom (Before Next LastBranch)

/-! ## The devices stay -/

theorem codes_runCommand (wires : OneWireWires) (command : UInt8) :
    (wires.runCommand command).codes = wires.codes := by
  unfold runCommand
  split
  · rfl
  · split <;> rfl

theorem codes_slot (wires : OneWireWires) (bit : Bool) : (wires.slot bit).codes = wires.codes := by
  unfold slot
  split
  · simp only
    split
    · rfl
    · exact codes_runCommand _ _
  · rfl
  · exact codes_keepDirection _ _ _
  · rfl
  · rfl

theorem codes_elapse (wires : OneWireWires) (bit : Bool) :
    (wires.elapse bit).codes = wires.codes :=
  codes_slot wires bit

theorem codes_elapseReset (wires : OneWireWires) : wires.elapseReset.codes = wires.codes := by
  simp only [codes, elapseReset, List.map_map]
  rfl

/-! ## Whole operations -/

/-- Started on a settled line, the program succeeds and leaves it settled with the same devices. -/
def Completes {α : Type} (program : Drive OneWireWires α) : Prop :=
  ∀ wires, Settled wires →
    ∃ a wires', Runs program wires (.ok a) wires' ∧ Settled wires' ∧ wires'.codes = wires.codes

namespace Completes

variable {α β : Type}

theorem pure (a : α) : Completes (Pure.pure a : Drive OneWireWires α) :=
  fun wires h => ⟨a, wires, Runs.pure a, h, rfl⟩

theorem bind {program : Drive OneWireWires α} {next : α → Drive OneWireWires β}
    (h : Completes program) (hNext : ∀ a, Completes (next a)) : Completes (program >>= next) := by
  intro wires hSettled
  obtain ⟨a, wires', hRun, hSettled', hCodes⟩ := h wires hSettled
  obtain ⟨b, wires'', hRun', hSettled'', hCodes'⟩ := hNext a wires' hSettled'
  exact ⟨b, wires'', hRun.bind hRun', hSettled'', hCodes'.trans hCodes⟩

theorem forM {program : α → Drive OneWireWires Unit} (h : ∀ a, Completes (program a))
    (as : List α) : Completes (as.forM program) := by
  induction as with
  | nil => exact pure ()
  | cons a as ih => exact bind (h a) fun _ => ih

theorem foldlM {program : β → α → Drive OneWireWires β} (h : ∀ b a, Completes (program b a))
    (as : List α) (b : β) : Completes (as.foldlM program b) := by
  induction as generalizing b with
  | nil => exact pure b
  | cons a as ih =>
    rw [List.foldlM_cons]
    exact bind (h b a) fun b => ih b

end Completes

theorem completes_writeBit (bit : Bool) : Completes (writeBit bit) :=
  fun wires h => ⟨_, _, runs_writeBit h bit, h.elapse bit, codes_elapse wires bit⟩

theorem completes_readBit : Completes readBit :=
  fun wires h => ⟨_, _, runs_readBit h, h.elapse true, codes_elapse wires true⟩

theorem completes_idle : Completes idle :=
  fun wires h => ⟨(), wires, runs_idle h, h, rfl⟩

theorem completes_wait (us : Nat) : Completes (BitBang.Gpio.wait us) :=
  fun _ h => ⟨_, _, runs_wait us, h.wait us, rfl⟩

theorem completes_resetPulse : Completes resetPulse :=
  fun wires h => ⟨_, _, runs_resetPulse h, h.elapseReset, codes_elapseReset wires⟩

theorem completes_writeByte (byte : UInt8) : Completes (writeByte byte) :=
  .forM completes_writeBit _

theorem completes_readByte : Completes readByte :=
  .foldlM (fun _ _ => completes_readBit.bind fun _ => .pure _) _ _

theorem completes_write (bytes : List UInt8) : Completes (write bytes) :=
  .forM completes_writeByte _

theorem completes_collect (n : Nat) (collected : List UInt8) : Completes (collect n collected) := by
  induction n generalizing collected with
  | zero => exact .pure _
  | succ n ih => exact completes_readByte.bind fun _ => ih _

/-! ## The codes that are left -/

/-- The codes that come after `previous?`, in their order. -/
structure Left (codes : List Rom) (previous? : Option Rom) (todo : List Rom) : Prop where
  ascending : todo.Pairwise Before
  mem : ∀ c, c ∈ todo ↔ c ∈ codes ∧ ∀ previous ∈ previous?, Before previous c

variable {codes : List Rom} {previous? : Option Rom} {r : Rom} {todo : List Rom}

theorem Left.next (h : Left codes previous? (r :: todo)) : Next codes previous? r where
  mem := ((h.mem r).mp List.mem_cons_self).1
  after := ((h.mem r).mp List.mem_cons_self).2
  least c hc hAfter hBefore := by
    rcases List.mem_cons.mp ((h.mem c).mpr ⟨hc, hAfter⟩) with rfl | hTodo
    · exact Before.irrefl c hBefore
    · exact hBefore.asymm ((List.pairwise_cons.mp h.ascending).1 c hTodo)

theorem Left.tail (h : Left codes previous? (r :: todo)) : Left codes (some r) todo where
  ascending := (List.pairwise_cons.mp h.ascending).2
  mem c := by
    constructor
    · intro hc
      refine ⟨((h.mem c).mp (List.mem_cons_of_mem r hc)).1, fun previous hPrevious => ?_⟩
      cases hPrevious
      exact (List.pairwise_cons.mp h.ascending).1 c hc
    · rintro ⟨hc, hAfter⟩
      have hBefore : Before r c := hAfter r rfl
      have hTodo := (h.mem c).mpr
        ⟨hc, fun previous hPrevious => (h.next.after previous hPrevious).trans hBefore⟩
      rcases List.mem_cons.mp hTodo with rfl | hTodo
      · exact absurd hBefore (Before.irrefl c)
      · exact hTodo

/-- A pass without a branch was the last. -/
theorem Left.finished (h : Left codes (some r) todo) {last : Nat}
    (hLast : LastBranch codes r 64 last) : (last == 0) = todo.isEmpty := by
  rcases Nat.eq_zero_or_pos last with rfl | hPos
  · have hNone : todo = [] := by
      refine List.eq_nil_iff_forall_not_mem.mpr fun c hc => ?_
      obtain ⟨hMem, hAfter⟩ := (h.mem c).mp hc
      exact hLast.not_before hMem (hAfter r rfl)
    subst hNone
    rfl
  · obtain ⟨c, hc, hBefore, -⟩ := (hLast.branches hPos).exists_after
    have hTodo : c ∈ todo := by
      refine (h.mem c).mpr ⟨hc, fun previous hPrevious => ?_⟩
      cases hPrevious
      exact hBefore
    rw [List.isEmpty_eq_false_iff_exists_mem.mpr ⟨c, hTodo⟩]
    exact beq_eq_false_iff_ne.mpr (by omega)

/-! ## The whole search -/

/-- Every pass finds one code of those that are left, until none is left or the limit is reached. -/
theorem runs_searchFrom (limit : Nat) (found : List Rom) {search : Search} {wires : OneWireWires}
    (hRecalls : Search.Recalls codes search previous?) (hLeft : Left codes previous? todo)
    (hFinished : search.finished = todo.isEmpty) (hSettled : Settled wires)
    (hCodes : wires.codes = codes) :
    ∃ wires', Runs (searchFrom limit search found) wires
        (.ok (if todo.length < limit then some (found.reverse ++ todo) else none)) wires' ∧
      Settled wires' ∧ wires'.codes = codes ∧
      (todo.length < limit → wires'.now = wires.now + 14960 * todo.length) := by
  induction limit generalizing search found wires previous? todo with
  | zero => exact ⟨wires, Runs.pure _, hSettled, hCodes, fun h => absurd h (Nat.not_lt_zero _)⟩
  | succ limit ih =>
    unfold searchFrom
    cases todo with
    | nil =>
      rw [hFinished, List.append_nil]
      exact ⟨wires, Runs.pure _, hSettled, hCodes, fun _ => rfl⟩
    | cons r todo =>
      have hPresent : wires.devices.isEmpty = false := by
        have hMem : r ∈ wires.codes := hCodes ▸ hLeft.next.mem
        obtain ⟨device, hDevice, -⟩ := List.mem_map.mp hMem
        exact List.isEmpty_eq_false_iff_exists_mem.mpr ⟨device, hDevice⟩
      have hReset := runs_resetPulse hSettled
      rw [hPresent] at hReset
      have hAwake := (codes_elapseReset wires).trans hCodes
      obtain ⟨search', wires', hPass, hRom, hRecalls', hLast, hSettled', hCodes', hNow⟩ :=
        runs_searchPass hRecalls hLeft.next hSettled.elapseReset rfl hAwake fun c => by
          rw [← hAwake, mem_playing]
          simp [OneWireWires.codes, elapseReset]
      have hFinished' : search'.finished = todo.isEmpty := by
        rw [hLast, hFinished, ← hLeft.tail.finished (hRecalls'.found r rfl).2]
        rfl
      obtain ⟨wires'', hRest, hSettled'', hCodes'', hNow'⟩ :=
        ih (search'.rom :: found) hRecalls' hLeft.tail hFinished' hSettled' hCodes'
      refine ⟨wires'', ?_, hSettled'', hCodes'', fun hLimit => ?_⟩
      · rw [hFinished]
        refine Runs.bind hReset (Runs.bind hPass ?_)
        simpa [hRom] using hRest
      · have hReset' : wires.elapseReset.now = wires.now + 960 := rfl
        rw [hNow' (by simpa using hLimit), hNow, hReset', List.length_cons]
        omega

/-- A search from a settled line. -/
theorem runs_searchWithin (limit : Nat) {wires : OneWireWires} (hSettled : Settled wires)
    {found : List Rom} (hAscending : found.Pairwise Before)
    (hMem : ∀ r, r ∈ found ↔ r ∈ wires.codes) :
    ∃ wires', Runs (searchWithin limit) wires
        (.ok (if found.length < limit then some found else none)) wires' ∧
      Settled wires' ∧ wires'.codes = wires.codes ∧
      (found.length < limit → wires'.now = wires.now + max 960 (14960 * found.length)) := by
  cases found with
  | nil =>
    have hAbsent : wires.devices.isEmpty = true := by
      cases hDevices : wires.devices with
      | nil => rfl
      | cons device devices =>
        have hDevice : device.1 ∈ wires.codes := by simp [OneWireWires.codes, hDevices]
        exact absurd ((hMem _).mpr hDevice) List.not_mem_nil
    cases limit with
    | zero => exact ⟨wires, Runs.pure _, hSettled, rfl, fun h => absurd h (Nat.lt_irrefl 0)⟩
    | succ limit =>
      have hReset := runs_resetPulse hSettled
      rw [hAbsent] at hReset
      exact ⟨_, Runs.bind hReset (Runs.pure _), hSettled.elapseReset, codes_elapseReset wires,
        fun _ => rfl⟩
  | cons r rest =>
    have hLeft : Left wires.codes none (r :: rest) :=
      ⟨hAscending, fun c => (hMem c).trans (and_iff_left (by simp)).symm⟩
    have hFresh : Search.Recalls wires.codes {} none := ⟨fun _ => rfl, by simp⟩
    obtain ⟨wires', hRun, hSettled', hCodes, hNow⟩ :=
      runs_searchFrom limit [] hFresh hLeft rfl hSettled rfl
    refine ⟨wires', hRun, hSettled', hCodes, fun hLimit => ?_⟩
    rw [hNow hLimit, List.length_cons]
    omega

theorem completes_searchWithin (limit : Nat) : Completes (searchWithin limit) := by
  intro wires hSettled
  obtain ⟨found, hAscending, hMem⟩ := Rom.exists_ascending wires.codes
  obtain ⟨wires', hRun, hSettled', hCodes, -⟩ := runs_searchWithin limit hSettled hAscending hMem
  exact ⟨_, wires', hRun, hSettled', hCodes⟩

/-! ## After anything else -/

/-- What a controller can do with the line. -/
inductive Operation where
  | idle
  | wait (us : Nat)
  | resetPulse
  | writeBit (bit : Bool)
  | readBit
  | write (bytes : List UInt8)
  | read (count : Nat)
  | search (limit : Nat)
  deriving DecidableEq, Repr

/-- Carries out an operation, whatever it answers. -/
def Operation.run : Operation → Drive OneWireWires Unit
  | idle => BitBang.OneWire.idle
  | wait us => BitBang.Gpio.wait us
  | resetPulse => do let _ ← BitBang.OneWire.resetPulse
  | writeBit bit => BitBang.OneWire.writeBit bit
  | readBit => do let _ ← BitBang.OneWire.readBit
  | write bytes => BitBang.OneWire.write bytes
  | read count => do let _ ← BitBang.OneWire.read count
  | search limit => do let _ ← BitBang.OneWire.searchWithin limit

theorem Operation.completes (operation : Operation) : Completes operation.run := by
  cases operation with
  | idle => exact completes_idle
  | wait us => exact completes_wait us
  | resetPulse => exact completes_resetPulse.bind fun _ => .pure ()
  | writeBit bit => exact completes_writeBit bit
  | readBit => exact completes_readBit.bind fun _ => .pure ()
  | write bytes => exact completes_write bytes
  | read count => exact (completes_collect count []).bind fun _ => .pure ()
  | search limit => exact (completes_searchWithin limit).bind fun _ => .pure ()

/-- Whatever operations came before, a search answers every code on the line once, in the order of
the bits, and leaves the line released. It needs one pass for each code: with fewer passes it has no
answer, and it takes the time of as many resets and passes. The limit that the line sets itself is
always enough. -/
theorem search_finds_each_once (codes : List Rom) (earlier : List Operation) :
    ∃ wires found, Runs (earlier.forM Operation.run) (new codes) (.ok ()) wires ∧
      found.Pairwise Before ∧ (∀ r, r ∈ found ↔ r ∈ codes) ∧ found.length < wires.searchLimit ∧
      ∀ limit, ∃ wires', Runs (searchWithin limit) wires
          (.ok (if found.length < limit then some found else none)) wires' ∧
        wires'.held = false ∧ wires'.level = true ∧
        (found.length < limit → wires'.now = wires.now + max 960 (14960 * found.length)) := by
  obtain ⟨_, wires, hEarlier, hSettled, hCodes⟩ :=
    Completes.forM Operation.completes earlier (new codes) (Settled.new codes)
  have hNew : (new codes).codes = codes := by
    simp only [OneWireWires.codes, new, List.map_map]
    exact List.map_id codes
  obtain ⟨found, hAscending, hMem⟩ := Rom.exists_ascending codes
  have hEnough : found.length < wires.searchLimit := by
    have hNodup : found.Nodup :=
      hAscending.imp fun {a b} (hBefore : Before a b) (heq : a = b) =>
        Before.irrefl b (heq ▸ hBefore)
    have hFew := (List.Nodup.subperm hNodup fun r hr => (hMem r).mp hr).length_le
    have hLength : wires.devices.length = codes.length := by
      rw [← hNew, ← hCodes, OneWireWires.codes, List.length_map]
    unfold searchLimit
    omega
  refine ⟨wires, found, hEarlier, hAscending, hMem, hEnough, fun limit => ?_⟩
  obtain ⟨wires', hRun, hSettled', -, hNow⟩ :=
    runs_searchWithin limit hSettled hAscending fun r => by rw [hMem, hCodes, hNew]
  exact ⟨wires', hRun, hSettled'.released, hSettled'.level, hNow⟩

end BusBench.Wire.OneWireWires
