import BusBench.Proofs.Resources.Custody
import Mathlib.Data.List.Nodup

/-!
# What is open

The exchanges with a board alone tell what has been opened and not been closed. Exchanges to which
the monitor of custody does not object close nothing that is not open and open nothing twice.

* `stillOpen`: what exchanges have opened and not closed.
* `Accounted`: exchanges whose openings and closings match.
* `Custody.accounted_of_run`: such are the exchanges that a program in custody makes.
-/

namespace BusBench

/-- What is open after an exchange, by what was open before. -/
def Exchange.openAfter (exchange : Exchange) (holdings : List Holding) : List Holding :=
  match exchange.request.role with
  | .claims holding => if exchange.granted then holding :: holdings else holdings
  | .releases resource => holdings.filter (·.resource ≠ resource)
  | _ => holdings

/-- What exchanges have opened and not closed again, the newest first. -/
def stillOpen (trace : List Exchange) : List Holding :=
  trace.foldl (fun holdings exchange => exchange.openAfter holdings) []

/-- The resources that are open after exchanges. -/
def openResources (trace : List Exchange) : List Resource :=
  (stillOpen trace).map (·.resource)

/-- At every moment nothing is open twice, one bus at most is open and no pin is taken up twice; and
what is closed is open, so that nothing is closed twice. -/
structure Accounted (trace : List Exchange) : Prop where
  closed : ∀ before exchange resource, before ++ [exchange] <+: trace →
    exchange.request.role = .releases resource → resource ∈ openResources before
  once : ∀ before, before <+: trace → (openResources before).Nodup
  oneBus : ∀ before bus bus', before <+: trace → .bus bus ∈ openResources before →
    .bus bus' ∈ openResources before → bus = bus'
  pins : ∀ before, before <+: trace → ((stillOpen before).flatMap (·.pins)).Nodup

/-! ## Custody and what is open -/

namespace Custody

variable {s s' : Custody} {resource other : Resource}

theorem not_holds_of_allows (hAllows : s.Allows resource) : ¬ s.Holds resource := by
  intro hHolds
  cases resource with
  | bus bus =>
    change s.bus? = none at hAllows
    change s.bus? = some bus at hHolds
    rw [hAllows] at hHolds
    cases hHolds
  | pin pin => exact hAllows hHolds

theorem holds_add (hAllows : s.Allows resource) :
    (s.add resource).Holds other ↔ other = resource ∨ s.Holds other := by
  cases resource with
  | bus bus =>
    cases other with
    | bus bus' =>
      change s.bus? = none at hAllows
      simp [Holds, add, hAllows, eq_comm]
    | pin pin => simp [Holds, add]
  | pin pin => cases other <;> simp [Holds, add]

theorem holds_remove (hPins : s.pins.Nodup) (hHolds : s.Holds resource) :
    (s.remove resource).Holds other ↔ s.Holds other ∧ other ≠ resource := by
  cases resource with
  | bus bus =>
    cases other with
    | bus bus' =>
      change s.bus? = some bus at hHolds
      simp [Holds, remove, hHolds, eq_comm]
    | pin pin => simp [Holds, remove]
  | pin pin =>
    cases other with
    | bus bus => simp [Holds, remove]
    | pin pin' => simp [Holds, remove, hPins.mem_erase_iff, and_comm]

/-- Custody holds what is open. -/
structure Describes (s : Custody) (holdings : List Holding) : Prop where
  mem_iff : ∀ resource, resource ∈ holdings.map (·.resource) ↔ s.Holds resource
  nodup : (holdings.map (·.resource)).Nodup
  separate : ∀ holding ∈ holdings, holding.Separate
  pins : s.pins.Nodup

theorem describes_nil : Describes {} [] := by
  refine ⟨fun resource => ?_, List.nodup_nil, nofun, List.nodup_nil⟩
  cases resource with
  | bus bus => exact ⟨nofun, nofun⟩
  | pin pin => exact ⟨nofun, nofun⟩

namespace Describes

variable {holdings : List Holding}

theorem add {holding : Holding} (h : s.Describes holdings) (hSeparate : holding.Separate)
    (hAllows : s.Allows holding.resource) :
    (s.add holding.resource).Describes (holding :: holdings) := by
  refine ⟨fun other => ?_, ?_, ?_, ?_⟩
  · rw [List.map_cons, List.mem_cons, h.mem_iff, holds_add hAllows]
  · rw [List.map_cons, List.nodup_cons, h.mem_iff]
    exact ⟨not_holds_of_allows hAllows, h.nodup⟩
  · intro other hOther
    rcases List.mem_cons.mp hOther with rfl | hOther
    · exact hSeparate
    · exact h.separate other hOther
  · obtain ⟨resource, pins⟩ := holding
    cases resource with
    | bus bus => exact h.pins
    | pin pin => exact List.nodup_cons.mpr ⟨hAllows, h.pins⟩

theorem remove (h : s.Describes holdings) (hHolds : s.Holds resource) :
    (s.remove resource).Describes (holdings.filter (·.resource ≠ resource)) := by
  have hMap : (holdings.filter (·.resource ≠ resource)).map (·.resource) =
      (holdings.map (·.resource)).filter (· ≠ resource) := by
    rw [List.filter_map]
    rfl
  refine ⟨fun other => ?_, ?_, ?_, ?_⟩
  · rw [hMap, List.mem_filter, h.mem_iff, holds_remove h.pins hHolds, decide_eq_true_iff]
  · rw [hMap]
    exact h.nodup.filter _
  · exact fun other hOther => h.separate other (List.mem_filter.mp hOther).1
  · cases resource with
    | bus bus => exact h.pins
    | pin pin => exact h.pins.erase pin

/-- Custody goes along with what is open, and closes nothing else. -/
theorem step {exchange : Exchange} (h : s.Describes holdings)
    (hStep : custody.step exchange s = some s') : s'.Describes (exchange.openAfter holdings) := by
  unfold Exchange.openAfter
  cases step_cases hStep with
  | claims hRole hSeparate hAllows hFree =>
    rw [hRole]
    cases exchange.granted with
    | true => exact h.add hSeparate hAllows
    | false => exact h
  | releases hRole hHolds hFree =>
    rw [hRole]
    exact h.remove hHolds
  | locks hRole hBus hFree =>
    rw [hRole]
    exact ⟨fun resource => by cases resource <;> exact h.mem_iff _, h.nodup, h.separate, h.pins⟩
  | unlocks hRole hBus hLocked =>
    rw [hRole]
    exact ⟨fun resource => by cases resource <;> exact h.mem_iff _, h.nodup, h.separate, h.pins⟩
  | transfers hRole hBus hLocked =>
    rw [hRole]
    exact h
  | uses hRole hHolds =>
    rw [hRole]
    exact h
  | free hRole =>
    rw [hRole]
    exact h

theorem run {trace : List Exchange} (h : s.Describes holdings)
    (hRun : custody.run trace s = some s') :
    s'.Describes (trace.foldl (fun holdings exchange => exchange.openAfter holdings) holdings) := by
  induction trace generalizing s holdings with
  | nil => exact Option.some.inj hRun ▸ h
  | cons exchange trace ih =>
    obtain ⟨mid, hStep, hRest⟩ := Option.bind_eq_some_iff.mp hRun
    exact ih (h.step hStep) hRest

/-- Different things that are open take up different pins. -/
theorem disjoint_pins (h : s.Describes holdings) {holding holding' : Holding}
    (hMem : holding ∈ holdings) (hMem' : holding' ∈ holdings)
    (hOther : holding.resource ≠ holding'.resource) :
    holding.pins.Disjoint holding'.pins := by
  have hHolds := (h.mem_iff _).mp (List.mem_map_of_mem (f := Holding.resource) hMem)
  have hHolds' := (h.mem_iff _).mp (List.mem_map_of_mem (f := Holding.resource) hMem')
  have hSeparate := h.separate _ hMem
  have hSeparate' := h.separate _ hMem'
  obtain ⟨bus | pin, pins⟩ := holding <;> obtain ⟨bus' | pin', pins'⟩ := holding'
  · have hSame : some bus = some bus' := hHolds.symm.trans hHolds'
    exact absurd (congrArg _ (Option.some.inj hSame)) hOther
  · obtain ⟨rfl, hUser⟩ := hSeparate'
    exact List.disjoint_singleton.mpr (hSeparate.not_mem hUser)
  · obtain ⟨rfl, hUser⟩ := hSeparate
    exact List.singleton_disjoint.mpr (hSeparate'.not_mem hUser)
  · obtain ⟨rfl, -⟩ := hSeparate
    obtain ⟨rfl, -⟩ := hSeparate'
    rw [List.disjoint_singleton, List.mem_singleton]
    exact fun hSame => hOther (congrArg Resource.pin hSame.symm)

theorem nodup_pins (h : s.Describes holdings) : (holdings.flatMap (·.pins)).Nodup := by
  rw [List.nodup_flatMap]
  refine ⟨fun holding hMem => (h.separate holding hMem).nodup, ?_⟩
  have hDistinct : holdings.Pairwise fun holding holding' => holding.resource ≠ holding'.resource :=
    List.pairwise_map.mp h.nodup
  exact hDistinct.imp_of_mem fun hMem hMem' hOther => h.disjoint_pins hMem hMem' hOther

end Describes

theorem accounted_of_run {trace : List Exchange} (hRun : custody.run trace {} = some s) :
    Accounted trace := by
  -- A prefix of exchanges to which nothing was objected is one itself, with custody in between.
  have hDescribed : ∀ before, before <+: trace → ∃ mid, custody.run before {} = some mid ∧
      Describes mid (stillOpen before) := by
    rintro before ⟨after, rfl⟩
    rw [Monitor.run_append] at hRun
    obtain ⟨mid, hBefore, -⟩ := Option.bind_eq_some_iff.mp hRun
    exact ⟨mid, hBefore, describes_nil.run hBefore⟩
  refine ⟨?_, ?_, ?_, ?_⟩
  · intro before exchange resource hPrefix hRole
    obtain ⟨mid, hMid, -⟩ := hDescribed _ hPrefix
    rw [Monitor.run_append] at hMid
    obtain ⟨earlier, hBefore, hStep⟩ := Option.bind_eq_some_iff.mp hMid
    obtain ⟨later, hStep, -⟩ := Option.bind_eq_some_iff.mp hStep
    have hHolds : earlier.Holds resource := by
      cases step_cases hStep with
      | releases hRole' hHolds hFree =>
        rw [hRole] at hRole'
        obtain rfl := Role.releases.inj hRole'
        exact hHolds
      | claims hRole' | locks hRole' | unlocks hRole' | transfers hRole' | uses hRole'
      | free hRole' =>
        rw [hRole] at hRole'
        cases hRole'
    exact ((describes_nil.run hBefore).mem_iff resource).mpr hHolds
  · intro before hPrefix
    obtain ⟨mid, -, h⟩ := hDescribed before hPrefix
    exact h.nodup
  · intro before bus bus' hPrefix hBus hBus'
    obtain ⟨mid, -, h⟩ := hDescribed before hPrefix
    have hSame : some bus = some bus' := ((h.mem_iff _).mp hBus).symm.trans ((h.mem_iff _).mp hBus')
    exact Option.some.inj hSame
  · intro before hPrefix
    obtain ⟨mid, -, h⟩ := hDescribed before hPrefix
    exact h.nodup_pins

end Custody

end BusBench
