import BusBench.Proofs.World.Guards
import BusBench.Prompt.OneWire

/-!
# The macros of devices

A search of the bus gives macros to the devices it finds, and takes back those of the search before.
It may be broken off on the way, but only because the link fails. So as long as there is a link, the
macro of a device leads to a device that is there.

* `OneWire.Leads`: where the macros of devices lead to.
* `OneWire.Session.Sound`: they lead to devices that are there.
* `OneWire.runShortcut_guards`: every macro keeps it so.
-/

namespace BusBench

/-! ## Entries -/

namespace MacroTable

variable {α : Type} {key : UInt8} {name : String} {action : α} {entry : UInt8 × String × α}

theorem mem_insert {entries : List (UInt8 × String × α)}
    (h : entry ∈ insert key name action entries) :
    entry = (key, name, action) ∨ entry ∈ entries := by
  induction entries with
  | nil => exact .inl (List.mem_singleton.mp h)
  | cons first entries ih =>
    unfold insert at h
    split at h
    · exact List.mem_cons.mp h
    · split at h
      · exact (List.mem_cons.mp h).imp_right (List.mem_cons_of_mem first)
      · rcases List.mem_cons.mp h with rfl | hRest
        · exact .inr List.mem_cons_self
        · exact (ih hRest).imp_right (List.mem_cons_of_mem first)

theorem mem_of_get? {table : MacroTable α} (h : table.get? key = some action) :
    ∃ entry ∈ table.entries, entry.2.2 = action := by
  obtain ⟨entry, hFound, hAction⟩ := Option.map_eq_some_iff.mp h
  exact ⟨entry, List.mem_of_find?_eq_some hFound, hAction⟩

end MacroTable

namespace OneWire

open Act (Ends Guards)

variable {ω β : Type} {P : ω → Prop} {table : MacroTable Shortcut} {n : Nat}

/-! ## Where macros lead to -/

/-- The macros of devices are numbered as the devices are, and lead to none from the `n`-th on. -/
def Leads (n : Nat) (table : MacroTable Shortcut) : Prop :=
  ∀ entry ∈ table.entries, ∀ index, entry.2.2 = .device index →
    entry.1.toNat = index + 1 ∧ index < deviceShortcuts ∧ index < n

theorem leads_romShortcuts : Leads 0 romShortcuts := by
  have hOther : ∀ entry ∈ romShortcuts.entries,
      entry.2.2 ∈ [Shortcut.readRom, .skipRom, .searchRom] := by
    decide
  intro entry hEntry index hDevice
  have hShortcut := hOther entry hEntry
  rw [hDevice] at hShortcut
  simp at hShortcut

theorem Leads.mono {m : Nat} (h : Leads n table) (hLe : n ≤ m) : Leads m table := by
  intro entry hEntry index hDevice
  obtain ⟨hKey, hShortcut, hIndex⟩ := h entry hEntry index hDevice
  exact ⟨hKey, hShortcut, Nat.lt_of_lt_of_le hIndex hLe⟩

theorem Leads.register (h : Leads n table) (hLt : n < deviceShortcuts) (name : String) :
    Leads (n + 1) (table.register (UInt8.ofNat (n + 1)) name (.device n)) := by
  intro entry hEntry index hDevice
  rcases MacroTable.mem_insert hEntry with rfl | hOld
  · cases hDevice
    have hByte : n + 1 < UInt8.size := Nat.lt_of_le_of_lt hLt (by decide)
    exact ⟨UInt8.toNat_ofNat_of_lt hByte, hLt, Nat.lt_succ_self n⟩
  · exact h.mono (Nat.le_succ n) entry hOld index hDevice

theorem forgetDevices_entries (table : MacroTable Shortcut) :
    (forgetDevices table).entries = table.entries.filter fun entry =>
      ∀ i ∈ List.range deviceShortcuts, entry.1 ≠ UInt8.ofNat (i + 1) := by
  have hRemoved : ∀ (indices : List Nat) (table : MacroTable Shortcut),
      (indices.foldl (fun table i => table.remove (UInt8.ofNat (i + 1))) table).entries =
        table.entries.filter fun entry => ∀ i ∈ indices, entry.1 ≠ UInt8.ofNat (i + 1) := by
    intro indices
    induction indices with
    | nil =>
      intro table
      simp
    | cons i indices ih =>
      intro table
      rw [List.foldl_cons, ih, MacroTable.remove, List.filter_filter]
      refine List.filter_congr fun entry _ => ?_
      simp only [List.forall_mem_cons, Bool.decide_and, Bool.and_comm]
  exact hRemoved _ _

theorem mem_forgetDevices {entry : UInt8 × String × Shortcut}
    (h : entry ∈ (forgetDevices table).entries) :
    entry ∈ table.entries ∧ ∀ i < deviceShortcuts, entry.1 ≠ UInt8.ofNat (i + 1) := by
  rw [forgetDevices_entries] at h
  obtain ⟨hEntry, hKeys⟩ := List.mem_filter.mp h
  exact ⟨hEntry, fun i hi => of_decide_eq_true hKeys i (List.mem_range.mpr hi)⟩

/-- Forgetting devices leaves none of their macros. -/
theorem Leads.forgetDevices (h : Leads n table) : Leads 0 (forgetDevices table) := by
  intro entry hEntry index hDevice
  obtain ⟨hOld, hKeys⟩ := mem_forgetDevices hEntry
  obtain ⟨hKey, hShortcut, -⟩ := h entry hOld index hDevice
  refine absurd ?_ (hKeys index hShortcut)
  rw [← hKey, UInt8.ofNat_toNat]

/-- The macros of devices lead to devices that are there. -/
def Session.Sound (session : Session) : Prop :=
  Leads session.devices.length session.shortcuts

theorem Session.sound_initial : Session.Sound .initial :=
  leads_romShortcuts

theorem Session.Sound.lt_length {session : Session} (h : session.Sound) {key : UInt8} {index : Nat}
    (hMacro : session.shortcuts.get? key = some (.device index)) :
    index < session.devices.length := by
  obtain ⟨entry, hEntry, hDevice⟩ := MacroTable.mem_of_get? hMacro
  exact (h entry hEntry index hDevice).2.2

/-! ## Actions on the bus -/

theorem reset_guards : Guards P (reset : Act ω β Console Error Unit) :=
  (Guards.ask _).bind fun answer => (Guards.done answer).bind fun _ => .writeLine _

theorem write_guards (bytes : List UInt8) :
    Guards P (do Act.done (← Act.ask (.oneWire (.write bytes))) : Act ω β Console Error Unit) :=
  (Guards.ask _).bind fun answer => .done answer

theorem readBytes_guards (count : Nat) :
    Guards P (readBytes count : Act ω β Console Error (List UInt8)) :=
  (Guards.ask _).bind fun answer => (Guards.done answer).bind fun _ => .pure _

theorem run_guards (actions : List Action) :
    Guards P (run actions : Act ω β Console Error Unit) := by
  refine .forM actions fun action => ?_
  cases action with
  | start => exact reset_guards
  | write value count => exact (Guards.writeLine _).bind fun _ => write_guards _
  | read count => exact (readBytes_guards _).bind fun _ => .writeLine _
  | _ => exact .pure _

/-! ## Macros -/

/-- Listing devices adds one macro after the other. -/
theorem listDevices_ends {board : Board β} {world : World Session β Console} {index : Nat}
    (roms : List Rom) (h : Leads index world.own.shortcuts) :
    Ends board (listDevices index roms) world fun
      | .ok _, w => Leads (index + roms.length) w.own.shortcuts
      | .error e, _ => e = .link := by
  induction roms generalizing index world with
  | nil => exact .pure h
  | cons rom roms ih =>
    refine .bind ((Ends.told (Terminal.writeLine_returns _)).mono fun r w hFirst => ?_)
    obtain ⟨hFirst, hOwn⟩ := hFirst
    cases r with
    | error e => exact hFirst e rfl
    | ok _ =>
      refine .bind ((Ends.told (Terminal.writeLine_returns _)).mono fun r w' hSecond => ?_)
      obtain ⟨hSecond, hOwn'⟩ := hSecond
      cases r with
      | error e => exact hSecond e rfl
      | ok _ =>
        have hHere : Leads index w'.own.shortcuts := by rwa [hOwn', hOwn]
        rw [List.length_cons, ← Nat.add_assoc, Nat.add_right_comm]
        dsimp only
        split
        · next hLt => exact .bind (.modifyOwn (ih (hHere.register hLt _)))
        · exact ih (hHere.mono (Nat.le_succ index))

theorem searchRom_guards :
    Guards Session.Sound (searchRom : Act Session β Console Error Unit) := by
  refine (Guards.ask _).bind fun answer => (Guards.done answer).bind fun found => ?_
  intro board world hSound
  have hForgotten : Leads 0 (forgetDevices world.own.shortcuts) := Leads.forgetDevices hSound
  refine .bind (.modifyOwn (.bind ((Ends.told (Terminal.writeLine_returns _)).mono
    fun r w hTold => ?_)))
  obtain ⟨hTold, hOwn⟩ := hTold
  cases r with
  | error e =>
    cases hTold e rfl
    exact ⟨nofun, fun h => absurd rfl h⟩
  | ok _ =>
    have hNone : Leads 0 w.own.shortcuts := by rwa [hOwn]
    refine .bind ((listDevices_ends found hNone).mono fun r w' hListed => ?_)
    cases r with
    | error e =>
      cases hListed
      exact ⟨nofun, fun h => absurd rfl h⟩
    | ok _ =>
      rw [Nat.zero_add] at hListed
      exact .modifyOwn ⟨nofun, fun _ => hListed⟩

/-- What is true of a new session, and what a search keeps. Nothing else changes a session. -/
structure Session.Kept (K : Session → Prop) : Prop where
  initial : K .initial
  search : ∀ {β : Type}, Guards K (searchRom : Act Session β Console Error Unit)

theorem Session.kept_sound : Kept Sound :=
  ⟨sound_initial, searchRom_guards⟩

/-- A search is guarded whatever is true of the session. -/
theorem Session.kept_true : Kept fun _ => True := by
  have hList : ∀ {β : Type} (roms : List Rom) (index : Nat), Guards (fun _ => True)
      (listDevices index roms : Act Session β Console Error Unit) := by
    intro β roms
    induction roms with
    | nil => exact fun index => .pure _
    | cons rom roms ih =>
      refine fun index => (Guards.writeLine _).bind fun _ => (Guards.writeLine _).bind fun _ => ?_
      exact .ite (.bind (.modifyOwn fun _ _ => trivial) fun _ => ih _) (ih _)
  refine ⟨trivial, (Guards.ask _).bind fun answer => (Guards.done answer).bind fun found => ?_⟩
  refine .bind (.modifyOwn fun _ _ => trivial) fun _ => (Guards.writeLine _).bind fun _ => ?_
  exact (hList found 0).bind fun _ => .modifyOwn fun _ _ => trivial

theorem runShortcut_guards {K : Session → Prop} (h : Session.Kept K) (key : UInt8) :
    Guards K (runShortcut key : Act Session β Console Error Unit) := by
  refine .own_bind fun session _ => (Guards.resolve _ _).bind fun action? => ?_
  cases action? with
  | none => exact .pure _
  | some action =>
    cases action with
    | readRom =>
      refine reset_guards.bind fun _ => (Guards.ask _).bind fun answer => ?_
      refine (Guards.done answer).bind fun _ => (readBytes_guards 8).bind fun _ => ?_
      exact (Guards.writeLine _).bind fun _ => .writeLine _
    | skipRom => exact (Guards.writeLine _).bind fun _ => write_guards _
    | searchRom => exact h.search
    | device index =>
      refine .own_bind fun session _ => ?_
      cases session.devices[index]? with
      | none => exact .pure _
      | some rom => exact (Guards.writeLine _).bind fun _ => write_guards _

end OneWire

end BusBench
