import BusBench.Board.Recording
import BusBench.Proofs.OneWire.DeviceMacros
import BusBench.Proofs.World.Listening
import BusBench.Proofs.World.Showing

/-!
# What the macros of devices are named for

A macro of a device has two sides: the name that the menu shows, which is made from a code, and the
index by which the device is found when the macro is run. The names are renewed while a search is
being listed, the list of devices only after it. A listing may be broken off by the terminal in
between, and then the names are those of one search and the devices those of another.

* `macrosOf`: the table in which these devices have their macros.
* `lookout`: a monitor that knows the searches of the bus.
* `Command.searches`: what one command does to names and devices, however it ends.
* `History`: the sessions that there can be, with the searches that led there.
* `macros_follow_searches`: what the menu shows and what the macros write.
-/

namespace BusBench

/-! ## Entries in their places -/

namespace MacroTable

variable {α : Type} {key : UInt8} {name : String} {action : α}

theorem eq_of_entries {table table' : MacroTable α} (h : table.entries = table'.entries) :
    table = table' := by
  cases table
  cases table'
  exact congrArg MacroTable.mk h

/-- An entry goes between those with smaller numbers and those with greater ones. -/
theorem insert_between {front back : List (UInt8 × String × α)}
    (hFront : ∀ entry ∈ front, entry.1 < key) (hBack : ∀ entry ∈ back, key < entry.1) :
    insert key name action (front ++ back) = front ++ (key, name, action) :: back := by
  induction front with
  | nil =>
    cases back with
    | nil => rfl
    | cons entry back =>
      have hFirst : key < entry.1 := hBack entry List.mem_cons_self
      rw [List.nil_append, List.nil_append, insert, if_pos hFirst]
  | cons entry front ih =>
    obtain ⟨hFirst, hRest⟩ := List.forall_mem_cons.mp hFront
    have hNe : key ≠ entry.1 := (UInt8.ne_of_lt hFirst).symm
    rw [List.cons_append, insert, if_neg (UInt8.lt_asymm hFirst), if_neg hNe, ih hRest]
    rfl

theorem get?_between {front back : List (UInt8 × String × α)}
    (hFront : ∀ entry ∈ front, entry.1 < key) :
    (MacroTable.mk (front ++ (key, name, action) :: back)).get? key = some action := by
  have hFound : (front ++ (key, name, action) :: back).find? (fun entry => entry.1 = key) =
      some (key, name, action) := by
    rw [List.find?_eq_some_iff_append]
    refine ⟨decide_eq_true rfl, front, back, rfl, fun entry hEntry => ?_⟩
    have hNe : entry.1 ≠ key := UInt8.ne_of_lt (hFront entry hEntry)
    rw [decide_eq_false hNe, Bool.not_false]
  rw [get?, hFound]
  rfl

end MacroTable

namespace OneWire

open Act (Ends Obeys Stays)

variable {ω β τ : Type} {roms : List Rom} {rom : Rom} {index : Nat}

/-! ## Tables of devices -/

/-- The entry of the device of an index. -/
def deviceEntry (index : Nat) (rom : Rom) : UInt8 × String × Shortcut :=
  (UInt8.ofNat (index + 1), shortcutName rom, .device index)

/-- The table in which these devices have their macros. -/
def macrosOf (roms : List Rom) : MacroTable Shortcut :=
  ⟨roms.mapIdx deviceEntry ++ romShortcuts.entries⟩

theorem key_of_lt (h : index < deviceShortcuts) : (UInt8.ofNat (index + 1)).toNat = index + 1 := by
  have hByte : index + 1 < UInt8.size := Nat.lt_of_le_of_lt h (by decide)
  exact UInt8.toNat_ofNat_of_lt hByte

theorem key_ne_zero (h : index < deviceShortcuts) : UInt8.ofNat (index + 1) ≠ 0 := by
  intro hZero
  have hKey := key_of_lt h
  rw [hZero] at hKey
  exact absurd hKey (Nat.succ_ne_zero index).symm

theorem exists_of_mem_devices {entry : UInt8 × String × Shortcut}
    (h : entry ∈ roms.mapIdx deviceEntry) : ∃ i < roms.length, entry.1 = UInt8.ofNat (i + 1) := by
  obtain ⟨i, hi, rfl⟩ := List.mem_mapIdx.mp h
  exact ⟨i, hi, rfl⟩

theorem key_lt_of_mem_devices (hLength : roms.length ≤ index) (hIndex : index < deviceShortcuts) :
    ∀ entry ∈ roms.mapIdx deviceEntry, entry.1 < UInt8.ofNat (index + 1) := by
  intro entry hEntry
  obtain ⟨i, hi, hKey⟩ := exists_of_mem_devices hEntry
  rw [hKey, UInt8.lt_iff_toNat_lt, key_of_lt hIndex, key_of_lt (by omega)]
  omega

/-- The macros of devices come before all others. -/
theorem key_lt_of_mem_romShortcuts (hIndex : index < deviceShortcuts) :
    ∀ entry ∈ romShortcuts.entries, UInt8.ofNat (index + 1) < entry.1 := by
  intro entry hEntry
  have hOthers : ∀ entry ∈ romShortcuts.entries, deviceShortcuts < entry.1.toNat := by decide
  have hOther := hOthers entry hEntry
  rw [UInt8.lt_iff_toNat_lt, key_of_lt hIndex]
  omega

theorem register_macrosOf (h : roms.length < deviceShortcuts) (rom : Rom) :
    (macrosOf roms).register (UInt8.ofNat (roms.length + 1)) (shortcutName rom)
      (.device roms.length) = macrosOf (roms ++ [rom]) := by
  have hFront := key_lt_of_mem_devices (Nat.le_refl roms.length) h
  have hInsert : MacroTable.insert (UInt8.ofNat (roms.length + 1)) (shortcutName rom)
      (Shortcut.device roms.length) (roms.mapIdx deviceEntry ++ romShortcuts.entries) = _ :=
    MacroTable.insert_between hFront (key_lt_of_mem_romShortcuts h)
  rw [MacroTable.register, macrosOf, hInsert, macrosOf, List.mapIdx_concat, List.append_assoc]
  rfl

theorem get?_macrosOf (h : index < roms.length) (hIndex : index < deviceShortcuts) :
    (macrosOf roms).get? (UInt8.ofNat (index + 1)) = some (.device index) := by
  have hSplit : roms = roms.take index ++ roms[index] :: roms.drop (index + 1) := by
    rw [List.getElem_cons_drop, List.take_append_drop]
  have hLength : (roms.take index).length = index := List.length_take_of_le (Nat.le_of_lt h)
  rw [macrosOf, hSplit, List.mapIdx_append, List.mapIdx_cons, hLength, Nat.zero_add,
    List.append_assoc, List.cons_append]
  exact MacroTable.get?_between (key_lt_of_mem_devices (Nat.le_of_eq hLength) hIndex)

theorem forgetDevices_macrosOf (h : roms.length ≤ deviceShortcuts) :
    forgetDevices (macrosOf roms) = macrosOf [] := by
  apply MacroTable.eq_of_entries
  have hDevices : (roms.mapIdx deviceEntry).filter (fun entry =>
      ∀ i ∈ List.range deviceShortcuts, entry.1 ≠ UInt8.ofNat (i + 1)) = [] := by
    rw [List.filter_eq_nil_iff]
    intro entry hEntry hKept
    obtain ⟨i, hi, hKey⟩ := exists_of_mem_devices hEntry
    have hMem : i ∈ List.range deviceShortcuts := List.mem_range.mpr (Nat.lt_of_lt_of_le hi h)
    exact of_decide_eq_true hKept i hMem hKey
  have hOthers : romShortcuts.entries.filter (fun entry =>
      ∀ i ∈ List.range deviceShortcuts, entry.1 ≠ UInt8.ofNat (i + 1)) =
        romShortcuts.entries := by
    rw [List.filter_eq_self]
    intro entry hEntry
    refine decide_eq_true fun i hi => ?_
    have hLt := key_lt_of_mem_romShortcuts (List.mem_range.mp hi) entry hEntry
    exact (UInt8.ne_of_lt hLt).symm
  rw [forgetDevices_entries, macrosOf, List.filter_append, hDevices, hOthers]
  rfl

/-! ## Searches of the bus -/

/-- The devices that were found, if the bus was searched with success. -/
def found? : Exchange → Option (List Rom)
  | ⟨.oneWire .search, answer⟩ => (show Except BusError (List Rom) from answer).toOption
  | _ => none

/-- Objects to nothing, and keeps what the searches of the bus found, the newest first. -/
def lookout : Monitor (List (List Rom)) where
  step exchange searches := some ((found? exchange).toList ++ searches)

theorem lookout_run (trace : List Exchange) (searches : List (List Rom)) :
    lookout.run trace searches = some ((trace.filterMap found?).reverse ++ searches) := by
  induction trace generalizing searches with
  | nil => rfl
  | cons exchange trace ih =>
    have hStep : lookout.step exchange searches = some ((found? exchange).toList ++ searches) := rfl
    rw [Monitor.run, hStep, Option.bind_some, ih]
    cases hFound : found? exchange with
    | none => rw [List.filterMap_cons_none hFound, Option.toList_none, List.nil_append]
    | some found =>
      rw [List.filterMap_cons_some hFound, List.reverse_cons, Option.toList_some,
        List.append_assoc]

variable {P : ω → Prop} {earlier : List (List Rom)} [Terminal τ]

theorem reset_quiet : Stays lookout P earlier (reset : Act ω β τ Error Unit) :=
  (Stays.ask fun _ => rfl).bind fun _ => (Stays.ofExcept _).bind fun _ => .dialogue _

omit [Terminal τ] in
theorem write_quiet (bytes : List UInt8) : Stays lookout P earlier
    (do Act.done (← Act.ask (.oneWire (.write bytes))) : Act ω β τ Error Unit) :=
  (Stays.ask fun _ => rfl).bind fun _ => .ofExcept _

omit [Terminal τ] in
theorem readBytes_quiet (count : Nat) :
    Stays lookout P earlier (readBytes count : Act ω β τ Error (List UInt8)) :=
  (Stays.ask fun _ => rfl).bind fun _ => (Stays.ofExcept _).bind fun _ => .pure _

theorem run_quiet (actions : List Action) :
    Stays lookout P earlier (run actions : Act ω β τ Error Unit) := by
  refine .forM actions fun action => ?_
  cases action with
  | start => exact reset_quiet
  | write value count => exact (Stays.dialogue _).bind fun _ => write_quiet _
  | read count => exact (readBytes_quiet _).bind fun _ => .dialogue _
  | _ => exact .pure _

theorem readRom_quiet : Stays lookout P earlier (readRom : Act ω β τ Error Unit) := by
  refine reset_quiet.bind fun _ => (Stays.ask fun _ => rfl).bind fun _ => ?_
  refine (Stays.ofExcept _).bind fun _ => (readBytes_quiet 8).bind fun _ => ?_
  exact (Stays.dialogue _).bind fun _ => .dialogue _

theorem skipRom_quiet : Stays lookout P earlier (skipRom : Act ω β τ Error Unit) :=
  (Stays.dialogue _).bind fun _ => write_quiet _

theorem addressDevice_quiet {P : Session → Prop} (index : Nat) :
    Stays lookout P earlier (addressDevice index : Act Session β τ Error Unit) := by
  refine .own_bind fun session _ => ?_
  cases session.devices[index]? with
  | none => exact .pure _
  | some rom => exact (Stays.dialogue _).bind fun _ => write_quiet _

/-- A listing gives devices their macros one after the other. Where it is broken off, the others
have none. -/
theorem listDevices_names (before : Session) (listed roms : List Rom) {session : Session}
    (hTable : session.shortcuts = macrosOf (listed.take deviceShortcuts))
    (hDevices : session.devices = before.devices) :
    Obeys lookout (listDevices listed.length roms : Act Session β τ Error Unit) session earlier
      fun r after searches => searches = earlier ∧ after.devices = before.devices ∧
        ∃ named, named <+: (listed ++ roms).take deviceShortcuts ∧
          (r.isOk = true → named = (listed ++ roms).take deviceShortcuts) ∧
          after.shortcuts = macrosOf named := by
  induction roms generalizing listed session with
  | nil =>
    rw [List.append_nil]
    exact .pure ⟨rfl, hDevices, _, List.prefix_rfl, fun _ => rfl, hTable⟩
  | cons rom roms ih =>
    have hPrefix : listed.take deviceShortcuts <+:
        (listed ++ rom :: roms).take deviceShortcuts := by
      rw [List.take_append]
      exact List.prefix_append _ _
    have hSplit : listed ++ rom :: roms = (listed ++ [rom]) ++ roms := by
      rw [List.append_assoc, List.singleton_append]
    have hLength : listed.length + 1 = (listed ++ [rom]).length := by
      rw [List.length_append, List.length_singleton]
    have hLine (text : String) : Stays lookout (· = session) earlier
        (Act.writeLine text : Act Session β τ Error Unit) := .dialogue _
    refine (hLine _).obeys_bind rfl ?_ ?_
    swap
    · rintro e x rfl
      exact ⟨rfl, hDevices, _, hPrefix, nofun, hTable⟩
    rintro - x rfl
    refine (hLine _).obeys_bind rfl ?_ ?_
    swap
    · rintro e x rfl
      exact ⟨rfl, hDevices, _, hPrefix, nofun, hTable⟩
    rintro - x rfl
    rw [hSplit]
    dsimp only
    split
    · next hLt =>
      have hTake : listed.take deviceShortcuts = listed :=
        List.take_of_length_le (Nat.le_of_lt hLt)
      have hTake' : (listed ++ [rom]).take deviceShortcuts = listed ++ [rom] :=
        List.take_of_length_le (by rw [← hLength]; exact hLt)
      have hNext : x.shortcuts.register (UInt8.ofNat (listed.length + 1)) (shortcutName rom)
          (.device listed.length) = macrosOf ((listed ++ [rom]).take deviceShortcuts) := by
        rw [hTake', hTable, hTake, register_macrosOf hLt]
      refine .bind (.modifyOwn ?_)
      rw [hLength] at hNext ⊢
      exact ih (listed ++ [rom]) hNext hDevices
    · next hNot =>
      have hTake' : (listed ++ [rom]).take deviceShortcuts = listed.take deviceShortcuts :=
        List.take_append_of_le_length (Nat.le_of_not_lt hNot)
      rw [hLength]
      exact ih (listed ++ [rom]) (hTake'.symm ▸ hTable) hDevices

/-! ## Commands of the mode -/

/-- What a search that found these devices makes of names and devices. -/
structure Renewed (before : Session) (found : List Rom) (complete : Bool) (after : Session) :
    Prop where
  /-- The names come first, and only a listing that was broken off leaves some of them out. -/
  shortcuts : ∃ named, named <+: found.take deviceShortcuts ∧
    (complete = true → named = found.take deviceShortcuts) ∧ after.shortcuts = macrosOf named
  /-- The devices come last. -/
  devices : after.devices = if complete then found else before.devices

/-- The bus was not searched, or the search failed, and nothing has changed; or it was searched once
and all is renewed as far as the program came. -/
def Searches (before : Session) (r : Except Error Unit) (after : Session)
    (searches : List (List Rom)) : Prop :=
  (searches = [] ∧ after = before) ∨
    ∃ found, searches = [found] ∧ Renewed before found r.isOk after

theorem Renewed.broken {before after : Session} {found named : List Rom}
    (hPrefix : named <+: found.take deviceShortcuts) (hTable : after.shortcuts = macrosOf named)
    (hDevices : after.devices = before.devices) : Renewed before found false after :=
  ⟨⟨named, hPrefix, nofun, hTable⟩, hDevices⟩

theorem searchRom_searches {session : Session} {named : List Rom}
    (hTable : session.shortcuts = macrosOf named) (hLength : named.length ≤ deviceShortcuts) :
    Obeys lookout (searchRom : Act Session β τ Error Unit) session [] (Searches session) := by
  refine .bind (.ask fun answer => ?_)
  cases answer with
  | error reason => exact ⟨[], rfl, .bind (.throw (.inl ⟨rfl, rfl⟩))⟩
  | ok found =>
    refine ⟨[found], rfl, .bind (.pure (.bind (.modifyOwn ?_)))⟩
    generalize hSession : { session with shortcuts := forgetDevices session.shortcuts } = forgotten
    have hForgotten : forgotten.shortcuts = macrosOf [] := by
      rw [← hSession, hTable, forgetDevices_macrosOf hLength]
    have hSame : forgotten.devices = session.devices := by rw [← hSession]
    refine (show Stays lookout (· = forgotten) [found] (Act.writeLine "Macro    1WIRE address" :
      Act Session β τ Error Unit) from .dialogue _).obeys_bind rfl ?_ ?_
    · rintro - x rfl
      refine .bind ((listDevices_names session [] found hForgotten hSame).mono
        fun r after searches hListed => ?_)
      obtain ⟨rfl, hDevices, named, hNamed, hComplete, hTable⟩ := hListed
      rw [List.nil_append] at hNamed hComplete
      cases r with
      | error e => exact .inr ⟨found, rfl, .broken hNamed hTable hDevices⟩
      | ok _ =>
        exact .modifyOwn (.inr ⟨found, rfl, ⟨named, hNamed, fun _ => hComplete rfl, hTable⟩, rfl⟩)
    · rintro e x rfl
      exact .inr ⟨found, rfl, .broken List.nil_prefix hForgotten hSame⟩

/-- What can be run in the mode. -/
inductive Command where
  | sequence (actions : List Action)
  | shortcut (key : UInt8)

def Command.run : Command → Act Session β τ Error Unit
  | sequence actions => OneWire.run actions
  | shortcut key => runShortcut key

omit [Terminal τ] in
theorem searches_of_quiet {program : Act Session β τ Error Unit} {session : Session}
    (h : Stays lookout (· = session) [] program) :
    Obeys lookout program session [] (Searches session) :=
  (h session rfl).mono fun _ _ _ hQuiet => .inl ⟨hQuiet.2, hQuiet.1⟩

/-- However a command ends, it has searched the bus at most once, and only a search changes the
session. -/
theorem Command.searches (command : Command) {session : Session} {named : List Rom}
    (hTable : session.shortcuts = macrosOf named) (hLength : named.length ≤ deviceShortcuts) :
    Obeys lookout (command.run : Act Session β τ Error Unit) session [] (Searches session) := by
  cases command with
  | sequence actions => exact searches_of_quiet (run_quiet actions)
  | shortcut key =>
    refine .bind (.own (.bind (.dialogue fun peer => ?_)))
    generalize ((session.shortcuts.resolve key).run ⟨peer, []⟩).1 = result
    rcases result with e | - | action
    · exact .inl ⟨rfl, rfl⟩
    · exact searches_of_quiet (.pure ())
    · cases action with
      | readRom => exact searches_of_quiet readRom_quiet
      | skipRom => exact searches_of_quiet skipRom_quiet
      | searchRom => exact searchRom_searches hTable hLength
      | device index => exact searches_of_quiet (addressDevice_quiet index)

/-! ## Histories -/

/-- A search of the bus, and whether the command that made it came to its end. -/
structure Search where
  found : List Rom
  complete : Bool
  deriving DecidableEq

/-- The searches of a command that ended with a result, the newest first. -/
def searchesIn (trace : List Exchange) (r : Except Error Unit) : List Search :=
  (trace.filterMap found?).reverse.map fun found => ⟨found, r.isOk⟩

/-- The sessions that there can be, with the searches that led there, the newest first. Between two
commands anything may happen to the board and to the terminal. -/
inductive History : List Search → Session → Prop
  | entered : History [] .initial
  | command {β τ : Type} [Terminal τ] (board : Board β) (command : Command)
    {searches : List Search} {before after : World Session β τ} {r : Except Error Unit}
    {trace : List Exchange} (h : History searches before.own)
    (hRun : ((command.run : Act Session β τ Error Unit) board).run before = (r, after))
    (hTrace : exchanges after.events = exchanges before.events ++ trace) :
    History (searchesIn trace r ++ searches) after.own

/-- What the latest search found. -/
def latest (searches : List Search) : List Rom :=
  searches.head?.elim [] Search.found

/-- What was found by the latest of those searches that came to their end. -/
def finished (searches : List Search) : List Rom :=
  (searches.find? (·.complete)).elim [] Search.found

/-- The latest search, if there was one, came to its end. -/
def Unbroken (searches : List Search) : Prop :=
  ∀ search ∈ searches.head?, search.complete = true

instance (searches : List Search) : Decidable (Unbroken searches) :=
  inferInstanceAs (Decidable (∀ search ∈ searches.head?, search.complete = true))

theorem Unbroken.finished_eq {searches : List Search} (h : Unbroken searches) :
    finished searches = latest searches := by
  cases searches with
  | nil => rfl
  | cons search searches =>
    have hComplete : search.complete = true := h search rfl
    rw [finished, latest, List.find?_cons_of_pos hComplete]
    rfl

/-- The names are those of the latest search, as far as it came, and the devices those of the latest
search that came to its end. -/
structure Follows (searches : List Search) (named : List Rom) (session : Session) : Prop where
  listed : named <+: (latest searches).take deviceShortcuts
  all : Unbroken searches → named = (latest searches).take deviceShortcuts
  shortcuts : session.shortcuts = macrosOf named
  devices : session.devices = finished searches

theorem Follows.length_le {searches : List Search} {named : List Rom} {session : Session}
    (h : Follows searches named session) : named.length ≤ deviceShortcuts :=
  Nat.le_trans h.listed.length_le (List.length_take_le _ _)

theorem History.follows {searches : List Search} {session : Session}
    (h : History searches session) : ∃ named, Follows searches named session := by
  induction h with
  | entered => exact ⟨[], List.nil_prefix, fun _ => rfl, rfl, rfl⟩
  | @command β τ _ board command searches before after r trace h hRun hTrace ih =>
    obtain ⟨named, hFollows⟩ := ih
    obtain ⟨trace', answers, hTrace', -, hLookout, hSearches⟩ :=
      command.searches hFollows.shortcuts hFollows.length_le board before rfl
    rw [Act.after, hRun, hTrace] at hTrace'
    rw [Act.after, hRun] at hSearches
    obtain rfl := List.append_cancel_left hTrace'
    rw [lookout_run, List.append_nil, Option.some.injEq] at hLookout
    rw [searchesIn, hLookout]
    rcases hSearches with ⟨rfl, hSame⟩ | ⟨found, rfl, hRenewed⟩
    · exact ⟨named, hSame ▸ hFollows⟩
    · obtain ⟨named', hPrefix, hAll, hTable⟩ := hRenewed.shortcuts
      refine ⟨named', hPrefix, fun hUnbroken => hAll (hUnbroken _ rfl), hTable, ?_⟩
      have hDevices := hRenewed.devices
      cases hComplete : r.isOk with
      | true =>
        rw [hDevices, hComplete]
        rfl
      | false =>
        rw [hDevices, hComplete]
        exact hFollows.devices

/-! ## What the macros show and write -/

/-- Asked for its macros, the mode shows these lines, unless the terminal fails, and asks nothing of
the board. -/
def Session.Lists (session : Session) (lines : List String) : Prop :=
  ∀ {β τ : Type} [Terminal τ] {spell : String → List PeerEvent}, Terminal.Spells τ spell →
    ∀ (board : Board β) (world : World Session β τ), world.own = session →
      Ends board (runShortcut 0) world fun r after => r = .ok () →
        exchanges after.events = exchanges world.events ∧
          peerEvents after.events = peerEvents world.events ++ spelled spell lines

/-- The lines of the menu in which these devices have their macros. -/
def menuOf (roms : List Rom) : List String :=
  "0. Macro menu" :: (macrosOf roms).entries.map MacroTable.entryLine

/-- The macro of an index shows the code of a device and then writes it to the bus. Where the code
cannot be shown it is not written, and where there is no device nothing happens at all. -/
def Session.Addresses (session : Session) (index : Nat) (rom? : Option Rom) : Prop :=
  ∀ {β τ : Type} [Terminal τ] (board : Board β) (world : World Session β τ), world.own = session →
    Ends board (runShortcut (UInt8.ofNat (index + 1))) world fun r after =>
      match rom? with
      | none => r = .ok () ∧ after = world
      | some rom =>
        let line := "ADDRESS MACRO " ++ Text.decimal (index + 1) ++ ": " ++ romText rom
        after.own = session ∧
          match ((Terminal.writeLine line : Dialogue τ Error Unit).run ⟨world.peer, []⟩).1 with
          | .error e => r = .error e ∧ exchanges after.events = exchanges world.events
          | .ok _ => ∃ answer : Except BusError Unit, r = answer.mapError .bus ∧
              exchanges after.events =
                exchanges world.events ++ [⟨.oneWire (.write rom.bytes), answer⟩]

theorem writeLines_records {α : Type} {spell : String → List PeerEvent}
    (hSpells : Terminal.Spells τ spell) (line : α → String) (xs : List α) :
    Dialogue.Records (xs.forM fun x => (Terminal.writeLine (line x) : Dialogue τ Error Unit))
      fun _ new => new = (spelled spell (xs.map line)).reverse := by
  induction xs with
  | nil => exact .pure rfl
  | cons x xs ih =>
    refine .bind ((hSpells (line x ++ "\n")).mono fun _ first hFirst => ?_)
    refine ih.mono fun _ rest hRest => ?_
    rw [hFirst, hRest, ← List.reverse_append]
    rfl

theorem Session.lists {session : Session} (h : session.shortcuts = macrosOf roms) :
    session.Lists (menuOf roms) := by
  intro β τ _ spell hSpells board world hOwn
  have hMenu : Dialogue.Records (world.own.shortcuts.resolve 0 : Dialogue τ Error (Option Shortcut))
      fun action? new => action? = none ∧ new = (spelled spell (menuOf roms)).reverse := by
    rw [MacroTable.resolve, if_pos rfl, hOwn, h]
    refine .bind ((hSpells "0. Macro menu\n").mono fun _ first hFirst => ?_)
    refine .bind ((writeLines_records hSpells MacroTable.entryLine (macrosOf roms).entries).mono
      fun _ rest hRest => .pure ⟨rfl, ?_⟩)
    rw [hFirst, hRest, List.nil_append, ← List.reverse_append]
    rfl
  have hTalk : Act.Records
      (Act.dialogue (world.own.shortcuts.resolve 0) : Act Session β τ Error (Option Shortcut))
      fun action? new => action? = none ∧ exchanges new = [] ∧
        peerEvents new = spelled spell (menuOf roms) := by
    refine .dialogue (hMenu.mono fun action? new hNew => ?_)
    rw [exchanges_map_peer, peerEvents_map, hNew.2, List.reverse_reverse]
    exact ⟨hNew.1, rfl, rfl⟩
  refine .bind (.own (.bind ((Ends.of_records board hTalk).mono fun r w hTold => ?_)))
  cases r with
  | error e => exact nofun
  | ok action? =>
    obtain ⟨new, hNew, rfl, hExchanges, hLines⟩ := hTold action? rfl
    refine .pure fun _ => ?_
    rw [hNew, exchanges_append, peerEvents_append, hExchanges, hLines, List.append_nil]
    exact ⟨rfl, rfl⟩

/-- A line is shown, and then bytes are written to the bus. -/
theorem writeShown_ends (board : Board β) (world : World ω β τ) (line : String)
    (bytes : List UInt8) :
    Ends board (do
      Act.writeLine line
      Act.done (← Act.ask (.oneWire (.write bytes))) : Act ω β τ Error Unit) world fun r after =>
        after.own = world.own ∧
          match ((Terminal.writeLine line : Dialogue τ Error Unit).run ⟨world.peer, []⟩).1 with
          | .error e => r = .error e ∧ exchanges after.events = exchanges world.events
          | .ok _ => ∃ answer : Except BusError Unit, r = answer.mapError .bus ∧
              exchanges after.events =
                exchanges world.events ++ [⟨.oneWire (.write bytes), answer⟩] := by
  have hTold : Ends board (Act.writeLine line : Act ω β τ Error Unit) world fun r w =>
      r = ((Terminal.writeLine line : Dialogue τ Error Unit).run ⟨world.peer, []⟩).1 ∧
        w.own = world.own ∧ exchanges w.events = exchanges world.events :=
    ⟨rfl, rfl, exchanges_peer_append _ _⟩
  refine .bind (hTold.mono fun r w h => ?_)
  obtain ⟨hResult, hOwn, hExchanges⟩ := h
  rw [← hResult]
  cases r with
  | error e => exact ⟨hOwn, rfl, hExchanges⟩
  | ok _ =>
    refine .bind (.ask ?_)
    generalize board.answer (.oneWire (.write bytes)) w.board = answered
    have hEvents := exchanges_cons_board ⟨.oneWire (.write bytes), answered.1⟩ w.events
    rw [hExchanges] at hEvents
    rcases answered with ⟨reason | _, s⟩
    · exact .throw ⟨hOwn, .error reason, rfl, hEvents⟩
    · exact .pure ⟨hOwn, .ok (), rfl, hEvents⟩

theorem Session.addresses {session : Session} (h : session.shortcuts = macrosOf roms)
    (hIndex : index < roms.length) (hLength : roms.length ≤ deviceShortcuts) :
    session.Addresses index session.devices[index]? := by
  intro β τ _ board world hOwn
  have hKey : index < deviceShortcuts := Nat.lt_of_lt_of_le hIndex hLength
  have hResolve : (world.own.shortcuts.resolve (UInt8.ofNat (index + 1)) :
      Dialogue τ Error (Option Shortcut)) = pure (some (.device index)) := by
    rw [hOwn, h, MacroTable.resolve, if_neg (key_ne_zero hKey), get?_macrosOf hIndex hKey]
  have hRun : ((Act.dialogue (world.own.shortcuts.resolve (UInt8.ofNat (index + 1))) :
      Act Session β τ Error (Option Shortcut)) board).run world =
        (.ok (some (.device index)), world) := by
    rw [hResolve]
    rfl
  refine .bind (.own (.bind_run hRun (.bind (.own ?_))))
  rw [← hOwn]
  dsimp only
  cases world.own.devices[index]? with
  | none => exact .pure ⟨rfl, rfl⟩
  | some rom => exact writeShown_ends board world _ rom.bytes

/-- After any commands in the mode, however they ended, the table holds the macros of the mode and
those of devices. These are named for what the latest search found, up to the fiftieth device and as
far as the search came. A macro writes the code with its number in what the latest search found that
came to its end; this is the code that the menu shows if the latest search came to its end, and then
every device of the first fifty has its macro. -/
theorem macros_follow_searches {searches : List Search} {session : Session}
    (h : History searches session) :
    ∃ named, named <+: (latest searches).take deviceShortcuts ∧
      (Unbroken searches → named = (latest searches).take deviceShortcuts ∧
        finished searches = latest searches) ∧
      session.shortcuts = macrosOf named ∧ session.Lists (menuOf named) ∧
      ∀ index < named.length, session.Addresses index (finished searches)[index]? := by
  obtain ⟨named, hFollows⟩ := h.follows
  refine ⟨named, hFollows.listed, fun hUnbroken => ?_, hFollows.shortcuts,
    Session.lists hFollows.shortcuts, fun index hIndex => ?_⟩
  · exact ⟨hFollows.all hUnbroken, hUnbroken.finished_eq⟩
  · rw [← hFollows.devices]
    exact Session.addresses hFollows.shortcuts hIndex hFollows.length_le

/-- A search that finds two devices and is listed to its end. -/
theorem macros_follow_searches_two :
    let first : Rom := .ofBytes [0x28, 1, 2, 3, 4, 5, 6, 7]
    let second : Rom := .ofBytes [0x2D, 7, 6, 5, 4, 3, 2, 1]
    ∃ session, History [⟨[first, second], true⟩] session ∧
      session.Lists (menuOf [first, second]) ∧
      session.Addresses 0 (some first) ∧ session.Addresses 1 (some second) := by
  intro first second
  let board := Recording.board "fake" {}
  let bus : Recording.State := { settings := { roms := [first, second] } }
  let before : World Session Recording.State Script := ⟨.initial, bus, {}, []⟩
  let search : Act Session Recording.State Script Error Unit := (Command.shortcut 240).run
  let after := search.after board before
  have hDone : ((search board).run before).1 = .ok () := eq_ok_of_toOption (by decide +kernel)
  have hRun : (search board).run before = (.ok (), after) := Prod.ext hDone rfl
  have hHistory := History.command board (.shortcut 240) .entered hRun (List.nil_append _).symm
  have hSearches : searchesIn (exchanges after.events) (.ok ()) ++ [] =
      [⟨[first, second], true⟩] := by decide +kernel
  rw [hSearches] at hHistory
  obtain ⟨named, -, hUnbroken, -, hLists, hAddresses⟩ := macros_follow_searches hHistory
  obtain ⟨hNamed, hFinished⟩ := hUnbroken (by decide)
  rw [hNamed] at hLists hAddresses
  rw [hFinished] at hAddresses
  exact ⟨after.own, hHistory, hLists, hAddresses 0 (by decide), hAddresses 1 (by decide)⟩

end OneWire

end BusBench
