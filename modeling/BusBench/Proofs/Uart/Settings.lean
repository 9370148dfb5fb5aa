import BusBench.Proofs.Binary.Uart
import BusBench.Proofs.Bus.Byte
import BusBench.Proofs.Uart.Forwarding

/-!
# Settings of binary UART

The speed and the format of a frame are changed by commands of their own, each of which leaves the
other alone. A command that the port refuses is as if it had not been given: the next one changes
the settings in force.

* `change?`: what a command changes.
* `Served`: a command, the settings that were asked for in its name, and its answer.
* `settings`: the settings that commands have made, by their answers.
* `settings_follow_answers`: at every moment of the engine, the port has these settings.
-/

namespace BusBench.Binary.Uart

open BusBench.Uart (Config numberedSpeeds takeUart_records)
open Act (Emits Passes Records Yields)

variable {ω β : Type} {c : UInt8} {config config' : Config}

/-! ## Changes -/

def isSpeed (command : UInt8) : Bool :=
  0x60 ≤ command.toNat ∧ command.toNat ≤ 0x6F

def isFormat (command : UInt8) : Bool :=
  0x80 ≤ command.toNat ∧ command.toNat ≤ 0x9F

theorem not_isSpeed (h : isFormat c = true) : ¬ isSpeed c = true := by
  simp only [isSpeed, isFormat, decide_eq_true_eq] at h ⊢
  omega

/-- What a command changes, if it asks for settings that are supported: there are ten speeds, and of
a frame neither open drain outputs, for which bit 4 is clear, nor an inverted receiver, for which
bit 0 is set, are supported. -/
def change? (command : UInt8) : Option (Config → Config) :=
  if isSpeed command then
    numberedSpeeds[command.toNat % 16]?.map fun baud config => { config with baud }
  else if isFormat command ∧ Byte.bit command 4 ∧ !Byte.bit command 0 then
    some (·.withFormat (command.toNat / 4 % 4) (Byte.bit command 1))
  else none

theorem change?_of_not (hSpeed : isSpeed c = false) (hFormat : isFormat c = false) :
    change? c = none := by
  simp [change?, hSpeed, hFormat]

theorem change?_of_speed (h : isSpeed c = true) :
    change? c = numberedSpeeds[c.toNat % 16]?.map fun baud config => { config with baud } := by
  rw [change?, if_pos h]

theorem command_bits (c : UInt8) (h : isFormat c = true) :
    (c &&& 0xE0 ≠ 0x80 ∨ c &&& 0x10 = 0 ∨ c &&& 0x01 ≠ 0 ↔
        ¬ (Byte.bit c 4 = true ∧ (!Byte.bit c 0) = true)) ∧
      ((c >>> 2) &&& 3).toNat = c.toNat / 4 % 4 ∧ decide (c &&& 0x02 ≠ 0) = Byte.bit c 1 := by
  refine Byte.forall_of_lt (P := fun c => isFormat c = true →
    (c &&& 0xE0 ≠ 0x80 ∨ c &&& 0x10 = 0 ∨ c &&& 0x01 ≠ 0 ↔
        ¬ (Byte.bit c 4 = true ∧ (!Byte.bit c 0) = true)) ∧
      ((c >>> 2) &&& 3).toNat = c.toNat / 4 % 4 ∧ decide (c &&& 0x02 ≠ 0) = Byte.bit c 1)
    ?_ c h
  decide +kernel

theorem change?_of_format (h : isFormat c = true) :
    (change? c).map (· config) = config.withCommandByte c := by
  obtain ⟨hRefused, hFormat, hStop⟩ := command_bits c h
  rw [change?, if_neg (not_isSpeed h), Config.withCommandByte, hFormat, hStop]
  by_cases hTaken : Byte.bit c 4 = true ∧ (!Byte.bit c 0) = true
  · rw [if_pos ⟨h, hTaken⟩, if_neg fun hNot => hRefused.mp hNot hTaken]
    rfl
  · rw [if_neg fun hAll => hTaken hAll.2, if_pos (hRefused.mpr hTaken)]
    rfl

/-- A speed is changed alone. -/
theorem baud_only (h : isSpeed c = true) {change : Config → Config}
    (hChange : change? c = some change) (config : Config) :
    change config = { config with baud := (change config).baud } := by
  rw [change?_of_speed h] at hChange
  obtain ⟨baud, -, rfl⟩ := Option.map_eq_some_iff.mp hChange
  rfl

/-- A format says everything of the settings but the speed. -/
theorem all_but_baud (h : isFormat c = true) {change : Config → Config}
    (hChange : change? c = some change) (config config' : Config) :
    change config = { change config' with baud := config.baud } := by
  rw [change?, if_neg (not_isSpeed h)] at hChange
  split at hChange
  · cases hChange
    rfl
  · cases hChange

/-! ## Commands and their answers -/

/-- A command that the engine served. -/
structure Served where
  command : UInt8
  /-- The settings that the port was asked to take, and whether it took them. -/
  asked : List (Config × Bool) := []
  /-- What was sent before the next command was awaited or bytes of the device were passed on. -/
  answer : List UInt8 := []
  deriving DecidableEq, Repr

namespace Served

/-- The settings after a command, which tells by its answer whether they were changed. -/
def settings (config : Config) (served : Served) : Config :=
  if served.answer = [1] then (change? served.command).getD id config else config

/-- What becomes of a command while the port has these settings. A command that changes them is
answered once, by whether the port took the change. -/
def Accords (config : Config) (served : Served) : Prop :=
  match change? served.command with
  | some change => ∃ taken, served.asked = [(change config, taken)] ∧ served.answer = [status taken]
  | none => served.asked = [] ∧
    (isSpeed served.command ∨ isFormat served.command → served.answer = [0])

end Served

/-- The settings that commands make of others. -/
def settings (config : Config) (served : List Served) : Config :=
  served.foldl Served.settings config

/-- Every command accords with the settings that those before it have made. -/
def Orderly (config : Config) (served : List Served) : Prop :=
  ∀ earlier command later, served = earlier ++ command :: later →
    command.Accords (settings config earlier)

theorem Orderly.nil : Orderly config [] := by
  intro earlier command later hEmpty
  cases earlier <;> cases hEmpty

theorem Orderly.singleton {command : Served} (h : command.Accords config) :
    Orderly config [command] := by
  intro earlier command' later hSplit
  obtain ⟨rfl, hRest⟩ | ⟨_, rfl, hRest⟩ := List.cons_eq_append_iff.mp hSplit
  · cases hRest
    exact h
  · cases List.append_eq_nil_iff.mp hRest.symm |>.2

theorem Orderly.append {served more : List Served} (h : Orderly config served)
    (hMore : Orderly (settings config served) more) : Orderly config (served ++ more) := by
  intro earlier command later hSplit
  rcases List.append_eq_append_iff.mp hSplit with ⟨between, rfl, hRest⟩ | ⟨between, rfl, hRest⟩
  · have hAccords := hMore between command later hRest
    rw [settings, List.foldl_append]
    exact hAccords
  · cases between with
    | nil =>
      have hAccords := hMore [] command later hRest.symm
      rw [List.append_nil] at hAccords
      exact hAccords
    | cons first between =>
      obtain ⟨rfl, -⟩ := List.cons.inj hRest
      exact h earlier command between rfl

/-! ## Settings and commands among events -/

/-- The settings that the port took in an event. -/
def taken? : Event → Option Config
  | .board ⟨.uart (.claim _ _ config), answer⟩ => if isClaimed answer then some config else none
  | .board ⟨.uart (.configure config), answer⟩ =>
    if (answer : Except BusError Unit).isOk then some config else none
  | _ => none

/-- The settings in force: those that the port took last among events, of which the newest stands
first. -/
def inForce? (events : List Event) : Option Config :=
  events.findSome? taken?

/-- What the engine is at. -/
inductive Phase where
  | apart
  /-- The next byte to be heard is a command. -/
  | awaiting
  /-- What is sent answers a command. -/
  | answering
  deriving DecidableEq, Repr

/-- The commands that the engine served, the newest first. -/
structure Register where
  phase : Phase := .apart
  served : List Served := []
  deriving DecidableEq, Repr

namespace Register

/-- Notes something down for the newest command, while that is being served. -/
def note (change : Served → Served) (register : Register) : Register :=
  match register.phase, register.served with
  | .answering, command :: served => { register with served := change command :: served }
  | _, _ => register

def see : Event → Register → Register
  | .reached (.command .uart), register => { register with phase := .awaiting }
  | .peer (.received b), register =>
    if register.phase = .awaiting then ⟨.answering, ⟨b, [], []⟩ :: register.served⟩ else register
  | .peer (.sent b), register => register.note fun s => { s with answer := s.answer ++ [b] }
  | .board ⟨.uart (.configure config), answer⟩, register =>
    register.note fun s => { s with asked := s.asked ++ [(config, Except.isOk answer)] }
  -- From here on bytes are passed on that the device has sent.
  | .board ⟨.uart .available, _⟩, register => { register with phase := .apart }
  | _, register => register

/-- The observer that notes down commands, what is asked in their names, and their answers. -/
def observer : Observer Register where
  start := {}
  see := see
  see_idle _ := rfl

end Register

/-- The commands that were served among events, of which the newest stands first. The commands begin
with the oldest. -/
def served (events : List Event) : List Served :=
  (Register.observer.of events).served.reverse

/-! ## Commands that ask for no settings -/

/-- An event that belongs to the command before it and has nothing to do with settings. -/
def IsQuiet : Event → Prop
  | .reached _ | .board ⟨.uart (.claim ..), _⟩ | .board ⟨.uart (.configure _), _⟩ => False
  | _ => True

theorem taken?_of_quiet {event : Event} (h : IsQuiet event) : taken? event = none := by
  unfold taken?
  split
  · exact h.elim
  · exact h.elim
  · rfl

theorem inForce?_of_quiet {new : List Event} (h : ∀ event ∈ new, IsQuiet event) :
    inForce? new = none :=
  List.findSome?_eq_none_iff.mpr fun event hEvent => taken?_of_quiet (h event hEvent)

namespace Register

/-- The register with commands that were served before its own. -/
def behind (register : Register) (earlier : List Served) : Register :=
  { register with served := register.served ++ earlier }

/-- What was served before has no influence on how a command is noted down. -/
theorem see_behind {register : Register} (event : Event) (earlier : List Served)
    (h : register.served ≠ []) :
    see event (register.behind earlier) = (see event register).behind earlier ∧
      (see event register).served ≠ [] := by
  obtain ⟨phase, served⟩ := register
  cases served with
  | nil => exact absurd rfl h
  | cons command served =>
    have hNote (change : Served → Served) :
        note change (behind ⟨phase, command :: served⟩ earlier) =
            (note change ⟨phase, command :: served⟩).behind earlier ∧
          (note change ⟨phase, command :: served⟩).served ≠ [] := by
      cases phase
      all_goals exact ⟨rfl, nofun⟩
    unfold see
    split
    · exact ⟨rfl, nofun⟩
    · by_cases hPhase : phase = .awaiting
      · simp [behind, hPhase]
      · simp [behind, hPhase]
    · exact hNote _
    · exact hNote _
    · exact ⟨rfl, nofun⟩
    · exact ⟨rfl, nofun⟩

theorem foldr_see_behind {register : Register} (new : List Event) (earlier : List Served)
    (h : register.served ≠ []) :
    new.foldr see (register.behind earlier) = (new.foldr see register).behind earlier ∧
      (new.foldr see register).served ≠ [] := by
  induction new with
  | nil => exact ⟨rfl, h⟩
  | cons event new ih =>
    obtain ⟨hEarlier, hSome⟩ := ih
    rw [List.foldr_cons, List.foldr_cons, hEarlier]
    exact see_behind event earlier hSome

/-- This is the only command, nothing was asked in its name, and no other one is awaited. -/
def Serves (register : Register) (command : UInt8) : Prop :=
  register.phase ≠ .awaiting ∧ ∃ answer, register.served = [⟨command, [], answer⟩]

theorem Serves.see {event : Event} {register : Register} (h : register.Serves c)
    (hEvent : IsQuiet event) : (see event register).Serves c := by
  obtain ⟨phase, served⟩ := register
  obtain ⟨hPhase, answer, rfl⟩ := h
  unfold Register.see
  split
  · exact hEvent.elim
  · rw [if_neg hPhase]
    exact ⟨hPhase, answer, rfl⟩
  · next b =>
    cases phase with
    | apart => exact ⟨nofun, answer, rfl⟩
    | awaiting => exact absurd rfl hPhase
    | answering => exact ⟨nofun, answer ++ [b], rfl⟩
  · exact hEvent.elim
  · exact ⟨nofun, answer, rfl⟩
  · exact ⟨hPhase, answer, rfl⟩

theorem Serves.of_quiet {new : List Event} {register : Register} (h : register.Serves c)
    (hNew : ∀ event ∈ new, IsQuiet event) : (new.foldr Register.see register).Serves c := by
  induction new with
  | nil => exact h
  | cons event new ih =>
    have hEarlier := ih fun event hEvent => hNew event (.tail _ hEvent)
    exact hEarlier.see (hNew event List.mem_cons_self)

end Register

/-! ## What a round keeps -/

/-- In going from one state of the engine to another, it served commands that make the settings of
the one of those of the other, and the port has taken what they say. -/
structure Kept (state state' : State) (new : List Event) : Prop where
  /-- What was at work before makes no difference to these commands. -/
  served (register : Register) :
    (new.foldr Register.see register).served = (served new).reverse ++ register.served
  orderly : Orderly state.config (Uart.served new)
  settings : settings state.config (Uart.served new) = state'.config
  inForce : (inForce? new).getD state.config = state'.config

/-- The events with which a round takes its command. -/
def opening (c : UInt8) : List Event :=
  [.peer (.received c), .reached (.command .uart)]

theorem served_append {state state' : State} {new' : List Event} (h : Kept state state' new')
    (new : List Event) : served (new' ++ new) = served new ++ served new' := by
  rw [served, Observer.of, List.foldr_append]
  change (Register.served (new'.foldr Register.see (new.foldr Register.see {}))).reverse = _
  rw [h.served, List.reverse_append, List.reverse_reverse]
  rfl

namespace Kept

variable {state state' state'' : State} {new new' : List Event}

theorem start : Kept state state [] where
  served _ := rfl
  orderly := .nil
  settings := rfl
  inForce := rfl

theorem trans (h : Kept state state' new) (h' : Kept state' state'' new') :
    Kept state state'' (new' ++ new) where
  served register := by
    rw [List.foldr_append, h'.served, h.served, served_append h', List.reverse_append,
      List.append_assoc]
  orderly := by
    rw [served_append h']
    exact h.orderly.append (h.settings ▸ h'.orderly)
  settings := by
    rw [served_append h', Uart.settings, List.foldl_append]
    exact (congrArg (Uart.settings · _) h.settings).trans h'.settings
  inForce := by
    have hForce := h.inForce
    have hForce' := h'.inForce
    rw [inForce?] at hForce hForce' ⊢
    rw [List.findSome?_append]
    cases hNew : new'.findSome? taken? with
    | none =>
      rw [hNew, Option.getD_none] at hForce'
      rw [Option.none_or, hForce, hForce']
    | some config =>
      rw [hNew] at hForce'
      rw [Option.some_or]
      exact hForce'

/-- One command that was served. -/
theorem of_served (command : Served)
    (hServed : ∀ register : Register,
      ((new ++ opening c).foldr Register.see register).served = command :: register.served)
    (hAccords : command.Accords state.config)
    (hSettings : command.settings state.config = state'.config)
    (hForce : (inForce? new).getD state.config = state'.config) :
    Kept state state' (new ++ opening c) := by
  have hOnly : Uart.served (new ++ opening c) = [command] :=
    congrArg List.reverse (hServed {})
  refine ⟨fun register => ?_, ?_, ?_, ?_⟩
  · rw [hServed, hOnly]
    rfl
  · rw [hOnly]
    exact .singleton hAccords
  · rw [hOnly]
    exact hSettings
  · have hOpening : inForce? (opening c) = none := rfl
    rw [inForce?] at hForce hOpening ⊢
    rw [List.findSome?_append, hOpening, Option.or_none]
    exact hForce

/-- A command that asks for no settings leaves them as they are. -/
theorem of_quiet (hSpeed : isSpeed c = false) (hFormat : isFormat c = false)
    (hNew : ∀ event ∈ new, IsQuiet event) (hState : state'.config = state.config) :
    Kept state state' (new ++ opening c) := by
  have hOpened : Register.Serves ⟨.answering, [⟨c, [], []⟩]⟩ c := ⟨nofun, [], rfl⟩
  obtain ⟨-, answer, hServed⟩ := hOpened.of_quiet hNew
  have hNone : change? c = none := change?_of_not hSpeed hFormat
  refine of_served ⟨c, [], answer⟩ (fun register => ?_) ?_ ?_ ?_
  · have hSome : (Register.mk .answering [⟨c, [], []⟩]).served ≠ [] := nofun
    obtain ⟨hBehind, -⟩ := Register.foldr_see_behind new register.served hSome
    rw [List.foldr_append]
    change (new.foldr Register.see
      ((Register.mk .answering [⟨c, [], []⟩]).behind register.served)).served = _
    rw [hBehind, Register.behind, hServed]
    rfl
  · unfold Served.Accords
    simp [hNone, hSpeed, hFormat]
  · unfold Served.settings
    simp [hNone, hState]
  · rw [inForce?_of_quiet hNew, hState]
    rfl

/-- A command for something unsupported is refused without the port being asked. -/
theorem of_unsupported (hChange : change? c = none) :
    Kept state state ([PeerEvent.flushed, .sent 0].map .peer ++ opening c) := by
  have hAccords : Served.Accords state.config ⟨c, [], [0]⟩ := by
    unfold Served.Accords
    rw [hChange]
    exact ⟨rfl, fun _ => rfl⟩
  exact of_served _ (fun _ => rfl) hAccords rfl rfl

/-- A command that is supported is answered by whether the port took the settings, and the engine
remembers them only then. -/
theorem of_change {next : Config} (hChange : (change? c).map (· state.config) = some next)
    (answer : Except BusError Unit)
    (hState : state'.config = if answer.isOk then next else state.config) :
    Kept state state' (([PeerEvent.flushed, .sent (status answer.isOk)].map .peer ++
      [.board ⟨.uart (.configure next), answer⟩]) ++ opening c) := by
  obtain ⟨change, hSome, rfl⟩ := Option.map_eq_some_iff.mp hChange
  refine of_served ⟨c, [(change state.config, answer.isOk)], [status answer.isOk]⟩
    (fun _ => rfl) ?_ ?_ ?_
  · unfold Served.Accords
    rw [hSome]
    exact ⟨answer.isOk, rfl, rfl⟩
  · rw [hState, Served.settings, hSome]
    cases answer <;> rfl
  · rw [hState]
    cases answer <;> rfl

end Kept

/-! ## Rounds -/

variable {state : State}

theorem isQuiet_peer (event : PeerEvent) : IsQuiet (.peer event) :=
  trivial

/-- A command that asks for no settings. The bridge is not left again. -/
theorem serveCommand_emits (hSpeed : isSpeed c = false) (hFormat : isFormat c = false) :
    Emits IsQuiet (serveCommand state c : Talk ω β _) fun result =>
      ∀ state', result = .inl state' → state'.config = state.config := by
  have hStays {state' : State} (h : state'.config = state.config) :
      ∀ state'', (.inl state' : State ⊕ Unit) = .inl state'' → state''.config = state.config := by
    rintro state'' ⟨⟩
    exact h
  have hQuiet (answer : Except BusError Unit) (b : UInt8) :
      IsQuiet (.board ⟨.uart (.write [b]), answer⟩) := trivial
  unfold serveCommand
  split
  case h_1 => exact .pure nofun
  case h_2 | h_5 => exact .bind (.dialogue isQuiet_peer fun _ => .pure (hStays rfl))
  case h_3 =>
    exact .bind (.tell (fun _ => trivial) (.bind (.dialogue isQuiet_peer fun _ =>
      .pure (hStays rfl))))
  case h_4 => exact .bind (.dialogue isQuiet_peer fun _ => .pure (hStays rfl))
  case h_6 =>
    exact .bind (Records.serveUntil_never fun _ =>
      BusBench.Uart.binary_bridgeRound_records.mono fun result _ hResult answer hAnswer =>
        nomatch hResult.1.symm.trans hAnswer)
  case h_7 =>
    simp only [isSpeed, isFormat, decide_eq_false_iff_not] at hSpeed hFormat
    refine .ite (fun _ => ?_) fun _ => .ite (fun _ => ?_) fun _ => ?_
    · exact .bind (.dialogue isQuiet_peer fun _ => .bind (BusBench.Uart.bulk_emits isQuiet_peer
        (fun b answer => hQuiet answer b) (.pure (hStays rfl))))
    · exact .bind (.peripheralCommand (fun _ _ => trivial) (fun _ _ => trivial)
        (fun _ _ _ => trivial) fun _ => .bind (.dialogue isQuiet_peer fun _ => .pure (hStays rfl)))
    · rw [if_neg hSpeed, if_neg hFormat]
      exact .pure (hStays rfl)

/-- The rest of a round whose command asks for something unsupported. -/
theorem records_of_unsupported (hChange : change? c = none) :
    Records (do reply 0; return .inl state : Talk ω β (State ⊕ Unit)) fun result new =>
      ∀ state', result = .inl state' → Kept state state' (new ++ opening c) := by
  refine .bind (.dialogue (.bind (.send (.flush (.pure ?_)))))
  rintro state' ⟨⟩
  exact .of_unsupported hChange

/-- The rest of a round whose command changes settings. -/
theorem records_of_change {next : Config} (hChange : (change? c).map (· state.config) = some next) :
    Records (do
      let config ← reconfigure state.config next
      return .inl { state with config } : Talk ω β (State ⊕ Unit)) fun result new =>
      ∀ state', result = .inl state' → Kept state state' (new ++ opening c) := by
  refine .bind (.bind (.ask fun answer => ?_))
  cases answer with
  | ok done =>
    refine .bind (.dialogue (.bind (.send (.flush (.pure (.pure ?_))))))
    rintro state' ⟨⟩
    exact .of_change hChange (.ok done) rfl
  | error reason =>
    refine .bind (.dialogue (.bind (.send (.flush (.pure (.pure ?_))))))
    rintro state' ⟨⟩
    exact .of_change hChange (.error reason) rfl

/-- Both kinds of settings are served alike. -/
theorem serveCommand_of_setting (h : isSpeed c = true ∨ isFormat c = true) :
    (serveCommand state c : Talk ω β _) =
      match (change? c).map (· state.config) with
      | none => do
        reply 0
        return .inl state
      | some next => do
        let config ← reconfigure state.config next
        return .inl { state with config } := by
  rcases h with hSpeed | hFormat
  · have hRange : 0x60 ≤ c.toNat ∧ c.toNat ≤ 0x6F := of_decide_eq_true hSpeed
    rw [change?_of_speed hSpeed]
    unfold serveCommand
    split
    case h_7 =>
      rw [if_neg (by omega), if_neg (by omega)]
      refine (if_pos hRange).trans ?_
      cases numberedSpeeds[c.toNat % 16]? <;> rfl
    all_goals omega
  · have hRange : 0x80 ≤ c.toNat ∧ c.toNat ≤ 0x9F := of_decide_eq_true hFormat
    rw [change?_of_format hFormat]
    unfold serveCommand
    split
    case h_7 =>
      rw [if_neg (by omega), if_neg (by omega), if_neg (by omega)]
      refine (if_pos hRange).trans ?_
      cases state.config.withCommandByte c <;> rfl
    all_goals omega

theorem serveCommand_records (state : State) (c : UInt8) :
    Records (serveCommand state c : Talk ω β _) fun result new =>
      ∀ state', result = .inl state' → Kept state state' (new ++ opening c) := by
  by_cases hSetting : isSpeed c = true ∨ isFormat c = true
  · rw [serveCommand_of_setting hSetting]
    cases hChange : (change? c).map (· state.config) with
    | none => exact records_of_unsupported (Option.map_eq_none_iff.mp hChange)
    | some next => exact records_of_change hChange
  · rw [not_or, Bool.not_eq_true, Bool.not_eq_true] at hSetting
    obtain ⟨hSpeed, hFormat⟩ := hSetting
    refine (serveCommand_emits hSpeed hFormat).mono fun result new hNew state' hResult => ?_
    exact .of_quiet hSpeed hFormat hNew.1 (hNew.2 state' hResult)

/-! ## Passing on before a command -/

/-- Events among which no command was served and nothing was set up. -/
def Idles (new : List Event) : Prop :=
  inForce? new = none ∧
    ∀ register : Register, (new.foldr Register.see register).served = register.served

theorem Kept.of_idles {new : List Event} (h : Idles new) : Kept state state new := by
  have hNone : Uart.served new = [] := congrArg List.reverse (h.2 {})
  refine ⟨fun register => ?_, ?_, ?_, ?_⟩
  · rw [h.2, hNone]
    rfl
  · rw [hNone]
    exact .nil
  · rw [hNone]
    rfl
  · rw [h.1]
    rfl

theorem see_sent (bytes : List UInt8) (served : List Served) :
    ((bytes.map PeerEvent.sent).reverse.map Event.peer).foldr Register.see ⟨.apart, served⟩ =
      ⟨.apart, served⟩ := by
  rw [← List.map_reverse, List.map_map, List.foldr_map]
  induction bytes.reverse with
  | nil => rfl
  | cons b bytes ih =>
    rw [List.foldr_cons, ih]
    rfl

theorem inForce?_peer (events : List PeerEvent) : inForce? (events.map .peer) = none :=
  inForce?_of_quiet fun event hEvent => by
    obtain ⟨peerEvent, -, rfl⟩ := List.mem_map.mp hEvent
    exact isQuiet_peer peerEvent

theorem forward_records :
    Records (forward : Talk ω β Unit) fun _ new => Idles new := by
  refine .bind (takeUart_records (fun n => .pure ⟨rfl, fun _ => rfl⟩) fun n m answer =>
    .dialogue (.bind (.sendAll (.flush ⟨?_, fun register => ?_⟩))))
  · rw [inForce?, List.findSome?_append]
    exact congrArg (Option.or · none) (inForce?_peer _)
  · rw [List.foldr_append, List.map_append, List.foldr_append]
    change Register.served (List.foldr Register.see ⟨.apart, register.served⟩ _) = _
    rw [see_sent]

theorem awaitCommand_records (state : State) :
    Records (awaitCommand state : Talk ω β _) fun result new =>
      ∀ state', result = .inl state' → Kept state state' new := by
  refine .bind (.reach (.bind (.dialogue (.tryRead (.pure ?_) fun command => ?_))))
  · rintro state' ⟨⟩
    exact .of_idles ⟨rfl, fun _ => rfl⟩
  · refine (serveCommand_records state command).mono fun result new hNew state' hResult => ?_
    rw [List.append_assoc]
    exact hNew state' hResult

theorem serveRound_records (state : State) :
    Records (serveRound state : Talk ω β _) fun result new =>
      ∀ state', result = .inl state' → Kept state state' new := by
  refine .ite (fun _ => ?_) fun _ => awaitCommand_records state
  refine .bind (forward_records.mono fun _ new hForward => ?_)
  refine (awaitCommand_records state).mono fun result new' hNew state' hResult => ?_
  exact (Kept.of_idles hForward).trans (hNew state' hResult)

/-! ## A command on an open link -/

theorem sayAll_apart (bytes : List UInt8) (earlier : List Served) :
    Register.observer.sayAll bytes ⟨.apart, earlier⟩ = ⟨.apart, earlier⟩ := by
  induction bytes with
  | nil => rfl
  | cons b bytes ih => exact ih

/-- The engine goes on, and this command is the next one that it served. -/
def Answers (c : UInt8) (rest : List Arrival) (earlier : List Served)
    (result : Except LinkError (State ⊕ Unit)) (rest' : List Arrival) (register : Register) :
    Prop :=
  (∃ state', result = .ok (.inl state')) ∧ rest' = rest ∧
    ∃ asked answer, register.served = ⟨c, asked, answer⟩ :: earlier

section Answers

variable (h : isSpeed c = true ∨ isFormat c = true) (state : State) {rest : List Arrival}
  {earlier : List Served}

include h

theorem serveCommand_answers :
    Yields Register.observer (serveCommand state c : Talk ω β _) rest
      ⟨.answering, ⟨c, [], []⟩ :: earlier⟩ (Answers c rest earlier) := by
  have hReply (asked : List (Config × Bool)) (b : UInt8) (state' : State) :
      Yields Register.observer (do reply b; return .inl state' : Talk ω β (State ⊕ Unit)) rest
        ⟨.answering, ⟨c, asked, []⟩ :: earlier⟩ (Answers c rest earlier) :=
    .bind (.dialogue (.bind (.send (.flush (.pure ⟨⟨state', rfl⟩, rfl, asked, [b], rfl⟩)))))
  rw [serveCommand_of_setting h]
  cases (change? c).map (· state.config) with
  | none => exact hReply [] 0 state
  | some next =>
    refine .bind (.bind (.ask fun answer => ?_))
    cases answer with
    | ok done =>
      exact .bind (.dialogue (.bind (.send (.flush (.pure (.pure
        ⟨⟨_, rfl⟩, rfl, [(next, true)], [1], rfl⟩))))))
    | error reason =>
      exact .bind (.dialogue (.bind (.send (.flush (.pure (.pure
        ⟨⟨_, rfl⟩, rfl, [(next, false)], [0], rfl⟩))))))

theorem awaitCommand_answers {phase : Phase} :
    Yields Register.observer (awaitCommand state : Talk ω β _) (.byte c :: rest) ⟨phase, earlier⟩
      (Answers c rest earlier) := by
  refine .bind (.reach (.bind (.dialogue (.tryRead (fun b mid hByte => ?_) nofun nofun))))
  obtain ⟨⟨⟩, rfl⟩ := List.cons.inj hByte
  exact serveCommand_answers h state

/-- Where the link is open, a command that asks for settings is served. -/
theorem serveRound_answers {phase : Phase} :
    Yields Register.observer (serveRound state : Talk ω β _) (.byte c :: rest) ⟨phase, earlier⟩
      (Answers c rest earlier) := by
  refine .ite (fun _ => ?_) fun _ => awaitCommand_answers h state
  refine .bind (.bind (.bind (.ask fun n => .ite (fun _ => .pure (.pure ?_)) fun _ => ?_)))
  · exact awaitCommand_answers h state
  · refine .bind (.ask fun answer => .pure (.dialogue (.bind (.sendAll (.flush ?_)))))
    change Yields _ _ _ (Register.observer.sayAll answer.val ⟨.apart, earlier⟩) _
    rw [sayAll_apart]
    exact awaitCommand_answers h state

end Answers

/-! ## The engine -/

/-- The engine starts: the board grants the UART, and the engine announces itself. -/
def Entered (board : Board β) (before w : World ω β Link) : Prop :=
  ∃ mid, ((Act.ask (.uart (.claim .mosi .miso {})) : Talk ω β _) board).run before =
      (.ok (.ok ()), mid) ∧
    ((sendBanner banner : Talk ω β Unit) board).run mid = (.ok (), w)

/-- Once it has started, the engine serves one command after the other, and then it gives the UART
back. -/
theorem run_of_entered {board : Board β} {before w : World ω β Link} (h : Entered board before w) :
    ((run : Talk ω β Unit) board).run before =
      ((do
        let result ← Act.attempt (serveUntil serveRound {})
        Act.tell (.uart .release)
        Act.ofExcept result : Talk ω β Unit) board).run w := by
  obtain ⟨mid, hGranted, hAnnounced⟩ := h
  have hServe : ((do sendBanner banner; serveUntil serveRound {} : Talk ω β Unit) board).run mid =
      ((serveUntil serveRound {} : Talk ω β Unit) board).run w := Act.bind_run hAnnounced
  have hAttempt : ((Act.attempt (do sendBanner banner; serveUntil serveRound {} : Talk ω β Unit) :
        Talk ω β _) board).run mid =
      ((Act.attempt (serveUntil serveRound {} : Talk ω β Unit) : Talk ω β _) board).run w := by
    change (let (result, world) :=
      ((do sendBanner banner; serveUntil serveRound {} : Talk ω β Unit) board).run mid
      (Except.ok result, world)) = _
    rw [hServe]
    rfl
  unfold run
  rw [Act.bind_run hGranted]
  change ((Act.attempt _ >>= _ : Talk ω β Unit) board).run mid = _
  rw [Act.run_bind, hAttempt]
  rfl

theorem Entered.records {board : Board β} {before w : World ω β Link} (h : Entered board before w) :
    ∃ new, w.events = new ++ before.events ∧ new.foldr Register.see {} = {} ∧
      inForce? new = some {} := by
  obtain ⟨mid, hGranted, hAnnounced⟩ := h
  have hAsk : Records (Act.ask (.uart (.claim .mosi .miso {})) : Talk ω β _) fun answer new =>
      new = [.board ⟨.uart (.claim .mosi .miso {}), answer⟩] := .ask fun _ => rfl
  have hBanner : Records (sendBanner banner : Talk ω β Unit) fun _ new =>
      new = ([PeerEvent.flushed] ++ (banner.toUTF8.toList.map PeerEvent.sent).reverse).map .peer :=
    .dialogue (.bind (.sendAll (.flush rfl)))
  obtain ⟨claimed, hClaimed, -, rfl⟩ := hAsk board before mid _ hGranted
  obtain ⟨announced, hBannered, -, rfl⟩ := hBanner board mid w () hAnnounced
  refine ⟨_, by rw [hBannered, hClaimed, ← List.append_assoc], ?_, ?_⟩
  · rw [List.foldr_append, List.map_append, List.foldr_append]
    exact congrArg (Register.see (.peer .flushed)) (see_sent banner.toUTF8.toList [])
  · rw [inForce?, List.findSome?_append]
    exact congrArg (Option.or · _) (inForce?_peer _)

/-- Where the link is open, the next command for settings is served by itself, with one answer. -/
theorem serveRound_serves_one {c : UInt8} {rest : List Arrival}
    (hSetting : isSpeed c = true ∨ isFormat c = true) (state : State) (board : Board β)
    {w : World ω β Link} (hOpen : w.peer.IsOpen) (hIncoming : w.peer.incoming = .byte c :: rest) :
    ∃ state' more command, Kept state state' more ∧ served more = [command] ∧
      command.command = c ∧ ((serveRound state : Talk ω β _) board).run w =
        (.ok (.inl state'), (serveRound state).after board w) ∧
      ((serveRound state).after board w).events = more ++ w.events := by
  obtain ⟨-, ⟨state', hOk⟩, -, asked, answer, hLast⟩ :=
    serveRound_answers hSetting state board w hOpen hIncoming rfl
  have hRun : ((serveRound state : Talk ω β _) board).run w =
      (.ok (.inl state'), (serveRound state).after board w) := Prod.ext hOk rfl
  obtain ⟨more, hMore, -, hRound⟩ := serveRound_records state board w _ _ hRun
  have hKept : Kept state state' more := hRound state' rfl
  have hAll := hKept.served (Register.observer.of w.events)
  have hSeen : more.foldr Register.see (Register.observer.of w.events) =
      Register.observer.of ((serveRound state).after board w).events := by
    rw [hMore]
    exact (List.foldr_append ..).symm
  rw [hSeen] at hAll
  have hBoth : (served more).reverse ++ (Register.observer.of w.events).served =
      [⟨c, asked, answer⟩] ++ (Register.observer.of w.events).served := hAll.symm.trans hLast
  have hOne : served more = [⟨c, asked, answer⟩] :=
    List.reverse_eq_iff.mp (List.append_cancel_right hBoth)
  exact ⟨state', more, _, hKept, hOne, rfl, hRun, hMore⟩

/-- At every moment of the engine, whatever the port refuses, it has the settings that the commands
made by their answers, beginning with those of the start: a speed changes nothing else, and a format
changes all but the speed. Each of these commands was answered once, by 0 if it asked for something
unsupported, and otherwise by whether the port took the change of the settings in force. Where the
link is open, the next such command will be served as well. -/
theorem settings_follow_answers {board : Board β} {before w w' : World ω β Link} {state : State}
    (hEnter : Entered board before w) (h : Passes board serveRound {} w state w') :
    (∃ new, w'.events = new ++ before.events ∧
      inForce? new = some (settings {} (served new)) ∧ state.config = settings {} (served new) ∧
      Orderly {} (served new) ∧
      ∀ (c : UInt8) (rest : List Arrival), isSpeed c = true ∨ isFormat c = true → w'.peer.IsOpen →
        w'.peer.incoming = .byte c :: rest →
        ∃ state' w'' more command, Passes board serveRound {} w state' w'' ∧
          w''.events = more ++ new ++ before.events ∧ command.command = c ∧
          served (more ++ new) = served new ++ [command] ∧
          command.Accords (settings {} (served new))) ∧
    ∀ (c : UInt8) (change : Config → Config), change? c = some change →
      (isSpeed c = true → ∀ config, change config = { config with baud := (change config).baud }) ∧
      (isFormat c = true →
        ∀ config config', change config = { change config' with baud := config.baud }) := by
  refine ⟨?_, fun c change hChange =>
    ⟨fun hSpeed => baud_only hSpeed hChange, fun hFormat => all_but_baud hFormat hChange⟩⟩
  obtain ⟨entry, hEntry, hSeen, hForce⟩ := hEnter.records
  obtain ⟨new, hNew, -, hKept⟩ := h.records (P := Kept) (fun _ => .start) .trans serveRound_records
  have hServed : served (new ++ entry) = served new := by
    rw [served_append hKept, served, Observer.of]
    change (Register.served (entry.foldr Register.see {})).reverse ++ _ = _
    rw [hSeen]
    rfl
  have hEvents : w'.events = (new ++ entry) ++ before.events := by
    rw [hNew, hEntry, List.append_assoc]
  refine ⟨new ++ entry, hEvents, ?_, ?_, ?_, fun c rest hSetting hOpen hIncoming => ?_⟩
  · have hTaken := hKept.inForce
    rw [hServed, hKept.settings]
    rw [inForce?] at hTaken hForce ⊢
    rw [List.findSome?_append, hForce, ← hTaken]
    cases new.findSome? taken? <;> rfl
  · rw [hServed, hKept.settings]
  · rw [hServed]
    exact hKept.orderly
  · obtain ⟨state', more, command, hKept', hOne, hCommand, hRun, hMore⟩ :=
      serveRound_serves_one hSetting state board hOpen hIncoming
    refine ⟨state', _, more, command, .next h hRun, ?_, hCommand, ?_, ?_⟩
    · rw [hMore, hEvents, List.append_assoc more]
    · rw [served_append hKept', hOne]
    · have hAccords := hKept'.orderly [] command [] hOne
      rw [hServed, hKept.settings]
      exact hAccords

/-- A port that receives what it sends and refuses the second settings. The host asks for an echo,
writes a byte, asks for a speed, a format and another speed. -/
def refusing : World Unit Recording.State Link where
  own := ()
  board :=
    { settings := { uartLoopback := true }
      faults := { rules := [⟨"uart.configure", some 2⟩] } }
  peer := { incoming := [.byte 0x02, .byte 0x10, .byte 0x01, .byte 0x69, .byte 0x9C, .byte 0x65] }

/-- The byte that comes back is no answer, and the format that was refused is forgotten. -/
theorem settings_follow_answers_refused :
    let board := Recording.board "fake" {}
    let mid := (Act.ask (.uart (.claim .mosi .miso {})) : Talk Unit _ _).after board refusing
    let w := (sendBanner banner : Talk Unit _ _).after board mid
    let w₁ := (serveRound {}).after board w
    let w₂ := (serveRound { echo := true }).after board w₁
    let w₃ := (serveRound { echo := true }).after board w₂
    let w₄ := (serveRound { config := { baud := 115200 }, echo := true }).after board w₃
    served w₄.events =
        [⟨0x02, [], [1]⟩, ⟨0x10, [], [1, 1]⟩, ⟨0x69, [({ baud := 115200 }, true)], [1]⟩,
          ⟨0x9C, [({ baud := 115200, dataBits := 9 }, false)], [0]⟩] ∧
      inForce? w₄.events = some { baud := 115200 } ∧
      ∃ state w₅ command, Passes board serveRound {} w state w₅ ∧
        served w₅.events = served w₄.events ++ [command] ∧ command.command = 0x65 ∧
        command.Accords { baud := 115200 } := by
  intro board mid w w₁ w₂ w₃ w₄
  have hAnnounced : (((sendBanner banner : Talk Unit _ _) board).run mid).1 = .ok () := by
    exact eq_ok_of_toOption (by decide +kernel)
  have hEnter : Entered board refusing w := ⟨mid, rfl, Prod.ext hAnnounced rfl⟩
  have hMoment : Passes board serveRound {} w
      ({ config := { baud := 115200 }, echo := true } : State) w₄ :=
    .step (.step (.step (.step .start (by decide +kernel)) (by decide +kernel))
      (by decide +kernel)) (by decide +kernel)
  have hServed : served w₄.events =
      [⟨0x02, [], [1]⟩, ⟨0x10, [], [1, 1]⟩, ⟨0x69, [({ baud := 115200 }, true)], [1]⟩,
        ⟨0x9C, [({ baud := 115200, dataBits := 9 }, false)], [0]⟩] := by
    decide +kernel
  have hOpen : w₄.peer.IsOpen := ⟨by decide +kernel, by decide +kernel⟩
  have hIncoming : w₄.peer.incoming = [.byte 0x65] := by decide +kernel
  have hSettings : settings {} (served w₄.events) = { baud := 115200 } := by
    rw [hServed]
    decide
  -- The moment is not evaluated any more.
  clear_value w₄
  obtain ⟨⟨new, hNew, hForce, -, -, hNext⟩, -⟩ := settings_follow_answers hEnter hMoment
  obtain rfl : w₄.events = new := hNew.trans (List.append_nil _)
  obtain ⟨state, w₅, more, command, hPasses, hMore, hCommand, hLater, hAccords⟩ :=
    hNext 0x65 [] (Or.inl (by decide)) hOpen hIncoming
  rw [hSettings] at hForce hAccords
  refine ⟨hServed, hForce, state, w₅, command, hPasses, ?_, hCommand, hAccords⟩
  rw [hMore, ← hLater]
  exact congrArg served (List.append_nil _)

end BusBench.Binary.Uart
