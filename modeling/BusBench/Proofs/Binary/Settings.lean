import BusBench.Board.Recording
import BusBench.Proofs.Binary.Commands
import BusBench.Proofs.World.Moments

/-!
# Settings of binary SPI

A command that changes the settings changes those that were asked for last, and these need not be
the ones in force: the bus may have refused them, and then 0 was replied. The next settings that the
bus takes bring the refused change with them.

* `change?`: what a command changes.
* `Ledger`: the settings in force and those asked for last, as the commands and their replies tell.
* `settings_follow_commands`: at every moment of the engine, the bus has the settings of the ledger.
-/

namespace BusBench.Binary

open BusBench.Spi (Config Speed)

namespace Spi

variable {ω β : Type} {backing : Backing} {config config' config'' : Config} {c : UInt8}

/-! ## Changes -/

/-- What a command byte changes, if it asks for settings that are supported. -/
def change? (command : UInt8) : Option (Config → Config) :=
  if 0x60 ≤ command.toNat ∧ command.toNat ≤ 0x67 then
    (Speed.ofIndex? (command.toNat % 8)).map fun speed config => { config with speed }
  else if 0x80 ≤ command.toNat ∧ command.toNat ≤ 0x8F ∧ command &&& 0x09 = 0x08 then
    some (·.withCommandByte command)
  else none

theorem change?_of_speed (h : 0x60 ≤ c.toNat ∧ c.toNat ≤ 0x67) :
    (change? c).map (· config) =
      some { config with speed := (Speed.ofIndex? (c.toNat % 8)).getD config.speed } := by
  have hIndex : c.toNat % 8 < Speed.all.length := Nat.mod_lt _ (by decide)
  rw [change?, if_pos h, Speed.ofIndex?, List.getElem?_eq_getElem hIndex]
  rfl

theorem change?_of_format (h : 0x80 ≤ c.toNat ∧ c.toNat ≤ 0x8F) (hTaken : c &&& 0x09 = 0x08) :
    change? c = some (·.withCommandByte c) := by
  rw [change?, if_neg (by omega), if_pos ⟨h.1, h.2, hTaken⟩]

theorem change?_of_not (hSpeed : ¬ (0x60 ≤ c.toNat ∧ c.toNat ≤ 0x67))
    (hFormat : 0x80 ≤ c.toNat ∧ c.toNat ≤ 0x8F → c &&& 0x09 ≠ 0x08) : change? c = none := by
  rw [change?, if_neg hSpeed, if_neg fun h => hFormat ⟨h.1, h.2.1⟩ h.2.2]

/-! ## The ledger -/

end Spi

def Command.change? (command : Command) : Option (Config → Config) :=
  command.frame.head?.bind Spi.change?

namespace Spi

variable {ω β : Type} {backing : Backing} {config config' config'' : Config} {c : UInt8}

/-- The settings that the bus took last, and those that were asked for last. -/
structure Ledger where
  inForce : Config := {}
  asked : Config := {}
  deriving DecidableEq, Repr

namespace Ledger

def after (ledger : Ledger) (command : Command) : Ledger :=
  match command.change? with
  | some change =>
    { inForce := if command.reply = [1] then change ledger.asked else ledger.inForce
      asked := change ledger.asked }
  | none => ledger

/-- The ledger of an engine that was sent these commands. -/
def of (commands : List Command) : Ledger :=
  commands.foldl after {}

/-- While the bus takes all settings, nothing is asked for that is not in force. -/
theorem of_accepted {commands : List Command}
    (h : ∀ command ∈ commands, command.change?.isSome → command.reply = [1]) :
    of commands =
      let settings := commands.foldl (fun config command => command.change?.getD id config) {}
      ⟨settings, settings⟩ := by
  suffices hFrom : ∀ config : Config, commands.foldl after ⟨config, config⟩ =
      let settings := commands.foldl (fun config command => command.change?.getD id config) config
      ⟨settings, settings⟩ from hFrom {}
  induction commands with
  | nil => exact fun config => rfl
  | cons command commands ih =>
    intro config
    have hStep : after ⟨config, config⟩ command =
        ⟨command.change?.getD id config, command.change?.getD id config⟩ := by
      have hReply := h command List.mem_cons_self
      unfold after
      cases hChange : command.change? with
      | none => rfl
      | some change => simp only [hReply (by rw [hChange]; rfl), if_true, Option.getD_some]
    rw [List.foldl_cons, hStep, ih fun command hCommand => h command (.tail _ hCommand)]
    rfl

end Ledger

/-! ## Settings and commands among events -/

def isTaken (answer : Except BusError Unit) : Bool :=
  answer.isOk

/-- The settings that the bus took in an event. -/
def taken? (backing : Backing) : Event → Option Config
  | .board ⟨.spi backing' (.configure config), answer⟩ =>
    if backing' = backing ∧ isTaken answer then some config else none
  | _ => none

/-- The settings that the bus took last among events, of which the newest stands first. -/
def lastTaken? (backing : Backing) (events : List Event) : Option Config :=
  events.findSome? (taken? backing)

theorem lastTaken?_append (new earlier : List Event) :
    lastTaken? backing (new ++ earlier) =
      (lastTaken? backing new).or (lastTaken? backing earlier) :=
  List.findSome?_append

theorem lastTaken?_peer (events : List PeerEvent) :
    lastTaken? backing (events.map .peer) = none := by
  rw [lastTaken?, List.findSome?_map]
  exact List.findSome?_eq_none_iff.mpr fun _ _ => rfl

/-- An event that belongs to the command before it and leaves the settings alone. -/
def IsQuiet (backing : Backing) (event : Event) : Prop :=
  taken? backing event = none ∧ ∀ point, event ≠ .reached point

theorem see_serving {event : Event} (h : ∀ point, event ≠ .reached point) (t : Tally)
    (server : Server) (more reply : List UInt8) :
    ∃ (t' : Tally) (more' reply' : List UInt8), Tally.see event (t.serving ⟨server, c :: more, reply⟩) =
      t'.serving ⟨server, c :: more', reply'⟩ ∧ t'.commands = t.commands := by
  cases event with
  | board exchange =>
    simp only [Tally.see, Tally.decide]
    split
    · next granted _ => exact ⟨t.granting granted, more, reply, rfl, rfl⟩
    · exact ⟨t, more, reply, rfl, rfl⟩
  | peer event =>
    cases event with
    | received b => exact ⟨t, more ++ [b], reply, rfl, rfl⟩
    | sent b => exact ⟨t, more, reply ++ [b], rfl, rfl⟩
    | idle | flushed | failed | shown | asked | polled | passed =>
      exact ⟨t, more, reply, rfl, rfl⟩
  | reached point => exact absurd rfl (h point)

/-- While a command is being served, it stays the newest one. -/
theorem see_quiet {new : List Event} (h : ∀ event ∈ new, IsQuiet backing event) (t : Tally)
    (server : Server) :
    ∃ (t' : Tally) (more reply : List UInt8), new.foldr Tally.see (t.serving ⟨server, [c], []⟩) =
      t'.serving ⟨server, c :: more, reply⟩ ∧ t'.commands = t.commands := by
  induction new with
  | nil => exact ⟨t, [], [], rfl, rfl⟩
  | cons event new ih =>
    obtain ⟨t', more, reply, hSeen, hCommands⟩ := ih fun event hEvent => h event (.tail _ hEvent)
    obtain ⟨t'', more', reply', hSeen', hCommands'⟩ :=
      see_serving (h event List.mem_cons_self).2 t' server more reply
    exact ⟨t'', more', reply', by rw [List.foldr_cons, hSeen, hSeen'], hCommands'.trans hCommands⟩

theorem lastTaken?_of_quiet {new : List Event} (h : ∀ event ∈ new, IsQuiet backing event) :
    lastTaken? backing new = none :=
  List.findSome?_eq_none_iff.mpr fun event hEvent => (h event hEvent).1

/-- The events with which a round takes its command. -/
def opening (c : UInt8) (silence : List PeerEvent) : List Event :=
  (PeerEvent.received c :: silence).map .peer ++ [.reached (.command .spi)]

section Opening

variable {silence : List PeerEvent} (hSilence : ∀ event ∈ silence, event = PeerEvent.idle)

include hSilence in
theorem see_opening (t : Tally) :
    (opening c silence).foldr Tally.see t = t.serving ⟨.spi, [c], []⟩ := by
  have hAwaiting : (silence.map Event.peer).foldr Tally.see { t with awaiting? := some .spi } =
      { t with awaiting? := some .spi } := by
    induction silence with
    | nil => rfl
    | cons event silence ih =>
      obtain rfl := hSilence event List.mem_cons_self
      rw [List.map_cons, List.foldr_cons, ih fun event hEvent => hSilence event (.tail _ hEvent)]
      rfl
  rw [opening, List.foldr_append, List.map_cons, List.foldr_cons]
  exact congrArg (Tally.see (.peer (.received c))) hAwaiting

theorem lastTaken?_opening : lastTaken? backing (opening c silence) = none := by
  rw [opening, lastTaken?_append, lastTaken?_peer]
  rfl

end Opening

/-! ## What a round keeps -/

/-- Between two moments with these settings asked for, the ledger is kept as the events say. -/
def Kept (backing : Backing) (config config' : Config) (new : List Event) : Prop :=
  ∀ t : Tally, ∃ served : List Command,
    (new.foldr Tally.see t).commands = served.reverse ++ t.commands ∧
      ∀ inForce, served.foldl Ledger.after ⟨inForce, config⟩ =
        ⟨(lastTaken? backing new).getD inForce, config'⟩

namespace Kept

variable {new new' : List Event}

theorem start : Kept backing config config [] :=
  fun _ => ⟨[], rfl, fun _ => rfl⟩

theorem trans (h : Kept backing config config' new) (h' : Kept backing config' config'' new') :
    Kept backing config config'' (new' ++ new) := by
  intro t
  obtain ⟨served, hCommands, hLedger⟩ := h t
  obtain ⟨served', hCommands', hLedger'⟩ := h' (new.foldr Tally.see t)
  refine ⟨served ++ served', ?_, fun inForce => ?_⟩
  · rw [List.foldr_append, hCommands', hCommands, List.reverse_append, List.append_assoc]
  · rw [List.foldl_append, hLedger, hLedger', lastTaken?_append]
    cases lastTaken? backing new' <;> rfl

variable {silence : List PeerEvent} (hSilence : ∀ event ∈ silence, event = PeerEvent.idle)
include hSilence

/-- A command that asks for no settings leaves everything as it is. -/
theorem of_quiet (hChange : change? c = none) (h : ∀ event ∈ new, IsQuiet backing event) :
    Kept backing config config (new ++ opening c silence) := by
  intro t
  obtain ⟨t', more, reply, hSeen, hCommands⟩ := see_quiet h t .spi
  refine ⟨[⟨.spi, c :: more, reply⟩], ?_, fun inForce => ?_⟩
  · rw [List.foldr_append, see_opening hSilence, hSeen, ← hCommands]
    rfl
  · have hNone : Command.change? ⟨.spi, c :: more, reply⟩ = none := hChange
    rw [lastTaken?_append, lastTaken?_of_quiet h, lastTaken?_opening, List.foldl_cons,
      Ledger.after, hNone]
    rfl

/-- A command that asks for settings is answered by whether the bus took them. -/
theorem of_change (hChange : (change? c).map (· config) = some config')
    (answer : Except BusError Unit) :
    Kept backing config config' (([PeerEvent.flushed] ++ [PeerEvent.sent (status answer.isOk)]).map .peer ++
      ([.board ⟨.spi backing (.configure config'), answer⟩] ++ opening c silence)) := by
  intro t
  refine ⟨[⟨.spi, [c], [status answer.isOk]⟩], ?_, fun inForce => ?_⟩
  · rw [List.foldr_append, List.foldr_append, see_opening hSilence]
    rfl
  · obtain ⟨change, hSome, rfl⟩ := Option.map_eq_some_iff.mp hChange
    have hSome : Command.change? ⟨.spi, [c], [status answer.isOk]⟩ = some change := hSome
    have hTaken : lastTaken? backing [.board ⟨.spi backing (.configure (change config)), answer⟩] =
        if answer.isOk then some (change config) else none := by
      cases answer <;> simp [lastTaken?, taken?, isTaken, Except.isOk, Except.toBool]
    rw [List.foldl_cons, Ledger.after, hSome, lastTaken?_append, lastTaken?_append, hTaken,
      lastTaken?_opening]
    cases answer <;> rfl

end Kept

/-! ## Rounds -/

theorem isQuiet_peer (event : PeerEvent) : IsQuiet backing (.peer event) :=
  ⟨rfl, nofun⟩

theorem isQuiet_board {request : Request}
    (h : ∀ backing config, request ≠ .spi backing (.configure config)) (answer : request.Answer) :
    IsQuiet backing (.board ⟨request, answer⟩) := by
  refine ⟨?_, nofun⟩
  unfold taken?
  split
  · next hEvent =>
    cases hEvent
    exact absurd rfl (h _ _)
  · rfl

open Act (Records Emits Passes)

theorem writeThenRead_emits {ε : Type} {paired : Paired}
    {post : Except BusError (List UInt8) → Prop} (h : ∀ result, post result) :
    Emits (IsQuiet backing) (writeThenRead backing paired : Act ω β Link ε _) post := by
  refine .bind (.bind (.ask (isQuiet_board nofun) fun answer => .pure ?_))
  cases answer with
  | error reason => exact .pure (h _)
  | ok _ => exact .bind (.ask (isQuiet_board nofun) fun _ => .pure (h _))

theorem selectedWriteThenRead_emits {ε : Type} {paired : Paired}
    {post : Except BusError (List UInt8) → Prop} (h : ∀ result, post result) :
    Emits (IsQuiet backing) (selectedWriteThenRead backing paired : Act ω β Link ε _) post := by
  refine .bind (.ask (isQuiet_board nofun) fun answer => ?_)
  cases answer with
  | error reason => exact .pure (h _)
  | ok _ =>
    refine .bind (writeThenRead_emits fun result => .bind (.ask (isQuiet_board nofun)
      fun answer => ?_))
    cases answer with
    | ok _ => exact .pure (h _)
    | error reason => cases result <;> exact .pure (h _)

theorem replyResult_emits {result : Except BusError (List UInt8)} {post : Unit → Prop}
    (h : post ()) : Emits (IsQuiet backing) (replyResult result : Talk ω β Unit) post := by
  unfold replyResult replyData reply
  split <;> exact .dialogue isQuiet_peer fun _ => h

/-- The rest of a round whose command changes no settings. -/
theorem records_of_quiet {silence : List PeerEvent} {rest : Talk ω β (Config ⊕ Unit)}
    (hSilence : ∀ event ∈ silence, event = PeerEvent.idle) (hChange : change? c = none)
    (h : Emits (IsQuiet backing) rest fun result => ∀ config', result = .inl config' →
      config' = config) :
    Records rest fun result new => ∀ config', result = .inl config' →
      Kept backing config config' (new ++ opening c silence) :=
  h.mono fun result new hRest config' hResult => by
    obtain rfl := hRest.2 config' hResult
    exact .of_quiet hSilence hChange hRest.1

/-- The rest of a round whose command changes settings. -/
theorem records_of_change {silence : List PeerEvent}
    (hSilence : ∀ event ∈ silence, event = PeerEvent.idle)
    (hChange : (change? c).map (· config) = some config') :
    Records (do
      reply (status (← configure backing config'))
      return .inl config' : Talk ω β (Config ⊕ Unit)) fun result new =>
      ∀ config'', result = .inl config'' →
        Kept backing config config'' (new ++ opening c silence) := by
  refine .bind (.bind (.ask fun answer => .pure (.bind (.dialogue (.bind (.send (.flush
    (.pure ?_))))))))
  rintro config'' ⟨⟩
  exact .of_change hSilence hChange answer

theorem serveRound_records (backing : Backing) (config : Config) :
    Records (serveRound backing config : Talk ω β _) fun result new =>
      ∀ config', result = .inl config' → Kept backing config config' new := by
  unfold serveRound
  refine .bind (.reach (.bind (.dialogue (.read fun c silence hSilence => ?_))))
  have hStays : ∀ config', (.inl config : Config ⊕ Unit) = .inl config' → config' = config := by
    rintro config' ⟨⟩
    rfl
  simp only [List.append_assoc]
  have hLow {n : Nat} (hByte : c.toNat = n) (hn : n < 0x60) : change? c = none :=
    change?_of_not (by omega) (by omega)
  split
  case h_1 hByte =>
    exact records_of_quiet hSilence (hLow hByte (by decide)) (.pure nofun)
  case h_2 hByte =>
    exact records_of_quiet hSilence (hLow hByte (by decide))
      (.bind (.dialogue isQuiet_peer fun _ => .pure hStays))
  case h_3 hByte | h_4 hByte =>
    exact records_of_quiet hSilence (hLow hByte (by decide))
      (.bind (.ask (isQuiet_board nofun) fun _ =>
        .bind (.dialogue isQuiet_peer fun _ => .pure hStays)))
  case h_5 hByte =>
    refine records_of_quiet hSilence (hLow hByte (by decide))
      (.bind (.dialogue isQuiet_peer fun paired => ?_))
    cases paired with
    | none => exact .pure hStays
    | some paired =>
      exact .bind (selectedWriteThenRead_emits fun _ => .bind (replyResult_emits (.pure hStays)))
  case h_6 hByte =>
    refine records_of_quiet hSilence (hLow hByte (by decide))
      (.bind (.dialogue isQuiet_peer fun paired => ?_))
    cases paired with
    | none => exact .pure hStays
    | some paired =>
      exact .bind (writeThenRead_emits fun _ => .bind (replyResult_emits (.pure hStays)))
  case h_7 =>
    refine .ite (fun hBulk => ?_) fun hBulk => .ite (fun hStatus => ?_) fun hStatus =>
      .ite (fun hSpeed => ?_) fun hSpeed => .ite (fun hFormat => ?_) fun hFormat => ?_
    · exact records_of_quiet hSilence (change?_of_not (by omega) (by omega))
        (.bind (.dialogue isQuiet_peer fun _ => .bind (.ask (isQuiet_board nofun) fun _ =>
          .bind (replyResult_emits (.pure hStays)))))
    · exact records_of_quiet hSilence (change?_of_not (by omega) (by omega))
        (.bind (.peripheralCommand (fun _ => isQuiet_board nofun) (fun _ => isQuiet_board nofun)
          (fun _ _ => isQuiet_board nofun) fun _ => .bind (.dialogue isQuiet_peer fun _ =>
            .pure hStays)))
    · exact records_of_change hSilence (change?_of_speed hSpeed)
    · refine .ite (fun hRefused => ?_) fun hTaken => ?_
      · exact records_of_quiet hSilence (change?_of_not hSpeed fun _ => hRefused)
          (.bind (.dialogue isQuiet_peer fun _ => .pure hStays))
      · exact records_of_change hSilence (by
          rw [change?_of_format hFormat (Decidable.not_not.mp hTaken)]; rfl)
    · exact records_of_quiet hSilence (change?_of_not hSpeed fun hByte => absurd hByte hFormat)
        (.pure hStays)

/-! ## The engine -/

/-- How the engine starts: it sets up the bus and announces itself. It answers whether the bus took
the settings. -/
def enter (backing : Backing) : Talk ω β Bool := do
  let taken ← configure backing {}
  sendBanner banner
  return taken

/-- The engine starts, and then serves one command after the other. -/
theorem serve_eq (backing : Backing) :
    (serve backing : Talk ω β Unit) =
      enter backing >>= fun _ => serveUntil (serveRound backing) {} := by
  simp only [serve, enter, bind_assoc, pure_bind]

theorem see_sent (bytes : List UInt8) :
    ((bytes.map PeerEvent.sent).reverse.map Event.peer).foldr Tally.see {} = {} := by
  rw [← List.map_reverse, List.map_map, List.foldr_map]
  induction bytes.reverse with
  | nil => rfl
  | cons b bytes ih => rw [List.foldr_cons, ih]; rfl

theorem enter_records :
    Records (enter backing : Talk ω β Bool) fun taken new =>
      new.foldr Tally.see {} = {} ∧ (taken = true → lastTaken? backing new = some {}) := by
  refine .bind (.bind (.ask fun answer => .pure (.bind (.dialogue (.bind (.sendAll (.flush
    (.pure ⟨?_, fun hTaken => ?_⟩))))))))
  · rw [List.nil_append, List.nil_append, List.foldr_append, List.map_append, List.foldr_append]
    exact congrArg (Tally.see (.peer .flushed)) (see_sent banner.toUTF8.toList)
  · rw [List.nil_append, List.nil_append, lastTaken?_append, lastTaken?_peer]
    simp [lastTaken?, taken?, isTaken, hTaken]

/-- At every moment of the engine that was set up, the bus has the settings that the ledger of its
commands says, and the engine remembers those that the ledger says were asked for. As long as all
settings that were asked for were taken, these are the settings that the commands make. -/
theorem settings_follow_commands {board : Board β} {before w w' : World ω β Link}
    (hEnter : (enter backing board).run before = (.ok true, w))
    (h : Passes board (serveRound backing) {} w config w') :
    ∃ new, w'.events = new ++ before.events ∧
      lastTaken? backing new = some (Ledger.of (commands new)).inForce ∧
      config = (Ledger.of (commands new)).asked ∧
      ((∀ command ∈ commands new, command.change?.isSome → command.reply = [1]) →
        lastTaken? backing new = some ((commands new).foldl
          (fun config command => command.change?.getD id config) {})) := by
  obtain ⟨entry, hEntry, -, hSeen, hTaken⟩ := enter_records board before w true hEnter
  obtain ⟨new, hNew, -, hKept⟩ := h.records (P := Kept backing) (fun _ => .start) .trans
    (serveRound_records backing)
  obtain ⟨served, hCommands, hLedger⟩ := hKept {}
  have hServed : commands (new ++ entry) = served := by
    rw [commands, Observer.of, List.foldr_append]
    change ((new.foldr Tally.see (entry.foldr Tally.see {})).commands).reverse = served
    rw [hSeen, hCommands]
    simp
  have hForce : lastTaken? backing (new ++ entry) = some (Ledger.of served).inForce := by
    rw [lastTaken?_append, hTaken rfl, Ledger.of]
    rw [hLedger]
    cases lastTaken? backing new <;> rfl
  refine ⟨new ++ entry, by rw [hNew, hEntry, List.append_assoc], ?_, ?_, fun hAccepted => ?_⟩
  · rw [hServed, hForce]
  · rw [hServed]
    exact (congrArg Ledger.asked (hLedger {})).symm
  · rw [hServed] at hAccepted ⊢
    rw [hForce, Ledger.of_accepted hAccepted]

/-- The bus refuses the second settings, which are those of the first command. -/
def refusing : World Unit Recording.State Link where
  own := ()
  board := { faults := { rules := [⟨"spi.configure", some 2⟩] } }
  peer := { incoming := [.byte 0x63, .byte 0x8A] }

/-- The format comes into force together with the speed, which was refused. -/
theorem settings_follow_commands_refused :
    let board := Recording.board "fake" {}
    let w := (enter .hardware).after board refusing
    let w₁ := (serveRound .hardware {}).after board w
    let w₂ := (serveRound .hardware { speed := .mhz1 }).after board w₁
    commands w₂.events = [⟨.spi, [0x63], [0]⟩, ⟨.spi, [0x8A], [1]⟩] ∧
      lastTaken? .hardware w₂.events = some { speed := .mhz1, output := .push3V3 } := by
  intro board w w₁ w₂
  have hTaken : ((enter .hardware board).run refusing).1.toOption = some true := by decide +kernel
  have hEnter : (enter .hardware board).run refusing = (.ok true, w) :=
    Prod.ext (eq_ok_of_toOption hTaken) rfl
  have hMoment : Passes board (serveRound .hardware) {} w
      ({ speed := .mhz1, output := .push3V3 } : Config) w₂ :=
    .step (.step .start (by decide +kernel)) (by decide +kernel)
  obtain ⟨new, hNew, hForce, -, -⟩ := settings_follow_commands hEnter hMoment
  have hCommands : commands w₂.events = [⟨.spi, [0x63], [0]⟩, ⟨.spi, [0x8A], [1]⟩] := by
    decide +kernel
  rw [show new = w₂.events by rw [hNew]; exact (List.append_nil _).symm] at hForce
  refine ⟨hCommands, ?_⟩
  rw [hForce, hCommands]
  decide

end Spi

end BusBench.Binary
