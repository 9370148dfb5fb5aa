import BusBench.Proofs.Terminals.Accord
import BusBench.Proofs.World.Spending
import BusBench.Terminal.Console

/-!
# What is spent at a console

A line, and an option of a menu, cannot be waited for without reading something. A console is in
accord with itself as long as what has been taken from its link is accounted for, so whatever comes
to the same on terminals in accord spends no more than is there, and ends where the link fails.

* `Console.readLine_spends`, `Console.select_spends`: lines and menus.
* `Console.spending`: the accord of a console with itself.
* `Console.spending_bond`, `Console.spending_keys`: programs are held to it.
* `Console.spends_of_accords`: what follows for a program.
-/

namespace BusBench

namespace Terminal

variable {τ : Type} [Terminal τ]

/-- One round of a menu, which asks for an option. -/
def menuRound (question : String) (count default : Nat) (_ : Unit) :
    Dialogue τ Error (Unit ⊕ Nat) := do
  match ← readLine question with
  | .modeSwitch => throw .modeSwitch
  | .text answer =>
    match choice? count default answer with
    | some index => return .inr index
    | none =>
      writeLine "Invalid choice, try again"
      return .inl ()

/-- A menu is shown, and then asks until an option is picked. -/
theorem select_eq (message : String) (options : List String) (default : Nat) :
    (select message options default : Dialogue τ Error Nat) = (do
      writeLine message
      writeOptions 1 options
      askUntil (menuRound ("(" ++ Text.decimal (default + 1) ++ ")>") options.length default) ()) :=
  rfl

end Terminal

namespace Console

open Dialogue (Spends)

variable {ω β α σ : Type} {n : Nat}

/-- Of the failures of the prompt only one is a failure of the link. -/
def meter : Meter Console Error where
  supply console := console.link.incoming.length
  ends e := decide (e = .link)

/-! ## Dialogues -/

theorem onLink_spends {program : Dialogue Link LinkError α} (h : Spends Link.meter n program) :
    Spends meter n (onLink program) :=
  h.within (fun _ => rfl) (fun _ _ => rfl) fun _ => rfl

theorem write_spends (text : String) : Spends meter 0 (Terminal.write text : Dialogue Console _ _) :=
  onLink_spends (.sendAll _)

theorem writeBytes_spends (bytes : List UInt8) :
    Spends meter 0 (Terminal.writeBytes bytes : Dialogue Console _ _) :=
  onLink_spends (.sendAndFlush bytes)

theorem pollKey_spends : Spends meter 1 (Terminal.pollKey : Dialogue Console _ _) :=
  onLink_spends .tryRead

theorem readLineRound_spends (line : List Char) : Spends meter 1 (readLineRound line) := by
  refine (onLink_spends .read).bind fun byte => Spends.peer.bind fun console => ?_
  obtain ⟨heard, detector⟩ := console.detector.feed byte
  dsimp only
  refine Spends.bind (.modifyPeer fun _ => rfl) fun _ => ?_
  cases heard with
  | nothing => exact .pure _
  | modeSwitch => exact .pure _
  | data byte =>
    refine Spends.bind (.modifyPeer fun _ => rfl) fun _ => ?_
    cases edit console.afterReturn line byte with
    | finish => exact (onLink_spends (.sendAll _)).bind fun _ => .pure _
    | «continue» line echo => exact (onLink_spends (.sendAndFlush echo)).bind fun _ => .pure _

theorem readLine_spends (question : String) : Spends meter 1 (readLine question) :=
  (onLink_spends (.sendAndFlush _)).bind_next fun _ =>
    .loop readLineRound_spends (fun _ => Nat.lt_succ_self _) []

theorem menuRound_spends (question : String) (count default : Nat) (u : Unit) :
    Spends meter 1 (Terminal.menuRound question count default u : Dialogue Console _ _) := by
  refine (readLine_spends question).bind fun line => ?_
  cases line with
  | modeSwitch => exact .throw rfl
  | text answer =>
    dsimp only
    cases Terminal.choice? count default answer with
    | some index => exact .pure _
    | none => exact (write_spends _).bind fun _ => .pure _

theorem writeOptions_spends (n : Nat) (options : List String) :
    Spends meter 0 (Terminal.writeOptions n options : Dialogue Console _ _) := by
  induction options generalizing n with
  | nil => exact .pure _
  | cons option options ih => exact (write_spends _).bind fun _ => ih (n + 1)

theorem select_spends (message : String) (options : List String) (default : Nat) :
    Spends meter 0 (Terminal.select message options default : Dialogue Console _ _) := by
  rw [Terminal.select_eq]
  refine (write_spends _).bind fun _ => (writeOptions_spends 1 options).bind fun _ => ?_
  have hMenu : Spends meter 1 (Terminal.askUntil (Terminal.menuRound
      ("(" ++ Text.decimal (default + 1) ++ ")>") options.length default) () :
        Dialogue Console _ _) :=
    .loop (menuRound_spends _ _ _) (fun _ => Nat.lt_succ_self _) ()
  exact hMenu.mono (Nat.zero_le 1)

/-! ## The accord of a console with itself -/

/-- Since this start, what is no longer to arrive has been taken, and the link has failed if and only
if the talk is over. -/
def spending (start : Told Console) : Accord Console Console where
  tie ended told told' := told = told' ∧ ∃ new, told.2 = new ++ start.2 ∧
    Spent ended (meter.supply start.1) (meter.supply told.1) new
  ends := meter.ends
  ends_cases hEnds := .inr (of_decide_eq_true hEnds)
  tie_cons := by
    rintro ended told told' event hApart ⟨rfl, new, hNew, hSpent⟩
    have hLater : ∀ other ∈ [event], other.isPeer = false := by
      intro other hOther
      rw [List.mem_singleton.mp hOther]
      exact hApart
    exact ⟨rfl, event :: new, congrArg (event :: ·) hNew, hSpent.behind hLater⟩

variable {start : Told Console} {said : α → Bool}

theorem overAfter_eq (hSaid : ∀ a, said a = false) (r : Except Error α) :
    overAfter (spending start).ends said r = meter.isOver r := by
  cases r with
  | ok a => exact hSaid a
  | error e => rfl

/-- A dialogue that spends what is there keeps the accord. -/
theorem accords_of_spends {talk : Dialogue Console Error α} (h : Spends meter 0 talk)
    (hSaid : ∀ a, said a = false) : Dialogue.Accords (spending start) false talk talk said := by
  refine fun base base' => ⟨fun _ => id, ?_⟩
  rintro ⟨p, events⟩ ⟨p', events'⟩ - ⟨hSame, earlier, hEarlier, hSpent⟩
  obtain ⟨rfl, hEvents⟩ := Prod.mk.inj hSame
  obtain ⟨r, q, new, hRun, hPassage⟩ := h p
  rw [hRun, hRun]
  refine ⟨rfl, ?_, new.map .peer ++ earlier, ?_, ?_⟩
  · simp only [List.map_append, List.append_assoc]
    exact congrArg (fun events => (q, new.map Event.peer ++ events)) hEvents
  · simp only [List.map_append, List.append_assoc]
    exact congrArg (new.map Event.peer ++ ·) hEarlier
  · rw [overAfter_eq hSaid]
    exact hSpent.append hPassage.spent

theorem keeps_of_spends {talk : Dialogue Console Error α} (h : Spends meter 0 talk) :
    Dialogue.Keeps (spending start) talk talk :=
  accords_of_spends h fun _ => rfl

theorem spending_bond : (spending start).Bond where
  write text := keeps_of_spends (write_spends text)
  writeBytes bytes := keeps_of_spends (writeBytes_spends bytes)
  readLine question := accords_of_spends ((readLine_spends question).mono (Nat.zero_le 1)) fun line =>
    by cases line <;> rfl
  select message options default := keeps_of_spends (select_spends message options default)

/-! ## Programs -/

/-- A program that spends what is there keeps the accord. -/
theorem act_keeps_of_spends {program : Act ω β Console Error α} (h : Act.Spends meter 0 program) :
    Act.Keeps (spending start) program program := by
  refine fun board => ⟨fun _ => id, ?_⟩
  rintro ⟨own, s, peer, events⟩ ⟨own', s', peer', events'⟩ - ⟨hOwn, hBoard, hTold⟩
  obtain ⟨hSame, earlier, hEarlier, hSpent⟩ := hTold
  obtain rfl : own = own' := hOwn
  obtain rfl : s = s' := hBoard
  obtain ⟨rfl, rfl⟩ := Prod.mk.inj hSame
  obtain ⟨new, hNew, hPassage⟩ := h board ⟨own, s, peer, events⟩
  refine ⟨rfl, rfl, rfl, rfl, new ++ earlier, ?_, ?_⟩
  · rw [List.append_assoc, ← hEarlier]
    exact hNew
  · rw [overAfter_eq fun _ => rfl]
    exact hSpent.append hPassage.spent

/-- Two programs that keep the accord from every start are the same, as far as their runs go, and
spend what is there. -/
theorem spends_of_accords {program program' : Act ω β Console Error α}
    (hSaid : ∀ a, said a = false)
    (h : ∀ start, Act.Accords (spending start) false program program' said) :
    Act.Spends meter 0 program ∧ program = program' := by
  -- Each run is looked at from its own start, where the accord says everything about it.
  have hRun : ∀ (board : Board β) (w : World ω β Console),
      ((program board).run w).1 = ((program' board).run w).1 ∧
        (spending (w.peer, w.events)).Worlds
          (overAfter (spending (w.peer, w.events)).ends said ((program board).run w).1)
          ((program board).run w).2 ((program' board).run w).2 :=
    fun board w => (h _ board).agrees w w not_false ⟨rfl, rfl, rfl, [], rfl, .nil⟩
  refine ⟨fun board w => ?_, funext fun board => funext fun w => ?_⟩
  · obtain ⟨-, -, -, -, new, hNew, hSpent⟩ := hRun board w
    rw [overAfter_eq hSaid] at hSpent
    exact ⟨new, hNew, hSpent, fun _ _ => Nat.zero_le _⟩
  · obtain ⟨hResult, hOwn, hBoard, hTold, -⟩ := hRun board w
    obtain ⟨hPeer, hEvents⟩ := Prod.mk.inj hTold
    have hWorlds : ((program board).run w).2 = ((program' board).run w).2 := by
      generalize ((program board).run w).2 = v, ((program' board).run w).2 = v'
        at hOwn hBoard hPeer hEvents ⊢
      obtain ⟨own, s, peer, events⟩ := v
      obtain ⟨own', s', peer', events'⟩ := v'
      obtain rfl : own = own' := hOwn
      obtain rfl : s = s' := hBoard
      obtain rfl : peer = peer' := hPeer
      obtain rfl : events = events' := hEvents
      rfl
    exact Prod.ext hResult hWorlds

/-! ## Keys -/

theorem keyed_spends {round round' : σ → Act ω β Console Error (σ ⊕ α)}
    (h : Accord.Keyed round round') (x : σ) : Act.Spends meter 1 (round x) ∧ round x = round' x := by
  obtain ⟨next, next', hRound, hRound', hNext⟩ := h
  have hRest : ∀ key?, Act.Spends meter 0 (next x key?) ∧ next x key? = next' x key? := fun key? =>
    spends_of_accords (fun _ => rfl) fun start => hNext spending_bond x key?
  rw [hRound, hRound']
  refine ⟨(Act.Spends.dialogue pollKey_spends).bind fun key? => (hRest key?).1, ?_⟩
  exact congrArg _ (funext fun key? => (hRest key?).2)

theorem askUntil_spends {round : σ → Act ω β Console Error (σ ⊕ α)}
    (h : ∀ x, Act.Spends meter 1 (round x)) (x : σ) : Act.Spends meter 1 (Act.askUntil round x) :=
  fun _ _ => Act.Spends.rounds h (Nat.lt_succ_self _) x

theorem spending_keys : (spending start).Keys where
  askUntil {ω β σ α round round'} hKeyed x := by
    have hSame : round = round' := funext fun x => (keyed_spends hKeyed x).2
    rw [← hSame]
    have hLoop : Act.Spends meter 1 (Act.askUntil round x) :=
      askUntil_spends (fun x => (keyed_spends hKeyed x).1) x
    exact act_keeps_of_spends (hLoop.mono (Nat.zero_le 1))

end Console

end BusBench
