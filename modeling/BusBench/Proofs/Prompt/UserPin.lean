import BusBench.Proofs.Prompt.Deeds

/-!
# The pin that the user drives

Which pin the pin commands drive depends on what was picked last, and on whether anybody here still
holds chip select. A mode that is left gives chip select back, but what was picked stays picked.

* `pickedPin`: what was picked, by what was done.
* `claimsSelect`: whether the prompt holds chip select on its own account.
* `Operates`: what the pin commands exchange with the board.
* `Bench.pin_commands_drive`: which pin they drive.
-/

namespace BusBench

open Act (Ends Obeys Stays)

/-! ## Picks and claims -/

namespace Deed

/-- The deed decides which pin is picked. -/
def picks : Deed → Bool
  | pickAux | pickSelect _ | reset => true
  | session left => left
  | _ => false

/-- The prompt gives chip select back if it holds it. -/
def dropsSelect : Deed → Bool
  | pickAux | changeMode .. | reset | session _ => true
  | _ => false

/-- The prompt holds chip select afterwards, whatever held it before. -/
def takesSelect : Deed → Bool
  | pickSelect mode => mode ≠ .spi
  | _ => false

end Deed

/-- The pin that was picked last, by deeds of which the newest stands first. A reset picks AUX, and
so does the host by leaving the binary protocol. -/
def pickedPin (deeds : List Deed) : UserPin :=
  match deeds.find? Deed.picks with
  | some (.pickSelect _) => .cs
  | _ => .aux

/-- Chip select was picked in another mode than SPI, and was not given back since. -/
def claimsSelect (deeds : List Deed) : Bool :=
  (deeds.takeWhile fun deed => !deed.dropsSelect).any Deed.takesSelect

/-- The pin that the pin commands drive in a mode, by what was done before. -/
def targetPin (deeds : List Deed) (mode : ModeKind) : Pin :=
  if pickedPin deeds = .cs ∧ (mode = .spi ∨ claimsSelect deeds = true) then .cs else .aux

theorem userPin_after (deeds : List Deed) :
    (deeds.foldr Deed.apply .initial).userPin = pickedPin deeds := by
  induction deeds with
  | nil => rfl
  | cons deed deeds ih =>
    cases deed with
    | pickAux | pickSelect | reset => rfl
    | session left =>
      cases left with
      | true => rfl
      | false => exact ih
    | changeMode | other => exact ih

theorem holdsSelect_after (deeds : List Deed) :
    (deeds.foldr Deed.apply .initial).holdsSelect = claimsSelect deeds := by
  induction deeds with
  | nil => rfl
  | cons deed deeds ih =>
    cases deed with
    | pickAux | reset | session | changeMode => rfl
    | pickSelect mode =>
      have hClaims : claimsSelect (.pickSelect mode :: deeds) =
          (decide (mode ≠ .spi) || claimsSelect deeds) := rfl
      rw [hClaims, ← ih, Bool.or_comm]
      rfl
    | other => exact ih

/-! ## What is exchanged -/

/-- Objects to nothing, and keeps all that is exchanged. -/
def ledger : Monitor (List Exchange) where
  step exchange trace := some (trace ++ [exchange])

theorem ledger_run (trace earlier : List Exchange) :
    ledger.run trace earlier = some (earlier ++ trace) := by
  induction trace generalizing earlier with
  | nil => rw [List.append_nil]; rfl
  | cons exchange trace ih =>
    have hStep : ledger.run (exchange :: trace) earlier = ledger.run trace (earlier ++ [exchange]) :=
      rfl
    rw [hStep, ih, List.append_assoc]
    rfl

theorem Act.Ends.of_ledger {β τ ω ε α : Type} (board : Board β) {program : Act ω β τ ε α}
    {world : World ω β τ} {post : Except ε α → ω → List Exchange → Prop}
    (h : Obeys ledger program world.own (exchanges world.events) post) :
    Ends board program world fun r w => post r w.own (exchanges w.events) := by
  obtain ⟨trace, all, hTrace, -, hRun, hPost⟩ := h board world rfl
  have hAll : all = exchanges (program.after board world).events :=
    (Option.some.inj (hRun.symm.trans (ledger_run trace _))).trans hTrace.symm
  subst hAll
  exact hPost

/-- What the pin commands exchange with the board where they drive this pin. Those that pick a pin
drive none. -/
inductive Operates (pin : Pin) : Char → List Exchange → Prop
  | low (answer) : Operates pin 'a' [⟨.pin pin (.output false), answer⟩]
  | high (answer) : Operates pin 'A' [⟨.pin pin (.output true), answer⟩]
  | released (reason) : Operates pin '@' [⟨.pin pin .input, .error reason⟩]
  | sampled (answer) : Operates pin '@' [⟨.pin pin .input, .ok ()⟩, ⟨.pin pin .sample, answer⟩]
  | aux : Operates pin 'c' []
  | dropped : Operates pin 'c' [⟨.pin .cs .release, ()⟩]
  | select : Operates pin 'C' []
  | claimed (answer) : Operates pin 'C' [⟨.pin .cs .claim, answer⟩]

namespace Bench

variable {β τ : Type}

section Commands

variable {bench : Bench} {trace : List Exchange}

theorem selectAux_ledger : Obeys ledger (selectAux : Act Bench β τ Error Unit) bench trace
    fun _ _ trace' => trace' = trace ∨ trace' = trace ++ [⟨.pin .cs .release, ()⟩] := by
  refine .bind (.bind (.own ?_))
  change Obeys ledger (if bench.holdsSelect = true then _ else _) bench trace _
  split
  · exact .bind (.tell fun _ => ⟨_, rfl, .modifyOwn (.modifyOwn (.inr rfl))⟩)
  · exact .pure (.modifyOwn (.inl rfl))

/-- Where the claim of chip select is refused the prompt stays as it was. -/
theorem selectCs_ledger : Obeys ledger (selectCs : Act Bench β τ Error Unit) bench trace
    fun r bench' trace' =>
      r = .ok () ∧ (trace' = trace ∨ trace' = trace ++ [⟨.pin .cs .claim, .ok ()⟩]) ∨
        ∃ reason, bench' = bench ∧ trace' = trace ++ [⟨.pin .cs .claim, .error reason⟩] := by
  refine .bind (.own ?_)
  dsimp only
  split
  · refine .bind (.ask fun answer => ⟨_, rfl, ?_⟩)
    cases answer with
    | ok _ => exact .bind (.ofExcept (.bind (.modifyOwn (.modifyOwn (.inl ⟨rfl, .inr rfl⟩)))))
    | error reason => exact .throw (.inr ⟨reason, rfl, rfl⟩)
  · exact .modifyOwn (.inl ⟨rfl, .inl rfl⟩)

variable [Terminal τ]

theorem drivePin_ledger (high : Bool) (message : String) :
    Obeys ledger (drivePin high message : Act Bench β τ Error Unit) bench trace
      fun _ bench' trace' => bench' = bench ∧
        ∃ answer, trace' = trace ++ [⟨.pin bench.drivenPin (.output high), answer⟩] := by
  refine .bind (.own (.bind (.ask fun answer => ⟨_, rfl, ?_⟩)))
  have hRest : Stays ledger (· = bench)
      (trace ++ [⟨.pin bench.drivenPin (.output high), answer⟩])
      (do Act.done answer; Act.writeLine message : Act Bench β τ Error Unit) :=
    (Stays.ofExcept _).bind fun _ => .dialogue _
  exact (hRest bench rfl).mono fun r bench' trace' h => ⟨h.1, answer, h.2⟩

theorem readPin_ledger : Obeys ledger (readPin : Act Bench β τ Error Unit) bench trace
    fun _ bench' trace' => bench' = bench ∧
      ((∃ reason, trace' = trace ++ [⟨.pin bench.drivenPin .input, .error reason⟩]) ∨
        ∃ answer, trace' = trace ++
          [⟨.pin bench.drivenPin .input, .ok ()⟩, ⟨.pin bench.drivenPin .sample, answer⟩]) := by
  refine .bind (.own (.bind (.ask fun answer => ⟨_, rfl, ?_⟩)))
  cases answer with
  | error reason => exact .throw ⟨rfl, .inl ⟨reason, rfl⟩⟩
  | ok _ =>
    refine .bind (.ofExcept (.bind (.ask fun answer => ⟨_, rfl, ?_⟩)))
    have hRest : ∀ sampled, Stays ledger (· = bench) sampled
        (do
          let level ← Act.done answer
          Act.writeLine ("AUX INPUT/HI-Z, READ: " ++ levelWord level) :
            Act Bench β τ Error Unit) :=
      fun _ => (Stays.ofExcept _).bind fun _ => .dialogue _
    refine (hRest _ bench rfl).mono fun r bench' trace' h => ⟨h.1, .inr ⟨answer, ?_⟩⟩
    rw [h.2, List.append_assoc]
    rfl

end Commands

variable {board : Board β} {deeds : List Deed} {bench : Bench} {state : β} {trace : List Exchange}

theorem History.userPin (h : History board deeds bench state trace) :
    bench.userPin = pickedPin deeds :=
  (congrArg Standing.userPin h.standing).trans (userPin_after deeds)

theorem History.holdsSelect (h : History board deeds bench state trace) :
    bench.holdsSelect = claimsSelect deeds :=
  (congrArg Standing.holdsSelect h.standing).trans (holdsSelect_after deeds)

theorem History.drivenPin (h : History board deeds bench state trace) :
    bench.drivenPin = targetPin deeds bench.mode.kind := by
  have hHeld : bench.holdsSelect = true ∨ bench.mode.holdsSelect = true ↔
      bench.mode.kind = .spi ∨ claimsSelect deeds = true := by
    rw [h.holdsSelect, Mode.holdsSelect_eq_kind, decide_eq_true_iff, or_comm]
  simp only [Bench.drivenPin, targetPin, h.userPin, hHeld]

theorem openResources_refused (trace : List Exchange) (reason : Unavailable) :
    openResources (trace ++ [⟨.pin .cs .claim, .error reason⟩]) = openResources trace := by
  rw [openResources, stillOpen, List.foldl_append]
  rfl

/-- Chip select is open exactly where the mode is SPI or the prompt was made to claim it since a
mode was left last. Where it is, and chip select was picked last, the pin commands drive it; in all
other cases they drive AUX. They ask the board for nothing else, and picking a pin drives none. A
pick that is refused changes nothing at all. -/
theorem pin_commands_drive (h : History board deeds bench state trace) :
    (.pin .cs ∈ openResources trace ↔ bench.mode.kind = .spi ∨ claimsSelect deeds = true) ∧
      ∀ {τ : Type} [Terminal τ] (peer : τ) (events : List Event) (command : Char)
        (rest : List Char), exchanges events = trace → command ∈ ['c', 'C', 'a', 'A', '@'] →
        Ends board (runCommand (command :: rest)) ⟨bench, state, peer, events⟩ fun r after =>
          ∃ new, exchanges after.events = trace ++ new ∧
            Operates (targetPin deeds bench.mode.kind) command new ∧
            (command ∉ ['c', 'C'] → after.own = bench) ∧
            (command = 'C' → r.isOk = false → after.own = bench ∧
              openResources (exchanges after.events) = openResources trace) := by
  refine ⟨?_, ?_⟩
  · rw [h.atPrompt.mem_open_iff, resources, h.holdsSelect]
    by_cases hSelect : bench.mode.kind = .spi ∨ claimsSelect deeds = true
    · simp [hSelect]
    · simp [hSelect]
  · rintro τ _ peer events command rest rfl hCommand
    rw [← h.drivenPin]
    simp only [List.mem_cons, List.not_mem_nil, or_false] at hCommand
    rcases hCommand with rfl | rfl | rfl | rfl | rfl
    · change Ends board (andContinue selectAux) _ _
      refine continued ((Ends.of_ledger board selectAux_ledger).mono fun r after hTrace => ?_)
      rcases hTrace with hKept | hReleased
      · exact ⟨[], by rw [hKept, List.append_nil], .aux, by simp, by simp⟩
      · exact ⟨_, hReleased, .dropped, by simp, by simp⟩
    · change Ends board (andContinue selectCs) _ _
      refine continued ((Ends.of_ledger board selectCs_ledger).mono fun r after hTrace => ?_)
      rcases hTrace with ⟨rfl, hKept | hClaimed⟩ | ⟨reason, hOwn, hRefused⟩
      · exact ⟨[], by rw [hKept, List.append_nil], .select, by simp, fun _ hFailed => by cases hFailed⟩
      · exact ⟨_, hClaimed, .claimed _, by simp, fun _ hFailed => by cases hFailed⟩
      · refine ⟨_, hRefused, .claimed _, by simp, fun _ _ => ⟨hOwn, ?_⟩⟩
        rw [hRefused, openResources_refused]
    · change Ends board (andContinue (drivePin false "AUX LOW")) _ _
      refine continued ((Ends.of_ledger board (drivePin_ledger _ _)).mono fun r after hDriven => ?_)
      obtain ⟨hOwn, answer, hTrace⟩ := hDriven
      exact ⟨_, hTrace, .low answer, fun _ => hOwn, by simp⟩
    · change Ends board (andContinue (drivePin true "AUX HIGH")) _ _
      refine continued ((Ends.of_ledger board (drivePin_ledger _ _)).mono fun r after hDriven => ?_)
      obtain ⟨hOwn, answer, hTrace⟩ := hDriven
      exact ⟨_, hTrace, .high answer, fun _ => hOwn, by simp⟩
    · change Ends board (andContinue readPin) _ _
      refine continued ((Ends.of_ledger board readPin_ledger).mono fun r after hRead => ?_)
      obtain ⟨hOwn, ⟨reason, hTrace⟩ | ⟨answer, hTrace⟩⟩ := hRead
      · exact ⟨_, hTrace, .released reason, fun _ => hOwn, by simp⟩
      · exact ⟨_, hTrace, .sampled answer, fun _ => hOwn, by simp⟩

/-- The 1-Wire mode takes chip select from the prompt, but not the pick: until it is picked again,
AUX is driven. -/
theorem pin_commands_drive_again :
    let board := Recording.board "fake" {}
    let picked := (runCommand "C".toList).after board (recorded {} {})
    let entered := (runCommand "m 2".toList).after board picked
    let again := (runCommand "C".toList).after board entered
    let left : List Deed := [.changeMode .oneWire false, .pickSelect .hiz]
    History board left entered.own entered.board (exchanges entered.events) ∧
      targetPin left .oneWire = .aux ∧
      History board (.pickSelect .oneWire :: left) again.own again.board (exchanges again.events) ∧
      'A' ∈ ['c', 'C', 'a', 'A', '@'] ∧ .pin .cs ∈ openResources (exchanges again.events) ∧
      ∃ new, exchanges ((runCommand "A".toList).after board again).events =
        exchanges again.events ++ new ∧ Operates .cs 'A' new := by
  intro board picked entered again left
  have hStart := history_recorded (s := {}) {} rfl
  have hPicked : commandDeed board "C".toList (recorded {} {}) = .pickSelect .hiz := by
    decide +kernel
  have hEntered : commandDeed board "m 2".toList picked = .changeMode .oneWire false := by
    decide +kernel
  have hAgain : commandDeed board "C".toList entered = .pickSelect .oneWire := by
    decide +kernel
  have hLeft : History board left entered.own entered.board (exchanges entered.events) := by
    have hBoth := (hStart.command "C".toList rfl).command "m 2".toList rfl
    rw [hPicked, hEntered] at hBoth
    exact hBoth
  have hHistory : History board (.pickSelect .oneWire :: left) again.own again.board
      (exchanges again.events) := by
    have hAll := hLeft.command "C".toList rfl
    rw [hAgain] at hAll
    exact hAll
  have hKind : again.own.mode.kind = .oneWire := by decide +kernel
  have hTarget : targetPin (.pickSelect .oneWire :: left) again.own.mode.kind = .cs := by
    rw [hKind]
    rfl
  have hCommand : 'A' ∈ ['c', 'C', 'a', 'A', '@'] := by decide
  obtain ⟨hOpen, hCommands⟩ := pin_commands_drive hHistory
  obtain ⟨new, hNew, hOperates, -⟩ := hCommands again.peer again.events 'A' [] rfl hCommand
  rw [hTarget] at hOperates
  exact ⟨hLeft, rfl, hHistory, hCommand, hOpen.mpr (.inr rfl), new, hNew, hOperates⟩

end Bench

end BusBench
