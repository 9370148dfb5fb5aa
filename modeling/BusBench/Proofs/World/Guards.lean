import BusBench.Board.Claim
import BusBench.Proofs.Terminals.Answers
import BusBench.Proofs.World.Monitors

/-!
# Programs that never look into a character

Nothing recovers from a literal that would be cut inside a character. A program is guarded against
it when it never fails in this way, on any board and with any peer. What is true of its own state
beforehand is true of it afterwards, too, unless the link failed, which ends everything anyway.

* `Act.Guards`: guarded programs.
* `Act.Guards.bind`, `Act.Guards.dialogue`, `Act.Guards.askUntil`: how they are put together.
-/

namespace BusBench

open Dialogue (Returns)

theorem LinkOnly.ne_split {α : Type} {r : Except Error α} (h : LinkOnly r) :
    r ≠ .error .splitCharacter := by
  rintro rfl
  cases h _ rfl

theorem LinkOnly.returns_ne_split {τ α : Type} {talk : Dialogue τ Error α}
    (h : Returns talk LinkOnly) : Returns talk (· ≠ .error .splitCharacter) :=
  h.mono fun _ => LinkOnly.ne_split

namespace Act

variable {ω β τ α γ σ : Type}

/-- A dialogue leaves the own state alone. -/
theorem Ends.told {ε : Type} {board : Board β} {world : World ω β τ} {talk : Dialogue τ ε α}
    {post : Except ε α → Prop} (h : Returns talk post) :
    Ends board (Act.dialogue talk) world fun r w => post r ∧ w.own = world.own :=
  ⟨h _, rfl⟩

/-- The answer of the board may be anything. -/
theorem Ends.ask_any {ε : Type} {board : Board β} {world : World ω β τ} {request : Request}
    {post : Except ε request.Answer → World ω β τ → Prop}
    (h : ∀ answer w, post (.ok answer) w) :
    Ends board (Act.ask request : Act ω β τ ε request.Answer) world post :=
  h _ _

/-- A program with another own state leaves its new value behind. -/
theorem Ends.withOwn {ψ δ ε : Type} {board : Board β} {world : World ω β τ} {own : ψ}
    {inner : Act ψ β τ ε α} {post : Except δ (Except ε α × ψ) → World ω β τ → Prop}
    (h : Ends board inner ⟨own, world.board, world.peer, world.events⟩ fun r w =>
      post (.ok (r, w.own)) ⟨world.own, w.board, w.peer, w.events⟩) :
    Ends board (Act.withOwn own inner) world post :=
  h

/-- Where the own state is as `P` says, the program does not come to a literal that cannot be looked
at, and leaves the state as `P` says unless the link failed. -/
def Guards (P : ω → Prop) (program : Act ω β τ Error α) : Prop :=
  ∀ (board : Board β) (world : World ω β τ), P world.own →
    Ends board program world fun r w =>
      r ≠ .error .splitCharacter ∧ (r ≠ .error .link → P w.own)

namespace Guards

variable {P : ω → Prop} {program : Act ω β τ Error α}

theorem pure (a : α) : Guards P (Pure.pure a : Act ω β τ Error α) :=
  fun _ _ hOwn => ⟨nofun, fun _ => hOwn⟩

theorem throw {e : Error} (h : e ≠ .splitCharacter) :
    Guards P (MonadExcept.throw e : Act ω β τ Error α) :=
  fun _ _ hOwn => ⟨fun hSplit => h (Except.error.inj hSplit), fun _ => hOwn⟩

theorem bind {next : α → Act ω β τ Error γ} (h : Guards P program)
    (hNext : ∀ a, Guards P (next a)) : Guards P (program >>= next) := by
  intro board world hOwn
  refine .bind ((h board world hOwn).mono fun r w hFirst => ?_)
  obtain ⟨hSplit, hKept⟩ := hFirst
  cases r with
  | ok a => exact hNext a board w (hKept nofun)
  | error e =>
    refine ⟨fun h => hSplit ?_, fun h => hKept fun hLink => h ?_⟩
    · rw [Except.error.inj h]
    · rw [Except.error.inj hLink]

theorem ite {condition : Prop} [Decidable condition] {yes no : Act ω β τ Error α}
    (hYes : Guards P yes) (hNo : Guards P no) :
    Guards P (if condition then yes else no) := by
  split
  · exact hYes
  · exact hNo

theorem ask (request : Request) : Guards P (Act.ask request : Act ω β τ Error request.Answer) :=
  fun _ _ hOwn => ⟨nofun, fun _ => hOwn⟩

theorem tell (request : Request) : Guards P (Act.tell request : Act ω β τ Error Unit) :=
  (ask request).bind fun _ => pure ()

theorem reach (point : Point) : Guards P (Act.reach point : Act ω β τ Error Unit) :=
  fun _ _ hOwn => ⟨nofun, fun _ => hOwn⟩

theorem dialogue {talk : Dialogue τ Error α} (h : Returns talk (· ≠ .error .splitCharacter)) :
    Guards P (Act.dialogue talk : Act ω β τ Error α) :=
  fun _ _ hOwn => ⟨h _, fun _ => hOwn⟩

/-- What a dialogue answers decides whether the rest is guarded. -/
theorem dialogue_bind {talk : Dialogue τ Error α} {next : α → Act ω β τ Error γ}
    (h : Returns talk fun
      | .ok a => Guards P (next a)
      | .error e => e ≠ .splitCharacter) : Guards P (Act.dialogue talk >>= next) := by
  intro board world hOwn
  refine .bind ((Ends.told h).mono fun r w hTold => ?_)
  obtain ⟨hTold, hSame⟩ := hTold
  cases r with
  | ok a => exact hTold board w (hSame ▸ hOwn)
  | error e => exact ⟨fun hSplit => hTold (Except.error.inj hSplit), fun _ => hSame ▸ hOwn⟩

theorem ofExcept {result : Except Error α} (h : result ≠ .error .splitCharacter) :
    Guards P (Act.ofExcept result : Act ω β τ Error α) := by
  cases result with
  | ok a => exact pure a
  | error e => exact throw fun hSplit => h (by rw [hSplit])

theorem done (answer : Except BusError α) : Guards P (Act.done answer : Act ω β τ Error α) := by
  refine ofExcept ?_
  cases answer <;> nofun

theorem granted (answer : Except Unavailable α) :
    Guards P (Act.ofExcept (answer.mapError .unavailable) : Act ω β τ Error α) := by
  refine ofExcept ?_
  cases answer <;> nofun

theorem claimed (answer : Except Unavailable Unit) :
    Guards P (Act.claimed answer : Act ω β τ Error Unit) :=
  granted answer

theorem own_bind {next : ω → Act ω β τ Error α} (h : ∀ x, P x → Guards P (next x)) :
    Guards P (Act.own >>= next) :=
  fun board world hOwn => .bind (.own (h world.own hOwn board world hOwn))

theorem modifyOwn {change : ω → ω} (h : ∀ x, P x → P (change x)) :
    Guards P (Act.modifyOwn change : Act ω β τ Error Unit) :=
  fun _ world hOwn => ⟨nofun, fun _ => h world.own hOwn⟩

theorem board : Guards P (MonadReader.read : Act ω β τ Error (Board β)) :=
  fun _ _ hOwn => ⟨nofun, fun _ => hOwn⟩

/-- Where a failure of the link is passed on, an attempt is guarded as a step without an attempt is.
-/
theorem attempt_bind {next : Except Error α → Act ω β τ Error γ} (h : Guards P program)
    (hNext : ∀ r, r ≠ .error .splitCharacter → r ≠ .error .link → Guards P (next r))
    (hLink : ∀ (board : Board β) (world : World ω β τ),
      Ends board (next (.error .link)) world fun r _ => r = .error .link) :
    Guards P (Act.attempt program >>= next) := by
  intro board world hOwn
  refine .bind (.attempt ((h board world hOwn).mono fun r w hFirst => ?_))
  obtain ⟨hSplit, hKept⟩ := hFirst
  by_cases hFailed : r = .error .link
  · subst hFailed
    refine (hLink board w).mono fun r w hr => ?_
    rw [hr]
    exact ⟨nofun, fun h => absurd rfl h⟩
  · exact hNext r hSplit hFailed board w (hKept hFailed)

/-- Even where the link fails, a dialogue leaves the own state alone. -/
theorem attempt_dialogue_bind {talk : Dialogue τ Error α}
    {next : Except Error α → Act ω β τ Error γ} (h : Returns talk (· ≠ .error .splitCharacter))
    (hNext : ∀ r, r ≠ .error .splitCharacter → Guards P (next r)) :
    Guards P (Act.attempt (Act.dialogue talk) >>= next) := by
  intro board world hOwn
  refine .bind (.attempt ((Ends.told h).mono fun r w hTold => ?_))
  exact hNext r hTold.1 board w (hTold.2 ▸ hOwn)

/-! ## Loops -/

theorem forM {body : α → Act ω β τ Error PUnit} (xs : List α) (h : ∀ a, Guards P (body a)) :
    Guards P (xs.forM body) := by
  induction xs with
  | nil => exact pure _
  | cons a xs ih => exact (h a).bind fun _ => ih

theorem filterM {test : α → Act ω β τ Error Bool} (xs : List α) (h : ∀ a, Guards P (test a)) :
    Guards P (xs.filterM test) := by
  have hAux : ∀ found, Guards P (xs.filterAuxM test found) := by
    induction xs with
    | nil => exact fun found => pure found
    | cons a xs ih => exact fun found => (h a).bind fun _ => ih _
  exact (hAux []).bind fun _ => pure _

theorem askUntil [Terminal τ] {round : σ → Act ω β τ Error (σ ⊕ α)}
    (h : ∀ state, Guards P (round state)) (state : σ) : Guards P (Act.askUntil round state) := by
  have hRounds (limit : Nat) (state : σ) :
      Guards P (rounds (MonadExcept.throw .link) round limit state) := by
    induction limit generalizing state with
    | zero => exact throw nofun
    | succ limit ih =>
      refine (h state).bind fun next => ?_
      cases next with
      | inl state' => exact ih state'
      | inr a => exact pure a
  exact fun board world hOwn => hRounds (Terminal.remaining world.peer + 1) state board world hOwn

/-! ## Buses -/

theorem claimI2c (clock data : Pin) (hz : Nat) :
    Guards P (Act.claimI2c clock data hz : Act ω β τ Error _) := by
  refine (ask _).bind fun answer => ?_
  cases answer with
  | ok _ => exact pure _
  | error reason => exact (ask _).bind fun _ => pure _

theorem claimSpi : Guards P (Act.claimSpi : Act ω β τ Error _) := by
  refine (ask _).bind fun answer => ?_
  cases answer with
  | ok _ => exact pure _
  | error reason => exact (ask _).bind fun _ => pure _

theorem scanI2c (backing : Backing) : Guards P (Act.scanI2c backing : Act ω β τ Error _) :=
  filterM _ fun _ => (ask _).bind fun _ => pure _

theorem readSpi (backing : Backing) (count : Nat) :
    Guards P (Act.readSpi backing count : Act ω β τ Error _) :=
  (ask _).bind fun _ => pure _

theorem writeSpi (backing : Backing) (bytes : List UInt8) :
    Guards P (Act.writeSpi backing bytes : Act ω β τ Error _) :=
  (ask _).bind fun _ => pure _

theorem takeUart : Guards P (Act.takeUart : Act ω β τ Error _) :=
  (ask _).bind fun _ => ite (pure _) ((ask _).bind fun _ => pure _)

/-! ## At a console -/

theorem linkOnly {talk : Dialogue τ Error α} (h : Returns talk LinkOnly) :
    Guards P (Act.dialogue talk : Act ω β τ Error α) :=
  dialogue (LinkOnly.returns_ne_split h)

theorem writeLine (text : String) : Guards P (Act.writeLine text : Act ω β Console Error Unit) :=
  linkOnly (Terminal.writeLine_returns text)

theorem writeLines (lines : List String) :
    Guards P (lines.forM Act.writeLine : Act ω β Console Error PUnit) :=
  forM lines fun _ => writeLine _

theorem write (text : String) : Guards P (Act.write text : Act ω β Console Error Unit) :=
  linkOnly (Console.onLink_linkOnly _)

theorem writeBytes (bytes : List UInt8) :
    Guards P (Act.dialogue (Terminal.writeBytes bytes) : Act ω β Console Error Unit) :=
  linkOnly (Console.onLink_linkOnly _)

theorem pollKey : Guards P (Act.dialogue Terminal.pollKey : Act ω β Console Error _) :=
  linkOnly (Console.onLink_linkOnly _)

theorem readLine (question : String) :
    Guards P (Act.dialogue (Terminal.readLine question) : Act ω β Console Error Line) := by
  refine dialogue ((Console.readLine_returns question).mono fun r hLine => ?_)
  rintro rfl
  cases hLine

theorem resolve (key : UInt8) (table : MacroTable α) :
    Guards P (Act.dialogue (table.resolve key) : Act ω β Console Error (Option α)) :=
  linkOnly (MacroTable.resolve_returns key table)

theorem select (message : String) {options : List String} {default : Nat}
    (hDefault : default < options.length) :
    Guards P (Act.dialogue (Terminal.select message options default) :
      Act ω β Console Error Nat) :=
  dialogue ((Terminal.select_returns message hDefault).mono fun _ => Terminal.Picked.ne_split)

end Guards

end Act

end BusBench
