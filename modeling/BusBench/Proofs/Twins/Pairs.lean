import BusBench.Binary.Session
import BusBench.Proofs.Twins.Boards

/-!
# A program on two boards

A program that runs on the simulated board with controllers and on the one without them comes to the
same, whichever bus it holds, as long as the prompt does not ask for the bus of its I2C mode: there
the two boards part, because only a controller can be turned down.

* `Tie`: what the own states of the two programs have to do with each other.
* `Twin`: the worlds of the two programs.
* `Matches`, `Keeps`: both programs come to the same.
* `Keeps.bind`, `Keeps.ask`, `Keeps.dialogue`, `Keeps.rounds`: the parts of programs.
-/

namespace BusBench.Twins

open Simulated (Alike IsPlain State)

/-! ## Worlds -/

/-- What two own states have to do with each other, and with SPI being in use. -/
abbrev Tie (ω : Type) := Bool → ω → ω → Prop

/-- The own states are related by `T`, and SPI is in use or not. -/
def At {ω : Type} (k : Bool) (T : ω → ω → Prop) : Tie ω :=
  fun opened x x' => opened = k ∧ T x x'

/-- The worlds of two programs that cannot be told apart by whom they talk to. -/
structure Twin {ω τ : Type} (O : Tie ω) (hard soft : World ω State τ) : Prop where
  boards : ∃ opened, Alike opened hard.board soft.board ∧ O opened hard.own soft.own
  peer : soft.peer = hard.peer
  talk : soft.events.filter Event.isPeer = hard.events.filter Event.isPeer

/-- Whether the prompt asked for the bus of its I2C mode. -/
def asksForI2c (events : List Event) : Bool :=
  events.any fun
    | .reached .i2cMode => true
    | _ => false

theorem asksForI2c_of_suffix {events events' : List Event} (hSuffix : events <:+ events')
    (h : asksForI2c events = true) : asksForI2c events' = true := by
  obtain ⟨new, rfl⟩ := hSuffix
  rw [asksForI2c, List.any_append]
  exact Bool.or_eq_true_iff.mpr (Or.inr h)

variable {ω τ κ ε δ α γ σ : Type}

/-- What a program comes to on the simulated board. -/
abbrev runOn (p : Act ω State τ ε α) (world : World ω State τ) : Except ε α × World ω State τ :=
  (p Simulated.board).run world

/-- The program forgets nothing of what has happened. -/
def Grows (p : Act ω State τ ε α) : Prop :=
  ∀ world, world.events <:+ (runOn p world).2.events

theorem run_bind (p : Act ω State τ ε α) (f : α → Act ω State τ ε γ) (world : World ω State τ) :
    runOn (p >>= f) world =
      (ExceptT.bindCont (f · Simulated.board) (runOn p world).1).run (runOn p world).2 :=
  rfl

theorem Grows.bind {p : Act ω State τ ε α} {f : α → Act ω State τ ε γ} (h : Grows p)
    (hNext : ∀ a, Grows (f a)) : Grows (p >>= f) := by
  intro world
  rw [run_bind]
  have hFirst := h world
  generalize runOn p world = done at hFirst ⊢
  obtain ⟨_ | a, world'⟩ := done
  · exact hFirst
  · exact hFirst.trans (hNext a world')

theorem Grows.ask (request : Request) :
    Grows (Act.ask request : Act ω State τ ε request.Answer) :=
  fun _ => List.suffix_cons _ _

theorem Grows.tell (request : Request) : Grows (Act.tell request : Act ω State τ ε Unit) :=
  (Grows.ask request).bind fun _ _ => List.suffix_rfl

theorem Grows.dialogue (program : Dialogue τ ε α) :
    Grows (Act.dialogue program : Act ω State τ ε α) :=
  fun _ => List.suffix_append _ _

theorem Grows.ofExcept (r : Except ε α) : Grows (Act.ofExcept r : Act ω State τ ε α) := by
  cases r <;> exact fun _ => List.suffix_rfl

theorem Grows.attempt {p : Act ω State τ ε α} (h : Grows p) :
    Grows (Act.attempt p : Act ω State τ δ (Except ε α)) :=
  h

/-! ## Claims -/

/-- A claim that falls back on bit-banging. -/
def claimOf (hardware bitBanged : Act ω State τ ε (Except Unavailable Unit)) :
    Act ω State τ ε (Except Unavailable Backing) := do
  match ← hardware with
  | .ok _ => return .ok .hardware
  | .error _ =>
    let answer ← bitBanged
    return answer.map fun _ => .bitBanged

section Claims

variable {hardware bitBanged : Act ω State τ ε (Except Unavailable Unit)}
  {world world' world'' : World ω State τ}

theorem run_claimOf_granted (h : runOn hardware world = (.ok (.ok ()), world')) :
    runOn (claimOf hardware bitBanged) world = (.ok (.ok .hardware), world') := by
  unfold claimOf
  rw [run_bind, h]
  rfl

theorem run_claimOf_refused {reason : Unavailable}
    (h : runOn hardware world = (.ok (.error reason), world'))
    (h' : runOn bitBanged world' = (.ok (.ok ()), world'')) :
    runOn (claimOf hardware bitBanged) world = (.ok (.ok .bitBanged), world'') := by
  unfold claimOf
  rw [run_bind, h]
  change runOn (bitBanged >>= _) world' = _
  rw [run_bind, h']
  rfl

theorem grows_claimOf (h : Grows hardware) (h' : Grows bitBanged) :
    Grows (claimOf hardware bitBanged) := by
  refine h.bind fun answer => ?_
  cases answer with
  | ok _ => exact fun _ => List.suffix_rfl
  | error _ => exact h'.bind fun _ _ => List.suffix_rfl

end Claims

theorem runOn_ask {request : Request} {world : World ω State τ} {answer : request.Answer}
    {board : State} (h : Simulated.answer request world.board = (answer, board)) :
    runOn (Act.ask request : Act ω State τ ε _) world =
      (.ok answer, { world with board, events := .board ⟨request, answer⟩ :: world.events }) := by
  change (Except.ok (Simulated.answer request world.board).1, { world with
    board := (Simulated.answer request world.board).2
    events := .board ⟨request, (Simulated.answer request world.board).1⟩ :: world.events }) = _
  rw [h]

theorem claimI2c_eq (clock data : Pin) (hz : Nat) :
    (Act.claimI2c clock data hz : Act ω State τ ε _) =
      claimOf (Act.ask (.i2c .hardware (.claim clock data hz)))
        (Act.ask (.i2c .bitBanged (.claim clock data hz))) := by
  unfold Act.claimI2c claimOf
  congr 1
  funext answer
  cases answer <;> rfl

theorem grows_claimI2c (clock data : Pin) (hz : Nat) :
    Grows (Act.claimI2c clock data hz : Act ω State τ ε _) :=
  claimI2c_eq (ω := ω) clock data hz ▸ grows_claimOf (Grows.ask _) (Grows.ask _)

/-! ## Pairs of programs -/

/-- Both results are failures for the same reason, or both are answers, related by `R`. -/
inductive Related (R : α → α → Prop) : Except ε α → Except ε α → Prop
  | ok {a a'} (h : R a a') : Related R (.ok a) (.ok a')
  | error (e) : Related R (.error e) (.error e)

theorem Related.eq {r r' : Except ε α} (h : Related Eq r r') : r = r' := by
  cases h with
  | ok hSame => rw [hSame]
  | error e => rfl

theorem Related.rfl {r : Except ε α} : Related Eq r r := by
  cases r with
  | ok a => exact .ok (Eq.refl a)
  | error e => exact .error e

theorem Related.mapError {R : α → α → Prop} {r r' : Except ε α} (change : ε → δ)
    (h : Related R r r') : Related R (r.mapError change) (r'.mapError change) := by
  cases h with
  | ok h => exact .ok h
  | error e => exact .error _

/-- Every answer can be one of two related ones. -/
def Covers (R : α → α → Prop) : Prop :=
  ∀ a, (∃ a', R a a') ∨ ∃ a', R a' a

/-- Backings of the same bus on the two boards. -/
def Backs (backing backing' : Backing) : Prop :=
  backing = .hardware ∧ backing' = .bitBanged

theorem covers_backs : Covers Backs := by
  rintro (_ | _)
  · exact Or.inl ⟨_, rfl, rfl⟩
  · exact Or.inr ⟨_, rfl, rfl⟩

/-- Whether a claim was granted. -/
def isGranted : Except ε (Except Unavailable Backing) → Bool
  | .ok (.ok _) => true
  | _ => false

/-- From twin worlds, both programs come to results related by `R` and to worlds that are twins as
`P` says, unless the prompt asks for the bus of its I2C mode. -/
structure Matches (O : Tie ω) (p q : Act ω State τ ε α) (R : α → α → Prop)
    (P : Except ε α → Tie ω) : Prop where
  grows : Grows p
  grows' : Grows q
  twins : ∀ hard soft, Twin O hard soft → asksForI2c (runOn q soft).2.events = true ∨
    Related R (runOn p hard).1 (runOn q soft).1 ∧
      Twin (P (runOn p hard).1) (runOn p hard).2 (runOn q soft).2

/-- Both programs come to the same result, and leave the worlds as they are to each other. -/
def Keeps (O : Tie ω) (p q : Act ω State τ ε α) : Prop :=
  Matches O p q Eq fun _ => O

theorem Twin.mono {O O' : Tie ω} {hard soft : World ω State τ} (h : Twin O hard soft)
    (hTie : ∀ opened x x', O opened x x' → O' opened x x') : Twin O' hard soft := by
  obtain ⟨⟨opened, hAlike, hOwn⟩, hPeer, hTalk⟩ := h
  exact ⟨⟨opened, hAlike, hTie _ _ _ hOwn⟩, hPeer, hTalk⟩

namespace Matches

variable {O O' : Tie ω} {p q : Act ω State τ ε α} {R : α → α → Prop} {P P' : Except ε α → Tie ω}
  {T : ω → ω → Prop}

theorem mono (h : Matches O p q R P) (hBefore : ∀ opened x x', O' opened x x' → O opened x x')
    (hAfter : ∀ r opened x x', P r opened x x' → P' r opened x x') : Matches O' p q R P' where
  grows := h.grows
  grows' := h.grows'
  twins hard soft hTwins := by
    rcases h.twins hard soft (hTwins.mono hBefore) with hAsks | ⟨hRelated, hTwins'⟩
    · exact Or.inl hAsks
    · exact Or.inr ⟨hRelated, hTwins'.mono (hAfter _)⟩

section Bind

variable {f f' : α → Act ω State τ ε γ} {S : γ → γ → Prop} {Q : Except ε γ → Tie ω}

/-- What comes after related answers matches; that it grows is needed for all answers, because the
prompt may have asked for the bus already. -/
theorem bind_of_grows (h : Matches O p q R P) (hGrows : ∀ a, Grows (f a))
    (hGrows' : ∀ a, Grows (f' a))
    (hNext : ∀ a a', R a a' → Matches (P (.ok a)) (f a) (f' a') S Q)
    (hError : ∀ e opened x x', P (.error e) opened x x' → Q (.error e) opened x x') :
    Matches O (p >>= f) (q >>= f') S Q where
  grows := h.grows.bind hGrows
  grows' := h.grows'.bind hGrows'
  twins hard soft hTwins := by
    have hFirst := h.twins hard soft hTwins
    rw [run_bind, run_bind]
    generalize runOn p hard = done at hFirst ⊢
    generalize runOn q soft = done' at hFirst ⊢
    obtain ⟨r, hard'⟩ := done
    obtain ⟨r', soft'⟩ := done'
    rcases hFirst with hAsks | ⟨hRelated, hTwins'⟩
    · refine Or.inl ?_
      cases r' with
      | error e => exact hAsks
      | ok a => exact asksForI2c_of_suffix (hGrows' a soft') hAsks
    · cases hRelated with
      | ok hRel => exact (hNext _ _ hRel).twins hard' soft' hTwins'
      | error e => exact Or.inr ⟨.error e, hTwins'.mono (hError e)⟩

theorem bind (h : Matches O p q Eq P) (hNext : ∀ a, Matches (P (.ok a)) (f a) (f' a) S Q)
    (hError : ∀ e opened x x', P (.error e) opened x x' → Q (.error e) opened x x') :
    Matches O (p >>= f) (q >>= f') S Q :=
  h.bind_of_grows (fun a => (hNext a).grows) (fun a => (hNext a).grows')
    (fun a _ hSame => hSame ▸ hNext a) hError

/-- Answers that are not the same are followed by the same program. -/
theorem bind_related (hCovers : Covers R) (h : Matches O p q R P)
    (hNext : ∀ a a', R a a' → Matches (P (.ok a)) (f a) (f a') S Q)
    (hError : ∀ e opened x x', P (.error e) opened x x' → Q (.error e) opened x x') :
    Matches O (p >>= f) (q >>= f) S Q := by
  have hGrows (a : α) : Grows (f a) := by
    rcases hCovers a with ⟨a', hRel⟩ | ⟨a', hRel⟩
    · exact (hNext a a' hRel).grows
    · exact (hNext a' a hRel).grows'
  exact h.bind_of_grows hGrows hGrows hNext hError

/-- After a program that never fails only its answers matter. -/
theorem sure_bind (h : Matches O p q Eq P) (hSure : ∀ world, (runOn p world).1.isOk = true)
    (hNext : ∀ a, Matches (P (.ok a)) (f a) (f' a) S Q) : Matches O (p >>= f) (q >>= f') S Q := by
  have hOk : Matches O p q Eq fun r opened x x' => r.isOk = true ∧ P r opened x x' := by
    refine ⟨h.grows, h.grows', fun hard soft hTwins => ?_⟩
    rcases h.twins hard soft hTwins with hAsks | ⟨hRelated, hTwins'⟩
    · exact Or.inl hAsks
    · exact Or.inr ⟨hRelated, hTwins'.mono fun _ _ _ hTie => ⟨hSure hard, hTie⟩⟩
  exact hOk.bind (fun a => (hNext a).mono (fun _ _ _ => And.right) fun _ _ _ _ => id)
    fun _ _ _ _ hFalse => nomatch hFalse.1

end Bind

theorem pure {a a' : α} (hRel : R a a') (hAfter : ∀ opened x x', O opened x x' → P (.ok a) opened x x') :
    Matches O (Pure.pure a : Act ω State τ ε α) (Pure.pure a') R P where
  grows _ := List.suffix_rfl
  grows' _ := List.suffix_rfl
  twins _ _ hTwins := Or.inr ⟨.ok hRel, hTwins.mono hAfter⟩

theorem throw {e : ε} (hAfter : ∀ opened x x', O opened x x' → P (.error e) opened x x') :
    Matches O (MonadExcept.throw e : Act ω State τ ε α) (MonadExcept.throw e) R P where
  grows _ := List.suffix_rfl
  grows' _ := List.suffix_rfl
  twins _ _ hTwins := Or.inr ⟨.error e, hTwins.mono hAfter⟩

/-- A failure that is an answer like any other. -/
theorem attempt {P : Except δ (Except ε α) → Tie ω} (h : Matches O p q R fun r => P (.ok r)) :
    Matches O (Act.attempt p : Act ω State τ δ (Except ε α)) (Act.attempt q) (Related R) P where
  grows := h.grows
  grows' := h.grows'
  twins hard soft hTwins := by
    rcases h.twins hard soft hTwins with hAsks | ⟨hRelated, hTwins'⟩
    · exact Or.inl hAsks
    · exact Or.inr ⟨.ok hRelated, hTwins'⟩

theorem ofExcept {r r' : Except ε α} (hRel : Related R r r')
    (hAfter : ∀ opened x x', O opened x x' → P r opened x x') :
    Matches O (Act.ofExcept r : Act ω State τ ε α) (Act.ofExcept r') R P := by
  cases hRel with
  | ok h => exact .pure h hAfter
  | error e => exact .throw hAfter

theorem covers_related (hCovers : Covers R) : Covers (Related (ε := ε) R) := by
  rintro (e | a)
  · exact Or.inl ⟨_, .error e⟩
  · rcases hCovers a with ⟨a', hRel⟩ | ⟨a', hRel⟩
    · exact Or.inl ⟨_, .ok hRel⟩
    · exact Or.inr ⟨_, .ok hRel⟩

/-! ### Own states -/

theorem own {T : ω → ω → Prop} (hTie : ∀ opened x x', O opened x x' → T x x') :
    Matches O (Act.own : Act ω State τ ε ω) Act.own T fun r opened x x' =>
      O opened x x' ∧ r = .ok x where
  grows _ := List.suffix_rfl
  grows' _ := List.suffix_rfl
  twins hard soft hTwins := by
    obtain ⟨⟨opened, hAlike, hOwn⟩, hPeer, hTalk⟩ := hTwins
    exact Or.inr ⟨.ok (hTie opened _ _ hOwn), ⟨opened, hAlike, hOwn, rfl⟩, hPeer, hTalk⟩

theorem modifyOwn {f f' : ω → ω} {P : Except ε Unit → Tie ω}
    (hAfter : ∀ opened x x', O opened x x' → P (.ok ()) opened (f x) (f' x')) :
    Matches O (Act.modifyOwn f : Act ω State τ ε Unit) (Act.modifyOwn f') Eq P where
  grows _ := List.suffix_rfl
  grows' _ := List.suffix_rfl
  twins hard soft hTwins := by
    obtain ⟨⟨opened, hAlike, hOwn⟩, hPeer, hTalk⟩ := hTwins
    exact Or.inr ⟨.ok rfl, ⟨opened, hAlike, hAfter _ _ _ hOwn⟩, hPeer, hTalk⟩

/-! ### Requests -/

/-- The lines of SPI are claimed on one board; the controller of the other knows no lines. -/
theorem claimSpi :
    Matches (At false T) (Act.claimSpi : Act ω State τ ε _) Act.claimSpi (Related Backs)
      fun r => At (isGranted r) T where
  grows := grows_claimOf (Grows.ask _) (Grows.ask _)
  grows' := grows_claimOf (Grows.ask _) (Grows.ask _)
  twins hard soft hTwins := by
    obtain ⟨⟨_, hAlike, rfl, hOwn⟩, hPeer, hTalk⟩ := hTwins
    obtain ⟨hard', soft', hHard, hRefused, hSoft, hAlike'⟩ := hAlike.claim_spi
    have hRun : runOn (Act.claimSpi : Act ω State τ ε _) hard = (.ok (.ok .hardware), _) :=
      run_claimOf_granted (runOn_ask hHard)
    have hRun' : runOn (Act.claimSpi : Act ω State τ ε _) soft = (.ok (.ok .bitBanged), _) :=
      run_claimOf_refused (runOn_ask hRefused) (runOn_ask hSoft)
    rw [hRun, hRun']
    exact Or.inr ⟨.ok (.ok ⟨rfl, rfl⟩), ⟨true, hAlike', rfl, hOwn⟩, hPeer, hTalk⟩

theorem claimI2c (clock data : Pin) (hz : Nat) :
    Matches O (Act.claimI2c clock data hz : Act ω State τ ε _) (Act.claimI2c clock data hz)
      (Related Backs) fun _ => O where
  grows := grows_claimI2c clock data hz
  grows' := grows_claimI2c clock data hz
  twins hard soft hTwins := by
    obtain ⟨⟨opened, hAlike, hOwn⟩, hPeer, hTalk⟩ := hTwins
    obtain ⟨hard', soft', hHard, hRefused, hSoft, hAlike'⟩ := hAlike.claim_i2c clock data hz
    change Simulated.answer (.i2c .hardware (.claim clock data hz)) _ = _ at hHard hRefused
    change Simulated.answer (.i2c .bitBanged (.claim clock data hz)) _ = _ at hSoft
    have hRun : runOn (Act.claimI2c clock data hz : Act ω State τ ε _) hard =
        (.ok (.ok .hardware), _) :=
      (congrArg (runOn · hard) (claimI2c_eq clock data hz)).trans
        (run_claimOf_granted (runOn_ask hHard))
    have hRun' : runOn (Act.claimI2c clock data hz : Act ω State τ ε _) soft =
        (.ok (.ok .bitBanged), _) :=
      (congrArg (runOn · soft) (claimI2c_eq clock data hz)).trans
        (run_claimOf_refused (runOn_ask hRefused) (runOn_ask hSoft))
    rw [hRun, hRun']
    exact Or.inr ⟨.ok (.ok ⟨rfl, rfl⟩), ⟨opened, hAlike', hOwn⟩, hPeer, hTalk⟩

/-- The lines of SPI are given back. -/
theorem release_spi :
    Matches (At true T) (Act.tell (.spi .hardware .release) : Act ω State τ ε _)
      (Act.tell (.spi .bitBanged .release)) Eq fun _ => At false T where
  grows := Grows.tell _
  grows' := Grows.tell _
  twins hard soft hTwins := by
    obtain ⟨⟨_, hAlike, rfl, hOwn⟩, hPeer, hTalk⟩ := hTwins
    exact Or.inr ⟨.ok rfl, ⟨false, hAlike.release_spi, rfl, hOwn⟩, hPeer, hTalk⟩

/-- Once the prompt has asked for the bus of its I2C mode, nothing is promised. -/
theorem asks {f f' : Unit → Act ω State τ ε γ} {S : γ → γ → Prop} {Q : Except ε γ → Tie ω}
    (hGrows : Grows (f ())) (hGrows' : Grows (f' ())) :
    Matches O (Act.reach .i2cMode >>= f) (Act.reach .i2cMode >>= f') S Q where
  grows world := (List.suffix_cons _ _).trans
    (hGrows { world with events := .reached .i2cMode :: world.events })
  grows' world := (List.suffix_cons _ _).trans
    (hGrows' { world with events := .reached .i2cMode :: world.events })
  twins _ soft _ := Or.inl (asksForI2c_of_suffix
    (hGrows' { soft with events := .reached .i2cMode :: soft.events }) rfl)

end Matches

/-! ## Programs that keep everything -/

namespace Keeps

variable {O : Tie ω} {p q : Act ω State τ ε α} {f f' : α → Act ω State τ ε γ}

theorem bind (h : Keeps O p q) (hNext : ∀ a, Keeps O (f a) (f' a)) : Keeps O (p >>= f) (q >>= f') :=
  Matches.bind h hNext fun _ _ _ _ hTie => hTie

theorem pure (a : α) : Keeps O (Pure.pure a : Act ω State τ ε α) (Pure.pure a) :=
  Matches.pure rfl fun _ _ _ => id

theorem throw (e : ε) : Keeps O (MonadExcept.throw e : Act ω State τ ε α) (MonadExcept.throw e) :=
  Matches.throw fun _ _ _ => id

theorem ite {condition : Prop} [Decidable condition] {p' q' : Act ω State τ ε α}
    (hYes : condition → Keeps O p q) (hNo : ¬ condition → Keeps O p' q') :
    Keeps O (if condition then p else p') (if condition then q else q') := by
  split
  · next h => exact hYes h
  · next h => exact hNo h

/-- A request that the boards answer alike. -/
theorem ask {request : Request} (hPlain : IsPlain request) :
    Keeps O (Act.ask request : Act ω State τ ε _) (Act.ask request) where
  grows := Grows.ask _
  grows' := Grows.ask _
  twins hard soft hTwins := by
    obtain ⟨⟨opened, hAlike, hOwn⟩, hPeer, hTalk⟩ := hTwins
    obtain ⟨hAnswer, hAlike'⟩ := hAlike.answer_plain hPlain
    refine Or.inr ⟨?_, ⟨opened, hAlike', hOwn⟩, hPeer, hTalk⟩
    exact .ok hAnswer.symm

theorem ask_i2c (call : I2cCall) :
    Keeps O (Act.ask (.i2c .hardware call) : Act ω State τ ε call.Answer)
      (Act.ask (.i2c .bitBanged call)) where
  grows := Grows.ask _
  grows' := Grows.ask _
  twins hard soft hTwins := by
    obtain ⟨⟨opened, hAlike, hOwn⟩, hPeer, hTalk⟩ := hTwins
    obtain ⟨hAnswer, hAlike'⟩ := hAlike.answer_i2c call
    refine Or.inr ⟨?_, ⟨opened, hAlike', hOwn⟩, hPeer, hTalk⟩
    exact .ok hAnswer.symm

theorem ask_spi {call : SpiCall} (hClaim : call ≠ .claim) (hRelease : call ≠ .release) :
    Keeps O (Act.ask (.spi .hardware call) : Act ω State τ ε call.Answer)
      (Act.ask (.spi .bitBanged call)) where
  grows := Grows.ask _
  grows' := Grows.ask _
  twins hard soft hTwins := by
    obtain ⟨⟨opened, hAlike, hOwn⟩, hPeer, hTalk⟩ := hTwins
    obtain ⟨hAnswer, hAlike'⟩ := hAlike.answer_spi hClaim hRelease
    refine Or.inr ⟨?_, ⟨opened, hAlike', hOwn⟩, hPeer, hTalk⟩
    exact .ok hAnswer.symm

theorem tell {request : Request} (hPlain : IsPlain request) :
    Keeps O (Act.tell request : Act ω State τ ε Unit) (Act.tell request) :=
  (ask hPlain).bind fun _ => .pure ()

theorem tell_i2c (call : I2cCall) :
    Keeps O (Act.tell (.i2c .hardware call) : Act ω State τ ε Unit)
      (Act.tell (.i2c .bitBanged call)) :=
  (ask_i2c call).bind fun _ => .pure ()

theorem tell_spi {call : SpiCall} (hClaim : call ≠ .claim) (hRelease : call ≠ .release) :
    Keeps O (Act.tell (.spi .hardware call) : Act ω State τ ε Unit)
      (Act.tell (.spi .bitBanged call)) :=
  (ask_spi hClaim hRelease).bind fun _ => .pure ()

theorem reach (point : Point) : Keeps O (Act.reach point : Act ω State τ ε Unit) (Act.reach point) where
  grows _ := List.suffix_cons _ _
  grows' _ := List.suffix_cons _ _
  twins _ _ hTwins := Or.inr ⟨.ok rfl, hTwins.boards, hTwins.peer, hTwins.talk⟩

theorem dialogue (program : Dialogue τ ε α) :
    Keeps O (Act.dialogue program : Act ω State τ ε α) (Act.dialogue program) where
  grows := Grows.dialogue _
  grows' := Grows.dialogue _
  twins hard soft hTwins := by
    obtain ⟨hBoards, hPeer, hTalk⟩ := hTwins
    obtain ⟨own, board, peer, events⟩ := soft
    obtain rfl := hPeer
    refine Or.inr ⟨?_, hBoards, rfl, ?_⟩
    · change Related Eq (program.run ⟨hard.peer, []⟩).1 (program.run ⟨hard.peer, []⟩).1
      exact .rfl
    · change List.filter _ (_ ++ events) = List.filter _ (_ ++ hard.events)
      rw [List.filter_append, List.filter_append, hTalk]

theorem attempt (h : Keeps O p q) :
    Keeps O (Act.attempt p : Act ω State τ δ (Except ε α)) (Act.attempt q) where
  grows := h.grows
  grows' := h.grows'
  twins hard soft hTwins := by
    rcases h.twins hard soft hTwins with hAsks | ⟨hRelated, hTwins'⟩
    · exact Or.inl hAsks
    · exact Or.inr ⟨.ok hRelated.eq, hTwins'⟩

theorem ofExcept (r : Except ε α) :
    Keeps O (Act.ofExcept r : Act ω State τ ε α) (Act.ofExcept r) := by
  cases r with
  | ok a => exact .pure a
  | error e => exact .throw e

theorem board : Keeps O (MonadReader.read : Act ω State τ ε (Board State)) MonadReader.read where
  grows _ := List.suffix_rfl
  grows' _ := List.suffix_rfl
  twins _ _ hTwins := Or.inr ⟨.ok rfl, hTwins⟩

/-- Both peers are in the same state. -/
theorem at_peer {f g : τ → Act ω State τ ε α} (h : ∀ peer, Keeps O (f peer) (g peer)) :
    Keeps O (do f (← get).peer) (do g (← get).peer) where
  grows world := (h world.peer).grows world
  grows' world := (h world.peer).grows' world
  twins hard soft hTwins := by
    have hSame := (h soft.peer).twins hard soft hTwins
    rw [hTwins.peer] at hSame
    change asksForI2c (runOn (g soft.peer) soft).2.events = true ∨
      Related Eq (runOn (f hard.peer) hard).1 (runOn (g soft.peer) soft).1 ∧
        Twin O (runOn (f hard.peer) hard).2 (runOn (g soft.peer) soft).2
    rw [hTwins.peer]
    exact hSame

theorem modifyPeer (change : τ → τ) :
    Keeps O (modify fun world => { world with peer := change world.peer } : Act ω State τ ε Unit)
      (modify fun world => { world with peer := change world.peer }) where
  grows _ := List.suffix_rfl
  grows' _ := List.suffix_rfl
  twins _ _ hTwins :=
    Or.inr ⟨.ok rfl, hTwins.boards, congrArg change hTwins.peer, hTwins.talk⟩

theorem onPart {get : τ → κ} {set : κ → τ → τ} {p q : Act ω State κ ε α} (h : Keeps O p q) :
    Keeps O (Act.onPart get set p) (Act.onPart get set q) where
  grows world := h.grows ⟨world.own, world.board, get world.peer, world.events⟩
  grows' world := h.grows' ⟨world.own, world.board, get world.peer, world.events⟩
  twins hard soft hTwins := by
    rcases h.twins ⟨hard.own, hard.board, get hard.peer, hard.events⟩
      ⟨soft.own, soft.board, get soft.peer, soft.events⟩
      ⟨hTwins.boards, congrArg get hTwins.peer, hTwins.talk⟩ with hAsks | ⟨hRelated, hTwins'⟩
    · exact Or.inl hAsks
    · refine Or.inr ⟨hRelated, hTwins'.boards, ?_, hTwins'.talk⟩
      exact (congrArg (set · soft.peer) hTwins'.peer).trans (congrArg (set _) hTwins.peer)

/-- A program with the same own state on either board. -/
theorem withOwn {ψ : Type} {own : ψ} {p q : Act ψ State τ ε α} (h : ∀ k, Keeps (At k Eq) p q) :
    Keeps O (Act.withOwn own p : Act ω State τ δ _) (Act.withOwn own q) where
  grows world := (h true).grows ⟨own, world.board, world.peer, world.events⟩
  grows' world := (h true).grows' ⟨own, world.board, world.peer, world.events⟩
  twins hard soft hTwins := by
    obtain ⟨⟨opened, hAlike, hOwn⟩, hPeer, hTalk⟩ := hTwins
    rcases (h opened).twins ⟨own, hard.board, hard.peer, hard.events⟩
      ⟨own, soft.board, soft.peer, soft.events⟩ ⟨⟨opened, hAlike, rfl, rfl⟩, hPeer, hTalk⟩
      with hAsks | ⟨hRelated, ⟨_, hAlike', rfl, hSame⟩, hPeer', hTalk'⟩
    · exact Or.inl hAsks
    · exact Or.inr ⟨.ok (Prod.ext hRelated.eq hSame), ⟨_, hAlike', hOwn⟩, hPeer', hTalk'⟩

theorem own_same {k : Bool} : Keeps (At k Eq) (Act.own : Act ω State τ ε ω) Act.own :=
  Matches.mono (Matches.own fun _ _ _ h => h.2) (fun _ _ _ => id) fun _ _ _ _ => And.left

theorem modifyOwn_same {k : Bool} (change : ω → ω) :
    Keeps (At k Eq) (Act.modifyOwn change : Act ω State τ ε Unit) (Act.modifyOwn change) :=
  Matches.modifyOwn fun _ _ _ h => ⟨h.1, congrArg change h.2⟩

/-! ## Loops -/

theorem forM {f f' : α → Act ω State τ ε PUnit} (xs : List α) (h : ∀ x, Keeps O (f x) (f' x)) :
    Keeps O (xs.forM f) (xs.forM f') := by
  induction xs with
  | nil => exact .pure _
  | cons x xs ih => exact (h x).bind fun _ => ih

theorem rounds {exhausted : Act ω State τ ε α} {round round' : σ → Act ω State τ ε (σ ⊕ α)}
    (hExhausted : Keeps O exhausted exhausted) (h : ∀ x, Keeps O (round x) (round' x)) (limit : Nat)
    (x : σ) : Keeps O (rounds exhausted round limit x) (BusBench.rounds exhausted round' limit x) := by
  induction limit generalizing x with
  | zero => exact hExhausted
  | succ limit ih =>
    refine (h x).bind fun next => ?_
    cases next with
    | inl x' => exact ih x'
    | inr a => exact .pure a

theorem askUntil [Terminal τ] {round round' : σ → Act ω State τ Error (σ ⊕ α)}
    (h : ∀ x, Keeps O (round x) (round' x)) (x : σ) :
    Keeps O (Act.askUntil round x) (Act.askUntil round' x) :=
  at_peer (f := fun peer => BusBench.rounds _ round (Terminal.remaining peer + 1) x)
    (g := fun peer => BusBench.rounds _ round' (Terminal.remaining peer + 1) x)
    fun _ => rounds (.throw _) h _ x

theorem serveUntil {round round' : σ → Binary.Talk ω State (σ ⊕ α)}
    (h : ∀ x, Keeps O (round x) (round' x)) (x : σ) :
    Keeps O (Binary.serveUntil round x) (Binary.serveUntil round' x) :=
  at_peer (f := fun link => BusBench.rounds _ round (link.incoming.length + 1) x)
    (g := fun link => BusBench.rounds _ round' (link.incoming.length + 1) x)
    fun _ => rounds (.throw _) h _ x

/-! ## Buses -/

theorem takeUart : Keeps O (Act.takeUart : Act ω State τ ε _) Act.takeUart :=
  .bind (.ask trivial) fun _ => .ite (fun _ => .pure _) fun _ => .bind (.ask trivial) fun _ => .pure _

theorem readSpi (count : Nat) :
    Keeps O (Act.readSpi .hardware count : Act ω State τ ε _) (Act.readSpi .bitBanged count) :=
  .bind (.ask_spi nofun nofun) fun _ => .pure _

theorem writeSpi (bytes : List UInt8) :
    Keeps O (Act.writeSpi .hardware bytes : Act ω State τ ε _) (Act.writeSpi .bitBanged bytes) :=
  .bind (.ask_spi nofun nofun) fun _ => .pure _

theorem filterAuxM {f f' : α → Act ω State τ ε Bool} (h : ∀ x, Keeps O (f x) (f' x))
    (xs acc : List α) : Keeps O (xs.filterAuxM f acc) (xs.filterAuxM f' acc) := by
  induction xs generalizing acc with
  | nil => exact .pure acc
  | cons x xs ih => exact .bind (h x) fun _ => ih _

theorem scanI2c :
    Keeps O (Act.scanI2c .hardware : Act ω State τ ε _) (Act.scanI2c .bitBanged) :=
  .bind (filterAuxM (fun _ => .bind (.ask_i2c _) fun _ => .pure _) _ _) fun _ => .pure _

end Keeps

end BusBench.Twins
