import BusBench.Binary.Session
import BusBench.Proofs.Link.Dialogues

/-!
# Programs on any board, over a link that does not break

Nothing is known of what a board answers. A program on an unknown board and an open link ends in one
of the ways that its specification accepts, and specifications are put together along the program.

* `Act.Yields`: what a program comes to, whatever the board answers.
* `Act.Yields.ask`, `Act.Yields.dialogue`: the parts of programs.
* `Act.Yields.serveUntil`: loops over the arrivals.
-/

namespace BusBench.Act

variable {ω β S ε δ α γ : Type} {o : Observer S}

/-- On any board and an open link with these arrivals, and with this state of the observer, the
program comes to a result, further arrivals and a state that `post` accepts. The link stays open. -/
def Yields (o : Observer S) (program : Act ω β Link ε α) (incoming : List Arrival) (s : S)
    (post : Except ε α → List Arrival → S → Prop) : Prop :=
  ∀ (board : Board β) (world : World ω β Link), world.peer.IsOpen →
    world.peer.incoming = incoming → o.of world.events = s →
    ((program board).run world).2.peer.IsOpen ∧
      post ((program board).run world).1 ((program board).run world).2.peer.incoming
        (o.of ((program board).run world).2.events)

namespace Yields

variable {program : Act ω β Link ε α} {incoming : List Arrival} {s : S}
  {post : Except ε α → List Arrival → S → Prop}

theorem mono {weak : Except ε α → List Arrival → S → Prop}
    (h : Yields o program incoming s post) (hPost : ∀ r rest s, post r rest s → weak r rest s) :
    Yields o program incoming s weak := by
  intro board world hOpen hIncoming hState
  obtain ⟨hOpen', hResult⟩ := h board world hOpen hIncoming hState
  exact ⟨hOpen', hPost _ _ _ hResult⟩

theorem pure {a : α} (h : post (.ok a) incoming s) :
    Yields o (Pure.pure a : Act ω β Link ε α) incoming s post := by
  rintro board world hOpen rfl rfl
  exact ⟨hOpen, h⟩

theorem throw {e : ε} (h : post (.error e) incoming s) :
    Yields o (MonadExcept.throw e : Act ω β Link ε α) incoming s post := by
  rintro board world hOpen rfl rfl
  exact ⟨hOpen, h⟩

theorem bind {next : α → Act ω β Link ε γ} {post : Except ε γ → List Arrival → S → Prop}
    (h : Yields o program incoming s fun
      | .ok a, incoming, s => Yields o (next a) incoming s post
      | .error e, incoming, s => post (.error e) incoming s) :
    Yields o (program >>= next) incoming s post := by
  intro board world hOpen hIncoming hState
  have hFirst := h board world hOpen hIncoming hState
  have hRun : ((program >>= next) board).run world =
      (ExceptT.bindCont (next · board) ((program board).run world).1).run
        ((program board).run world).2 := rfl
  rw [hRun]
  generalize (program board).run world = done at hFirst ⊢
  obtain ⟨_ | a, world'⟩ := done
  · exact hFirst
  · exact hFirst.2 board world' hFirst.1 rfl rfl

theorem ite {condition : Prop} [Decidable condition] {yes no : Act ω β Link ε α}
    (hYes : condition → Yields o yes incoming s post)
    (hNo : ¬ condition → Yields o no incoming s post) :
    Yields o (if condition then yes else no) incoming s post := by
  split
  · next h => exact hYes h
  · next h => exact hNo h

/-- The answer of the board may be anything. -/
theorem ask {request : Request} {post : Except ε request.Answer → List Arrival → S → Prop}
    (h : ∀ answer, post (.ok answer) incoming (o.see (.board ⟨request, answer⟩) s)) :
    Yields o (Act.ask request : Act ω β Link ε request.Answer) incoming s post := by
  rintro board world hOpen rfl rfl
  exact ⟨hOpen, h _⟩

theorem reach {point : Point} {post : Except ε Unit → List Arrival → S → Prop}
    (h : post (.ok ()) incoming (o.see (.reached point) s)) :
    Yields o (Act.reach point : Act ω β Link ε Unit) incoming s post := by
  rintro board world hOpen rfl rfl
  exact ⟨hOpen, h⟩

theorem dialogue {program : Dialogue Link ε α}
    (h : Dialogue.Yields o program incoming s post) :
    Yields o (Act.dialogue program : Act ω β Link ε α) incoming s post := by
  rintro board world hOpen rfl rfl
  obtain ⟨hOpen', hResult⟩ := h ⟨world.peer, []⟩ (o.of world.events) hOpen rfl rfl
  refine ⟨hOpen', ?_⟩
  rw [← o.of_append_peer] at hResult
  exact hResult

theorem attempt {post : Except δ (Except ε α) → List Arrival → S → Prop}
    (h : Yields o program incoming s fun r => post (.ok r)) :
    Yields o (Act.attempt program : Act ω β Link δ (Except ε α)) incoming s post := by
  rintro board world hOpen rfl rfl
  exact h board world hOpen rfl rfl

theorem ofExcept {result : Except ε α} (h : post result incoming s) :
    Yields o (Act.ofExcept result : Act ω β Link ε α) incoming s post := by
  cases result with
  | ok a => exact pure h
  | error e => exact throw h

theorem board {post : Except ε (Board β) → List Arrival → S → Prop}
    (h : ∀ board, post (.ok board) incoming s) :
    Yields o (MonadReader.read : Act ω β Link ε (Board β)) incoming s post := by
  rintro board world hOpen rfl rfl
  exact ⟨hOpen, h board⟩

/-! ## Loops -/

variable {σ : Type} {round : σ → Binary.Talk ω β (σ ⊕ α)}
  {post : σ → List Arrival → S → Except LinkError α → List Arrival → S → Prop}

/-- What a round has to come to, so that rounds together come to `post`. -/
def roundPost (post : σ → List Arrival → S → Except LinkError α → List Arrival → S → Prop) (x : σ)
    (incoming : List Arrival) (s : S) : Except LinkError (σ ⊕ α) → List Arrival → S → Prop
  | .ok (.inl x'), incoming', s' =>
    incoming'.length < incoming.length ∧
      ∀ r rest s'', post x' incoming' s' r rest s'' → post x incoming s r rest s''
  | .ok (.inr a), rest, s' => post x incoming s (.ok a) rest s'
  | .error e, rest, s' => post x incoming s (.error e) rest s'

theorem rounds_of_lt
    (h : ∀ x incoming s, Yields o (round x) incoming s (roundPost post x incoming s))
    (limit : Nat) (x : σ) (incoming : List Arrival) (s : S) (hLimit : incoming.length < limit) :
    Yields o (rounds (MonadExcept.throw LinkError.endOfInput) round limit x) incoming s
      (post x incoming s) := by
  induction limit generalizing x incoming s with
  | zero => exact absurd hLimit (Nat.not_lt_zero _)
  | succ limit ih =>
    refine bind (mono (h x incoming s) fun r rest s' hRound => ?_)
    rcases r with e | x' | a
    · exact hRound
    · obtain ⟨hShorter, hPost⟩ := hRound
      exact mono (ih x' rest s' (by omega)) hPost
    · exact pure hRound

/-- Every round takes something from the arrivals, so the loop does not end for want of rounds. -/
theorem serveUntil
    (h : ∀ x incoming s, Yields o (round x) incoming s (roundPost post x incoming s)) (x : σ) :
    Yields o (Binary.serveUntil round x) incoming s (post x incoming s) := by
  rintro board world hOpen rfl rfl
  exact rounds_of_lt h _ x _ _ (Nat.lt_succ_self _) board world hOpen rfl rfl

end Yields

end BusBench.Act
