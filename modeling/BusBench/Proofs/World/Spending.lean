import BusBench.Binary.Session
import BusBench.Board.Claim
import BusBench.Proofs.Link.Spending
import BusBench.Proofs.World.Monitors

/-!
# What a program spends

What a program takes of what is still to arrive at its peer is what its dialogues take, whatever its
board answers. Once the link has failed a program may still give back what it holds, but it never
talks to its peer again.

* `Act.Spends`: programs that take at least so much.
* `Act.Closes`: what is done when the talk is over.
* `Act.Spends.attempt_bind`: a failure that is looked at before it is passed on.
* `Act.Spends.rounds`, `Act.Spends.loops`: loops of rounds that take something.
-/

namespace BusBench.Act

variable {ω β τ κ ε δ α γ σ : Type} {m : Meter τ ε} {n n' : Nat}

/-! ## Programs -/

/-- Run on this board from this world, the program takes at least `n` of what is still to arrive
unless it fails. If the link fails the talk is over, and only then. -/
def SpendsAt (m : Meter τ ε) (n : Nat) (program : Act ω β τ ε α) (board : Board β)
    (w : World ω β τ) : Prop :=
  Ends board program w fun r w' =>
    ∃ new, w'.events = new ++ w.events ∧ m.Passage n r w.peer w'.peer new

/-- The program takes at least `n` of what is still to arrive unless it fails. -/
def Spends (m : Meter τ ε) (n : Nat) (program : Act ω β τ ε α) : Prop :=
  ∀ board w, SpendsAt m n program board w

theorem SpendsAt.bind {program : Act ω β τ ε α} {next : α → Act ω β τ ε γ} {board : Board β}
    {w : World ω β τ} (h : SpendsAt m n program board w)
    (hNext : ∀ a w', m.supply w'.peer + n ≤ m.supply w.peer → SpendsAt m n' (next a) board w') :
    SpendsAt m (n + n') (program >>= next) board w := by
  refine Ends.bind (h.mono fun r w' hFirst => ?_)
  obtain ⟨new, hNew, hPassage⟩ := hFirst
  cases r with
  | error e => exact ⟨new, hNew, hPassage.of_error⟩
  | ok a =>
    refine (hNext a w' hPassage.supply_le).mono fun r' w'' hSecond => ?_
    obtain ⟨new', hNew', hPassage'⟩ := hSecond
    refine ⟨new' ++ new, ?_, hPassage.append hPassage'⟩
    rw [hNew', hNew, List.append_assoc]

namespace Spends

variable {program : Act ω β τ ε α}

theorem mono (h : Spends m n program) (hLess : n' ≤ n) : Spends m n' program := by
  intro board w
  obtain ⟨new, hNew, hPassage⟩ := h board w
  exact ⟨new, hNew, hPassage.mono hLess⟩

theorem pure (a : α) : Spends m 0 (Pure.pure a : Act ω β τ ε α) :=
  fun _ _ => ⟨[], rfl, .still rfl rfl⟩

/-- A failure that is none of the link does not end the talk. -/
theorem throw {e : ε} (h : m.ends e = false) :
    Spends m 0 (MonadExcept.throw e : Act ω β τ ε α) :=
  fun _ _ => ⟨[], rfl, .still h rfl⟩

theorem bind {next : α → Act ω β τ ε γ} (h : Spends m n program)
    (hNext : ∀ a, Spends m 0 (next a)) : Spends m n (program >>= next) :=
  fun board w => (h board w).bind fun a w' _ => hNext a board w'

/-- What is asked for at least may be taken by what follows. -/
theorem bind_next {next : α → Act ω β τ ε γ} (h : Spends m 0 program)
    (hNext : ∀ a, Spends m n (next a)) : Spends m n (program >>= next) := by
  intro board w
  have hBoth : SpendsAt m (0 + n) (program >>= next) board w :=
    (h board w).bind fun a w' _ => hNext a board w'
  rwa [Nat.zero_add] at hBoth

theorem ite {condition : Prop} [Decidable condition] {yes no : Act ω β τ ε α}
    (hYes : Spends m n yes) (hNo : Spends m n no) :
    Spends m n (if condition then yes else no) := by
  split
  · exact hYes
  · exact hNo

theorem ask (request : Request) : Spends m 0 (Act.ask request : Act ω β τ ε request.Answer) := by
  intro board w
  refine ⟨[.board ⟨request, (board.answer request w.board).1⟩], rfl, .apart ?_, fun _ _ =>
    Nat.zero_le _⟩
  exact fun event hEvent => by rw [List.mem_singleton.mp hEvent]; rfl

theorem tell (request : Request) : Spends m 0 (Act.tell request : Act ω β τ ε Unit) :=
  (ask request).bind fun _ => pure ()

theorem reach (point : Point) : Spends m 0 (Act.reach point : Act ω β τ ε Unit) := by
  intro board w
  refine ⟨[.reached point], rfl, .apart ?_, fun _ _ => Nat.zero_le _⟩
  exact fun event hEvent => by rw [List.mem_singleton.mp hEvent]; rfl

theorem dialogue {talk : Dialogue τ ε α} (h : Dialogue.Spends m n talk) :
    Spends m n (Act.dialogue talk : Act ω β τ ε α) := by
  intro board w
  obtain ⟨r, p', new, hRun, hPassage⟩ := h w.peer
  have hTalk := hRun []
  rw [List.append_nil] at hTalk
  unfold SpendsAt Ends
  rw [Act.dialogue_run hTalk]
  exact ⟨new.map .peer, rfl, hPassage⟩

theorem own : Spends m 0 (Act.own : Act ω β τ ε ω) :=
  fun _ _ => ⟨[], rfl, .still rfl rfl⟩

theorem board : Spends m 0 (MonadReader.read : Act ω β τ ε (Board β)) :=
  fun _ _ => ⟨[], rfl, .still rfl rfl⟩

/-- The peer may change in what does not matter to its supply. -/
theorem modifyPeer (change : τ → τ) (h : ∀ p, m.supply (change p) = m.supply p) :
    Spends m 0 (modify fun world => { world with peer := change world.peer } :
      Act ω β τ ε PUnit) :=
  fun _ w => ⟨[], rfl, .still rfl (h w.peer)⟩

/-- A part of the peer that has the whole supply. -/
theorem onPart {m' : Meter κ ε} {get : τ → κ} {set : κ → τ → τ} {inner : Act ω β κ ε α}
    (hSupply : ∀ p, m.supply p = m'.supply (get p))
    (hSet : ∀ q p, m.supply (set q p) = m'.supply q) (hEnds : m.ends = m'.ends)
    (h : Spends m' n inner) : Spends m n (Act.onPart get set inner) := by
  intro board w
  obtain ⟨new, hNew, hPassage⟩ := h board ⟨w.own, w.board, get w.peer, w.events⟩
  have hOver : ∀ r : Except ε α, m.isOver r = m'.isOver r := by
    intro r
    cases r with
    | ok a => rfl
    | error e => exact congrFun hEnds e
  have hAfter : m.supply ((Act.onPart get set inner).after board w).peer =
      m'.supply (inner.after board ⟨w.own, w.board, get w.peer, w.events⟩).peer := hSet _ _
  refine ⟨new, hNew, ?_, hPassage.least⟩
  rw [hOver, hSupply, hAfter]
  exact hPassage.spent

end Spends

/-! ## When the talk is over -/

/-- The program fails with the link, after whatever it still has to do with the board. -/
def Closes (m : Meter τ ε) (program : Act ω β τ ε α) : Prop :=
  ∀ (board : Board β) (w : World ω β τ), Ends board program w fun r w' =>
    (∃ later, w'.events = later ++ w.events ∧ ∀ event ∈ later, event.isPeer = false) ∧
      m.supply w'.peer = m.supply w.peer ∧ ∃ e, r = .error e ∧ m.ends e = true

namespace Closes

theorem throw {e : ε} (h : m.ends e = true) :
    Closes m (MonadExcept.throw e : Act ω β τ ε α) :=
  fun _ _ => ⟨⟨[], rfl, List.forall_mem_nil _⟩, rfl, e, rfl, h⟩

theorem tell_bind {request : Request} {next : Unit → Act ω β τ ε α} (h : Closes m (next ())) :
    Closes m (Act.tell request >>= next) := by
  intro board w
  refine Ends.bind (Ends.tell ?_)
  refine (h board _).mono fun r w' hClosed => ?_
  obtain ⟨⟨later, hLater, hApart⟩, hSupply, hFailed⟩ := hClosed
  refine ⟨⟨later ++ [.board ⟨request, (board.answer request w.board).1⟩], ?_, fun event hEvent => ?_⟩,
    hSupply, hFailed⟩
  · rw [hLater, List.append_assoc]
    rfl
  · rcases List.mem_append.mp hEvent with hEvent | hEvent
    · exact hApart event hEvent
    · rw [List.mem_singleton.mp hEvent]
      rfl

/-- What follows a failure is never begun. -/
theorem bind {program : Act ω β τ ε α} {next : α → Act ω β τ ε γ} (h : Closes m program) :
    Closes m (program >>= next) := by
  intro board w
  refine Ends.bind ((h board w).mono fun r w' hClosed => ?_)
  obtain ⟨hEvents, hSupply, e, rfl, hEnds⟩ := hClosed
  exact ⟨hEvents, hSupply, e, rfl, hEnds⟩

end Closes

/-- Where every failure is one of the link, it is looked at only to close. -/
theorem Spends.attempt_bind {m : Meter τ ε} {m' : Meter τ δ} {program : Act ω β τ ε α}
    {next : Except ε α → Act ω β τ δ γ} (hSupply : m'.supply = m.supply)
    (hEnds : ∀ e, m.ends e = true) (h : Spends m n program)
    (hOk : ∀ a, Spends m' 0 (next (.ok a))) (hError : ∀ e, Closes m' (next (.error e))) :
    Spends m' 0 (Act.attempt program >>= next) := by
  intro board w
  refine Ends.bind (Ends.attempt (Ends.mono (h board w) fun r w' hFirst => ?_))
  obtain ⟨new, hNew, hPassage⟩ := hFirst
  have hSpent := hPassage.spent
  cases r with
  | ok a =>
    refine Ends.mono (hOk a board w') fun r' w'' hSecond => ?_
    obtain ⟨new', hNew', hPassage'⟩ := hSecond
    refine ⟨new' ++ new, ?_, ?_, fun _ _ => Nat.zero_le _⟩
    · rw [hNew', hNew, List.append_assoc]
    · rw [← hSupply] at hSpent
      exact hSpent.append hPassage'.spent
  | error e =>
    refine Ends.mono (hError e board w') fun r' w'' hClosed => ?_
    obtain ⟨⟨later, hLater, hApart⟩, hSame, e', rfl, hEnds'⟩ := hClosed
    refine ⟨later ++ new, ?_, ?_, nofun⟩
    · rw [hLater, hNew, List.append_assoc]
    · have hBoth : m'.isOver (.error e' : Except δ γ) = m.isOver (.error e : Except ε α) :=
        hEnds'.trans (hEnds e).symm
      rw [hBoth, hSame, hSupply]
      exact hSpent.behind hApart

/-! ## Loops -/

namespace Spends

variable {round : σ → Act ω β τ ε (σ ⊕ α)}

theorem rounds (h : ∀ x, Spends m 1 (round x)) {exhausted : Act ω β τ ε α} {limit : Nat}
    {board : Board β} {w : World ω β τ} (hLimit : m.supply w.peer < limit) (x : σ) :
    SpendsAt m 1 (BusBench.rounds exhausted round limit x) board w := by
  induction limit generalizing x w with
  | zero => exact absurd hLimit (Nat.not_lt_zero _)
  | succ limit ih =>
    have hRounds : SpendsAt m (1 + 0) (BusBench.rounds exhausted round (limit + 1) x) board w := by
      refine (h x board w).bind fun next w' hLess => ?_
      cases next with
      | inr a => exact pure a board w'
      | inl x' =>
        have hRest : m.supply w'.peer < limit := by omega
        obtain ⟨new, hNew, hPassage⟩ := ih hRest x'
        exact ⟨new, hNew, hPassage.mono (Nat.zero_le 1)⟩
    exact hRounds

/-- The rounds need no bound. -/
theorem loops (h : ∀ x, Spends m 1 (round x)) {exhausted : Act ω β τ ε α} {limit : Nat}
    {board : Board β} {w : World ω β τ} (hLimit : m.supply w.peer < limit) (x : σ) :
    Loops (fun x => round x board) x w ((BusBench.rounds exhausted round limit x board).run w).1
      ((BusBench.rounds exhausted round limit x board).run w).2 := by
  have hRound : ∀ {x x' : σ} {w w' : World ω β τ}, (round x board).run w = (.ok (.inl x'), w') →
      m.supply w'.peer < m.supply w.peer := by
    intro x x' w w' hRun
    obtain ⟨new, -, hPassage⟩ := h x board w
    rw [hRun] at hPassage
    exact hPassage.supply_le
  rw [Act.rounds_apply]
  exact loops_rounds hRound hLimit

end Spends

/-! ## The binary protocol -/

section Binary

open Binary (Talk)

variable {round : σ → Talk ω β (σ ⊕ α)}

theorem Spends.serveUntil (h : ∀ x, Spends Link.meter 1 (round x)) (x : σ) :
    Spends Link.meter 1 (Binary.serveUntil round x) :=
  fun _ _ => Spends.rounds h (Nat.lt_succ_self _) x

end Binary

/-! ## Buses -/

namespace Spends

theorem claimI2c (clock data : Pin) (hz : Nat) :
    Spends m 0 (Act.claimI2c clock data hz : Act ω β τ ε _) := by
  refine (ask _).bind fun answer => ?_
  cases answer with
  | ok _ => exact pure _
  | error reason => exact (ask _).bind fun _ => pure _

theorem claimSpi : Spends m 0 (Act.claimSpi : Act ω β τ ε _) := by
  refine (ask _).bind fun answer => ?_
  cases answer with
  | ok _ => exact pure _
  | error reason => exact (ask _).bind fun _ => pure _

theorem readSpi (backing : Backing) (count : Nat) :
    Spends m 0 (Act.readSpi backing count : Act ω β τ ε _) :=
  (ask _).bind fun _ => pure _

theorem writeSpi (backing : Backing) (bytes : List UInt8) :
    Spends m 0 (Act.writeSpi backing bytes : Act ω β τ ε _) :=
  (ask _).bind fun _ => pure _

theorem takeUart : Spends m 0 (Act.takeUart : Act ω β τ ε _) :=
  (ask _).bind fun _ => ite (pure _) ((ask _).bind fun _ => pure _)

end Spends

end BusBench.Act
