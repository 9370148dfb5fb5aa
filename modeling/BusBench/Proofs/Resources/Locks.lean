import BusBench.Board.Recording
import BusBench.Terminal.Script
import BusBench.Proofs.Resources.Engines

/-!
# Lock discipline

Transfers on I2C and SPI take place between a lock that was granted and its unlock. Every lock that
is granted is given back once before the program ends, and one that is refused is left to whoever
holds it.

* `Orderly`: steps that keep to the discipline.
* `Board.Locks`: what a board makes of locks; `Recording.board_locks`: the recording board's.
* `Act.Disciplined`: programs that keep to the discipline on every board.
* `lock_discipline`: sequences, macros and binary engines keep to it.
-/

namespace BusBench

/-! ## Steps of a lock -/

inductive LockStep where
  | granted (bus : Bus)
  | refused (bus : Bus)
  | freed (bus : Bus)
  /-- A transfer, or setting one up. -/
  | used (bus : Bus)
  deriving DecidableEq, Repr

/-- The step that an exchange is. The speed of I2C is set outside the lock. -/
def Exchange.lockStep? (exchange : Exchange) : Option LockStep :=
  match exchange.request.role with
  | .locks bus => some (if exchange.granted then .granted bus else .refused bus)
  | .unlocks bus => some (.freed bus)
  | .transfers bus => some (.used bus)
  | _ => none

def lockSteps (trace : List Exchange) : List LockStep :=
  trace.filterMap Exchange.lockStep?

theorem lockSteps_cons (exchange : Exchange) (trace : List Exchange) :
    lockSteps (exchange :: trace) = exchange.lockStep?.toList ++ lockSteps trace := by
  rw [lockSteps, List.filterMap_cons]
  cases exchange.lockStep? <;> rfl

/-- Begun while the bus, if any, is locked, the steps keep to the discipline and end with no bus
locked. -/
inductive Orderly : Option Bus → List LockStep → Prop
  | done : Orderly none []
  | refused (bus) {steps} (h : Orderly none steps) : Orderly none (.refused bus :: steps)
  | granted (bus) {steps} (h : Orderly (some bus) steps) : Orderly none (.granted bus :: steps)
  | used (bus) {steps} (h : Orderly (some bus) steps) : Orderly (some bus) (.used bus :: steps)
  | freed (bus) {steps} (h : Orderly none steps) : Orderly (some bus) (.freed bus :: steps)

namespace Custody

def lockedBus? (s : Custody) : Option Bus :=
  if s.locked then s.bus? else none

theorem lockedBus?_of_free {s : Custody} (h : s.locked = false) : s.lockedBus? = none := by
  rw [lockedBus?, h]
  rfl

theorem lockedBus?_of_locked {s : Custody} {bus : Bus} (h : s.locked = true)
    (hBus : s.bus? = some bus) : s.lockedBus? = some bus := by
  rw [lockedBus?, h, if_pos rfl, hBus]

/-- Whatever custody makes of an exchange, the steps of locks go along with it. -/
theorem orderly_step {exchange : Exchange} {s s' : Custody} {steps : List LockStep}
    (hStep : custody.step exchange s = some s') (h : Orderly s'.lockedBus? steps) :
    Orderly s.lockedBus? (exchange.lockStep?.toList ++ steps) := by
  unfold Exchange.lockStep?
  cases step_cases hStep with
  | @claims holding hRole hSeparate hAllows hFree =>
    have hAfter : (if exchange.granted then s.add holding.resource else s).locked = false := by
      split
      · rw [add_locked, hFree]
      · exact hFree
    rw [lockedBus?_of_free hAfter] at h
    rw [lockedBus?_of_free hFree, hRole]
    exact h
  | releases hRole hHolds hFree =>
    rw [lockedBus?_of_free (by rw [remove_locked, hFree])] at h
    rw [lockedBus?_of_free hFree, hRole]
    exact h
  | locks hRole hBus hFree =>
    rw [lockedBus?_of_free hFree, hRole]
    cases hGranted : exchange.granted with
    | true =>
      rw [hGranted] at h
      change Orderly s.bus? steps at h
      rw [hBus] at h
      exact .granted _ h
    | false =>
      rw [hGranted] at h
      exact .refused _ h
  | unlocks hRole hBus hLocked =>
    rw [lockedBus?_of_free rfl] at h
    rw [lockedBus?_of_locked hLocked hBus, hRole]
    exact .freed _ h
  | transfers hRole hBus hLocked =>
    rw [lockedBus?_of_locked hLocked hBus] at h ⊢
    rw [hRole]
    exact .used _ h
  | uses hRole hHolds =>
    rw [hRole]
    exact h
  | free hRole =>
    rw [hRole]
    exact h

theorem orderly_run {trace : List Exchange} {s s' : Custody} (hRun : custody.run trace s = some s')
    (hFree : s'.locked = false) : Orderly s.lockedBus? (lockSteps trace) := by
  induction trace generalizing s with
  | nil =>
    obtain rfl : s = s' := Option.some.inj hRun
    rw [lockedBus?_of_free hFree]
    exact .done
  | cons exchange trace ih =>
    obtain ⟨mid, hStep, hRest⟩ := Option.bind_eq_some_iff.mp hRun
    rw [lockSteps_cons]
    exact orderly_step hStep (ih hRest)

end Custody

/-! ## Locks of a board -/

/-- What a board makes of locks: a lock is held only by whom it was granted to, and nobody holds it
after an unlock. -/
structure Board.Locks {β : Type} (board : Board β) (bus : Bus) (held : β → Prop) : Prop where
  refused : ∀ {request} s, request.role = .locks bus → ¬ held s →
    Exchange.granted ⟨request, (board.answer request s).1⟩ = false →
      ¬ held (board.answer request s).2
  unlocked : ∀ {request} s, request.role = .unlocks bus → ¬ held (board.answer request s).2
  other : ∀ {request} s, request.role ≠ .locks bus → ¬ held s → ¬ held (board.answer request s).2

/-- Where nobody holds the lock, nobody holds it after orderly steps. -/
theorem Board.Locks.free_of_orderly {β : Type} {board : Board β} {bus : Bus} {held : β → Prop}
    (hLocks : board.Locks bus held) {s s' : β} {trace : List Exchange} {locked? : Option Bus}
    (hAnswers : board.Answers s trace s') (hOrderly : Orderly locked? (lockSteps trace))
    (hFree : locked? ≠ some bus → ¬ held s) : ¬ held s' := by
  -- While the program has the lock of the bus itself, nothing is known of whoever holds it.
  induction hAnswers generalizing locked? with
  | nil s =>
    cases hOrderly
    exact hFree nofun
  | @cons request s trace s' hAnswers ih =>
    rw [lockSteps_cons] at hOrderly
    unfold Exchange.lockStep? at hOrderly
    have hKept : request.role ≠ .locks bus → locked? ≠ some bus →
        ¬ held (board.answer request s).2 :=
      fun hRole hOther => hLocks.other s hRole (hFree hOther)
    dsimp only at hOrderly
    cases hRole : request.role with
    | locks bus' =>
      rw [hRole] at hOrderly hKept
      cases hGranted : Exchange.granted ⟨request, (board.answer request s).1⟩ with
      | true =>
        rw [hGranted] at hOrderly
        cases hOrderly with
        | granted _ h =>
          refine ih h fun hOther => hKept (fun hSame => ?_) nofun
          cases hSame
          exact hOther rfl
      | false =>
        rw [hGranted] at hOrderly
        cases hOrderly with
        | refused _ h =>
          refine ih h fun _ => ?_
          by_cases hSame : bus' = bus
          · subst hSame
            exact hLocks.refused s hRole (hFree nofun) hGranted
          · exact hKept (fun h => hSame (Role.locks.inj h)) nofun
    | unlocks bus' =>
      rw [hRole] at hOrderly hKept
      cases hOrderly with
      | freed _ h =>
        refine ih h fun _ => ?_
        by_cases hSame : bus' = bus
        · subst hSame
          exact hLocks.unlocked s hRole
        · exact hKept nofun fun h => hSame (Option.some.inj h)
    | transfers bus' =>
      rw [hRole] at hOrderly hKept
      cases hOrderly with
      | used _ h => exact ih h (hKept nofun)
    | claims holding =>
      rw [hRole] at hOrderly hKept
      exact ih hOrderly (hKept nofun)
    | releases resource =>
      rw [hRole] at hOrderly hKept
      exact ih hOrderly (hKept nofun)
    | uses resource =>
      rw [hRole] at hOrderly hKept
      exact ih hOrderly (hKept nofun)
    | free =>
      rw [hRole] at hOrderly hKept
      exact ih hOrderly (hKept nofun)

/-! ## The recording board -/

namespace Recording

/-- The word under which the board keeps the lock of a bus. -/
def lockWord : Bus → String
  | .i2c backing => backing.word "i2c"
  | .spi backing => backing.word "spi"
  | .uart => "uart"
  | .oneWire => "onewire"

theorem lockWord_injective : Function.Injective lockWord := by
  rintro ((- | -) | (- | -) | - | -) ((- | -) | (- | -) | - | -) h <;>
    first | rfl | exact absurd h (by decide)

variable {α : Type} {word resource : String} {s : State}

theorem locked_guarded {call : State → Except BusError α × State}
    (h : ∀ s, (call s).2.locked ⊆ s.locked) : (guarded word s call).2.locked ⊆ s.locked := by
  unfold guarded count
  dsimp only
  split
  · exact fun _ h => h
  · exact h _

theorem locked_claim : (claim resource s).2.locked ⊆ s.locked := by
  unfold claim
  split
  · exact fun _ h => h
  · exact List.filter_sublist.subset

theorem locked_claimPin (pin : Pin) : (claimPin pin s).2.locked ⊆ s.locked := by
  have hClaim : (claim pin.name s).2.locked ⊆ s.locked := locked_claim
  unfold claimPin
  split
  · exact fun _ h => h
  · split
    · next hGranted =>
      rw [hGranted] at hClaim
      exact hClaim
    · exact hClaim

theorem locked_addressed (address : UInt8) (answer : α) :
    (addressed word address answer s).2.locked ⊆ s.locked := by
  refine locked_guarded fun s => ?_
  split <;> exact fun _ h => h

theorem locked_unlock : (unlock resource s).locked ⊆ s.locked :=
  List.filter_sublist.subset

theorem locked_lock : (lock resource word s).2.locked ⊆ s.locked ∨
    (lock resource word s).1 = true ∧ (lock resource word s).2.locked = resource :: s.locked := by
  unfold lock count
  dsimp only
  split
  · exact .inl fun _ h => h
  · exact .inr ⟨rfl, rfl⟩

/-- Nothing but a lock that is granted adds to the locks that are held. -/
theorem locked_answer (request : Request) (s : State) :
    (answer request s).2.locked ⊆ s.locked ∨ ∃ bus, request.role = .locks bus ∧
      Exchange.granted ⟨request, (answer request s).1⟩ = true ∧
      (answer request s).2.locked = lockWord bus :: s.locked := by
  have hSame : s.locked ⊆ s.locked := fun _ h => h
  have hGuarded : ∀ {α : Type} {word : String} {call : State → Except BusError α × State},
      (∀ s, (call s).2.locked = s.locked) → (guarded word s call).2.locked ⊆ s.locked :=
    fun h => locked_guarded fun s => by rw [h]; exact fun _ h => h
  cases request with
  | i2c backing call =>
    cases call with
    | claim => exact .inl locked_claim
    | release => exact .inl hSame
    | lock => exact locked_lock.imp_right fun h => ⟨.i2c backing, rfl, h.1, h.2⟩
    | unlock => exact .inl locked_unlock
    | setFrequency => exact .inl (hGuarded fun _ => rfl)
    | write | read | writeRead => exact .inl (locked_addressed _ _)
  | spi backing call =>
    cases call with
    | claim => exact .inl locked_claim
    | release => exact .inl hSame
    | lock => exact locked_lock.imp_right fun h => ⟨.spi backing, rfl, h.1, h.2⟩
    | unlock => exact .inl locked_unlock
    | configure | transfer => exact .inl (hGuarded fun _ => rfl)
  | uart call =>
    cases call with
    | claim => exact .inl locked_claim
    | write => exact .inl (hGuarded fun _ => by split <;> rfl)
    | configure => exact .inl (hGuarded fun _ => rfl)
    | _ => exact .inl hSame
  | oneWire call =>
    cases call with
    | claim => exact .inl locked_claim
    | release => exact .inl hSame
    | write => exact .inl (hGuarded fun _ => by split <;> rfl)
    | _ => exact .inl (hGuarded fun _ => rfl)
  | pin p call =>
    cases call with
    | claim => exact .inl (locked_claimPin p)
    | release => exact .inl hSame
    | _ => exact .inl (hGuarded fun _ => rfl)
  | _ => exact .inl hSame

/-- On the recording board a lock is held by whom it was granted to, until it is unlocked. -/
theorem board_locks (name : String) (header : Header) (bus : Bus) :
    (board name header).Locks bus fun s => lockWord bus ∈ s.locked where
  refused {request} s hRole hFree hRefused := by
    rcases locked_answer request s with hSubset | ⟨bus', -, hGranted, -⟩
    · exact fun h => hFree (hSubset h)
    · exact absurd (hGranted.symm.trans hRefused) nofun
  unlocked {request} s hRole := by
    have hUnlock : lockWord bus ∉ (unlock (lockWord bus) s).locked := by simp [unlock]
    cases request with
    | i2c backing call =>
      cases call <;> cases hRole
      exact hUnlock
    | spi backing call =>
      cases call <;> cases hRole
      exact hUnlock
    | uart call => cases call <;> cases hRole
    | oneWire call => cases call <;> cases hRole
    | pin p call => cases call <;> cases hRole
    | _ => cases hRole
  other {request} s hRole hFree := by
    rcases locked_answer request s with hSubset | ⟨bus', hLocks, -, hLocked⟩
    · exact fun h => hFree (hSubset h)
    · intro hHeld
      change lockWord bus ∈ (answer request s).2.locked at hHeld
      rw [hLocked, List.mem_cons] at hHeld
      rcases hHeld with hWord | hHeld
      · exact hRole (lockWord_injective hWord ▸ hLocks)
      · exact hFree hHeld

end Recording

/-! ## Programs -/

namespace Act

variable {ω β τ ε α : Type}

/-- On every board the program makes orderly steps, begun and ended with no bus locked, so that a
lock that nobody held is held by nobody afterwards. -/
def Disciplined (program : Act ω β τ ε α) : Prop :=
  ∀ (board : Board β) (world : World ω β τ), ∃ trace,
    exchanges (program.after board world).events = exchanges world.events ++ trace ∧
      Orderly none (lockSteps trace) ∧
      ∀ bus held, board.Locks bus held → ¬ held world.board →
        ¬ held (program.after board world).board

theorem Disciplined.of_stays {program : Act ω β τ ε α} {s : Custody} (hFree : s.locked = false)
    (h : ∀ x, Obeys custody program x s fun _ _ s' => s' = s) : program.Disciplined := by
  intro board world
  obtain ⟨trace, s', hTrace, hAnswers, hRun, rfl⟩ := h world.own board world rfl
  have hOrderly := Custody.orderly_run hRun hFree
  rw [Custody.lockedBus?_of_free hFree] at hOrderly
  exact ⟨trace, hTrace, hOrderly, fun bus held hLocks hHeld =>
    hLocks.free_of_orderly hAnswers hOrderly fun _ => hHeld⟩

end Act

/-- Sequences and macros in every mode and the engines of the binary protocol lock a bus before
they transfer anything on it, and give back every lock they are granted and no other one, whatever
the board answers and wherever the terminal or the link fails. -/
theorem lock_discipline {ω β τ : Type} [Terminal τ] (mode : Mode) (actions : List Action)
    (key : UInt8) (engine : Binary.Engine) :
    (mode.run actions : Act ω β τ Error Unit).Disciplined ∧
      (mode.runShortcut key : Act ω β τ Error (Except Error Unit × Mode)).Disciplined ∧
      (engine.run : Binary.Talk ω β Unit).Disciplined := by
  refine ⟨?_, ?_, ?_⟩
  · refine .of_stays (s := .settled mode.bus? true) rfl fun x => ?_
    have hRun := mode.run_stays (ω := ω) (β := β) (τ := τ) (P := fun _ => True)
      (s := .settled mode.bus? true) rfl rfl (fun _ => List.mem_cons_self) actions
    exact (hRun x trivial).mono fun _ _ _ => And.right
  · refine .of_stays (s := .settled mode.bus? true) rfl fun x => ?_
    have hRun := mode.runShortcut_obeys (ω := ω) (β := β) (τ := τ) (P := fun _ => True) (x := x)
      (s := .settled mode.bus? true) rfl rfl key trivial
    exact hRun.mono fun _ _ _ h => h.1.2
  · refine .of_stays (s := .settled none true) rfl fun x => ?_
    have hRun := engine.run_stays (ω := ω) (β := β) (P := fun _ => True)
      (s := .settled none true) rfl rfl (by decide) (by decide)
    exact (hRun x trivial).mono fun _ _ _ => And.right

/-- A recording board on which every write on I2C fails. -/
def failingWrites : World Unit Recording.State Script :=
  ⟨(), { faults.rules := [⟨"i2c.write", none⟩] }, {}, []⟩

/-- A transfer that fails leaves the lock free. -/
theorem lock_discipline_failing :
    Recording.lockWord (.i2c .hardware) ∉
      (((Mode.i2c .hardware).run [.start, .write 0xA0 1, .stop] : Act _ _ _ Error Unit).after
        (Recording.board "fake" {}) failingWrites).board.locked := by
  have hLocks := Recording.board_locks "fake" {} (.i2c .hardware)
  obtain ⟨hRun, -, -⟩ := lock_discipline (ω := Unit) (β := Recording.State) (τ := Script)
    (.i2c .hardware) [.start, .write 0xA0 1, .stop] 0 .spi
  obtain ⟨trace, hTrace, hOrderly, hFree⟩ := hRun (Recording.board "fake" {}) failingWrites
  exact hFree (.i2c .hardware) _ hLocks List.not_mem_nil

end BusBench
