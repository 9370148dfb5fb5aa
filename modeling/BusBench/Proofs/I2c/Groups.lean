import BusBench.Board.Recording
import BusBench.Prompt.I2c
import BusBench.Proofs.I2c.Transaction
import BusBench.Proofs.World.Working
import Mathlib.Data.List.TakeDrop
import Mathlib.Data.List.TakeWhile

/-!
# Groups of an I2C sequence

What a sequence asks of the bus, told by the shapes of its groups: which groups are accepted and as
which transaction, which are rejected, and where the groups end. Running the sequence makes these
transactions, each once and in order, up to the first lock that is refused.

* `Accepted`, `Rejected`: what becomes of the actions between a start and its stop.
* `Transactions`: the transactions of a sequence.
* `Serves`: exchanges that make transactions one after the other.
* `run_serves`: running a sequence makes its transactions.
-/

namespace BusBench.I2c

/-! ## Transactions -/

namespace Transaction

/-- The transaction that writes and reads so much. Where nothing is read it is a write. -/
def moving (address : UInt8) (bytes : List UInt8) (count : Nat) : Transaction :=
  if count = 0 then .write address bytes
  else if bytes.isEmpty then .read address count
  else .writeRead address bytes count

variable (address : UInt8) (bytes : List UInt8) (count : Nat)

theorem bytes_moving : (moving address bytes count).bytes = bytes := by
  unfold moving
  split
  · rfl
  · split
    · next hEmpty => exact (List.isEmpty_iff.mp hEmpty).symm
    · rfl

theorem count_moving : (moving address bytes count).count = count := by
  unfold moving
  split
  · next hNone => exact hNone.symm
  · split <;> rfl

/-- The request for the transaction. -/
def request (backing : Backing) : Transaction → Request
  | write address bytes => .i2c backing (.write address bytes)
  | read address count => .i2c backing (.read address count)
  | writeRead address bytes count => .i2c backing (.writeRead address bytes count)

end Transaction

/-! ## Groups -/

/-- The bytes that actions write, each as often as it is repeated. -/
def writtenBytes : List Action → List UInt8
  | [] => []
  | .write value count :: rest => List.replicate count.toNat value ++ writtenBytes rest
  | _ :: rest => writtenBytes rest

/-- How many bytes actions read. -/
def readCount : List Action → Nat
  | [] => 0
  | .read count :: rest => count.toNat + readCount rest
  | _ :: rest => readCount rest

/-- The actions between a start and its stop ask for this transaction. -/
inductive Accepted : List Action → Transaction → Prop
  | write {address writing} (hAddress : isRead address = false) (hWriting : .start ∉ writing) :
    Accepted (.write address 1 :: writing) (.moving (address >>> 1) (writtenBytes writing) 0)
  | read {address reading} (hAddress : isRead address = true) (hReading : .start ∉ reading) :
    Accepted (.write address 1 :: reading) (.moving (address >>> 1) [] (readCount reading))
  /-- After a second start the same device is addressed again, to be read. -/
  | writeRead {address second writing reading} (hAddress : isRead address = false)
    (hWriting : .start ∉ writing) (hSecond : isRead second = true)
    (hSame : second >>> 1 = address >>> 1) :
    Accepted (.write address 1 :: writing ++ .start :: .write second 1 :: reading)
      (.moving (address >>> 1) (writtenBytes writing) (readCount reading))

/-- The actions between a start and its stop ask for no transaction, and this is why. -/
inductive Rejected : List Action → GroupFault → Prop
  | noAddress {body} (h : ∀ address rest, body ≠ .write address 1 :: rest) :
    Rejected body .noAddress
  | readBeforeRepeatedStart {address rest} (hAddress : isRead address = true)
    (hRest : .start ∈ rest) : Rejected (.write address 1 :: rest) .readBeforeRepeatedStart
  | noSecondAddress {address writing rest} (hAddress : isRead address = false)
    (hWriting : .start ∉ writing)
    (hRest : ∀ second reading, isRead second = true → rest ≠ .write second 1 :: reading) :
    Rejected (.write address 1 :: writing ++ .start :: rest) .noSecondAddress
  | addressMismatch {address second writing reading} (hAddress : isRead address = false)
    (hWriting : .start ∉ writing) (hSecond : isRead second = true)
    (hSame : second >>> 1 ≠ address >>> 1) :
    Rejected (.write address 1 :: writing ++ .start :: .write second 1 :: reading) .addressMismatch

/-- The transactions for which the groups of a sequence ask. The groups end where something else
than a start follows, and before a start without a stop. -/
inductive Transactions : List Action → List Transaction → Prop
  | done {actions} (h : actions.head? ≠ some .start) : Transactions actions []
  | unstopped {body} (hBody : .stop ∉ body) : Transactions (.start :: body) []
  | accepted {body rest t ts} (hBody : .stop ∉ body) (hAccepted : Accepted body t)
    (h : Transactions rest ts) : Transactions (.start :: body ++ .stop :: rest) (t :: ts)
  | rejected {body rest fault ts} (hBody : .stop ∉ body) (hRejected : Rejected body fault)
    (h : Transactions rest ts) : Transactions (.start :: body ++ .stop :: rest) ts

/-- The exchanges make these transactions in order, each once and under a lock of its own, up to a
lock that is refused. -/
inductive Serves (backing : Backing) : List Transaction → List Exchange → Prop
  | done : Serves backing [] []
  | refused {t ts} : Serves backing (t :: ts) [⟨.i2c backing .lock, false⟩]
  | served {t ts trace} (answer) (h : Serves backing ts trace) :
    Serves backing (t :: ts) (⟨.i2c backing .lock, true⟩ :: ⟨t.request backing, answer⟩ ::
      ⟨.i2c backing .unlock, ()⟩ :: trace)

/-! ## Cutting a list -/

theorem span_of_not_mem {a : Action} {actions : List Action} (h : a ∉ actions) :
    actions.span (· ≠ a) = (actions, []) := by
  have hAll : ∀ action ∈ actions, decide (action ≠ a) = true := fun action hAction =>
    decide_eq_true fun hEq => h (hEq ▸ hAction)
  rw [List.span_eq_takeWhile_dropWhile, List.takeWhile_eq_self_iff.mpr hAll,
    List.dropWhile_eq_nil_iff.mpr hAll]

/-- A list is cut at the first occurrence. -/
theorem span_append {a : Action} {before rest : List Action} (h : a ∉ before) :
    (before ++ a :: rest).span (· ≠ a) = (before, a :: rest) := by
  have hAll : ∀ action ∈ before, decide (action ≠ a) = true := fun action hAction =>
    decide_eq_true fun hEq => h (hEq ▸ hAction)
  rw [List.span_eq_takeWhile_dropWhile, List.takeWhile_append_of_pos hAll,
    List.dropWhile_append_of_pos hAll, List.takeWhile_cons_of_neg, List.dropWhile_cons_of_neg,
    List.append_nil]
  · simp
  · simp

/-- There is only one place to cut it. -/
theorem append_inj {a : Action} {before rest before' rest' : List Action} (h : a ∉ before)
    (h' : a ∉ before') (hEq : before ++ a :: rest = before' ++ a :: rest') :
    before = before' ∧ rest = rest' := by
  have hCut : (before, a :: rest) = (before', a :: rest') := by
    rw [← span_append h, ← span_append h', hEq]
  cases hCut
  exact ⟨rfl, rfl⟩

/-! ## Planning -/

namespace Group

/-- The transaction of a group. -/
def transaction (group : Group) : Transaction :=
  .moving group.device group.written group.readLength

theorem written_eq (group : Group) : group.written = writtenBytes group.writing := by
  unfold written
  induction group.writing with
  | nil => rfl
  | cons action writing ih => cases action <;> simp [writtenBytes, ih]

theorem readLength_eq (group : Group) : group.readLength = readCount group.reading := by
  unfold readLength readRuns
  induction group.reading with
  | nil => rfl
  | cons action reading ih => cases action <;> simp [readCount, ih]

end Group

section

variable {address : UInt8} {writing rest : List Action}

theorem plan_of_not_mem (h : .start ∉ rest) :
    plan (.write address 1 :: rest) =
      if isRead address then .ok ⟨address, none, [], rest⟩
      else .ok ⟨address, none, rest, []⟩ := by
  simp only [plan, span_of_not_mem h]
  rfl

theorem plan_append (h : .start ∉ writing) :
    plan (.write address 1 :: writing ++ .start :: rest) =
      if isRead address then .error .readBeforeRepeatedStart
      else
        match rest with
        | .write second 1 :: reading =>
          if !isRead second then .error .noSecondAddress
          else if second >>> 1 ≠ address >>> 1 then .error .addressMismatch
          else .ok ⟨address, some second, writing, reading⟩
        | _ => .error .noSecondAddress := by
  simp only [plan, List.cons_append, span_append h]
  rfl

end

theorem Accepted.plan_eq {body : List Action} {t : Transaction} (h : Accepted body t) :
    ∃ group, plan body = .ok group ∧ group.transaction = t := by
  simp only [Group.transaction, Group.written_eq, Group.readLength_eq]
  cases h with
  | write hAddress hWriting =>
    rw [plan_of_not_mem hWriting, hAddress]
    exact ⟨_, rfl, rfl⟩
  | read hAddress hReading =>
    rw [plan_of_not_mem hReading, hAddress]
    exact ⟨_, rfl, rfl⟩
  | @writeRead address second writing reading hAddress hWriting hSecond hSame =>
    refine ⟨⟨address, some second, writing, reading⟩, ?_, rfl⟩
    rw [plan_append hWriting]
    simp [hAddress, hSecond, hSame]

theorem Rejected.plan_eq {body : List Action} {fault : GroupFault} (h : Rejected body fault) :
    plan body = .error fault := by
  cases h with
  | noAddress h =>
    unfold plan
    split
    · exact absurd rfl (h _ _)
    · rfl
  | readBeforeRepeatedStart hAddress hRest =>
    obtain ⟨writing, reading, rfl, hWriting⟩ := List.eq_append_cons_of_mem hRest
    rw [← List.cons_append, plan_append hWriting, hAddress]
    rfl
  | noSecondAddress hAddress hWriting hRest =>
    rw [plan_append hWriting, if_neg (ne_true_of_eq_false hAddress)]
    split
    · next second reading =>
      have hSecond : isRead second = false :=
        eq_false_of_ne_true fun hRead => hRest second reading hRead rfl
      rw [hSecond]
      rfl
    · rfl
  | addressMismatch hAddress hWriting hSecond hSame =>
    rw [plan_append hWriting]
    simp [hAddress, hSecond, hSame]

/-- Every group is accepted or rejected. -/
theorem accepted_or_rejected (body : List Action) :
    (∃ t, Accepted body t) ∨ ∃ fault, Rejected body fault := by
  by_cases hFirst : ∃ address rest, body = .write address 1 :: rest
  · obtain ⟨address, rest, rfl⟩ := hFirst
    by_cases hStart : Action.start ∈ rest
    · cases hAddress : isRead address with
      | true => exact .inr ⟨_, .readBeforeRepeatedStart hAddress hStart⟩
      | false =>
        obtain ⟨writing, rest, rfl, hWriting⟩ := List.eq_append_cons_of_mem hStart
        by_cases hSecond : ∃ second reading, isRead second = true ∧ rest = .write second 1 :: reading
        · obtain ⟨second, reading, hRead, rfl⟩ := hSecond
          by_cases hSame : second >>> 1 = address >>> 1
          · exact .inl ⟨_, .writeRead hAddress hWriting hRead hSame⟩
          · exact .inr ⟨_, .addressMismatch hAddress hWriting hRead hSame⟩
        · exact .inr ⟨_, .noSecondAddress hAddress hWriting fun second reading hRead hRest =>
            hSecond ⟨second, reading, hRead, hRest⟩⟩
    · cases hAddress : isRead address with
      | true => exact .inl ⟨_, .read hAddress hStart⟩
      | false => exact .inl ⟨_, .write hAddress hStart⟩
  · exact .inr ⟨_, .noAddress fun address rest hBody => hFirst ⟨address, rest, hBody⟩⟩

/-! ## The transactions of a sequence -/

theorem exists_transactions (actions : List Action) : ∃ ts, Transactions actions ts := by
  induction hLength : actions.length using Nat.strong_induction_on generalizing actions with
  | _ n ih =>
    by_cases hStart : actions.head? = some .start
    · obtain ⟨body, rfl⟩ := List.head?_eq_some_iff.mp hStart
      by_cases hStop : Action.stop ∈ body
      · obtain ⟨body, rest, rfl, hBody⟩ := List.eq_append_cons_of_mem hStop
        have hShorter : rest.length < n := by
          simp only [← hLength, List.length_cons, List.length_append]
          omega
        obtain ⟨ts, hRest⟩ := ih _ hShorter rest rfl
        rcases accepted_or_rejected body with ⟨t, hAccepted⟩ | ⟨fault, hRejected⟩
        · exact ⟨t :: ts, .accepted hBody hAccepted hRest⟩
        · exact ⟨ts, .rejected hBody hRejected hRest⟩
      · exact ⟨[], .unstopped hStop⟩
    · exact ⟨[], .done hStart⟩

namespace Transactions

/-- What a sequence asks for whose first group is complete. -/
theorem of_group {body rest : List Action} {ts : List Transaction} (hBody : .stop ∉ body)
    (h : Transactions (.start :: body ++ .stop :: rest) ts) :
    (∃ t later, Accepted body t ∧ Transactions rest later ∧ ts = t :: later) ∨
      ∃ fault, Rejected body fault ∧ Transactions rest ts := by
  generalize hActions : .start :: body ++ .stop :: rest = actions at h
  cases h with
  | done hStart => exact absurd (hActions ▸ rfl) hStart
  | unstopped hMissing =>
    rw [List.cons_append] at hActions
    cases hActions
    exact absurd (List.mem_append_right _ List.mem_cons_self) hMissing
  | accepted hBody' hAccepted hRest =>
    obtain ⟨rfl, rfl⟩ := append_inj hBody hBody' (List.cons.inj hActions).2
    exact .inl ⟨_, _, hAccepted, hRest, rfl⟩
  | rejected hBody' hRejected hRest =>
    obtain ⟨rfl, rfl⟩ := append_inj hBody hBody' (List.cons.inj hActions).2
    exact .inr ⟨_, hRejected, hRest⟩

theorem unique {actions : List Action} {ts ts' : List Transaction} (h : Transactions actions ts)
    (h' : Transactions actions ts') : ts' = ts := by
  induction h generalizing ts' with
  | done hStart =>
    cases h' with
    | done => rfl
    | _ => exact absurd rfl hStart
  | unstopped hMissing =>
    generalize hActions : Action.start :: _ = actions at h'
    cases h' with
    | done => rfl
    | unstopped => rfl
    | _ =>
      cases hActions
      exact absurd (List.mem_append_right _ List.mem_cons_self) hMissing
  | accepted hBody hAccepted hRest ih =>
    obtain ⟨group, hPlan, hGroup⟩ := hAccepted.plan_eq
    rcases of_group hBody h' with ⟨t, later, hAccepted', hRest', rfl⟩ | ⟨fault, hRejected, -⟩
    · obtain ⟨group', hPlan', hGroup'⟩ := hAccepted'.plan_eq
      rw [hPlan] at hPlan'
      cases hPlan'
      rw [← hGroup, ← hGroup', ih hRest']
    · rw [hRejected.plan_eq] at hPlan
      cases hPlan
  | rejected hBody hRejected hRest ih =>
    rcases of_group hBody h' with ⟨t, later, hAccepted, -, -⟩ | ⟨fault, -, hRest'⟩
    · obtain ⟨group, hPlan, -⟩ := hAccepted.plan_eq
      rw [hRejected.plan_eq] at hPlan
      cases hPlan
    · exact ih hRest'

end Transactions

/-! ## Running -/

variable {ω β τ : Type} {P : τ → Prop} {backing : Backing}

open Act (Issues)

/-- A group is one request to the bus. -/
theorem transact_issues (group : Group)
    {post : Except BusError (List UInt8) → List Exchange → Prop}
    (h : ∀ result answer, post result [⟨group.transaction.request backing, answer⟩]) :
    Issues P (transact backing group : Act ω β τ Error _) post := by
  unfold transact
  split
  · next hNone =>
    have hRequest : group.transaction.request backing =
        .i2c backing (.write group.device group.written) := by
      rw [Group.transaction, Transaction.moving, if_pos hNone]
      rfl
    rw [hRequest] at h
    exact .bind (.ask fun answer => .pure (h _ answer))
  · next hSome =>
    split
    · next hEmpty =>
      have hRequest : group.transaction.request backing =
          .i2c backing (.read group.device group.readLength) := by
        rw [Group.transaction, Transaction.moving, if_neg hSome, if_pos hEmpty]
        rfl
      rw [hRequest] at h
      exact .bind (.ask fun answer => .pure (h _ answer))
    · next hWritten =>
      have hRequest : group.transaction.request backing =
          .i2c backing (.writeRead group.device group.written group.readLength) := by
        rw [Group.transaction, Transaction.moving, if_neg hSome, if_neg hWritten]
        rfl
      rw [hRequest] at h
      exact .bind (.ask fun answer => .pure (h _ answer))

variable [Terminal τ]

theorem execute_issues (hWorks : Terminal.Works P) (group : Group)
    {post : Bool → List Exchange → Prop} (hRefused : post false [⟨.i2c backing .lock, false⟩])
    (hServed : ∀ answer, post true [⟨.i2c backing .lock, true⟩,
      ⟨group.transaction.request backing, answer⟩, ⟨.i2c backing .unlock, ()⟩]) :
    Issues P (execute backing group : Act ω β τ Error Bool) post := by
  refine .bind (.ask fun granted => ?_)
  cases granted with
  | false => exact .pure hRefused
  | true =>
    refine .bind (.attempt (.writeLine hWorks ?_))
    refine .bind (transact_issues group fun result answer => ?_)
    refine .bind (.tell fun _ => .bind (.pure ?_))
    exact .bind (.writeLines hWorks (.pure (hServed answer)))

section

variable {actions body rest : List Action} {n : Nat}

theorem runGroups_done (h : actions.head? ≠ some .start) :
    (runGroups backing n actions : Act ω β τ Error Unit) = pure () := by
  unfold runGroups
  split
  · exact absurd rfl h
  · rfl

theorem runGroups_unstopped (hBody : .stop ∉ body) :
    (runGroups backing (n + 1) (.start :: body) : Act ω β τ Error Unit) =
      Act.writeLine "Missing stop" := by
  simp only [runGroups, span_of_not_mem hBody]

theorem runGroups_rejected {fault : GroupFault} (hBody : .stop ∉ body)
    (hPlan : plan body = .error fault) :
    (runGroups backing (n + 1) (.start :: body ++ .stop :: rest) : Act ω β τ Error Unit) = (do
      Act.writeLine fault.message
      runGroups backing n rest) := by
  simp only [List.cons_append, runGroups, span_append hBody, hPlan]

theorem runGroups_accepted {group : Group} (hBody : .stop ∉ body) (hPlan : plan body = .ok group) :
    (runGroups backing (n + 1) (.start :: body ++ .stop :: rest) : Act ω β τ Error Unit) = (do
      if ← execute backing group then runGroups backing n rest) := by
  simp only [List.cons_append, runGroups, span_append hBody, hPlan]

/-- A group is longer than nothing. -/
theorem exists_bound (h : (Action.start :: body ++ .stop :: rest).length ≤ n) :
    ∃ m, n = m + 1 ∧ rest.length ≤ m := by
  simp only [List.cons_append, List.length_cons, List.length_append] at h
  exact ⟨n - 1, by omega, by omega⟩

end

theorem runGroups_issues (hWorks : Terminal.Works P) (backing : Backing) {actions : List Action}
    {ts : List Transaction} (h : Transactions actions ts) {n : Nat} (hLength : actions.length ≤ n) :
    Issues P (runGroups backing n actions : Act ω β τ Error Unit)
      fun _ trace => Serves backing ts trace := by
  -- Induction on the groups and not on the bound of the loop, which they never reach.
  induction h generalizing n with
  | done hStart =>
    rw [runGroups_done hStart]
    exact .pure .done
  | unstopped hBody =>
    obtain ⟨n, rfl⟩ := Nat.exists_eq_succ_of_ne_zero (Nat.ne_zero_of_lt hLength)
    rw [runGroups_unstopped hBody]
    exact .writeLine hWorks .done
  | accepted hBody hAccepted hRest ih =>
    obtain ⟨n, rfl, hLess⟩ := exists_bound hLength
    obtain ⟨group, hPlan, rfl⟩ := hAccepted.plan_eq
    rw [runGroups_accepted hBody hPlan]
    refine .bind (execute_issues hWorks group (.pure .refused) fun answer => ?_)
    exact (ih hLess).mono fun _ trace hServes => .served answer hServes
  | rejected hBody hRejected hRest ih =>
    obtain ⟨n, rfl, hLess⟩ := exists_bound hLength
    rw [runGroups_rejected hBody hRejected.plan_eq]
    exact .bind (.writeLine hWorks (ih hLess))

/-- Run with a terminal that works, a sequence asks the bus for the transactions of its groups, each
once, in order and under a lock of its own, whatever the bus answers. Nothing follows the first lock
that is refused. -/
theorem run_serves (hWorks : Terminal.Works P) (backing : Backing) (actions : List Action)
    (board : Board β) (world : World ω β τ) (hPeer : P world.peer) :
    ∃ ts trace, (∀ ts', Transactions actions ts' ↔ ts' = ts) ∧ Serves backing ts trace ∧
      (((run backing actions : Act ω β τ Error Unit) board).run world).1 = .ok () ∧
      exchanges ((run backing actions : Act ω β τ Error Unit).after board world).events =
        exchanges world.events ++ trace := by
  obtain ⟨ts, hTransactions⟩ := exists_transactions actions
  obtain ⟨-, _, trace, hOk, hTrace, -, hServes⟩ :=
    runGroups_issues hWorks backing hTransactions (Nat.le_refl _) board world hPeer
  refine ⟨ts, trace, fun ts' => ⟨hTransactions.unique, ?_⟩, hServes, hOk, hTrace⟩
  rintro rfl
  exact hTransactions

/-- Four groups: one that writes, one without an address, one that reads, and one behind an action
between groups. -/
def fourGroups : List Action :=
  [.start, .write 0x90 1, .write 0x05 2, .stop, .start, .read 1, .stop,
    .start, .write 0x91 1, .read 3, .stop, .clockHigh, .start, .write 0xA0 1, .stop]

/-- Two of the four groups become transactions on a board where nobody acknowledges. -/
theorem run_serves_fourGroups :
    ∃ trace, Serves .hardware [.write 0x48 [5, 5], .read 0x48 3] trace ∧
      exchanges (((run .hardware fourGroups : Act Unit _ Script Error Unit)).after
        (Recording.board "fake" {}) ⟨(), {}, {}, []⟩).events = trace := by
  obtain ⟨ts, trace, hTransactions, hServes, -, hTrace⟩ := run_serves Script.works .hardware
    fourGroups (Recording.board "fake" {}) ⟨(), {}, {}, []⟩ rfl
  have hGroups : Transactions
      (.start :: [.write 0x90 1, .write 0x05 2] ++ .stop ::
        (.start :: [.read 1] ++ .stop ::
          (.start :: [.write 0x91 1, .read 3] ++ .stop ::
            [.clockHigh, .start, .write 0xA0 1, .stop])))
      [.write 0x48 [5, 5], .read 0x48 3] := by
    refine .accepted (by decide) (.write (by decide) (by decide)) ?_
    refine .rejected (by decide) (.noAddress fun _ _ h => by cases h) ?_
    exact .accepted (by decide) (.read (by decide) (by decide)) (.done (by decide))
  obtain rfl := (hTransactions _).mp hGroups
  exact ⟨trace, hServes, hTrace⟩

end BusBench.I2c
