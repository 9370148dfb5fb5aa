import BusBench.Proofs.I2c.Groups

/-!
# The form of a transaction

The address bytes of a group say in which form it was typed: they ask to write, to read, or first to
write and then to read. The transaction is made by what the parts of the group move, so it has this
form only if there is something to move in each of them.

* `Typed`: the groups as they are typed.
* `Transaction.directions`: what the address bytes on the wire ask for.
* `Group.Formed`: in which form the transaction of a group is made, and what it leaves out.
* `run_forms`: the transactions of a sequence, and their forms.
-/

namespace BusBench.I2c

/-! ## Groups as they are typed -/

/-- The actions between a start and its stop, and the group that they make. -/
inductive Typed : List Action → Group → Prop
  | write {address writing} (hAddress : isRead address = false) (hWriting : .start ∉ writing) :
    Typed (.write address 1 :: writing) ⟨address, none, writing, []⟩
  | read {address reading} (hAddress : isRead address = true) (hReading : .start ∉ reading) :
    Typed (.write address 1 :: reading) ⟨address, none, [], reading⟩
  | writeRead {address second writing reading} (hAddress : isRead address = false)
    (hWriting : .start ∉ writing) (hSecond : isRead second = true)
    (hSame : second >>> 1 = address >>> 1) :
    Typed (.write address 1 :: writing ++ .start :: .write second 1 :: reading)
      ⟨address, some second, writing, reading⟩

/-- The actions of the group apart from its address bytes. -/
def Group.actions (group : Group) : List Action :=
  group.writing ++ group.reading

theorem Group.transaction_eq (group : Group) : group.transaction =
    .moving group.device (writtenBytes group.writing) (readCount group.reading) := by
  rw [Group.transaction, Group.written_eq, Group.readLength_eq]

section

variable {body : List Action} {group : Group}

theorem Typed.plan_eq (h : Typed body group) : plan body = .ok group := by
  cases h with
  | write hAddress hWriting =>
    rw [plan_of_not_mem hWriting, hAddress]
    rfl
  | read hAddress hReading =>
    rw [plan_of_not_mem hReading, hAddress]
    rfl
  | writeRead hAddress hWriting hSecond hSame =>
    rw [plan_append hWriting]
    simp [hAddress, hSecond, hSame]

theorem Typed.accepted (h : Typed body group) : Accepted body group.transaction := by
  rw [Group.transaction_eq]
  cases h with
  | write hAddress hWriting => exact .write hAddress hWriting
  | read hAddress hReading => exact .read hAddress hReading
  | writeRead hAddress hWriting hSecond hSame => exact .writeRead hAddress hWriting hSecond hSame

theorem Accepted.exists_typed {t : Transaction} (h : Accepted body t) :
    ∃ group, Typed body group := by
  cases h with
  | write hAddress hWriting => exact ⟨_, .write hAddress hWriting⟩
  | read hAddress hReading => exact ⟨_, .read hAddress hReading⟩
  | writeRead hAddress hWriting hSecond hSame =>
    exact ⟨_, .writeRead hAddress hWriting hSecond hSame⟩

/-- The groups that are accepted are those that were typed in one of the three forms. -/
theorem plan_eq_ok_iff : plan body = .ok group ↔ Typed body group := by
  constructor
  · intro hPlan
    rcases accepted_or_rejected body with ⟨t, hAccepted⟩ | ⟨fault, hRejected⟩
    · obtain ⟨group', hTyped⟩ := hAccepted.exists_typed
      obtain rfl : group' = group := Except.ok.inj (hTyped.plan_eq.symm.trans hPlan)
      exact hTyped
    · rw [hRejected.plan_eq] at hPlan
      cases hPlan
  · exact Typed.plan_eq

theorem Typed.mem_of_mem_actions (h : Typed body group) {action : Action}
    (hAction : action ∈ group.actions) : action ∈ body := by
  rcases List.mem_append.mp hAction with hWriting | hReading
  · cases h with
    | write => exact .tail _ hWriting
    | read => cases hWriting
    | writeRead => exact List.mem_append_left _ (.tail _ hWriting)
  · cases h with
    | write => cases hReading
    | read => exact .tail _ hReading
    | writeRead => exact List.mem_append_right _ (.tail _ (.tail _ hReading))

end

/-! ## What actions move -/

theorem writtenBytes_append (actions more : List Action) :
    writtenBytes (actions ++ more) = writtenBytes actions ++ writtenBytes more := by
  induction actions with
  | nil => rfl
  | cons action actions ih => cases action <;> simp [writtenBytes, ih]

theorem readCount_append (actions more : List Action) :
    readCount (actions ++ more) = readCount actions + readCount more := by
  induction actions with
  | nil => exact (Nat.zero_add _).symm
  | cons action actions ih => cases action <;> simp [readCount, ih, Nat.add_assoc]

section

variable {actions : List Action} (h : ∀ action ∈ actions, action.count ≠ 0)
include h

theorem writtenBytes_eq_nil_iff :
    writtenBytes actions = [] ↔ ∀ value n, .write value n ∉ actions := by
  induction actions with
  | nil => simp [writtenBytes]
  | cons action actions ih =>
    have hRest := ih fun action hAction => h action (.tail _ hAction)
    cases action with
    | write value n =>
      have hSome : n ≠ 0 := h _ List.mem_cons_self
      have hCount : n.toNat ≠ 0 := fun hNone => hSome (UInt16.toNat_inj.mp hNone)
      constructor
      · intro hEmpty
        have hNone := (List.append_eq_nil_iff.mp hEmpty).1
        exact absurd (by simpa using hNone) hCount
      · intro hNone
        exact absurd List.mem_cons_self (hNone value n)
    | _ => simpa [writtenBytes] using hRest

theorem readCount_eq_zero_iff : readCount actions = 0 ↔ ∀ n, .read n ∉ actions := by
  induction actions with
  | nil => simp [readCount]
  | cons action actions ih =>
    have hRest := ih fun action hAction => h action (.tail _ hAction)
    cases action with
    | read n =>
      have hSome : n ≠ 0 := h _ List.mem_cons_self
      have hCount : n.toNat ≠ 0 := fun hNone => hSome (UInt16.toNat_inj.mp hNone)
      constructor
      · intro hZero
        exact absurd (Nat.add_eq_zero_iff.mp hZero).1 hCount
      · intro hNone
        exact absurd List.mem_cons_self (hNone n)
    | _ => simpa [readCount] using hRest

end

/-! ## The form of a group -/

/-- Whether the address bytes on the wire ask to read. -/
def Transaction.directions : Transaction → List Bool
  | write .. => [false]
  | read .. => [true]
  | writeRead .. => [false, true]

namespace Group

/-- The address bytes as they were typed. If the transaction succeeds, the transcript says of each
of them that it was acknowledged. -/
def addresses (group : Group) : List UInt8 :=
  group.address :: group.repeated?.toList

/-- If the group asks to read there is a read behind, and a write before a second start. -/
def IsFilled (group : Group) : Prop :=
  (true ∈ group.addresses.map isRead → ∃ n, .read n ∈ group.reading) ∧
    (group.repeated? ≠ none → ∃ value n, .write value n ∈ group.writing)

/-- How the transaction of a group is made by what its parts move. -/
structure Formed (group : Group) : Prop where
  /-- Without a read it is a write, whatever the address bytes say. -/
  write (h : ∀ n, .read n ∉ group.reading) :
    group.transaction = .write group.device (writtenBytes group.writing)
  /-- Without a write it is a read, also behind a second start. -/
  read {n : UInt16} (h : .read n ∈ group.reading)
    (hNone : ∀ value n, .write value n ∉ group.writing) :
    group.transaction = .read group.device (readCount group.reading)
  writeRead {n m : UInt16} {value : UInt8} (h : .read n ∈ group.reading)
    (hWrite : .write value m ∈ group.writing) :
    group.transaction =
      .writeRead group.device (writtenBytes group.writing) (readCount group.reading)
  /-- So its address bytes ask for what was typed exactly where no part is empty, -/
  directions : group.transaction.directions = group.addresses.map isRead ↔ group.IsFilled
  /-- but all that were typed are shown as acknowledged. -/
  acknowledges {address : UInt8} (h : address ∈ group.addresses) (data : List UInt8) :
    "WRITE " ++ acknowledged address ∈ group.transcript data
  /-- It moves all that was typed exactly where nothing was typed in a part of the other kind. -/
  whole : (group.transaction.bytes = writtenBytes group.actions ∧
      group.transaction.count = readCount group.actions) ↔
    (∀ n, .read n ∉ group.writing) ∧ ∀ value n, .write value n ∉ group.reading

end Group

theorem Transaction.directions_moving (address : UInt8) (bytes : List UInt8) (count : Nat) :
    (moving address bytes count).directions =
      if count = 0 then [false] else if bytes = [] then [true] else [false, true] := by
  unfold moving
  by_cases hCount : count = 0
  · rw [if_pos hCount, if_pos hCount]
    rfl
  · rw [if_neg hCount, if_neg hCount]
    cases bytes <;> rfl

section

variable {body : List Action} {group : Group}

/-- Every part of a group that was typed in one of the three forms has something to move just if its
transaction is made in that form. -/
theorem Typed.directions_iff (h : Typed body group)
    (hReads : readCount group.reading = 0 ↔ ∀ n, .read n ∉ group.reading)
    (hWrites : writtenBytes group.writing = [] ↔ ∀ value n, .write value n ∉ group.writing) :
    group.transaction.directions = group.addresses.map isRead ↔ group.IsFilled := by
  have hSomeRead : (∃ n, .read n ∈ group.reading) ↔ readCount group.reading ≠ 0 := by
    rw [ne_eq, hReads]
    simp
  have hSomeWrite : (∃ value n, .write value n ∈ group.writing) ↔
      writtenBytes group.writing ≠ [] := by
    rw [ne_eq, hWrites]
    simp
  rw [Group.transaction_eq, Transaction.directions_moving, Group.IsFilled, hSomeRead, hSomeWrite]
  cases h with
  | write hAddress => simp [Group.addresses, hAddress, readCount]
  | @read address reading hAddress =>
    by_cases hCount : readCount reading = 0
    · simp [Group.addresses, hAddress, hCount]
    · simp [Group.addresses, hAddress, hCount, writtenBytes]
  | @writeRead address second writing reading hAddress hWriting hSecond hSame =>
    by_cases hCount : readCount reading = 0
    · simp [Group.addresses, hAddress, hSecond, hCount]
    · by_cases hBytes : writtenBytes writing = []
      · simp [Group.addresses, hAddress, hSecond, hCount, hBytes]
      · simp [Group.addresses, hAddress, hSecond, hCount, hBytes]

theorem Typed.formed (hTyped : Typed body group)
    (h : ∀ action ∈ group.actions, action.count ≠ 0) : group.Formed := by
  have hReads := readCount_eq_zero_iff fun action hAction =>
    h action (List.mem_append_right group.writing hAction)
  have hWrites := writtenBytes_eq_nil_iff fun action hAction =>
    h action (List.mem_append_left group.reading hAction)
  have hMoreReads := readCount_eq_zero_iff fun action hAction =>
    h action (List.mem_append_left group.reading hAction)
  have hMoreWrites := writtenBytes_eq_nil_iff fun action hAction =>
    h action (List.mem_append_right group.writing hAction)
  constructor
  case write =>
    intro hNone
    rw [group.transaction_eq, Transaction.moving, if_pos (hReads.mpr hNone)]
  case read =>
    intro n hRead hNone
    have hCount : readCount group.reading ≠ 0 := fun hZero => hReads.mp hZero n hRead
    rw [group.transaction_eq, Transaction.moving, if_neg hCount, hWrites.mpr hNone]
    rfl
  case writeRead =>
    intro n m value hRead hWrite
    have hCount : readCount group.reading ≠ 0 := fun hZero => hReads.mp hZero n hRead
    have hBytes : writtenBytes group.writing ≠ [] := fun hNil => hWrites.mp hNil value m hWrite
    rw [group.transaction_eq, Transaction.moving, if_neg hCount,
      if_neg fun hEmpty => hBytes (List.isEmpty_iff.mp hEmpty)]
  case directions => exact hTyped.directions_iff hReads hWrites
  case acknowledges =>
    intro address hAddress data
    rcases List.mem_cons.mp hAddress with rfl | hSecond
    · simp [Group.transcript]
    · have hRepeated : group.repeated? = some address := Option.mem_toList.mp hSecond
      simp [Group.transcript, hRepeated]
  case whole =>
    rw [group.transaction_eq, Transaction.bytes_moving, Transaction.count_moving, Group.actions,
      writtenBytes_append, readCount_append, ← hMoreReads, ← hMoreWrites]
    constructor
    · rintro ⟨hBytes, hCount⟩
      exact ⟨by omega, List.self_eq_append_right.mp hBytes⟩
    · rintro ⟨hCount, hBytes⟩
      exact ⟨by rw [hBytes, List.append_nil], by omega⟩

end

/-! ## Sequences -/

/-- The groups of a sequence that are accepted. -/
inductive Groups : List Action → List Group → Prop
  | done {actions} (h : actions.head? ≠ some .start) : Groups actions []
  | unstopped {body} (hBody : .stop ∉ body) : Groups (.start :: body) []
  | accepted {body rest group groups} (hBody : .stop ∉ body) (hTyped : Typed body group)
    (h : Groups rest groups) : Groups (.start :: body ++ .stop :: rest) (group :: groups)
  | rejected {body rest fault groups} (hBody : .stop ∉ body) (hRejected : Rejected body fault)
    (h : Groups rest groups) : Groups (.start :: body ++ .stop :: rest) groups

theorem counts_of_group {body rest : List Action}
    (h : ∀ action ∈ .start :: body ++ .stop :: rest, action.count ≠ 0) :
    (∀ action ∈ body, action.count ≠ 0) ∧ ∀ action ∈ rest, action.count ≠ 0 := by
  constructor
  · exact fun action hAction => h action (List.mem_append_left _ (.tail _ hAction))
  · exact fun action hAction => h action (List.mem_append_right _ (.tail _ hAction))

theorem Transactions.exists_groups {actions : List Action} {ts : List Transaction}
    (h : Transactions actions ts) : ∃ groups, Groups actions groups := by
  induction h with
  | done hStart => exact ⟨[], .done hStart⟩
  | unstopped hBody => exact ⟨[], .unstopped hBody⟩
  | accepted hBody hAccepted hRest ih =>
    obtain ⟨group, hTyped⟩ := hAccepted.exists_typed
    obtain ⟨groups, hGroups⟩ := ih
    exact ⟨group :: groups, .accepted hBody hTyped hGroups⟩
  | rejected hBody hRejected hRest ih =>
    obtain ⟨groups, hGroups⟩ := ih
    exact ⟨groups, .rejected hBody hRejected hGroups⟩

namespace Groups

variable {actions : List Action} {groups : List Group}

theorem transactions (h : Groups actions groups) :
    Transactions actions (groups.map Group.transaction) := by
  induction h with
  | done hStart => exact .done hStart
  | unstopped hBody => exact .unstopped hBody
  | accepted hBody hTyped hRest ih => exact .accepted hBody hTyped.accepted ih
  | rejected hBody hRejected hRest ih => exact .rejected hBody hRejected ih

theorem formed (h : Groups actions groups) (hCounts : ∀ action ∈ actions, action.count ≠ 0) :
    ∀ group ∈ groups, group.Formed := by
  induction h with
  | done | unstopped => exact fun group hGroup => absurd hGroup List.not_mem_nil
  | @accepted body rest first groups hBody hTyped hRest ih =>
    obtain ⟨hFirst, hLater⟩ := counts_of_group hCounts
    intro group hGroup
    rcases List.mem_cons.mp hGroup with rfl | hGroup
    · exact hTyped.formed fun action hAction => hFirst action (hTyped.mem_of_mem_actions hAction)
    · exact ih hLater group hGroup
  | rejected hBody hRejected hRest ih => exact ih (counts_of_group hCounts).2

end Groups

variable {ω β τ : Type} {P : τ → Prop} [Terminal τ]

/-- Run with a terminal that works, a sequence makes one transaction for each of its groups that are
accepted, up to a lock that is refused. It moves what the parts of the group say, and has the form
in which the group was typed just if none of these parts is empty. -/
theorem run_forms (hWorks : Terminal.Works P) (backing : Backing) {actions : List Action}
    (hCounts : ∀ action ∈ actions, action.count ≠ 0) (board : Board β) (world : World ω β τ)
    (hPeer : P world.peer) :
    (∃ groups, Groups actions groups) ∧ ∀ groups, Groups actions groups →
      (∃ trace, Serves backing (groups.map Group.transaction) trace ∧
        (((run backing actions : Act ω β τ Error Unit) board).run world).1 = .ok () ∧
        exchanges ((run backing actions : Act ω β τ Error Unit).after board world).events =
          exchanges world.events ++ trace) ∧
      ∀ group ∈ groups, group.Formed := by
  constructor
  · obtain ⟨ts, hTransactions⟩ := exists_transactions actions
    exact hTransactions.exists_groups
  · intro groups hGroups
    obtain ⟨-, _, trace, hOk, hTrace, -, hServes⟩ := runGroups_issues hWorks backing
      hGroups.transactions (Nat.le_refl _) board world hPeer
    exact ⟨⟨trace, hServes, hOk, hTrace⟩, hGroups.formed hCounts⟩

/-- A group that asks to read and reads nothing, and one with nothing to write before its second
start. -/
def emptyParts : List Action :=
  [.start, .write 0xA1 1, .stop, .start, .write 0xA0 1, .start, .write 0xA1 1, .read 2, .stop]

/-- The one is made as a write, and the other as a read without a write. -/
theorem run_forms_emptyParts :
    ∃ trace, Serves .hardware [.write 0x50 [], .read 0x50 2] trace ∧
      exchanges ((run .hardware emptyParts : Act Unit _ Script Error Unit).after
        (Recording.board "fake" {}) ⟨(), {}, {}, []⟩).events = trace ∧
      (Group.mk 0xA1 none [] []).Formed ∧ (Group.mk 0xA0 (some 0xA1) [] [.read 2]).Formed := by
  obtain ⟨-, hRun⟩ := run_forms Script.works .hardware
    (show ∀ action ∈ emptyParts, action.count ≠ 0 by decide)
    (Recording.board "fake" {}) (⟨(), {}, {}, []⟩ : World Unit _ _) rfl
  have hGroups : Groups
      (.start :: [.write 0xA1 1] ++ .stop ::
        (.start :: (.write 0xA0 1 :: [] ++ .start :: .write 0xA1 1 :: [.read 2]) ++ .stop :: []))
      [⟨0xA1, none, [], []⟩, ⟨0xA0, some 0xA1, [], [.read 2]⟩] := by
    refine .accepted (by decide) (.read (by decide) (by decide)) ?_
    refine .accepted (by decide) ?_ (.done (by decide))
    exact .writeRead (by decide) (by decide) (by decide) (by decide)
  obtain ⟨⟨trace, hServes, -, hTrace⟩, hFormed⟩ := hRun _ hGroups
  exact ⟨trace, hServes, hTrace, hFormed _ List.mem_cons_self,
    hFormed _ (.tail _ List.mem_cons_self)⟩

end BusBench.I2c
