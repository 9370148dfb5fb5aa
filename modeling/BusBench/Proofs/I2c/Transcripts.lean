import BusBench.Proofs.I2c.Counterparts
import BusBench.Proofs.I2c.Forms
import BusBench.Proofs.World.Showing

/-!
# Transcripts of I2C sequences

The typed runs of a group cut up the bytes that its transaction moves completely. So the lines that
are shown of a transaction account for all of these bytes, and where it failed for none.

* `Told`: what is shown of a group by what came of its transaction.
* `Transcribed`: what a sequence asks of the board, and what is shown of it.
* `run_transcribed`: running a sequence shows this and nothing else.
-/

namespace BusBench.I2c

/-! ## Groups -/

namespace Group

theorem sum_writeRuns (group : Group) : group.writeRuns.sum = group.written.length := by
  unfold writeRuns written
  induction group.writing with
  | nil => rfl
  | cons action writing ih => cases action <;> simp [ih]

section

variable {group : Group} (h : ∀ action ∈ group.actions, action.count ≠ 0)
include h

theorem zero_not_mem_writeRuns : 0 ∉ group.writeRuns := by
  intro hZero
  obtain ⟨action, hAction, hRun⟩ := List.mem_filterMap.mp hZero
  have hCount := h action (List.mem_append_left _ hAction)
  cases action with
  | write value count => exact hCount (UInt16.toNat_inj.mp (Option.some.inj hRun))
  | _ => cases hRun

theorem zero_not_mem_readRuns : 0 ∉ group.readRuns := by
  intro hZero
  obtain ⟨action, hAction, hRun⟩ := List.mem_filterMap.mp hZero
  have hCount := h action (List.mem_append_right _ hAction)
  cases action with
  | read count => exact hCount (UInt16.toNat_inj.mp (Option.some.inj hRun))
  | _ => cases hRun

end

/-- The lines of the second start. -/
def restartLines (group : Group) : List String :=
  match group.repeated? with
  | some second => ["I2C START BIT", "WRITE " ++ acknowledged second]
  | none => []

end Group

/-- What is shown of a group by what came of its transaction. The bytes that were written, and then
those that were read, are shown in the runs that were typed. -/
inductive Told (group : Group) : Except BusError (List UInt8) → List String → Prop
  | succeeded {data written read} (hWritten : Cut group.writeRuns group.transaction.bytes written)
    (hRead : Cut group.readRuns data read) :
    Told group (.ok data)
      (["I2C START BIT", "WRITE " ++ acknowledged group.address] ++
        written.flatMap (partLines "WRITE") ++ group.restartLines ++
        read.flatMap (partLines "READ") ++ ["I2C STOP BIT"])
  | failed {reason} :
    Told group (.error reason)
      ["I2C START BIT", "WRITE 0x" ++ Text.hex group.address.toNat ++ " NACK", "I2C STOP BIT"]

theorem Group.told {group : Group} (hCounts : ∀ action ∈ group.actions, action.count ≠ 0)
    {result : Except BusError (List UInt8)}
    (hLength : ∀ data, result = .ok data → data.length = group.transaction.count) :
    Told group result (group.lines result) := by
  cases result with
  | error reason => exact .failed
  | ok data =>
    have hBytes : group.transaction.bytes = group.written := Transaction.bytes_moving _ _ _
    have hData : group.readRuns.sum = data.length :=
      ((hLength data rfl).trans (Transaction.count_moving _ _ _)).symm
    obtain ⟨written, hWritten⟩ := exists_cut group.sum_writeRuns
    obtain ⟨read, hRead⟩ := exists_cut hData
    have hLines : group.lines (.ok data) =
        ["I2C START BIT", "WRITE " ++ acknowledged group.address] ++
          runLines "WRITE" group.writeRuns group.written ++ group.restartLines ++
          runLines "READ" group.readRuns data ++ ["I2C STOP BIT"] := rfl
    rw [hLines, runLines_eq hWritten (zero_not_mem_writeRuns hCounts),
      runLines_eq hRead (zero_not_mem_readRuns hCounts)]
    rw [← hBytes] at hWritten
    exact .succeeded hWritten hRead

theorem stop_not_mem_start {line : String} (h : line ≠ "I2C STOP BIT") :
    "I2C STOP BIT" ∉ ["I2C START BIT", line] := by
  intro hStop
  rcases List.mem_pair.mp hStop with hEq | hEq
  · exact absurd hEq (by decide)
  · exact h hEq.symm

theorem stop_not_mem_restartLines (group : Group) : "I2C STOP BIT" ∉ group.restartLines := by
  unfold Group.restartLines
  split
  · exact stop_not_mem_start (append_ne_stop rfl (by decide) _)
  · exact List.not_mem_nil

/-- The stop is shown once, as the last thing. -/
theorem Told.stop {group : Group} {result : Except BusError (List UInt8)} {told : List String}
    (h : Told group result told) :
    told.count "I2C STOP BIT" = 1 ∧ told.getLast? = some "I2C STOP BIT" := by
  have hOnce (before : List String) (hBefore : "I2C STOP BIT" ∉ before) :
      (before ++ ["I2C STOP BIT"]).count "I2C STOP BIT" = 1 ∧
        (before ++ ["I2C STOP BIT"]).getLast? = some "I2C STOP BIT" := by
    rw [List.count_append, List.count_eq_zero.mpr hBefore]
    exact ⟨rfl, List.getLast?_concat⟩
  cases h with
  | @succeeded data written read hWritten hRead =>
    have hStart : "I2C STOP BIT" ∉ ["I2C START BIT", "WRITE " ++ acknowledged group.address] :=
      stop_not_mem_start (append_ne_stop rfl (by decide) _)
    have hWrites : "I2C STOP BIT" ∉ written.flatMap (partLines "WRITE") :=
      stop_not_mem_parts rfl (by decide) written
    have hReads : "I2C STOP BIT" ∉ read.flatMap (partLines "READ") :=
      stop_not_mem_parts rfl (by decide) read
    refine hOnce _ ?_
    simp only [List.mem_append, not_or]
    exact ⟨⟨⟨hStart, hWrites⟩, stop_not_mem_restartLines group⟩, hReads⟩
  | failed =>
    refine hOnce ["I2C START BIT", _] (stop_not_mem_start ?_)
    rw [String.append_assoc]
    exact append_ne_stop rfl (by decide) _

/-! ## Sequences -/

/-- What a sequence asks of the board, and the lines that are shown of it. Nothing follows a lock
that is refused. -/
inductive Transcribed (backing : Backing) : List Action → List Exchange → List String → Prop
  | done {actions} (h : actions.head? ≠ some .start) : Transcribed backing actions [] []
  | unstopped {body} (hBody : .stop ∉ body) :
    Transcribed backing (.start :: body) [] ["Missing stop"]
  | rejected {body rest fault trace lines} (hBody : .stop ∉ body) (hRejected : Rejected body fault)
    (h : Transcribed backing rest trace lines) :
    Transcribed backing (.start :: body ++ .stop :: rest) trace (fault.message :: lines)
  | refused {body rest group} (hBody : .stop ∉ body) (hTyped : Typed body group) :
    Transcribed backing (.start :: body ++ .stop :: rest) [⟨.i2c backing .lock, false⟩] []
  /-- An executed group ends with the line of the stop, and has no other such line. -/
  | executed {body rest group told trace lines} (hBody : .stop ∉ body) (hTyped : Typed body group)
    (answer) (hTold : Told group (group.transaction.outcome backing answer) told)
    (hStop : told.count "I2C STOP BIT" = 1 ∧ told.getLast? = some "I2C STOP BIT")
    (h : Transcribed backing rest trace lines) :
    Transcribed backing (.start :: body ++ .stop :: rest)
      (⟨.i2c backing .lock, true⟩ :: ⟨group.transaction.request backing, answer⟩ ::
        ⟨.i2c backing .unlock, ()⟩ :: trace) (told ++ lines)

variable {ω β τ : Type} [Terminal τ] {P : τ → Prop} {spell : String → List PeerEvent}
  {backing : Backing}

open Act (Prints Records)

/-- A group asks one thing of the bus and tells what came of it. -/
theorem execute_prints (hSpells : Terminal.Spells τ spell) {group : Group}
    (hCounts : ∀ action ∈ group.actions, action.count ≠ 0)
    {post : Bool → List Exchange → List String → Prop}
    (hRefused : post false [⟨.i2c backing .lock, false⟩] [])
    (hServed : ∀ answer told, Told group (group.transaction.outcome backing answer) told →
      post true [⟨.i2c backing .lock, true⟩, ⟨group.transaction.request backing, answer⟩,
        ⟨.i2c backing .unlock, ()⟩] told) :
    Prints spell (execute backing group : Act ω β τ Error Bool) post := by
  refine .bind (.ask fun granted => ?_)
  cases granted with
  | false => exact .pure hRefused
  | true =>
    rw [transact_eq]
    refine .attempt_writeLine hSpells ?_ fun e => ?_
    · refine .bind (.bind (.ask fun answer => .pure ?_))
      refine .bind (.tell fun _ => .bind (.pure (.bind (.writeLines hSpells (.pure ?_)))))
      have hTold : Told group _ (group.lines (group.transaction.outcome backing answer)) :=
        Group.told hCounts fun data hData => Transaction.length_of_outcome hData
      rw [← List.append_nil (group.lines _)] at hTold
      exact hServed answer _ hTold
    · -- A start that could not be shown fails the group, if only after its transaction.
      refine Records.bind (Records.bind (Records.ask fun answer => .pure ?_))
      exact Records.bind (Records.tell fun _ => .bind (.throw e))

theorem runGroups_prints (hSpells : Terminal.Spells τ spell) {actions : List Action}
    {groups : List Group} (h : Groups actions groups)
    (hCounts : ∀ action ∈ actions, action.count ≠ 0) {n : Nat} (hLength : actions.length ≤ n) :
    Prints spell (runGroups backing n actions : Act ω β τ Error Unit)
      fun _ trace lines => Transcribed backing actions trace lines := by
  -- Induction on the groups and not on the bound of the loop, which they never reach.
  induction h generalizing n with
  | done hStart =>
    rw [runGroups_done hStart]
    exact .pure (.done hStart)
  | unstopped hBody =>
    obtain ⟨n, rfl⟩ := Nat.exists_eq_succ_of_ne_zero (Nat.ne_zero_of_lt hLength)
    rw [runGroups_unstopped hBody]
    exact .writeLine hSpells (.unstopped hBody)
  | @accepted body rest group groups hBody hTyped hRest ih =>
    obtain ⟨n, rfl, hLess⟩ := exists_bound hLength
    obtain ⟨hFirst, hLater⟩ := counts_of_group hCounts
    have hGroup : ∀ action ∈ group.actions, action.count ≠ 0 := fun action hAction =>
      hFirst action (hTyped.mem_of_mem_actions hAction)
    rw [runGroups_accepted hBody hTyped.plan_eq]
    refine .bind (execute_prints hSpells hGroup (.pure ?_) fun answer told hTold => ?_)
    · exact .refused hBody hTyped
    · exact (ih hLater hLess).mono fun _ trace lines hLines =>
        .executed hBody hTyped answer hTold hTold.stop hLines
  | rejected hBody hRejected hRest ih =>
    obtain ⟨n, rfl, hLess⟩ := exists_bound hLength
    obtain ⟨-, hLater⟩ := counts_of_group hCounts
    rw [runGroups_rejected hBody hRejected.plan_eq]
    exact .bind (.writeLine hSpells ((ih hLater hLess).mono fun _ trace lines hLines =>
      .rejected hBody hRejected hLines))

/-- Run with a terminal that works, a sequence shows the transcripts of its groups and nothing else,
however a text is told by the terminal. The transcript of a transaction that succeeded accounts for
all the bytes that it wrote and read, in the runs that were typed. -/
theorem run_transcribed (hWorks : Terminal.Works P) (hSpells : Terminal.Spells τ spell)
    (backing : Backing) {actions : List Action} (hCounts : ∀ action ∈ actions, action.count ≠ 0)
    (board : Board β) (world : World ω β τ) (hPeer : P world.peer) :
    ∃ trace lines, Transcribed backing actions trace lines ∧
      (((run backing actions : Act ω β τ Error Unit) board).run world).1 = .ok () ∧
      board.Answers world.board trace
        ((run backing actions : Act ω β τ Error Unit).after board world).board ∧
      exchanges ((run backing actions : Act ω β τ Error Unit).after board world).events =
        exchanges world.events ++ trace ∧
      peerEvents ((run backing actions : Act ω β τ Error Unit).after board world).events =
        peerEvents world.events ++ spelled spell lines := by
  obtain ⟨ts, hTransactions⟩ := exists_transactions actions
  obtain ⟨groups, hGroups⟩ := hTransactions.exists_groups
  obtain ⟨-, a, -, hOk, -⟩ := runGroups_issues hWorks backing hGroups.transactions
    (Nat.le_refl actions.length) board world hPeer
  have hRun : ((run backing actions : Act ω β τ Error Unit) board).run world =
      (.ok a, (run backing actions : Act ω β τ Error Unit).after board world) := Prod.ext hOk rfl
  obtain ⟨new, hNew, hAnswers, trace, lines, hShown, hTranscribed⟩ :=
    runGroups_prints hSpells hGroups hCounts (Nat.le_refl actions.length) board world _ a hRun
  rw [hShown.exchanges] at hAnswers
  refine ⟨trace, lines, hTranscribed, hOk, hAnswers, ?_, ?_⟩
  · rw [hNew, exchanges_append, hShown.exchanges]
  · rw [hNew, peerEvents_append, hShown.peerEvents]

/-- A group that reads in two runs, with a marker in between, and one that nobody answers. -/
def twoRuns : List Action :=
  [.start, .write 0xA0 1, .write 1 2, .start, .write 0xA1 1, .read 1, .clockHigh, .read 2, .stop,
    .start, .write 0x40 1, .write 5 1, .stop]

/-- All bytes are shown of the one, and none of the other. -/
theorem run_transcribed_twoRuns :
    ∃ trace lines, Transcribed .bitBanged twoRuns trace lines ∧
      spelled Script.spelling lines = ["I2C START BIT\n", "WRITE 0xA0 ACK\n",
        "WRITE 0x02 BYTES:\n", "0x01 ACK 0x01 ACK\n", "I2C START BIT\n", "WRITE 0xA1 ACK\n",
        "READ 0xA0 ACK\n", "READ 0x02 BYTES:\n", "0xA1 ACK 0xA2 ACK\n", "I2C STOP BIT\n",
        "I2C START BIT\n", "WRITE 0x40 NACK\n", "I2C STOP BIT\n"].map .shown := by
  let memory : Recording.State := { settings := { i2cDevices := [0x50] } }
  obtain ⟨trace, lines, hTranscribed, -, -, -, hLines⟩ := run_transcribed Script.works
    Script.spells .bitBanged (show ∀ action ∈ twoRuns, action.count ≠ 0 by decide)
    (Recording.board "fake" {}) (⟨(), memory, {}, []⟩ : World Unit _ _) rfl
  exact ⟨trace, lines, hTranscribed, hLines.symm.trans (by decide +kernel)⟩

end BusBench.I2c
