import BusBench.Binary.I2c
import BusBench.Proofs.Binary.Parts

/-!
# Rounds of binary I2C

* `I2c.locked_yields`: a refused lock has no say in what is read.
* `I2c.serveRound_yields`: a round of the engine.
* `I2c.run_yields`: the whole engine, which starts only if the board grants the bus.
-/

namespace BusBench.Binary.I2c

open Act (Yields)
open Tally (observer)

variable {ω β ε α : Type} {incoming : List Arrival} {t : Tally}

/-! ## Transactions -/

theorem locked_yields {backing : Backing} {transaction : Act ω β Link ε α}
    {post : Except ε (Option α) → List Arrival → Tally → Prop}
    (hRefused : post (.ok none) incoming t)
    (h : Yields observer transaction incoming t fun
      | .ok a, rest, t' => post (.ok (some a)) rest t'
      | .error e, rest, t' => post (.error e) rest t') :
    Yields observer (locked backing transaction) incoming t post := by
  have hFree (call : I2cCall) (hCall : ∀ clock data hz, call ≠ .claim clock data hz) (answer) :
      (Exchange.mk (.i2c backing call) answer).grant? = none := by
    cases backing <;> cases call <;> first | rfl | exact absurd rfl (hCall _ _ _)
  refine .bind (ask_yields (hFree _ (by simp)) fun granted => ?_)
  cases granted with
  | false => exact .pure hRefused
  | true =>
    refine .bind (.attempt (h.mono fun r rest t' hPost => ?_))
    refine .bind (tell_yields (hFree _ (by simp)) (.bind (.ofExcept ?_)))
    cases r with
    | ok a => exact .pure hPost
    | error e => exact hPost

theorem writeThenRead_yields {backing : Backing} {paired : Paired}
    {post : Except ε (Except BusError (List UInt8)) → List Arrival → Tally → Prop}
    (h : ∀ result : Except BusError (List UInt8),
      (∀ bytes, result = .ok bytes → bytes.length = paired.readCount) →
      post (.ok result) incoming t) :
    Yields observer (writeThenRead backing paired : Act ω β Link ε _) incoming t post := by
  have hLength (answer : Except BusError (Bytes paired.readCount)) (bytes : List UInt8)
      (hOk : answer.map (·.val) = .ok bytes) : bytes.length = paired.readCount := by
    cases answer with
    | error reason => cases hOk
    | ok back =>
      cases hOk
      exact back.property
  refine .ite (fun _ => ?_) fun _ => ?_
  · exact .bind (ask_yields (fun _ => by cases backing <;> rfl) fun answer =>
      .pure (h _ (hLength answer)))
  · exact .bind (ask_yields (fun _ => by cases backing <;> rfl) fun answer =>
      .pure (h _ (hLength answer)))

/-! ## Rounds -/

theorem length_banner : banner.toUTF8.toList.length = 4 := by
  decide +kernel

theorem kind_of_ne {c : UInt8} (h : c.toNat ∉ [0x01, 0x02, 0x03, 0x08, 0x09]) :
    kind .i2c c =
      if 0x10 ≤ c.toNat ∧ c.toNat ≤ 0x1F then .bulk (c.toNat % 16 + 1)
      else if 0x40 ≤ c.toNat ∧ c.toNat ≤ 0x4F ∨ 0x60 ≤ c.toNat ∧ c.toNat ≤ 0x6F then .status
      else .ignored := by
  unfold kind
  split <;> first | omega | simp_all

theorem serveRound_yields (backing : Backing) :
    Yields observer (serveRound backing () : Talk ω β _) incoming t
      (Round .i2c (fun _ => false) () incoming t) := by
  unfold serveRound
  refine .bind (.reach (.bind (.dialogue (.read (fun c mid hNext => ?_) fun hEnd =>
    .ended hEnd ⟨rfl, rfl, fun _ => id⟩))))
  change Yields observer _ mid (t.serving ⟨.i2c, [c], []⟩) _
  have hStays {n : Nat} (hByte : c.toNat = n) (hn : n ≠ 0) : c ≠ 0x00 := by
    rintro rfl
    exact hn hByte.symm
  simp only []
  split
  case h_1 hByte =>
    obtain rfl : c = 0x00 := UInt8.toNat_inj.mp hByte
    exact .pure (.of_left hNext)
  case h_2 hByte =>
    have hKind : kind .i2c c = .banner := by simp only [kind, hByte]
    exact .bind (sendBanner_yields (.pure
      (.of_banner hNext (hStays hByte (by decide)) hKind length_banner)))
  case h_3 hByte | h_4 hByte =>
    have hKind : kind .i2c c = .status := by simp only [kind, hByte]
    exact .bind (reply_yields (.pure (.of_status hNext (hStays hByte (by decide)) hKind id)))
  case h_5 hByte | h_6 hByte =>
    have hKind : kind .i2c c = .paired := by simp only [kind, hByte]
    refine paired_yields hNext (hStays hByte (by decide)) hKind rfl
      fun paired rest frame post hPost => ?_
    refine .bind (locked_yields ?_ (writeThenRead_yields fun result hResult => ?_))
    · exact .bind (reply_yields (.pure (hPost _ (Or.inl rfl))))
    · cases result with
      | ok bytes =>
        exact .bind (replyData_yields (.pure (hPost _ (Or.inr ⟨bytes, hResult bytes rfl, rfl⟩))))
      | error reason => exact .bind (reply_yields (.pure (hPost _ (Or.inl rfl))))
  case h_7 h₀ h₁ h₂ h₃ h₄ h₅ =>
    have hKind := kind_of_ne (c := c) (by simp; grind)
    have hStays : c ≠ 0x00 := by
      rintro rfl
      exact h₀ rfl
    refine .ite (fun hBulk => ?_) fun hBulk => .ite (fun hStatus => ?_) fun hStatus =>
      .ite (fun hSpeed => ?_) fun hSpeed => ?_
    · rw [if_pos hBulk] at hKind
      refine bulk_yields hNext hStays hKind (by decide) fun bytes rest post hLength hPost => ?_
      have hBits (bit : UInt8) : (1 :: List.replicate bytes.length bit).length =
          bulkReplyLength .i2c (c.toNat % 16 + 1) (c.toNat % 16 + 1) true := by
        simp [bulkReplyLength, hLength, Nat.add_comm]
      refine .bind (locked_yields ?_ (ask_yields (fun _ => by cases backing <;> rfl)
        fun answer => ?_))
      · exact .bind (replyData_yields (.pure (hPost _ (hBits 1))))
      · cases answer with
        | ok _ => exact .bind (replyData_yields (.pure (hPost _ (hBits 0))))
        | error _ => exact .bind (replyData_yields (.pure (hPost _ (hBits 1))))
    · rw [if_neg hBulk, if_pos (Or.inl hStatus)] at hKind
      exact .bind (peripheralCommand_yields fun b => .bind (reply_yields (.pure
        (.of_status hNext hStays hKind id))))
    · rw [if_neg hBulk, if_pos (Or.inr hSpeed)] at hKind
      split
      · exact .bind (reply_yields (.pure (.of_status hNext hStays hKind id)))
      · exact .bind (ask_yields (fun _ => by cases backing <;> rfl) fun answer =>
          .bind (reply_yields (.pure (.of_status hNext hStays hKind id))))
    · rw [if_neg hBulk, if_neg (by omega)] at hKind
      exact .pure (.of_ignored hNext hStays hKind)

/-! ## The engine -/

theorem claimI2c_yields {clock data : Pin} {hz : Nat}
    {post : Except ε (Except Unavailable Backing) → List Arrival → Tally → Prop}
    (hRefused : ∀ reason, post (.ok (.error reason)) incoming (t.granting false))
    (hClaimed : ∀ backing, post (.ok (.ok backing)) incoming (t.granting true)) :
    Yields observer (Act.claimI2c clock data hz : Act ω β Link ε _) incoming t post := by
  refine .bind (.ask fun answer => ?_)
  cases answer with
  | ok _ => exact .pure (hClaimed _)
  | error reason =>
    refine .bind (.ask fun answer => .pure ?_)
    cases answer with
    | ok _ => exact hClaimed _
    | error reason => exact hRefused reason

theorem run_yields {c : UInt8} :
    Yields observer (run : Talk ω β Unit) incoming (t.serving ⟨.root, [c], []⟩)
      (Engaged .i2c c incoming t) := by
  refine .bind (.board fun board => .bind (claimI2c_yields (fun reason => .pure .refused)
    fun backing => ?_))
  refine .bind (.attempt ?_)
  change Yields observer _ incoming ((t.granting true).serving ⟨.root, [c], []⟩) _
  refine .bind (sendBanner_yields ((serveUntil_yields (fun _ _ _ => serveRound_yields backing)
    ()).mono fun r rest t' hLasts => ?_))
  exact .bind (tell_yields (fun _ => by cases backing <;> rfl) (.ofExcept (.granted hLasts)))

end BusBench.Binary.I2c
