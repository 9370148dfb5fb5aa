import BusBench.Binary.Spi
import BusBench.Proofs.Binary.Parts

/-!
# Rounds of binary SPI

* `Spi.serveRound_yields`: a round of the engine.
* `Spi.run_yields`: the whole engine, which starts only if the board grants bus and lock.
-/

namespace BusBench.Binary.Spi

open Act (Yields)
open Tally (observer)

variable {ω β ε : Type} {incoming : List Arrival} {t : Tally}

/-! ## Transfers -/

/-- A read answers as many bytes as were asked for. -/
theorem writeThenRead_yields {backing : Backing} {paired : Paired}
    {post : Except ε (Except BusError (List UInt8)) → List Arrival → Tally → Prop}
    (h : ∀ result : Except BusError (List UInt8),
      (∀ bytes, result = .ok bytes → bytes.length = paired.readCount) →
      post (.ok result) incoming t) :
    Yields observer (writeThenRead backing paired : Act ω β Link ε _) incoming t post := by
  refine .bind (.bind (ask_yields (fun _ => rfl) fun answer => .pure ?_))
  cases answer with
  | error reason => exact .pure (h _ (fun _ hOk => nomatch hOk))
  | ok _ =>
    refine .bind (ask_yields (fun _ => rfl) fun answer => .pure (h _ fun bytes hOk => ?_))
    cases answer with
    | error reason => cases hOk
    | ok back =>
      cases hOk
      rw [back.property, List.length_replicate]

theorem selectedWriteThenRead_yields {backing : Backing} {paired : Paired}
    {post : Except ε (Except BusError (List UInt8)) → List Arrival → Tally → Prop}
    (h : ∀ result : Except BusError (List UInt8),
      (∀ bytes, result = .ok bytes → bytes.length = paired.readCount) →
      post (.ok result) incoming t) :
    Yields observer (selectedWriteThenRead backing paired : Act ω β Link ε _) incoming t post := by
  refine .bind (ask_yields (fun _ => rfl) fun answer => ?_)
  cases answer with
  | error reason => exact .pure (h _ (fun _ hOk => nomatch hOk))
  | ok _ =>
    refine .bind (writeThenRead_yields fun result hResult => .bind (ask_yields (fun _ => rfl)
      fun answer => ?_))
    cases answer with
    | ok _ => exact .pure (h result hResult)
    | error reason => cases result <;> exact .pure (h _ (fun _ hOk => nomatch hOk))

theorem replyResult_yields {result : Except BusError (List UInt8)} {n : Nat} {frame : List UInt8}
    {post : Except LinkError Unit → List Arrival → Tally → Prop}
    (hResult : ∀ bytes, result = .ok bytes → bytes.length = n)
    (h : ∀ reply, Answers n reply → post (.ok ()) incoming (t.serving ⟨.spi, frame, reply⟩)) :
    Yields observer (replyResult result : Talk ω β Unit) incoming
      (t.serving ⟨.spi, frame, []⟩) post := by
  cases result with
  | ok bytes => exact replyData_yields (h _ (Or.inr ⟨bytes, hResult bytes rfl, rfl⟩))
  | error reason => exact reply_yields (h _ (Or.inl rfl))

/-! ## Rounds -/

theorem configure_yields {backing : Backing} {config : BusBench.Spi.Config}
    {post : Except LinkError Bool → List Arrival → Tally → Prop}
    (h : ∀ ok, post (.ok ok) incoming t) :
    Yields observer (configure backing config : Talk ω β Bool) incoming t post :=
  .bind (ask_yields (fun _ => rfl) fun _ => .pure (h _))

theorem length_banner : banner.toUTF8.toList.length = 4 := by
  decide +kernel

theorem kind_of_lt {c : UInt8} (h : 5 < c.toNat) :
    kind .spi c =
      if 0x10 ≤ c.toNat ∧ c.toNat ≤ 0x1F then .bulk (c.toNat % 16 + 1)
      else if 0x40 ≤ c.toNat ∧ c.toNat ≤ 0x4F ∨ 0x60 ≤ c.toNat ∧ c.toNat ≤ 0x67 ∨
          0x80 ≤ c.toNat ∧ c.toNat ≤ 0x8F then .status
      else .ignored := by
  unfold kind
  split <;> first | omega | simp_all

theorem serveRound_yields (backing : Backing) (config : BusBench.Spi.Config) :
    Yields observer (serveRound backing config : Talk ω β _) incoming t
      (Round .spi (fun _ => false) config incoming t) := by
  unfold serveRound
  refine .bind (.reach (.bind (.dialogue (.read (fun c mid hNext => ?_) fun hEnd =>
    .ended hEnd ⟨rfl, rfl, fun _ => id⟩))))
  change Yields observer _ mid (t.serving ⟨.spi, [c], []⟩) _
  have hStays {n : Nat} (hByte : c.toNat = n) (hn : n ≠ 0) : c ≠ 0x00 := by
    rintro rfl
    exact hn hByte.symm
  simp only []
  split
  case h_1 hByte =>
    obtain rfl : c = 0x00 := UInt8.toNat_inj.mp hByte
    exact .pure (.of_left hNext)
  case h_2 hByte =>
    have hKind : kind .spi c = .banner := by simp only [kind, hByte]
    exact .bind (sendBanner_yields (.pure
      (.of_banner hNext (hStays hByte (by decide)) hKind length_banner)))
  case h_3 hByte | h_4 hByte =>
    have hKind : kind .spi c = .status := by simp only [kind, hByte]
    exact .bind (ask_yields (fun _ => rfl) fun answer => .bind (reply_yields (.pure
      (.of_status hNext (hStays hByte (by decide)) hKind id))))
  case h_5 hByte =>
    have hKind : kind .spi c = .paired := by simp only [kind, hByte]
    refine paired_yields hNext (hStays hByte (by decide)) hKind rfl
      fun paired rest frame post hPost => ?_
    exact .bind (selectedWriteThenRead_yields fun result hResult => .bind
      (replyResult_yields hResult fun reply hReply => .pure (hPost reply hReply)))
  case h_6 hByte =>
    have hKind : kind .spi c = .paired := by simp only [kind, hByte]
    refine paired_yields hNext (hStays hByte (by decide)) hKind rfl
      fun paired rest frame post hPost => ?_
    exact .bind (writeThenRead_yields fun result hResult => .bind
      (replyResult_yields hResult fun reply hReply => .pure (hPost reply hReply)))
  case h_7 h₀ h₁ h₂ h₃ h₄ h₅ =>
    have hLarge : 5 < c.toNat := by grind
    have hKind := kind_of_lt hLarge
    have hStays : c ≠ 0x00 := by
      rintro rfl
      exact h₀ rfl
    refine .ite (fun hBulk => ?_) fun hBulk => .ite (fun hStatus => ?_) fun hStatus =>
      .ite (fun hSpeed => ?_) fun hSpeed => .ite (fun hFormat => ?_) fun hFormat => ?_
    · rw [if_pos hBulk] at hKind
      refine bulk_yields hNext hStays hKind (by decide) fun bytes rest post hLength hPost => ?_
      refine .bind (ask_yields (fun _ => rfl) fun answer => ?_)
      have hBack : ∀ back, answer.map (·.val) = .ok back → back.length = c.toNat % 16 + 1 := by
        intro back hOk
        cases answer with
        | error reason => cases hOk
        | ok back' =>
          cases hOk
          rw [back'.property, hLength]
      exact .bind (replyResult_yields hBack fun reply hReply => .pure (hPost reply
        (hReply.length_eq.trans (by simp only [bulkReplyLength, if_true]))))
    · rw [if_neg hBulk, if_pos (Or.inl hStatus)] at hKind
      exact .bind (peripheralCommand_yields fun b => .bind (reply_yields (.pure
        (.of_status hNext hStays hKind id))))
    · rw [if_neg hBulk, if_pos (Or.inr (Or.inl hSpeed))] at hKind
      exact .bind (configure_yields fun ok => .bind (reply_yields (.pure
        (.of_status hNext hStays hKind id))))
    · rw [if_neg hBulk, if_pos (Or.inr (Or.inr hFormat))] at hKind
      refine .ite (fun hRefused => ?_) fun hTaken => ?_
      · exact .bind (reply_yields (.pure (.of_status hNext hStays hKind id)))
      · exact .bind (configure_yields fun ok => .bind (reply_yields (.pure
          (.of_status hNext hStays hKind id))))
    · rw [if_neg hBulk, if_neg (by omega)] at hKind
      exact .pure (.of_ignored hNext hStays hKind)

/-! ## The engine -/

theorem claimSpi_yields {post : Except ε (Except Unavailable Backing) → List Arrival → Tally → Prop}
    (hRefused : ∀ reason, post (.ok (.error reason)) incoming (t.granting false))
    (hClaimed : ∀ backing, post (.ok (.ok backing)) incoming t) :
    Yields observer (Act.claimSpi : Act ω β Link ε _) incoming t post := by
  refine .bind (ask_yields (fun _ => rfl) fun answer => ?_)
  cases answer with
  | ok _ => exact .pure (hClaimed _)
  | error reason =>
    refine .bind (.ask fun answer => .pure ?_)
    cases answer with
    | ok _ => exact hClaimed _
    | error reason => exact hRefused reason

theorem serve_yields (backing : Backing) {command : Command} :
    Yields observer (serve backing : Talk ω β Unit) incoming (t.serving command)
      (Lasts .spi false incoming
        (t.serving { command with reply := command.reply ++ banner.toUTF8.toList })) :=
  .bind (configure_yields fun _ => .bind (sendBanner_yields (serveUntil_yields
    (fun config _ _ => serveRound_yields backing config) _)))

theorem run_yields {c : UInt8} :
    Yields observer (run : Talk ω β Unit) incoming (t.serving ⟨.root, [c], []⟩)
      (Engaged .spi c incoming t) := by
  refine .bind (claimSpi_yields (fun reason => .pure .refused) fun backing => ?_)
  refine .bind (decide_yields id (fun _ => rfl) fun granted => ?_)
  cases granted with
  | true =>
    refine .bind (.attempt ?_)
    change Yields observer _ incoming ((t.granting true).serving ⟨.root, [c], []⟩) _
    refine (serve_yields backing).mono fun r rest t' hLasts => ?_
    exact .bind (tell_yields (fun _ => rfl) (.bind (tell_yields (fun _ => rfl)
      (.ofExcept (.granted hLasts)))))
  | false => exact tell_yields (fun _ => rfl) .refused

end BusBench.Binary.Spi
