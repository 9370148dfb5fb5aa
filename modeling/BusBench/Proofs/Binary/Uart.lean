import BusBench.Binary.Uart
import BusBench.Proofs.Binary.Parts

/-!
# Rounds of binary UART

What the device sends is passed on only while there is an echo, or in the bridge.

* `Uart.serveRound_yields`: a round of the engine.
* `Uart.run_yields`: the whole engine, which starts only if the board grants the UART.
-/

namespace BusBench.Binary.Uart

open Act (Yields)
open Tally (observer Waits)

variable {ω β ε : Type} {incoming : List Arrival} {t : Tally}

/-! ## Passing on -/

theorem forward_yields {post : Except LinkError Unit → List Arrival → Tally → Prop}
    (h : ∀ bytes, post (.ok ()) incoming (observer.sayAll bytes t)) :
    Yields observer (forward : Talk ω β Unit) incoming t post := by
  refine .bind (.bind (ask_yields (fun _ => rfl) fun available => ?_))
  refine .ite (fun _ => .pure (.pure (h []))) fun _ => ?_
  exact .bind (ask_yields (fun _ => rfl) fun bytes => .pure (.dialogue (.bind (.sendAll (.flush
    (h bytes.val))))))

theorem forward_waits {post : Except LinkError Unit → List Arrival → Tally → Prop}
    (h : ∀ t', Waits true t t' → post (.ok ()) incoming t') :
    Yields observer (forward : Talk ω β Unit) incoming t post :=
  forward_yields fun bytes => h _ ⟨Tally.keys_sayAll bytes t, Tally.grants_sayAll bytes t, nofun⟩

/-! ## The bridge -/

/-- The bridge takes all there is. -/
def Bridged (incoming : List Arrival) (t : Tally) (r : Except LinkError Unit) (rest : List Arrival)
    (t' : Tally) : Prop :=
  r = .error .endOfInput ∧ rest = [] ∧
    ∀ (t₀ : Tally) (command : Command), t = t₀.serving command → ∃ reply,
      t' = t₀.serving { command with frame := command.frame ++ bytesOf incoming, reply := reply }

theorem Bridged.said {t' : Tally} {r : Except LinkError Unit} {rest : List Arrival}
    {bytes : List UInt8} (h : Bridged incoming (observer.sayAll bytes t) r rest t') :
    Bridged incoming t r rest t' := by
  obtain ⟨hEnd, hRest, hServing⟩ := h
  refine ⟨hEnd, hRest, fun t₀ command hTally => ?_⟩
  rw [hTally, Tally.sayAll_serving] at hServing
  exact hServing t₀ { command with reply := command.reply ++ bytes } rfl

theorem Bridged.heard {t' : Tally} {r : Except LinkError Unit} {rest mid : List Arrival} {b : UInt8}
    (h : Bridged mid (t.hear b) r rest t') : Bridged (.byte b :: mid) t r rest t' := by
  obtain ⟨hEnd, hRest, hServing⟩ := h
  refine ⟨hEnd, hRest, fun t₀ command hTally => ?_⟩
  subst hTally
  obtain ⟨reply, hReply⟩ := hServing t₀ _ (Tally.hear_serving t₀ command b)
  refine ⟨reply, hReply.trans ?_⟩
  rw [List.append_assoc]
  rfl

theorem bridgeRound_yields :
    Yields observer (bridgeRound () : Talk ω β _) incoming t
      (Yields.roundPost (fun _ => Bridged) () incoming t) := by
  refine .bind (.dialogue (.tryRead (fun b mid hByte => ?_) (fun mid hPause => ?_) fun hEnd => ?_))
  · refine .bind (tell_yields (fun _ => rfl) ?_)
    subst hByte
    exact .bind (forward_yields fun bytes => .pure ⟨Nat.lt_succ_self _,
      fun r last t' h => h.said.heard⟩)
  · subst hPause
    exact .bind (forward_yields fun bytes => .pure ⟨Nat.lt_succ_self _, fun r last t' h => h.said⟩)
  · subst hEnd
    refine ⟨rfl, rfl, fun t₀ command hTally => ⟨command.reply, ?_⟩⟩
    rw [hTally, bytesOf, List.append_nil]
    rfl

/-! ## Commands -/

theorem bulk_yields {command : Command} {n : Nat}
    {post : Except LinkError Unit → List Arrival → Tally → Prop}
    (hAll : ∀ bytes rest, fetch n incoming = (bytes, rest) → bytes.length = n →
      post (.ok ()) rest (t.serving ⟨command.server, command.frame ++ bytes,
        command.reply ++ List.replicate bytes.length 1⟩))
    (hFew : ∀ bytes, fetch n incoming = (bytes, []) → bytes.length < n →
      post (.error .endOfInput) [] (t.serving ⟨command.server, command.frame ++ bytes,
        command.reply ++ List.replicate bytes.length 1⟩)) :
    Yields observer (bulk n : Talk ω β Unit) incoming (t.serving command) post := by
  induction n generalizing incoming command with
  | zero =>
    have hNone := hAll [] incoming rfl rfl
    rw [List.append_nil, List.length_nil, List.replicate_zero, List.append_nil] at hNone
    exact .pure hNone
  | succ n ih =>
    refine .bind (.dialogue (.read (fun b mid hNext => ?_) fun hNext => ?_))
    · rw [Tally.hear_serving]
      refine .bind (tell_yields (fun _ => rfl) (.bind (reply_yields (ih
        (fun bytes rest hFetch hLength => ?_) fun bytes hFetch hLength => ?_))))
      · have hPost := hAll (b :: bytes) rest (by simp only [fetch, hNext, hFetch]) (by simp [hLength])
        simpa only [List.append_assoc, List.singleton_append, List.length_cons,
          List.replicate_succ] using hPost
      · have hPost := hFew (b :: bytes) (by simp only [fetch, hNext, hFetch]) (by simpa using hLength)
        simpa only [List.append_assoc, List.singleton_append, List.length_cons,
          List.replicate_succ] using hPost
    · have hPost := hFew [] (by simp only [fetch, hNext]) (Nat.succ_pos n)
      rwa [List.append_nil, List.length_nil, List.replicate_zero, List.append_nil] at hPost

theorem reconfigure_yields {config next : BusBench.Uart.Config} {command : Command}
    {post : Except LinkError BusBench.Uart.Config → List Arrival → Tally → Prop}
    (h : ∀ config b, post (.ok config) incoming
      (t.serving { command with reply := command.reply ++ [b] })) :
    Yields observer (reconfigure config next : Talk ω β _) incoming (t.serving command) post := by
  refine .bind (ask_yields (fun _ => rfl) fun answer => ?_)
  cases answer with
  | ok _ => exact .bind (reply_yields (.pure (h _ _)))
  | error reason => exact .bind (reply_yields (.pure (h _ _)))

theorem length_banner : banner.toUTF8.toList.length = 4 := by
  decide +kernel

theorem kind_of_ne {c : UInt8} (h : c.toNat ∉ [0x01, 0x02, 0x03, 0x07, 0x0F]) :
    kind .uart c =
      if 0x10 ≤ c.toNat ∧ c.toNat ≤ 0x1F then .bulk (c.toNat % 16 + 1)
      else if 0x40 ≤ c.toNat ∧ c.toNat ≤ 0x4F ∨ 0x60 ≤ c.toNat ∧ c.toNat ≤ 0x6F ∨
          0x80 ≤ c.toNat ∧ c.toNat ≤ 0x9F then .status
      else .ignored := by
  unfold kind
  split <;> first | omega | simp_all

theorem serveCommand_yields {state : State} {c : UInt8} {mid : List Arrival}
    (hNext : nextByte incoming = some (c, mid)) :
    Yields observer (serveCommand state c : Talk ω β _) mid (t.serving ⟨.uart, [c], []⟩)
      (Round .uart State.echo state incoming t) := by
  unfold serveCommand
  have hStays {n : Nat} (hByte : c.toNat = n) (hn : n ≠ 0) : c ≠ 0x00 := by
    rintro rfl
    exact hn hByte.symm
  simp only []
  split
  case h_1 hByte =>
    obtain rfl : c = 0x00 := UInt8.toNat_inj.mp hByte
    exact .pure (.of_left hNext)
  case h_2 hByte =>
    have hKind : kind .uart c = .banner := by simp only [kind, hByte]
    exact .bind (sendBanner_yields (.pure
      (.of_banner hNext (hStays hByte (by decide)) hKind length_banner)))
  case h_3 hByte =>
    have hKind : kind .uart c = .status := by simp only [kind, hByte]
    obtain rfl : c = 0x02 := UInt8.toNat_inj.mp hByte
    refine .bind (tell_yields (fun _ => rfl) (.bind (reply_yields (.pure ?_))))
    refine .served hNext (by decide) (by rw [hKind]; rfl) (.of_serving t fun _ _ => rfl) ?_
    -- from now on there is an echo
    intro _ hCalm
    cases hCalm (.uart, [0x02]) List.mem_cons_self
  case h_4 hByte =>
    have hKind : kind .uart c = .status := by simp only [kind, hByte]
    exact .bind (reply_yields (.pure
      (.of_status hNext (hStays hByte (by decide)) hKind fun _ => rfl)))
  case h_5 hByte =>
    have hKind : kind .uart c = .status := by simp only [kind, hByte]
    exact .bind (reply_yields (.pure (.of_status hNext (hStays hByte (by decide)) hKind id)))
  case h_6 hByte =>
    have hKind : kind .uart c = .bridge := by simp only [kind, hByte]
    obtain rfl : c = 0x0F := UInt8.toNat_inj.mp hByte
    refine .bind ((Yields.serveUntil (fun _ _ _ => bridgeRound_yields) ()).mono ?_)
    rintro r rest t' ⟨rfl, rfl, hServing⟩
    obtain ⟨reply, rfl⟩ := hServing t _ rfl
    refine .cut hNext (by decide) (by rw [hKind]; rfl) ⟨rfl, rfl, fun _ hCalm _ => ?_⟩
    cases hCalm (.uart, 0x0F :: bytesOf mid) List.mem_cons_self
  case h_7 h₀ h₁ h₂ h₃ h₄ h₅ =>
    have hKind := kind_of_ne (c := c) (by simp; grind)
    have hStays : c ≠ 0x00 := by
      rintro rfl
      exact h₀ rfl
    refine .ite (fun hBulk => ?_) fun hBulk => .ite (fun hStatus => ?_) fun hStatus =>
      .ite (fun hSpeed => ?_) fun hSpeed => .ite (fun hFormat => ?_) fun hFormat => ?_
    · rw [if_pos hBulk] at hKind
      refine .bind (reply_yields (.bind (bulk_yields (fun bytes rest hFetch hLength => ?_)
        fun bytes hFetch hLength => ?_)))
      · have hPayload : payload (kind .uart c) mid = (bytes, rest, true) := by
          rw [hKind]
          simp only [payload, exactly, hFetch, hLength, decide_true]
        refine .pure (.of_serving hNext hStays hPayload ?_ id)
        simp [replyLength, hKind, bulkReplyLength, Nat.add_comm]
      · have hPayload : payload (kind .uart c) mid = (bytes, [], false) := by
          rw [hKind]
          simp only [payload, exactly, hFetch, decide_eq_false (Nat.ne_of_lt hLength)]
        refine .of_cut hNext hStays hPayload ?_
        simp [replyLength, hKind, bulkReplyLength, Nat.add_comm]
    · rw [if_neg hBulk, if_pos (Or.inl hStatus)] at hKind
      exact .bind (peripheralCommand_yields fun b => .bind (reply_yields (.pure
        (.of_status hNext hStays hKind id))))
    · rw [if_neg hBulk, if_pos (Or.inr (Or.inl hSpeed))] at hKind
      split
      · exact .bind (reply_yields (.pure (.of_status hNext hStays hKind id)))
      · exact .bind (reconfigure_yields fun config b => .pure (.of_status hNext hStays hKind id))
    · rw [if_neg hBulk, if_pos (Or.inr (Or.inr hFormat))] at hKind
      split
      · exact .bind (reply_yields (.pure (.of_status hNext hStays hKind id)))
      · exact .bind (reconfigure_yields fun config b => .pure (.of_status hNext hStays hKind id))
    · rw [if_neg hBulk, if_neg (by omega)] at hKind
      exact .pure (.of_ignored hNext hStays hKind)

/-! ## Rounds -/

/-- What is passed on before a command is awaited counts as waiting. -/
theorem awaitCommand_yields {state : State} {t' : Tally} (hWaits : Waits state.echo t t') :
    Yields observer (awaitCommand state : Talk ω β _) incoming t'
      (Round .uart State.echo state incoming t) := by
  have hIdle : Waits state.echo t { t' with awaiting? := some .uart } :=
    ⟨hWaits.keys, hWaits.grants, hWaits.proper⟩
  refine .bind (.reach (.bind (.dialogue (.tryRead (fun c mid hByte => ?_)
    (fun mid hPause => ?_) fun hEnd => ?_))))
  · have hNext : nextByte incoming = some (c, mid) := by rw [hByte]; rfl
    exact (serveCommand_yields hNext).mono fun r rest t'' hRound => hRound.of_waits hIdle
  · exact .pure (.paused hPause hIdle)
  · exact .ended (by rw [hEnd]; rfl) hIdle

theorem serveRound_yields (state : State) :
    Yields observer (serveRound state : Talk ω β _) incoming t
      (Round .uart State.echo state incoming t) := by
  refine .ite (fun hEcho => ?_) fun hQuiet => ?_
  · exact .bind (forward_waits fun t' hWaits => awaitCommand_yields (by rwa [hEcho]))
  · exact awaitCommand_yields ⟨rfl, rfl, fun _ => id⟩

/-! ## The engine -/

theorem run_yields {c : UInt8} :
    Yields observer (run : Talk ω β Unit) incoming (t.serving ⟨.root, [c], []⟩)
      (Engaged .uart c incoming t) := by
  refine .bind (decide_yields isClaimed (fun _ => rfl) fun answer => ?_)
  cases answer with
  | error reason => exact .pure .refused
  | ok _ =>
    refine .bind (.attempt ?_)
    change Yields observer _ incoming ((t.granting true).serving ⟨.root, [c], []⟩) _
    refine .bind (sendBanner_yields ((serveUntil_yields (fun state _ _ => serveRound_yields state)
      {}).mono fun r rest t' hLasts => ?_))
    exact .bind (tell_yields (fun _ => rfl) (.ofExcept (.granted hLasts)))

end BusBench.Binary.Uart
