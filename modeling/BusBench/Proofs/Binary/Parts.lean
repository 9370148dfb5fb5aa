import BusBench.Proofs.Binary.Rounds

/-!
# Parts of the engines

What the parts that the engines have in common come to, while a command is being served.

* `readPaired_yields`: the payload of a command that writes and then reads.
* `reply_yields`, `replyData_yields`, `sendBanner_yields`: replies.
* `paired_yields`, `bulk_yields`: commands that transfer.
-/

namespace BusBench.Binary

open Act (Yields)
open Tally (observer)

variable {ω β ε α S : Type} {o : Observer S} {incoming : List Arrival}

/-! ## Payloads -/

theorem afterCounts_few {counts : List UInt8} (arrivals : List Arrival) (h : counts.length < 4) :
    afterCounts counts arrivals = (counts, arrivals, false) := by
  unfold afterCounts
  split
  · exact absurd h (by simp)
  · rfl

/-- A command of which bytes are missing is not answered. -/
theorem pairedReplyLength_cut {bytes : List UInt8} {rest : List Arrival}
    (h : payload .paired incoming = (bytes, rest, false)) (accepted : Bool) :
    pairedReplyLength accepted bytes = 0 := by
  change afterCounts (fetch 4 incoming).1 (fetch 4 incoming).2 = _ at h
  have hFew := length_fetch 4 incoming
  unfold afterCounts at h
  split at h
  · obtain ⟨rfl, hRest⟩ := Prod.mk.inj h
    simp only [pairedReplyLength, if_neg (of_decide_eq_false (Prod.mk.inj hRest).2)]
  · next hFour =>
    obtain ⟨hBytes, -⟩ := Prod.mk.inj h
    unfold pairedReplyLength
    split
    · next writeHigh writeLow readHigh readLow more =>
      cases more with
      | nil => exact absurd hBytes (hFour _ _ _ _)
      | cons b more =>
        rw [hBytes] at hFew
        simp only [List.length_cons] at hFew
        omega
    · rfl

/-- The whole payload is read whether or not the command is refused. -/
theorem readPaired_yields {s : S} {post : Except LinkError (Option Paired) → List Arrival → S → Prop}
    (hServed : ∀ writeHigh writeLow readHigh readLow writes rest,
      payload .paired incoming =
        (writeHigh :: writeLow :: readHigh :: readLow :: writes, rest, true) →
      writes.length = countOf writeHigh writeLow →
      post (.ok (some ⟨writes, countOf readHigh readLow⟩)) rest
        (o.hearAll (writeHigh :: writeLow :: readHigh :: readLow :: writes) s))
    (hRefused : ∀ writeHigh writeLow readHigh readLow writes rest,
      payload .paired incoming =
        (writeHigh :: writeLow :: readHigh :: readLow :: writes, rest, true) →
      writes.length = countOf writeHigh writeLow →
      post (.ok none) rest (o.see (.peer .flushed) (o.see (.peer (.sent 0))
        (o.hearAll (writeHigh :: writeLow :: readHigh :: readLow :: writes) s))))
    (hCut : ∀ bytes, payload .paired incoming = (bytes, [], false) →
      post (.error .endOfInput) []
        (o.see (.peer (.failed .endOfInput)) (o.hearAll bytes s))) :
    Dialogue.Yields o readPaired incoming s post := by
  have hFour : fetch 4 incoming = fetch (2 + 2) incoming := rfl
  rw [fetch_add] at hFour
  refine .bind (.readCount (fun writeHigh writeLow mid hWrite => .bind (.readCount
    (fun readHigh readLow rest hRead => ?_) fun bytes hRead hFew => ?_)) fun bytes hWrite hFew => ?_)
  · rw [hWrite, hRead] at hFour
    have hWhole (bytes : List UInt8) (rest' : List Arrival)
        (hFetch : fetch (countOf writeHigh writeLow) rest = (bytes, rest'))
        (hLength : bytes.length = countOf writeHigh writeLow) :
        payload .paired incoming =
          (writeHigh :: writeLow :: readHigh :: readLow :: bytes, rest', true) := by
      simp [payload, hFour, afterCounts, exactly, hFetch, hLength]
    have hPart (bytes : List UInt8)
        (hFetch : fetch (countOf writeHigh writeLow) rest = (bytes, []))
        (hLength : bytes.length < countOf writeHigh writeLow) :
        payload .paired incoming =
          (writeHigh :: writeLow :: readHigh :: readLow :: bytes, [], false) := by
      simp [payload, hFour, afterCounts, exactly, hFetch, Nat.ne_of_lt hLength]
    refine .ite (fun _ => .bind (.skip (fun bytes rest' hFetch hLength => ?_)
      fun bytes hFetch hLength => ?_)) fun _ => .bind (.readExact
      (fun bytes rest' hFetch hLength => .pure ?_) fun bytes hFetch hLength => ?_)
    · exact .bind (.bind (.send (.flush (.pure
        (hRefused _ _ _ _ bytes rest' (hWhole bytes rest' hFetch hLength) hLength)))))
    · exact hCut _ (hPart bytes hFetch hLength)
    · exact hServed _ _ _ _ bytes rest' (hWhole bytes rest' hFetch hLength) hLength
    · exact hCut _ (hPart bytes hFetch hLength)
  · rw [hWrite, hRead] at hFour
    refine hCut (writeHigh :: writeLow :: bytes) ?_
    rw [payload, hFour]
    refine afterCounts_few _ ?_
    simp only [List.length_append, List.length_cons, List.length_nil]
    omega
  · rw [hWrite, fetch_nil] at hFour
    refine hCut bytes ?_
    rw [payload, hFour]
    simpa using afterCounts_few [] (Nat.lt_trans hFew (by decide))

/-! ## Replies -/

section Replies

variable {t : Tally} {command : Command} {post : Except LinkError Unit → List Arrival → Tally → Prop}

theorem reply_yields {b : UInt8}
    (h : post (.ok ()) incoming (t.serving { command with reply := command.reply ++ [b] })) :
    Yields observer (reply b : Talk ω β Unit) incoming (t.serving command) post :=
  .dialogue (.bind (.send (.flush h)))

theorem replyData_yields {bytes : List UInt8}
    (h : post (.ok ()) incoming (t.serving { command with reply := command.reply ++ 1 :: bytes })) :
    Yields observer (replyData bytes : Talk ω β Unit) incoming (t.serving command) post := by
  refine .dialogue (.bind (.send (.bind (.sendAll (.flush ?_)))))
  rw [Tally.say_serving, Tally.sayAll_serving, List.append_assoc]
  exact h

theorem sendBanner_yields {letters : String}
    (h : post (.ok ()) incoming
      (t.serving { command with reply := command.reply ++ letters.toUTF8.toList })) :
    Yields observer (sendBanner letters : Talk ω β Unit) incoming (t.serving command) post := by
  refine .dialogue (.bind (.sendAll (.flush ?_)))
  rw [Tally.sayAll_serving]
  exact h

end Replies

/-! ## Requests -/

/-- A request whose answer decides nothing. -/
theorem ask_yields {request : Request} {t : Tally}
    {post : Except ε request.Answer → List Arrival → Tally → Prop}
    (hFree : ∀ answer, (Exchange.mk request answer).grant? = none)
    (h : ∀ answer, post (.ok answer) incoming t) :
    Yields observer (Act.ask request : Act ω β Link ε request.Answer) incoming t post := by
  refine .ask fun answer => ?_
  have hSame : observer.see (.board ⟨request, answer⟩) t = t := by
    change t.decide _ = t
    rw [Tally.decide, hFree]
  rw [hSame]
  exact h answer

/-- A request whose answer decides whether an engine may start. -/
theorem decide_yields {request : Request} {t : Tally} (decision : request.Answer → Bool)
    {post : Except ε request.Answer → List Arrival → Tally → Prop}
    (hDecides : ∀ answer, (Exchange.mk request answer).grant? = some (decision answer))
    (h : ∀ answer, post (.ok answer) incoming (t.granting (decision answer))) :
    Yields observer (Act.ask request : Act ω β Link ε request.Answer) incoming t post := by
  refine .ask fun answer => ?_
  have hSeen : observer.see (.board ⟨request, answer⟩) t = t.granting (decision answer) := by
    change t.decide _ = _
    rw [Tally.decide, hDecides]
  rw [hSeen]
  exact h answer

theorem tell_yields {request : Request} {t : Tally}
    {post : Except ε Unit → List Arrival → Tally → Prop}
    (hFree : ∀ answer, (Exchange.mk request answer).grant? = none)
    (h : post (.ok ()) incoming t) :
    Yields observer (Act.tell request : Act ω β Link ε Unit) incoming t post :=
  .bind (ask_yields hFree fun _ => .pure h)

theorem peripheralCommand_yields {byte : UInt8} {t : Tally}
    {post : Except ε UInt8 → List Arrival → Tally → Prop}
    (h : ∀ b, post (.ok b) incoming t) :
    Yields observer (peripheralCommand byte : Act ω β Link ε UInt8) incoming t post := by
  unfold peripheralCommand
  split
  · exact .pure (h 0)
  · next p =>
    refine .bind (.bind (tell_yields (fun _ => rfl) (.bind (tell_yields (fun _ => rfl) (.bind
      (ask_yields (fun _ => rfl) fun answer => ?_))))))
    cases answer with
    | error reason => exact .pure (.pure (h _))
    | ok _ => exact ask_yields (fun _ => rfl) fun answer => .pure (h _)

/-! ## Rounds -/

section Rounds

variable {σ : Type} {server : Server} {echo : σ → Bool} {x x' : σ} {c : UInt8}
  {mid rest : List Arrival} {bytes reply : List UInt8} {t : Tally}

theorem Round.of_serving (hNext : nextByte incoming = some (c, mid)) (hStays : c ≠ 0x00)
    (hPayload : payload (kind server c) mid = (bytes, rest, true))
    (hReply : reply.length = replyLength server (c :: bytes) (reply.head? = some 1))
    (hEcho : echo x = false → echo x' = false) :
    Round server echo x incoming t (.ok (.inl x')) rest (t.serving ⟨server, c :: bytes, reply⟩) :=
  .served hNext hStays hPayload (.of_serving t fun _ _ => hReply) fun h _ => hEcho h

theorem Round.of_cut (hNext : nextByte incoming = some (c, mid)) (hStays : c ≠ 0x00)
    (hPayload : payload (kind server c) mid = (bytes, rest, false))
    (hReply : reply.length = replyLength server (c :: bytes) (reply.head? = some 1)) :
    Round server echo x incoming t (.error .endOfInput) []
      (t.serving ⟨server, c :: bytes, reply⟩) :=
  .cut hNext hStays hPayload (.of_serving t fun _ _ => hReply)

theorem Round.of_status {b : UInt8} (hNext : nextByte incoming = some (c, mid))
    (hStays : c ≠ 0x00) (hKind : kind server c = .status) (hEcho : echo x = false → echo x' = false) :
    Round server echo x incoming t (.ok (.inl x')) mid (t.serving ⟨server, [c], [b]⟩) :=
  .of_serving hNext hStays (by rw [hKind]; rfl) (by simp only [replyLength, hKind]; rfl) hEcho

theorem Round.of_ignored (hNext : nextByte incoming = some (c, mid)) (hStays : c ≠ 0x00)
    (hKind : kind server c = .ignored) :
    Round server echo x incoming t (.ok (.inl x)) mid (t.serving ⟨server, [c], []⟩) :=
  .of_serving hNext hStays (by rw [hKind]; rfl) (by simp only [replyLength, hKind]; rfl) id

theorem Round.of_banner (hNext : nextByte incoming = some (c, mid)) (hStays : c ≠ 0x00)
    (hKind : kind server c = .banner) (hReply : reply.length = 4) :
    Round server echo x incoming t (.ok (.inl x)) mid (t.serving ⟨server, [c], reply⟩) :=
  .of_serving hNext hStays (by rw [hKind]; rfl) (by simp only [replyLength, hKind]; exact hReply) id

theorem Round.of_left (hNext : nextByte incoming = some (0x00, rest)) :
    Round server echo x incoming t (.ok (.inr ())) rest (t.serving ⟨server, [0x00], reply⟩) :=
  .left hNext (.of_serving t fun _ hFrame => absurd rfl hFrame)

end Rounds

/-! ## Commands that transfer -/

/-- A reply is 0, or 1 and so many bytes. -/
def Answers (n : Nat) (reply : List UInt8) : Prop :=
  reply = [0] ∨ ∃ bytes : List UInt8, bytes.length = n ∧ reply = 1 :: bytes

theorem Answers.length_eq {n : Nat} {reply : List UInt8} (h : Answers n reply) :
    reply.length = if decide (reply.head? = some 1) then 1 + n else 1 := by
  rcases h with rfl | ⟨bytes, hLength, rfl⟩
  · rfl
  · rw [List.length_cons, hLength, Nat.add_comm]
    rfl

theorem replyLength_paired {server : Server} {c writeHigh writeLow readHigh readLow : UInt8}
    {writes : List UInt8} (hKind : kind server c = .paired)
    (hLength : writes.length = countOf writeHigh writeLow) (accepted : Bool) :
    replyLength server (c :: writeHigh :: writeLow :: readHigh :: readLow :: writes) accepted =
      if accepted then 1 + countOf readHigh readLow else 1 := by
  simp only [replyLength, hKind, pairedReplyLength, hLength, if_true]

theorem bulkReplyLength_cut {server : Server} {n sent : Nat} (hServer : server ≠ .uart)
    (hCut : sent ≠ n) (accepted : Bool) : bulkReplyLength server n sent accepted = 0 := by
  cases server with
  | uart => exact absurd rfl hServer
  | root | spi | i2c => simp only [bulkReplyLength, if_neg hCut]

section Transfers

variable {σ : Type} {server : Server} {echo : σ → Bool} {x : σ} {c : UInt8} {mid : List Arrival}
  {t : Tally}

/-- A command that writes and then reads, where every transfer is answered as it should. -/
theorem paired_yields {next : Option Paired → Talk ω β (σ ⊕ Unit)}
    (hNext : nextByte incoming = some (c, mid)) (hStays : c ≠ 0x00)
    (hKind : kind server c = .paired) (hRefuse : next none = pure (.inl x))
    (hServe : ∀ (paired : Paired) (rest : List Arrival) (frame : List UInt8)
      (post : Except LinkError (σ ⊕ Unit) → List Arrival → Tally → Prop),
      (∀ reply, Answers paired.readCount reply →
        post (.ok (.inl x)) rest (t.serving ⟨server, frame, reply⟩)) →
      Yields observer (next (some paired)) rest (t.serving ⟨server, frame, []⟩) post) :
    Yields observer (Act.dialogue readPaired >>= next) mid (t.serving ⟨server, [c], []⟩)
      (Round server echo x incoming t) := by
  refine .bind (.dialogue (readPaired_yields
    (fun writeHigh writeLow readHigh readLow writes rest hPayload hLength => ?_)
    (fun writeHigh writeLow readHigh readLow writes rest hPayload hLength => ?_)
    fun bytes hPayload => ?_))
  · rw [Tally.hearAll_serving]
    refine hServe _ _ _ _ fun reply hReply => .of_serving hNext hStays (hKind ▸ hPayload) ?_ id
    exact hReply.length_eq.trans (replyLength_paired hKind hLength _).symm
  · rw [Tally.hearAll_serving]
    change Yields observer (next none) _ _ _
    rw [hRefuse]
    refine .pure (.of_serving hNext hStays (hKind ▸ hPayload) ?_ id)
    have hZero : Answers (countOf readHigh readLow) [0] := Or.inl rfl
    exact hZero.length_eq.trans (replyLength_paired hKind hLength _).symm
  · rw [Tally.hearAll_serving]
    refine .of_cut hNext hStays (hKind ▸ hPayload) ?_
    simp only [replyLength, hKind]
    exact (pairedReplyLength_cut hPayload _).symm

/-- A command with so many bytes behind it, for which the reply is left open. -/
theorem bulk_yields {next : List UInt8 → Talk ω β (σ ⊕ Unit)} {n : Nat}
    (hNext : nextByte incoming = some (c, mid)) (hStays : c ≠ 0x00)
    (hKind : kind server c = .bulk n) (hServer : server ≠ .uart)
    (hServe : ∀ (bytes : List UInt8) (rest : List Arrival)
      (post : Except LinkError (σ ⊕ Unit) → List Arrival → Tally → Prop), bytes.length = n →
      (∀ reply : List UInt8, reply.length = bulkReplyLength server n n (reply.head? = some 1) →
        post (.ok (.inl x)) rest (t.serving ⟨server, c :: bytes, reply⟩)) →
      Yields observer (next bytes) rest (t.serving ⟨server, c :: bytes, []⟩) post) :
    Yields observer (Act.dialogue (Link.readExact n) >>= next) mid (t.serving ⟨server, [c], []⟩)
      (Round server echo x incoming t) := by
  refine .bind (.dialogue (.readExact (fun bytes rest hFetch hLength => ?_)
    fun bytes hFetch hLength => ?_))
  · rw [Tally.hearAll_serving]
    have hPayload : payload (kind server c) mid = (bytes, rest, true) := by
      rw [hKind]
      simp only [payload, exactly, hFetch, hLength, decide_true]
    refine hServe _ _ _ hLength fun reply hReply => .of_serving hNext hStays hPayload ?_ id
    simp only [replyLength, hKind, hLength]
    exact hReply
  · rw [Tally.hearAll_serving]
    have hPayload : payload (kind server c) mid = (bytes, [], false) := by
      rw [hKind]
      simp only [payload, exactly, hFetch, decide_eq_false (Nat.ne_of_lt hLength)]
    refine .of_cut hNext hStays hPayload ?_
    simp only [replyLength, hKind]
    exact (bulkReplyLength_cut hServer (Nat.ne_of_lt hLength) _).symm

end Transfers

end BusBench.Binary
