import BusBench.Binary.Session
import BusBench.Proofs.Text.Printable
import BusBench.Prompt.Command

/-!
# What a dialogue can answer

Whatever arrives on a link, and wherever its output fails, only some answers are possible: a line
that was typed is printable, an option that was picked is one of the menu, and a payload is as long
as it was announced to be.

* `Dialogue.Returns`: what the result of a dialogue is like, whoever the peer is.
* `Link.readExact_returns`, `Binary.readPaired_returns`: payloads.
* `Console.readLine_returns`: lines.
* `Terminal.select_returns`: menus.
-/

namespace BusBench

variable {τ ε α γ σ : Type}

namespace Dialogue

/-- Whoever the peer is, the dialogue comes to a result that `post` accepts. -/
def Returns (talk : Dialogue τ ε α) (post : Except ε α → Prop) : Prop :=
  ∀ r : Recorded τ, post (talk.run r).1

namespace Returns

variable {talk : Dialogue τ ε α} {post : Except ε α → Prop}

theorem mono {weak : Except ε α → Prop} (h : Returns talk post) (hPost : ∀ r, post r → weak r) :
    Returns talk weak :=
  fun r => hPost _ (h r)

theorem pure {a : α} (h : post (.ok a)) : Returns (Pure.pure a : Dialogue τ ε α) post :=
  fun _ => h

theorem throw {e : ε} (h : post (.error e)) :
    Returns (MonadExcept.throw e : Dialogue τ ε α) post :=
  fun _ => h

theorem bind {next : α → Dialogue τ ε γ} {post : Except ε γ → Prop}
    (h : Returns talk fun
      | .ok a => Returns (next a) post
      | .error e => post (.error e)) : Returns (talk >>= next) post := by
  intro r
  have hFirst := h r
  rw [run_bind]
  generalize talk.run r = done at hFirst ⊢
  obtain ⟨_ | a, r'⟩ := done
  · exact hFirst
  · exact hFirst r'

/-- Nothing is to be known of the first dialogue where any failure of it is accepted. -/
theorem bind_any {next : α → Dialogue τ ε γ} {post : Except ε γ → Prop}
    (hNext : ∀ a, Returns (next a) post) (hError : ∀ e, post (.error e)) :
    Returns (talk >>= next) post := by
  refine bind fun r => ?_
  cases (talk.run r).1 with
  | ok a => exact hNext a
  | error e => exact hError e

theorem ite {condition : Prop} [Decidable condition] {yes no : Dialogue τ ε α}
    (hYes : condition → Returns yes post) (hNo : ¬ condition → Returns no post) :
    Returns (if condition then yes else no) post := by
  split
  · next h => exact hYes h
  · next h => exact hNo h

/-- The peer decides how the dialogue goes on. -/
theorem peer_bind {next : τ → Dialogue τ ε α} (h : ∀ peer, Returns (next peer) post) :
    Returns (Dialogue.peer >>= next) post :=
  fun r => h r.peer r

theorem modifyPeer {change : τ → τ} {post : Except ε Unit → Prop} (h : post (.ok ())) :
    Returns (Dialogue.modifyPeer change : Dialogue τ ε Unit) post :=
  fun _ => h

/-- What every round keeps, the loop keeps. -/
theorem rounds {exhausted : Dialogue τ ε α} {round : σ → Dialogue τ ε (σ ⊕ α)} {I : σ → Prop}
    (hExhausted : Returns exhausted post)
    (hRound : ∀ x, I x → Returns (round x) fun
      | .ok (.inl x') => I x'
      | .ok (.inr a) => post (.ok a)
      | .error e => post (.error e))
    (limit : Nat) {x : σ} (h : I x) : Returns (BusBench.rounds exhausted round limit x) post := by
  induction limit generalizing x with
  | zero => exact hExhausted
  | succ limit ih =>
    refine bind ((hRound x h).mono fun r hNext => ?_)
    rcases r with e | x' | a
    · exact hNext
    · exact ih hNext
    · exact pure hNext

end Returns

end Dialogue

open Dialogue (Returns)

/-! ## Links -/

namespace Link

theorem collect_returns (n : Nat) (collected : List UInt8) :
    Returns (collect n collected) fun r => ∀ bytes, r = .ok bytes →
      bytes.length = collected.length + n := by
  induction n generalizing collected with
  | zero =>
    refine .pure fun bytes h => ?_
    cases h
    exact List.length_reverse
  | succ n ih =>
    refine .bind_any (fun b => (ih (b :: collected)).mono fun r hRest bytes h => ?_) nofun
    rw [hRest bytes h, List.length_cons]
    omega

/-- Just as many bytes are answered as were asked for. -/
theorem readExact_returns (n : Nat) :
    Returns (readExact n) fun r => ∀ bytes, r = .ok bytes → bytes.length = n :=
  (collect_returns n []).mono fun _ h bytes hBytes => (h bytes hBytes).trans (Nat.zero_add n)

theorem readCount_returns : Returns readCount fun r => ∀ n, r = .ok n → n < 0x10000 := by
  refine .bind_any (fun high => .bind_any (fun low => .pure fun n h => ?_) nofun) nofun
  cases h
  have hHigh := high.toNat_lt
  have hLow := low.toNat_lt
  omega

end Link

/-- Where a frame is taken there is something to write and something to read. -/
theorem Binary.readPaired_returns : Returns readPaired fun r => ∀ paired, r = .ok (some paired) →
    paired.writes ≠ [] ∧ paired.writes.length < 0x10000 ∧
      0 < paired.readCount ∧ paired.readCount < 0x10000 := by
  refine .bind (Link.readCount_returns.mono fun r hWrite => ?_)
  cases r with
  | error e => nofun
  | ok writeCount =>
    refine .bind (Link.readCount_returns.mono fun r hRead => ?_)
    cases r with
    | error e => nofun
    | ok readCount =>
      refine .ite (fun _ => ?refused) fun hCounts => ?taken
      case refused => exact .bind_any (fun _ => .bind_any (fun _ => .pure nofun) nofun) nofun
      case taken =>
        refine .bind ((Link.readExact_returns writeCount).mono fun r hBytes => ?_)
        cases r with
        | error e => nofun
        | ok bytes =>
          refine .pure fun paired h => ?_
          cases h
          have hLength := hBytes bytes rfl
          have hWriteBound := hWrite writeCount rfl
          have hReadBound := hRead readCount rfl
          refine ⟨?_, ?_, ?_, hReadBound⟩
          · rintro rfl
            exact hCounts (.inl hLength.symm)
          · rw [hLength]
            exact hWriteBound
          · exact Nat.pos_of_ne_zero fun hZero => hCounts (.inr hZero)

/-! ## The console -/

/-- The result fails at most because the link did. -/
def LinkOnly (r : Except Error α) : Prop :=
  ∀ e, r = .error e → e = .link

theorem linkOnly_link : LinkOnly (.error .link : Except Error α) := by
  rintro e ⟨⟩
  rfl

namespace Console

theorem onLink_returns {program : Dialogue Link LinkError α} {post : Except Error α → Prop}
    (hOk : ∀ a, post (.ok a)) (hLink : post (.error .link)) :
    Returns (onLink program) post := by
  intro r
  change post (((program.run ⟨r.peer.link, r.events⟩).1).mapError fun _ => .link)
  cases (program.run ⟨r.peer.link, r.events⟩).1 with
  | ok a => exact hOk a
  | error e => exact hLink

theorem onLink_linkOnly (program : Dialogue Link LinkError α) :
    Returns (onLink program) LinkOnly :=
  onLink_returns nofun linkOnly_link

/-- Only printable characters are put on the line. -/
theorem printable_of_edit {afterReturn : Bool} {line line' : List Char} {byte : UInt8}
    {echo : List UInt8} (h : Printable line)
    (hEdit : edit afterReturn line byte = .continue line' echo) : Printable line' := by
  unfold edit at hEdit
  split at hEdit
  · cases hEdit
    exact h
  split at hEdit
  · cases hEdit
  split at hEdit
  · split at hEdit
    · cases hEdit
      exact h
    · cases hEdit
      exact (List.forall_mem_cons.mp h).2
  split at hEdit
  · next hRange =>
    cases hEdit
    refine List.forall_mem_cons.mpr ⟨?_, h⟩
    have hCode : (Char.ofNat byte.toNat).toNat = byte.toNat := by
      rw [Char.ofNat, dif_pos (.inl (Nat.lt_trans byte.toNat_lt (by decide)))]
      rfl
    rw [hCode]
    exact ⟨UInt8.le_iff_toNat_le.mp hRange.1, UInt8.le_iff_toNat_le.mp hRange.2⟩
  · cases hEdit
    exact h

/-- What awaiting a line can come to. -/
def Answered : Except Error Line → Prop
  | .ok (.text line) => Printable line
  | .ok .modeSwitch => True
  | .error e => e = .link

theorem readLineRound_returns {line : List Char} (h : Printable line) :
    Returns (readLineRound line) fun
      | .ok (.inl line') => Printable line'
      | .ok (.inr result) => Answered (.ok result)
      | .error e => Answered (.error e) := by
  refine .bind (onLink_returns (fun byte => .peer_bind fun console => ?_) rfl)
  dsimp only
  generalize console.detector.feed byte = fed
  obtain ⟨heard, detector⟩ := fed
  refine .bind (.modifyPeer ?_)
  cases heard with
  | nothing => exact .pure h
  | modeSwitch => exact .pure trivial
  | data byte =>
    refine .bind (.modifyPeer ?_)
    dsimp only
    split
    · refine .bind (onLink_returns (fun _ => .pure ?_) rfl)
      exact fun c hc => h c (List.mem_reverse.mp hc)
    · next line' echo hEdit =>
      exact .bind (onLink_returns (fun _ => .pure (printable_of_edit h hEdit)) rfl)

/-- Every line is printable, whatever arrives. -/
theorem readLine_returns (question : String) : Returns (readLine question) Answered := by
  refine .bind (onLink_returns (fun _ => .peer_bind fun console => ?_) rfl)
  have hEnd : Answered (.error .link) := rfl
  refine .rounds (.throw hEnd) (fun line h => (readLineRound_returns h).mono fun r hRound => ?_) _
    fun _ hc => absurd hc List.not_mem_nil
  rcases r with e | line' | result <;> exact hRound

end Console

/-! ## Texts and menus -/

theorem LinkOnly.bind {talk : Dialogue τ Error α} {next : α → Dialogue τ Error γ}
    {post : Except Error γ → Prop} (h : Returns talk LinkOnly)
    (hNext : ∀ a, Returns (next a) post) (hLink : post (.error .link)) :
    Returns (talk >>= next) post := by
  refine .bind (h.mono fun r hOnly => ?_)
  cases r with
  | ok a => exact hNext a
  | error e =>
    cases hOnly e rfl
    exact hLink

theorem LinkOnly.forM {body : α → Dialogue τ Error PUnit} (xs : List α)
    (h : ∀ a, Returns (body a) LinkOnly) : Returns (xs.forM body) LinkOnly := by
  induction xs with
  | nil => exact .pure nofun
  | cons a xs ih => exact LinkOnly.bind (h a) (fun _ => ih) linkOnly_link

namespace Terminal

theorem writeLine_returns (text : String) :
    Returns (writeLine text : Dialogue Console Error Unit) LinkOnly :=
  Console.onLink_linkOnly _

theorem writeOptions_returns (n : Nat) (options : List String) :
    Returns (writeOptions n options : Dialogue Console Error Unit) LinkOnly := by
  induction options generalizing n with
  | nil => exact .pure nofun
  | cons option options ih =>
    exact LinkOnly.bind (writeLine_returns _) (fun _ => ih _) linkOnly_link

theorem choice?_lt {count default index : Nat} {answer : List Char} (hDefault : default < count)
    (h : choice? count default answer = some index) : index < count := by
  unfold choice? at h
  dsimp only at h
  split at h
  · cases h
    exact hDefault
  · split at h
    · split at h
      · cases h
        omega
      · cases h
    · cases h

/-- What a menu can come to. -/
def Picked (count : Nat) : Except Error Nat → Prop
  | .ok index => index < count
  | .error e => e ≠ .splitCharacter

theorem Picked.ne_split {count : Nat} {r : Except Error Nat} (h : Picked count r) :
    r ≠ .error .splitCharacter := by
  rintro rfl
  exact h rfl

theorem select_returns (message : String) {options : List String} {default : Nat}
    (hDefault : default < options.length) :
    Returns (select message options default : Dialogue Console Error Nat)
      (Picked options.length) := by
  refine LinkOnly.bind (writeLine_returns _) (fun _ => ?_) nofun
  refine LinkOnly.bind (writeOptions_returns _ _) (fun _ => .peer_bind fun console => ?_) nofun
  refine Returns.rounds (I := fun _ => True) (.throw nofun) (fun _ _ => ?_) _ trivial
  refine .bind ((Console.readLine_returns _).mono fun r hLine => ?_)
  rcases r with e | answer | _
  · exact (by rw [show _ = Error.link from hLine]; nofun)
  · dsimp only
    split
    · next index hChoice => exact .pure (choice?_lt hDefault hChoice)
    · exact LinkOnly.bind (writeLine_returns _) (fun _ => .pure trivial) nofun
  · exact .throw nofun

end Terminal

theorem MacroTable.resolve_returns (key : UInt8) (table : MacroTable α) :
    Returns (table.resolve key : Dialogue Console Error (Option α)) LinkOnly := by
  refine .ite (fun _ => ?_) fun _ => ?_
  · refine LinkOnly.bind (Terminal.writeLine_returns _) (fun _ => ?_) linkOnly_link
    refine LinkOnly.bind (.forM _ fun _ => Terminal.writeLine_returns _) (fun _ => ?_) linkOnly_link
    exact .pure nofun
  · split
    · exact .pure nofun
    · exact LinkOnly.bind (Terminal.writeLine_returns _) (fun _ => .pure nofun) linkOnly_link

/-- The number of a mode is part of a line that was typed. -/
theorem Bench.askMode_returns {args : List Char} (h : Printable args) :
    Returns (askMode args : Dialogue Console Error (Option (List Char))) fun
      | .ok selection? => ∀ selection, selection? = some selection → Printable selection
      | .error e => e = .link := by
  refine .ite (fun _ => ?_) fun _ => .pure fun _ hArgs => by cases hArgs; exact h
  refine LinkOnly.bind (.forM _ fun _ => Terminal.writeLine_returns _) (fun _ => ?_) rfl
  refine .bind ((Console.readLine_returns _).mono fun r hLine => ?_)
  rcases r with e | answer | _
  · exact hLine
  · exact .pure fun _ hAnswer => by cases hAnswer; exact hLine
  · exact .pure nofun

end BusBench
