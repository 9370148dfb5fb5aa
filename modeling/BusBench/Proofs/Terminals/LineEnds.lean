import BusBench.Proofs.Terminals.Annotated
import BusBench.Proofs.Terminals.Lines

/-!
# How lines are ended

A host may end its lines by a carriage return, by a line feed, or by both. The line editor tells the
line feed of such a pair from the end of another line, so consoles to which the same lines are still
to arrive give the same lines and echo the same, as long as they are not asked for keys.

* `LineEnd.spell`: the bytes of lines with their ends.
* `Console.Typing`: lines that are still to arrive.
* `Console.readLine_typing`: what awaiting one of them comes to.
* `Console.lineEnds`, `Console.lineEnds_bond`: consoles whose lines are ended in different ways.
-/

namespace BusBench

/-! ## Lines and their ends -/

/-- What a host sends at the end of a line. -/
inductive LineEnd where
  | carriageReturn
  | lineFeed
  | pair
  deriving DecidableEq, Repr

namespace LineEnd

def bytes : LineEnd → List UInt8
  | carriageReturn => [0x0D]
  | lineFeed => [0x0A]
  | pair => [0x0D, 0x0A]

/-- The bytes of lines that are all ended in this way. -/
def spell (ending : LineEnd) (lines : List (List Char)) : List UInt8 :=
  lines.flatMap fun line => line.map Char.toUInt8 ++ ending.bytes

theorem spell_cons (ending : LineEnd) (line : List Char) (lines : List (List Char)) :
    ending.spell (line :: lines) =
      line.map Char.toUInt8 ++ (ending.bytes ++ ending.spell lines) := by
  simp [spell]

theorem length_le_spell (ending : LineEnd) (lines : List (List Char)) :
    lines.length ≤ (ending.spell lines).length := by
  induction lines with
  | nil => exact Nat.le_refl _
  | cons line lines ih =>
    have hEnd : 1 ≤ ending.bytes.length := by
      cases ending with
      | carriageReturn | lineFeed => exact Nat.le_refl _
      | pair => exact Nat.le_succ _
    rw [spell_cons, List.length_append, List.length_append, List.length_cons]
    omega

end LineEnd

/-- The line consists of printable characters of ASCII. -/
def Printable (line : List Char) : Prop :=
  ∀ c ∈ line, 0x20 ≤ c.toNat ∧ c.toNat ≤ 0x7E

instance (line : List Char) : Decidable (Printable line) :=
  List.decidableBAll _ line

namespace Console

open Annotated (Steady between between_accords between_keeps_of_sends switches)
open Dialogue (Ends)

variable {S α : Type} {o : Observer S} {s : S} {console console' : Console}
  {arrivals : List Arrival} {afterReturn : Bool} {line : List Char} {all lines : List (List Char)}
  {ending ending' : LineEnd} {b : UInt8} {bytes more : List UInt8} {k : Nat}

/-! ## Typed lines -/

theorem scan_of_bytesOf (detector : Detector) (afterReturn : Bool) (line : List Char)
    (h : bytesOf arrivals = b :: bytes) : ∃ rest, bytesOf rest = bytes ∧
      scan detector afterReturn line arrivals =
        scan detector afterReturn line (.byte b :: rest) := by
  rcases hNext : nextByte arrivals with _ | ⟨b', rest⟩
  · rw [bytesOf_of_none hNext] at h
    cases h
  · obtain ⟨rfl, rfl⟩ := List.cons_eq_cons.mp ((bytesOf_of_nextByte hNext).symm.trans h)
    exact ⟨rest, rfl, scan_of_nextByte hNext⟩

theorem scan_of_silence (h : bytesOf arrivals = []) :
    scan {} afterReturn line arrivals = ⟨none, [], {}, afterReturn, []⟩ := by
  rcases hNext : nextByte arrivals with _ | ⟨b, rest⟩
  · exact scan_of_none hNext
  · rw [bytesOf_of_nextByte hNext] at h
    cases h

theorem edit_of_printable (afterReturn : Bool) (line : List Char) {c : Char}
    (hPrintable : 0x20 ≤ c.toNat ∧ c.toNat ≤ 0x7E) :
    c.toUInt8 ≠ 0 ∧ c.toUInt8 ≠ 0x0D ∧
      edit afterReturn line c.toUInt8 = .continue (c :: line) [c.toUInt8] := by
  have hCode : c.toUInt8.toNat = c.toNat := by
    unfold Char.toUInt8
    rw [UInt32.toNat_toUInt8]
    exact Nat.mod_eq_of_lt (Nat.lt_of_le_of_lt hPrintable.2 (by decide))
  have hNot : ∀ b : UInt8, b.toNat < 0x20 ∨ 0x7E < b.toNat → c.toUInt8 ≠ b := by
    rintro b hOutside rfl
    omega
  have hRange : 0x20 ≤ c.toUInt8 ∧ c.toUInt8 ≤ 0x7E := by
    rw [UInt8.le_iff_toNat_le, UInt8.le_iff_toNat_le, hCode]
    exact hPrintable
  refine ⟨hNot _ (by decide), hNot _ (by decide), ?_⟩
  unfold edit
  rw [if_neg fun h => hNot 0x0A (by decide) h.1,
    if_neg (not_or.mpr ⟨hNot 0x0D (by decide), hNot 0x0A (by decide)⟩),
    if_neg (not_or.mpr ⟨hNot 0x08 (by decide), hNot 0x7F (by decide)⟩), if_pos hRange, hCode,
    Char.ofNat_toNat]

/-- Printable characters are put on the line and echoed. -/
theorem scan_of_printable {typed : List Char} (afterReturn : Bool) (line : List Char)
    (hPrintable : Printable typed) (h : bytesOf arrivals = typed.map Char.toUInt8 ++ more) :
    ∃ rest afterReturn', bytesOf rest = more ∧ (afterReturn = false → afterReturn' = false) ∧
      scan {} afterReturn line arrivals =
        (scan {} afterReturn' (typed.reverse ++ line) rest).behind (typed.map Char.toUInt8) := by
  induction typed generalizing arrivals afterReturn line with
  | nil => exact ⟨arrivals, afterReturn, h, id, rfl⟩
  | cons c typed ih =>
    obtain ⟨hHere, hTyped⟩ := List.forall_mem_cons.mp hPrintable
    obtain ⟨hZero, hReturn, hEdit⟩ := edit_of_printable afterReturn line hHere
    obtain ⟨mid, hMid, hFirst⟩ := scan_of_bytesOf {} afterReturn line h
    obtain ⟨rest, afterReturn', hRest, hKeeps, hScan⟩ := ih false (c :: line) hTyped hMid
    refine ⟨rest, afterReturn', hRest, fun _ => hKeeps rfl, ?_⟩
    have hFeed : Detector.feed c.toUInt8 {} = (.data c.toUInt8, {}) := if_pos hZero
    rw [hFirst]
    simp only [scan, hFeed, hEdit, hReturn, decide_false]
    rw [hScan, Reading.behind_behind, List.reverse_cons, List.append_assoc]
    rfl

theorem scan_of_end (hEnd : b = 0x0D ∨ b = 0x0A ∧ afterReturn = false)
    (h : bytesOf arrivals = b :: bytes) : ∃ rest, bytesOf rest = bytes ∧
      scan {} afterReturn line arrivals =
        ⟨some (.text line.reverse), rest, {}, b = 0x0D, [0x0D, 0x0A]⟩ := by
  obtain ⟨rest, hRest, hFirst⟩ := scan_of_bytesOf {} afterReturn line h
  refine ⟨rest, hRest, hFirst.trans ?_⟩
  rcases hEnd with rfl | ⟨rfl, rfl⟩
  · rfl
  · rfl

/-- The line feed that belongs to the line before is passed over. -/
theorem scan_of_owed (h : bytesOf arrivals = 0x0A :: bytes) : ∃ rest, bytesOf rest = bytes ∧
    scan {} true line arrivals = scan {} false line rest := by
  obtain ⟨rest, hRest, hFirst⟩ := scan_of_bytesOf {} true line h
  exact ⟨rest, hRest, hFirst⟩

/-! ## Lines that are still to arrive -/

/-- The bytes are those of these lines, or the line feed that belongs to the line before stands
first. -/
inductive Arriving (lines : List (List Char)) : LineEnd → Bool → List UInt8 → Prop where
  | start {ending : LineEnd} {afterReturn : Bool} (h : ending = .lineFeed → afterReturn = false) :
    Arriving lines ending afterReturn (ending.spell lines)
  | owed : Arriving lines .pair true (0x0A :: LineEnd.pair.spell lines)

/-- The line that is read next, if there is any. -/
def heard : List (List Char) → Except Error Line
  | [] => .error .link
  | line :: _ => .ok (.text line)

/-- What is sent while it is read. -/
def echoed : List (List Char) → List UInt8
  | [] => []
  | line :: _ => line.map Char.toUInt8 ++ [0x0D, 0x0A]

/-- A line feed that was owed makes no difference to the line after it. -/
theorem Arriving.paid (line : List Char)
    (h : Arriving lines ending afterReturn (bytesOf arrivals)) :
    ∃ rest afterReturn', bytesOf rest = ending.spell lines ∧
      (ending = .lineFeed → afterReturn' = false) ∧
      scan {} afterReturn line arrivals = scan {} afterReturn' line rest := by
  generalize hBytes : bytesOf arrivals = bytes at h
  cases h with
  | start hEnding => exact ⟨arrivals, afterReturn, hBytes, hEnding, rfl⟩
  | owed =>
    obtain ⟨rest, hRest, hScan⟩ := scan_of_owed hBytes
    exact ⟨rest, false, hRest, fun _ => rfl, hScan⟩

theorem scan_of_arriving (h : Arriving lines ending afterReturn (bytesOf arrivals))
    (hPrintable : ∀ line ∈ lines, Printable line) :
    ∃ rest afterReturn', Arriving lines.tail ending afterReturn' (bytesOf rest) ∧
      scan {} afterReturn [] arrivals =
        ⟨(heard lines).toOption, rest, {}, afterReturn', echoed lines⟩ := by
  -- A line feed that may be owed is passed over first, even where no line follows.
  obtain ⟨mid, midReturn, hMid, hEnding, hPaid⟩ := h.paid []
  rw [hPaid]
  cases lines with
  | nil => exact ⟨[], midReturn, .start hEnding, scan_of_silence hMid⟩
  | cons line lines =>
    rw [LineEnd.spell_cons] at hMid
    obtain ⟨last, lastReturn, hLast, hKeeps, hTyped⟩ :=
      scan_of_printable midReturn [] (hPrintable line List.mem_cons_self) hMid
    have hRead : ∀ {b bytes}, b = 0x0D ∨ b = 0x0A ∧ lastReturn = false →
        bytesOf last = b :: bytes → ∃ rest, bytesOf rest = bytes ∧
          scan {} midReturn [] mid =
            ⟨some (.text line), rest, {}, b = 0x0D, echoed (line :: lines)⟩ := by
      intro b bytes hEnd hBytes
      obtain ⟨rest, hRest, hScan⟩ := scan_of_end hEnd hBytes
      refine ⟨rest, hRest, hTyped.trans ?_⟩
      rw [hScan, List.append_nil, List.reverse_reverse]
      rfl
    cases ending with
    | carriageReturn =>
      obtain ⟨rest, hRest, hScan⟩ := hRead (.inl rfl) hLast
      exact ⟨rest, true, hRest ▸ .start nofun, hScan⟩
    | lineFeed =>
      obtain ⟨rest, hRest, hScan⟩ := hRead (.inr ⟨rfl, hKeeps (hEnding rfl)⟩) hLast
      exact ⟨rest, false, hRest ▸ .start fun _ => rfl, hScan⟩
    | pair =>
      obtain ⟨rest, hRest, hScan⟩ := hRead (.inl rfl) hLast
      exact ⟨rest, true, hRest ▸ .owed, hScan⟩

/-- These lines are still to arrive at an open link. -/
structure Typing (ending : LineEnd) (lines : List (List Char)) (console : Console) : Prop where
  isOpen : console.link.IsOpen
  detector : console.detector = {}
  arriving : Arriving lines ending console.afterReturn (bytesOf console.link.incoming)
  printable : ∀ line ∈ lines, Printable line

namespace Typing

theorem length_le (h : Typing ending lines console) :
    lines.length ≤ console.link.incoming.length := by
  have hBytes : lines.length ≤ (bytesOf console.link.incoming).length := by
    have hArriving := h.arriving
    generalize bytesOf console.link.incoming = bytes, console.afterReturn = afterReturn
      at hArriving ⊢
    cases hArriving with
    | start => exact LineEnd.length_le_spell _ _
    | owed => exact Nat.le_succ_of_le (LineEnd.length_le_spell _ _)
  exact Nat.le_trans hBytes (length_bytesOf_le _)

/-- What is sent has nothing to do with what arrives. -/
theorem with_link (h : Typing ending lines console) {link : Link} (hOpen : link.IsOpen)
    (hIncoming : link.incoming = console.link.incoming) :
    Typing ending lines { console with link } :=
  ⟨hOpen, h.detector, hIncoming ▸ h.arriving, h.printable⟩

end Typing

/-- The next line is read and echoed, however it is ended. -/
theorem readLine_typing (hDeaf : o.Deaf) (h : Typing ending lines console) (question : String) :
    Ends o (readLine question) console s fun r after s' => r = heard lines ∧
      Typing ending lines.tail after ∧
      s' = o.sayAll (echoed lines) (o.sayAll question.toUTF8.toList s) := by
  refine (readLine_ends hDeaf h.isOpen question).mono fun r after s' hAwaited => ?_
  obtain ⟨rest, afterReturn, hArriving, hScan⟩ := scan_of_arriving h.arriving h.printable
  rw [h.detector, hScan] at hAwaited
  have hReading := hAwaited.reading
  simp only [Reading.of, Reading.mk.injEq] at hReading
  obtain ⟨-, rfl, hDetector, rfl, -⟩ := hReading
  have hPrintable : ∀ line ∈ lines.tail, Printable line := fun line hLine =>
    h.printable line (List.mem_of_mem_tail hLine)
  refine ⟨hAwaited.result_eq.trans ?_, ⟨hAwaited.isOpen, hDetector.symm, hArriving, hPrintable⟩,
    hAwaited.seen⟩
  cases lines with
  | nil => rfl
  | cons line lines => rfl

/-! ## The accord -/

/-- The last of the lines are still to arrive, at most `k` of them and the same at both. -/
def LeftOf (all : List (List Char)) (ending ending' : LineEnd) (k : Nat)
    (console console' : Console) : Prop :=
  ∃ lines, lines <:+ all ∧ lines.length ≤ k ∧ Typing ending lines console ∧
    Typing ending' lines console'

theorem LeftOf.mono {j : Nat} (hLess : j ≤ k) (h : LeftOf all ending ending' j console console') :
    LeftOf all ending ending' k console console' := by
  obtain ⟨lines, hLeft, hLines, hTyping⟩ := h
  exact ⟨lines, hLeft, Nat.le_trans hLines hLess, hTyping⟩

theorem leftOf_tail (hLeft : lines <:+ all) (h : Typing ending lines.tail console)
    (h' : Typing ending' lines.tail console') :
    LeftOf all ending ending' lines.tail.length console console' :=
  ⟨lines.tail, (List.tail_suffix lines).trans hLeft, Nat.le_refl _, h, h'⟩

theorem leftOf_steady : Steady (LeftOf all ending ending' k) where
  isOpen := by
    rintro console console' ⟨lines, -, -, hTyping, hTyping'⟩
    exact ⟨hTyping.isOpen, hTyping'.isOpen⟩
  with_link := by
    rintro console console' link link' ⟨lines, hLeft, hLength, hTyping, hTyping'⟩ hOpen hOpen'
      hIncoming hIncoming'
    exact ⟨lines, hLeft, hLength, hTyping.with_link hOpen hIncoming,
      hTyping'.with_link hOpen' hIncoming'⟩

/-- Consoles whose lines are ended in different ways. A key that is asked for may be the line feed
of a pair. -/
abbrev lineEnds (o : Observer S) (all : List (List Char)) (ending ending' : LineEnd) (k : Nat) :
    Accord Annotated Console :=
  between o (LeftOf all ending ending' k) (·.keys ≠ [])

theorem lineEnds_mono {j : Nat} {ended : Bool} {told : Told Annotated} {told' : Told Console}
    (hLess : j ≤ k) (h : (lineEnds o all ending ending' j).tie ended told told') :
    (lineEnds o all ending ending' k).tie ended told told' := by
  obtain ⟨hTalking, hLines, hSeen⟩ := h
  exact ⟨hTalking, hLines.mono hLess, hSeen⟩

/-- The next line is the same, and there is one less after it. -/
theorem readLine_takes (hDeaf : o.Deaf) (question : String) (base base' : List Event) (k : Nat) :
    Takes (fun k => (lineEnds o all ending ending' k).Talks base base') (·.peer.taken.keys ≠ [])
      switches (fun line => ∃ chars, line = .text chars) k
      (Terminal.readLine question : Dialogue Annotated Error Line) (readLine question) := by
  refine ⟨fun r hAsked => ?_, ?_⟩
  · rw [Annotated.readLine_run]
    exact hAsked
  rintro r r' - ⟨-, ⟨lines, hLeft, hLength, hTyping, hTyping'⟩, hSeen⟩
  rw [o.of_append_peer, o.of_append_peer] at hSeen
  obtain ⟨hRead, hAfter, hSaid⟩ :=
    readLine_typing hDeaf hTyping question ⟨r.peer.console, r.events⟩ (o.of base) rfl rfl
  obtain ⟨hRead', hAfter', hSaid'⟩ :=
    readLine_typing hDeaf hTyping' question r' (o.of base') rfl rfl
  rw [Annotated.readLine_run]
  refine ⟨hRead.trans hRead'.symm, lines.tail.length, ?_,
    ⟨rfl, leftOf_tail hLeft hAfter hAfter', ?_⟩, ?_⟩
  · rw [List.length_tail]
    omega
  · rw [o.of_append_peer, o.of_append_peer, hSaid, hSaid', hSeen]
  · dsimp only
    rw [hRead]
    cases lines with
    | nil => exact .inl ⟨_, rfl, rfl⟩
    | cons line lines => exact .inr ⟨_, rfl, ⟨line, rfl⟩, hLength⟩

theorem readLine_accords (hDeaf : o.Deaf) (question : String) :
    Dialogue.Accords (lineEnds o all ending ending' k) false (Terminal.readLine question)
      (readLine question) (lineEnds o all ending ending' k).endsWith := by
  refine between_accords (fun _ _ => id) ?_
  rintro annotated console s ⟨lines, hLeft, hLength, hTyping, hTyping'⟩
  refine (readLine_typing hDeaf hTyping question).mono fun r after t hRead =>
    (readLine_typing hDeaf hTyping' question).mono fun r' after' t' hRead' _ => ?_
  obtain ⟨rfl, hAfter, rfl⟩ := hRead
  obtain ⟨rfl, hAfter', rfl⟩ := hRead'
  have hTail : lines.tail.length ≤ k := by
    rw [List.length_tail]
    omega
  refine ⟨rfl, ?_, (leftOf_tail hLeft hAfter hAfter').mono hTail, rfl⟩
  cases lines with
  | nil => rfl
  | cons line lines => rfl

/-- A loop that uses up lines has rounds enough on both. -/
theorem dialogue_askUntil_keeps {ψ : Type} {round : ψ → Dialogue Annotated Error (ψ ⊕ α)}
    {round' : ψ → Dialogue Console Error (ψ ⊕ α)}
    (hRound : ∀ base base' k x, UsesUp (fun k => (lineEnds o all ending ending' k).Talks base base')
      (·.peer.taken.keys ≠ []) switches k (round x) (round' x)) (x : ψ) :
    Dialogue.Keeps (lineEnds o all ending ending' k) (Terminal.askUntil round x)
      (Terminal.askUntil round' x) := by
  refine fun base base' => ⟨fun r => ?_, ?_⟩
  · exact Accords.lost_rounds (fun _ => id) (fun x => (hRound base base' 0 x).loses)
      (Terminal.remaining r.peer + 1) x r
  · rintro r r' hKept ⟨-, ⟨lines, hLeft, hLength, hTyping, hTyping'⟩, hSeen⟩
    have hRounds : Accords ((lineEnds o all ending ending' lines.length).Talks base base')
        (·.peer.taken.keys ≠ []) switches false
        (rounds (throw .link) round (Terminal.remaining r.peer + 1) x)
        (rounds (throw .link) round' (Terminal.remaining r'.peer + 1) x) fun _ => false :=
      .rounds_of_lt (T := fun k => (lineEnds o all ending ending' k).Talks base base') (fun _ => id)
        (fun hLess hTalks => lineEnds_mono hLess hTalks) (hRound base base')
        (Nat.lt_succ_of_le hTyping.length_le) (Nat.lt_succ_of_le hTyping'.length_le) x
    obtain ⟨hSame, hAfter⟩ :=
      hRounds.agrees r r' hKept ⟨rfl, ⟨lines, hLeft, Nat.le_refl _, hTyping, hTyping'⟩, hSeen⟩
    exact ⟨hSame, lineEnds_mono hLength hAfter⟩

/-- A menu asks for as many lines as it needs. -/
theorem select_keeps (hDeaf : o.Deaf)
    (hWrite : ∀ k text, Dialogue.Keeps (lineEnds o all ending ending' k) (Terminal.write text)
      (write text)) (message : String) (options : List String) (default : Nat) :
    Dialogue.Keeps (lineEnds o all ending ending' k)
      (Terminal.select message options default : Dialogue Annotated Error Nat)
      (Terminal.select message options default) := by
  refine .bind (hWrite k _) fun _ => .bind (Accord.writeOptions_keeps (hWrite k) 1 options)
    fun _ => dialogue_askUntil_keeps (fun base base' k _ => ?_) ()
  refine .bind (readLine_takes hDeaf _ base base' k) (fun line => ?_) fun j line hText => ?_
  · cases line with
    | modeSwitch => exact fun _ => id
    | text answer =>
      dsimp only
      split
      · exact fun _ => id
      · have hAgain : ∀ text, Dialogue.Keeps (lineEnds o all ending ending' 0)
            (Terminal.write text >>= fun _ => pure (Sum.inl () : Unit ⊕ Nat))
            (write text >>= fun _ => pure (Sum.inl ())) :=
          fun text => .bind (hWrite 0 text) fun _ => .pure rfl
        exact (hAgain _ base base').loses
  · obtain ⟨answer, rfl⟩ := hText
    dsimp only
    split
    · exact .pure rfl
    · exact .bind (hWrite j _ base base') fun _ => .pure rfl

theorem pollKey_loses (r : Recorded Annotated) :
    ((Terminal.pollKey : Dialogue Annotated Error _).run r).2.peer.taken.keys ≠ [] := by
  rw [Annotated.pollKey_run]
  exact List.cons_ne_nil _ _

theorem lineEnds_bond (hDeaf : o.Deaf) : (lineEnds o all ending ending' k).Bond where
  write _ := between_keeps_of_sends leftOf_steady sendAll_ends
  writeBytes _ := between_keeps_of_sends leftOf_steady (sendAndFlush_ends hDeaf)
  readLine := readLine_accords hDeaf
  select := select_keeps hDeaf fun _ _ => between_keeps_of_sends leftOf_steady sendAll_ends

theorem lineEnds_keys (hDeaf : o.Deaf) : (lineEnds o all ending ending' k).Keys :=
  (lineEnds_bond hDeaf).keys_of_lost pollKey_loses

end Console

end BusBench
