import BusBench.Proofs.Terminals.LineEnds

/-!
# Line ends of one byte, and keys

Where the one host sends a carriage return and the other a line feed, in the same place among lines,
keys and pauses, consoles give the same lines and the same keys, as long as no end of a line is
taken for a key.

* `Console.Respelled`: the same is to arrive, with one end of a line for the other.
* `Taken.Sorted`: ends of lines were taken for lines, and only they.
* `Console.scan_respell`: what is made of such arrivals.
* `Console.respelled`, `Console.respelled_bond`, `Console.respelled_keys`: consoles in accord.
-/

namespace BusBench

/-- The two ends of a line that are one byte. -/
inductive Marks : UInt8 → UInt8 → Prop
  | returnToFeed : Marks 0x0D 0x0A
  | feedToReturn : Marks 0x0A 0x0D

/-- An arrival with the second end of a line for the first. -/
def Arrival.respell (mark mark' : UInt8) (arrival : Arrival) : Arrival :=
  if arrival = .byte mark then .byte mark' else arrival

/-- No end of a line was taken for a key. Nothing was taken for a line that would end it for the one
host but not for the other, or that announces the binary protocol. -/
structure Taken.Sorted (mark mark' : UInt8) (taken : Taken) : Prop where
  keys : some (.byte mark) ∉ taken.keys
  zeros : .byte 0 ∉ taken.lines
  others : .byte mark' ∉ taken.lines

instance (mark mark' : UInt8) (taken : Taken) : Decidable (taken.Sorted mark mark') :=
  decidable_of_iff (some (.byte mark) ∉ taken.keys ∧ .byte 0 ∉ taken.lines ∧
    .byte mark' ∉ taken.lines) ⟨fun h => ⟨h.1, h.2.1, h.2.2⟩, fun h => ⟨h.1, h.2, h.3⟩⟩

/-- What was taken is not taken back. -/
theorem Taken.Sorted.mono {mark mark' : UInt8} {before after : Taken}
    (h : after.Sorted mark mark') (hLines : before.lines ⊆ after.lines)
    (hKeys : before.keys ⊆ after.keys) : before.Sorted mark mark' :=
  ⟨fun hMem => h.keys (hKeys hMem), fun hMem => h.zeros (hLines hMem),
    fun hMem => h.others (hLines hMem)⟩

namespace Console

open Annotated (Steady between between_accords between_keeps_of_sends)

variable {S : Type} {o : Observer S} {s : S} {mark mark' b : UInt8}
  {afterReturn afterReturn' : Bool} {line : List Char} {arrivals : List Arrival}
  {console console' : Console}

/-! ## Arrivals -/

/-- A wait takes something, if there is anything. -/
theorem scan_rest_suffix (detector : Detector) (afterReturn : Bool) (line : List Char)
    (arrivals : List Arrival) :
    (scan detector afterReturn line arrivals).rest <:+ arrivals.tail := by
  induction arrivals generalizing detector afterReturn line with
  | nil => exact List.suffix_rfl
  | cons arrival arrivals ih =>
    have hLater : ∀ detector afterReturn line,
        (scan detector afterReturn line arrivals).rest <:+ arrivals :=
      fun detector afterReturn line =>
        (ih detector afterReturn line).trans (List.tail_suffix arrivals)
    cases arrival with
    | pause => exact hLater ..
    | byte b =>
      unfold scan
      generalize detector.feed b = fed
      obtain ⟨_ | byte | _, detector⟩ := fed
      · exact hLater ..
      · dsimp only
        cases edit afterReturn line byte with
        | finish => exact List.suffix_rfl
        | «continue» line echo => exact hLater ..
      · exact List.suffix_rfl

/-- What a wait takes of the arrivals. -/
def scanned (afterReturn : Bool) (line : List Char) (arrivals : List Arrival) : List Arrival :=
  arrivals.take (arrivals.length - (scan {} afterReturn line arrivals).rest.length)

theorem scanned_cons (afterReturn : Bool) (line : List Char) (arrival : Arrival)
    (arrivals : List Arrival) : scanned afterReturn line (arrival :: arrivals) =
      arrival :: arrivals.take
        (arrivals.length - (scan {} afterReturn line (arrival :: arrivals)).rest.length) := by
  have hLess := (scan_rest_suffix {} afterReturn line (arrival :: arrivals)).length_le
  rw [List.tail_cons] at hLess
  rw [scanned, List.length_cons, Nat.succ_sub hLess, List.take_succ_cons]

theorem respell_byte (mark mark' b : UInt8) :
    Arrival.respell mark mark' (.byte b) = .byte (if b = mark then mark' else b) := by
  unfold Arrival.respell
  by_cases h : b = mark
  · rw [if_pos h, if_pos (congrArg Arrival.byte h)]
  · rw [if_neg h, if_neg fun hByte => h (Arrival.byte.inj hByte)]

/-! ## Lines -/

/-- It matters only to a line feed what stood before it. -/
theorem edit_eq_of_ne (hFeed : b ≠ 0x0A) (afterReturn afterReturn' : Bool) (line : List Char) :
    edit afterReturn line b = edit afterReturn' line b := by
  have hOther : ∀ returned : Bool, ¬ (b = 0x0A ∧ returned = true) := fun _ h => hFeed h.1
  unfold edit
  rw [if_neg (hOther afterReturn), if_neg (hOther afterReturn')]

theorem edit_ne_finish (hReturn : b ≠ 0x0D) (hFeed : b ≠ 0x0A) (line : List Char) :
    edit afterReturn line b ≠ .finish := by
  unfold edit
  rw [if_neg fun h => hFeed h.1, if_neg (not_or.mpr ⟨hReturn, hFeed⟩)]
  split
  · cases line <;> exact nofun
  · split <;> exact nofun

theorem edit_mark (hEnd : b = 0x0D ∨ b = 0x0A) (h : b = 0x0A → afterReturn = false)
    (line : List Char) : edit afterReturn line b = .finish := by
  rcases hEnd with rfl | rfl
  · rfl
  · rw [h rfl]
    rfl

theorem Marks.ends (h : Marks mark mark') :
    (mark = 0x0D ∨ mark = 0x0A) ∧ (mark' = 0x0D ∨ mark' = 0x0A) ∧ mark ≠ 0 ∧ mark' ≠ 0 ∧
      ∀ b, b ≠ mark → b ≠ mark' → b ≠ 0x0D ∧ b ≠ 0x0A := by
  cases h with
  | returnToFeed => exact ⟨.inl rfl, .inr rfl, by decide, by decide, fun b h h' => ⟨h, h'⟩⟩
  | feedToReturn => exact ⟨.inr rfl, .inl rfl, by decide, by decide, fun b h h' => ⟨h', h⟩⟩

/-- The same is made of both, and neither is left with a line feed that may belong to the line
before. -/
theorem scan_respell (hMarks : Marks mark mark') (h : mark = 0x0A → afterReturn = false)
    (h' : mark' = 0x0A → afterReturn' = false)
    (hSorted : ∀ arrival ∈ scanned afterReturn line arrivals,
      arrival ≠ .byte 0 ∧ arrival ≠ .byte mark') :
    ∃ last last', (mark = 0x0A → last = false) ∧ (mark' = 0x0A → last' = false) ∧
      ∃ line? rest echo, line? ≠ some .modeSwitch ∧
        scan {} afterReturn line arrivals = ⟨line?, rest, {}, last, echo⟩ ∧
        scan {} afterReturn' line (arrivals.map (.respell mark mark')) =
          ⟨line?, rest.map (.respell mark mark'), {}, last', echo⟩ := by
  obtain ⟨hEnd, hEnd', hSome, hSome', hOthers⟩ := Marks.ends hMarks
  have hFeed : ∀ {b : UInt8}, b ≠ 0 → Detector.feed b {} = (.data b, {}) := fun hb => if_pos hb
  induction arrivals generalizing afterReturn afterReturn' line with
  | nil => exact ⟨afterReturn, afterReturn', h, h', none, [], [], nofun, rfl, rfl⟩
  | cons arrival arrivals ih =>
    rw [scanned_cons] at hSorted
    obtain ⟨hHere, hLater⟩ := List.forall_mem_cons.mp hSorted
    cases arrival with
    | pause => exact ih h h' hLater
    | byte b =>
      have hZero : b ≠ 0 := fun hb => hHere.1 (congrArg Arrival.byte hb)
      rw [List.map_cons, respell_byte]
      by_cases hMark : b = mark
      · subst hMark
        refine ⟨decide (b = 0x0D), decide (mark' = 0x0D), ?_, ?_, some (.text line.reverse),
          arrivals, [0x0D, 0x0A], nofun, ?_, ?_⟩
        · rintro rfl
          rfl
        · rintro rfl
          rfl
        · simp only [scan, hFeed hZero, edit_mark hEnd h]
        · simp only [scan, if_true, hFeed hSome', edit_mark hEnd' h']
      · have hOther : b ≠ mark' := fun hb => hHere.2 (congrArg Arrival.byte hb)
        obtain ⟨hReturn, hLine⟩ := hOthers b hMark hOther
        have hSame := edit_eq_of_ne hLine afterReturn' afterReturn line
        rw [if_neg hMark]
        simp only [scan, hFeed hZero, hSame, hReturn, decide_false] at hLater ⊢
        cases hEdit : edit afterReturn line b with
        | finish => exact absurd hEdit (edit_ne_finish hReturn hLine line)
        | «continue» line echo =>
          simp only [hEdit] at hLater
          obtain ⟨last, last', hLast, hLast', line?, rest, more, hLine?, hScan, hScan'⟩ :=
            ih (fun _ => rfl) (fun _ => rfl) hLater
          refine ⟨last, last', hLast, hLast', line?, rest, echo ++ more, hLine?, ?_, ?_⟩
          · exact congrArg (Reading.behind echo) hScan
          · exact congrArg (Reading.behind echo) hScan'

/-! ## The accord -/

/-- The same is to arrive at both, but for the ends of lines. -/
structure Respelled (mark mark' : UInt8) (console console' : Console) : Prop where
  isOpen : console.link.IsOpen
  isOpen' : console'.link.IsOpen
  detector : console.detector = {}
  detector' : console'.detector = {}
  incoming : console'.link.incoming = console.link.incoming.map (.respell mark mark')
  /-- A line feed does not belong to the line before it. -/
  unowed : mark = 0x0A → console.afterReturn = false
  unowed' : mark' = 0x0A → console'.afterReturn = false

/-- What arrives next may change on both in the same way. -/
theorem Respelled.with_link (h : Respelled mark mark' console console') {link link' : Link}
    (hOpen : link.IsOpen) (hOpen' : link'.IsOpen)
    (hIncoming : link'.incoming = link.incoming.map (.respell mark mark')) :
    Respelled mark mark' { console with link } { console' with link := link' } :=
  ⟨hOpen, hOpen', h.detector, h.detector', hIncoming, h.unowed, h.unowed'⟩

theorem respelled_steady : Steady (Respelled mark mark') where
  isOpen h := ⟨h.isOpen, h.isOpen'⟩
  with_link h hOpen hOpen' hIncoming hIncoming' :=
    h.with_link hOpen hOpen' (by rw [hIncoming, hIncoming', h.incoming])

/-- Consoles to which the same is to arrive, but for the ends of lines. -/
abbrev respelled (o : Observer S) (mark mark' : UInt8) : Accord Annotated Console :=
  between o (Respelled mark mark') (¬ Taken.Sorted mark mark' ·)

/-- The next line is the same. -/
theorem readLine_respelled (hDeaf : o.Deaf) (hMarks : Marks mark mark') (question : String) :
    Dialogue.Accords (respelled o mark mark') false (Terminal.readLine question)
      (readLine question) (respelled o mark mark').endsWith := by
  refine between_accords (fun annotated after hLost hSorted => hLost (hSorted.mono
    (List.subset_append_right _ _) (List.Subset.refl _))) fun annotated console s hSame => ?_
  refine (readLine_ends hDeaf hSame.isOpen question).mono fun r after t hAwaited =>
    (readLine_ends hDeaf hSame.isOpen' question).mono fun r' after' t' hAwaited' hKept => ?_
  have hSorted := Classical.not_not.mp hKept
  have hRest := congrArg Reading.rest hAwaited.reading
  rw [hSame.detector] at hAwaited hRest
  rw [hSame.detector', hSame.incoming] at hAwaited'
  have hTaken : ∀ arrival ∈
      scanned annotated.console.afterReturn [] annotated.console.link.incoming,
      arrival ≠ .byte 0 ∧ arrival ≠ .byte mark' := by
    intro arrival hArrival
    rw [scanned, hRest] at hArrival
    have hNoted := List.mem_append_left annotated.taken.lines hArrival
    refine ⟨?_, ?_⟩
    · rintro rfl
      exact hSorted.zeros hNoted
    · rintro rfl
      exact hSorted.others hNoted
  obtain ⟨last, last', hLast, hLast', line?, rest, echo, hLine, hScan, hScan'⟩ :=
    scan_respell hMarks hSame.unowed hSame.unowed' hTaken
  rw [hScan] at hAwaited
  rw [hScan'] at hAwaited'
  have hReading := hAwaited.reading
  have hReading' := hAwaited'.reading
  simp only [Reading.of, Reading.mk.injEq] at hReading hReading'
  obtain ⟨-, rfl, hDetector, rfl, -⟩ := hReading
  obtain ⟨-, hRest', hDetector', rfl, -⟩ := hReading'
  refine ⟨hAwaited.result_eq.trans hAwaited'.result_eq.symm, ?_, ⟨hAwaited.isOpen, hAwaited'.isOpen,
    hDetector.symm, hDetector'.symm, hRest'.symm, hLast, hLast'⟩,
    hAwaited.seen.trans hAwaited'.seen.symm⟩
  rw [hAwaited.result_eq]
  rcases line? with _ | ⟨chars | _⟩
  · rfl
  · rfl
  · exact absurd rfl hLine

/-- The next key is the same. -/
theorem pollKey_respelled (hDeaf : o.Deaf) :
    Dialogue.Keeps (respelled o mark mark') Terminal.pollKey pollKey := by
  refine between_accords (fun annotated after hLost hSorted => hLost (hSorted.mono
    (List.Subset.refl _) (List.subset_cons_self _ _))) fun annotated console s hSame => ?_
  refine pollKey_ends hDeaf hSame.isOpen fun link hOpen hRest =>
    pollKey_ends hDeaf hSame.isOpen' fun link' hOpen' hRest' hKept => ?_
  have hKey : annotated.console.link.incoming.head? ≠ some (.byte mark) := fun hKey =>
    (Classical.not_not.mp hKept).keys (List.mem_cons.mpr (.inl hKey.symm))
  rw [hSame.incoming] at hRest' ⊢
  generalize annotated.console.link.incoming = incoming at hKey hRest hRest' ⊢
  have hPolled : polled (incoming.map (.respell mark mark')) =
      ((polled incoming).1, (polled incoming).2.map (.respell mark mark')) := by
    rcases incoming with _ | ⟨b | _, rest⟩
    · rfl
    · have hOther : Arrival.respell mark mark' (.byte b) = .byte b :=
        if_neg fun hMark => hKey (congrArg some hMark)
      rw [List.map_cons, hOther]
      rfl
    · rfl
  rw [hPolled] at hRest' ⊢
  refine ⟨rfl, ?_, hSame.with_link hOpen hOpen' ?_, rfl⟩
  · rcases incoming with _ | ⟨_ | _, rest⟩
    · rfl
    · rfl
    · rfl
  · rw [hRest, hRest']

theorem respelled_poll (hDeaf : o.Deaf) : (respelled o mark mark').Poll where
  pollKey := pollKey_respelled hDeaf
  remaining h := by
    obtain ⟨-, hSame, -⟩ := h
    have hLength := congrArg List.length hSame.incoming
    rw [List.length_map] at hLength
    exact hLength.symm
  goesOn := rfl

theorem respelled_bond (hDeaf : o.Deaf) (hMarks : Marks mark mark') :
    (respelled o mark mark').Bond where
  write _ := between_keeps_of_sends respelled_steady sendAll_ends
  writeBytes _ := between_keeps_of_sends respelled_steady (sendAndFlush_ends hDeaf)
  readLine := readLine_respelled hDeaf hMarks
  select := (respelled_poll hDeaf).select
    (fun _ => between_keeps_of_sends respelled_steady sendAll_ends)
    (readLine_respelled hDeaf hMarks)

theorem respelled_keys (hDeaf : o.Deaf) (hMarks : Marks mark mark') :
    (respelled o mark mark').Keys :=
  (respelled_poll hDeaf).keys (respelled_bond hDeaf hMarks)

end Console

end BusBench
