import BusBench.Proofs.Terminals.Lines

/-!
# The announcement in the middle of a line

Twenty zeros in a row after the start of a line are the announcement of the binary protocol. They
give up the line, and just they and what was typed before them are taken from the arrivals.

* `Console.Announces`: a line that is begun, and the announcement.
* `Console.scan_of_announces`: how it is read.
* `Console.Awaited.of_announces`: what a wait for a line comes to where it arrives.
-/

namespace BusBench.Console

variable {S : Type} {o : Observer S} {s : S} {console : Console} {arrivals rest : List Arrival}
  {detector : Detector} {afterReturn : Bool} {line : List Char} {b : UInt8}

/-! ## Lines that are begun -/

/-- Bytes that begin a line: no line end is among them but for a line feed that belongs to the line
before, and not so many zeros in a row as announce the binary protocol. -/
structure Begun (afterReturn : Bool) (bytes : List UInt8) : Prop where
  unfinished : ∃ typed : List UInt8, (bytes.filter (· ≠ 0) = typed ∨
    afterReturn = true ∧ bytes.filter (· ≠ 0) = 0x0A :: typed) ∧ 0x0D ∉ typed ∧ 0x0A ∉ typed
  few_zeros : ¬ List.replicate announcementLength 0 <:+: bytes
  last : bytes.getLast? ≠ some 0

/-- A line is begun, then the binary protocol is announced, and this is what arrives after it. -/
def Announces (console : Console) (rest : List Arrival) : Prop :=
  ∃ typed zeros, console.link.incoming = typed ++ zeros ++ .byte 0 :: rest ∧
    Begun console.afterReturn (bytesOf typed) ∧
    bytesOf zeros ++ [0] = List.replicate announcementLength 0

theorem not_announces_of_nil (h : console.link.incoming = []) : ¬ Announces console rest := by
  rintro ⟨typed, zeros, hIncoming, -, -⟩
  simp [h] at hIncoming

namespace Begun

variable {z : Nat} {bytes : List UInt8}

theorem zeros_lt (h : Begun afterReturn (List.replicate z 0 ++ 0 :: bytes)) :
    z + 1 < announcementLength := by
  refine Nat.lt_of_not_le fun hMany => h.few_zeros ?_
  have hZeros : List.replicate announcementLength (0 : UInt8) <+: List.replicate (z + 1) 0 :=
    List.prefix_replicate_iff.mpr ⟨by simpa using hMany, by simp⟩
  refine hZeros.isInfix.trans ⟨[], bytes, ?_⟩
  rw [List.replicate_succ']
  simp

theorem data (hData : b ≠ 0) (h : Begun afterReturn (List.replicate z 0 ++ b :: bytes)) :
    b ≠ 0x0D ∧ (b = 0x0A → afterReturn = true) ∧ Begun false bytes := by
  have hSuffix : b :: bytes <:+ List.replicate z 0 ++ b :: bytes := List.suffix_append _ _
  have hFilter : (List.replicate z 0 ++ b :: bytes).filter (· ≠ 0) =
      b :: bytes.filter (· ≠ 0) := by
    simp [hData]
  have hRest : bytes <:+: List.replicate z 0 ++ b :: bytes :=
    ((List.suffix_cons b bytes).trans hSuffix).isInfix
  have hBegun : 0x0D ∉ bytes.filter (· ≠ 0) → 0x0A ∉ bytes.filter (· ≠ 0) →
      Begun false bytes := by
    intro hReturn hFeed
    refine ⟨⟨_, .inl rfl, hReturn, hFeed⟩, fun hZeros => h.few_zeros (hZeros.trans hRest),
      fun hLast => h.last ?_⟩
    rw [List.getLast?_append, List.getLast?_cons, hLast]
    rfl
  obtain ⟨typed, hTyped, hReturn, hFeed⟩ := h.unfinished
  rw [hFilter] at hTyped
  rcases hTyped with rfl | ⟨hAfter, hTyped⟩
  · rw [List.mem_cons, not_or] at hReturn hFeed
    exact ⟨fun h => hReturn.1 h.symm, fun h => absurd h.symm hFeed.1, hBegun hReturn.2 hFeed.2⟩
  · obtain ⟨rfl, rfl⟩ := List.cons_eq_cons.mp hTyped
    exact ⟨by decide, fun _ => hAfter, hBegun hReturn hFeed⟩

end Begun

theorem edit_of_begun (line : List Char) (hReturn : b ≠ 0x0D)
    (hFeed : b = 0x0A → afterReturn = true) :
    ∃ line' echo, edit afterReturn line b = .continue line' echo := by
  unfold edit
  split
  · exact ⟨_, _, rfl⟩
  · next hFirst =>
    rw [if_neg (not_or.mpr ⟨hReturn, fun h => hFirst ⟨h, hFeed h⟩⟩)]
    split
    · split
      · exact ⟨_, _, rfl⟩
      · exact ⟨_, _, rfl⟩
    · split
      · exact ⟨_, _, rfl⟩
      · exact ⟨_, _, rfl⟩

/-- The typed part of a line leaves nothing of itself but what the line editor keeps. -/
theorem scan_of_begun {typed : List Arrival} {z : Nat} (line : List Char) (rest : List Arrival)
    (h : Begun afterReturn (List.replicate z 0 ++ bytesOf typed)) :
    ∃ afterReturn' line' echo, scan ⟨z⟩ afterReturn line (typed ++ rest) =
      (scan {} afterReturn' line' rest).behind echo := by
  -- The zeros that the detector has counted still belong to the line that is begun.
  induction typed generalizing z afterReturn line with
  | nil =>
    cases z with
    | zero => exact ⟨_, _, [], rfl⟩
    | succ z => exact absurd (by simp [bytesOf, List.getLast?_replicate]) h.last
  | cons arrival typed ih =>
    cases arrival with
    | pause => exact ih line h
    | byte b =>
      simp only [bytesOf] at h
      by_cases hZero : b = 0
      · subst hZero
        have hLess := h.zeros_lt
        have hFeed : Detector.feed 0 ⟨z⟩ = (.nothing, ⟨z + 1⟩) := by
          simp only [Detector.feed, ne_eq, not_true_eq_false, if_false]
          rw [if_neg (Nat.not_le.mpr hLess)]
        have hBegun : Begun afterReturn (List.replicate (z + 1) 0 ++ bytesOf typed) := by
          rw [List.replicate_succ', List.append_assoc]
          exact h
        obtain ⟨afterReturn', line', echo, hScan⟩ := ih line hBegun
        refine ⟨afterReturn', line', echo, ?_⟩
        simp only [List.cons_append, scan, hFeed]
        exact hScan
      · obtain ⟨hReturn, hLineFeed, hBegun⟩ := h.data hZero
        have hFeed : Detector.feed b ⟨z⟩ = (.data b, {}) := if_pos hZero
        obtain ⟨mid, echo, hEdit⟩ := edit_of_begun line hReturn hLineFeed
        obtain ⟨afterReturn', line', echo', hScan⟩ := ih (z := 0) mid hBegun
        refine ⟨afterReturn', line', echo ++ echo', ?_⟩
        simp only [List.cons_append, scan, hFeed, hEdit, hReturn, decide_false]
        rw [hScan, Reading.behind_behind]

theorem scan_of_zeros {zeros : List Arrival} {z n : Nat} (h : bytesOf zeros = List.replicate n 0)
    (hFew : z + n < announcementLength) :
    scan ⟨z⟩ afterReturn line (zeros ++ rest) = scan ⟨z + n⟩ afterReturn line rest := by
  induction zeros generalizing z n with
  | nil =>
    obtain rfl : n = 0 := by simpa [bytesOf] using h
    rfl
  | cons arrival zeros ih =>
    cases arrival with
    | pause => exact ih h hFew
    | byte b =>
      cases n with
      | zero => cases h
      | succ n =>
        obtain ⟨rfl, hZeros⟩ := List.cons_eq_cons.mp h
        have hFeed : Detector.feed 0 ⟨z⟩ = (.nothing, ⟨z + 1⟩) := by
          simp only [Detector.feed, ne_eq, not_true_eq_false, if_false]
          rw [if_neg (by omega)]
        simp only [List.cons_append, scan, hFeed]
        rw [ih hZeros (by omega), Nat.add_assoc, Nat.add_comm 1]

/-- The announcement gives up the line, and what arrives after it is untouched. -/
theorem scan_of_announces (line : List Char) (h : Announces console rest) :
    ∃ afterReturn' echo, scan {} console.afterReturn line console.link.incoming =
      ⟨some .modeSwitch, rest, {}, afterReturn', echo⟩ := by
  obtain ⟨typed, zeros, hIncoming, hBegun, hZeros⟩ := h
  have hNineteen : bytesOf zeros = List.replicate 19 0 :=
    List.append_cancel_right (hZeros.trans List.replicate_succ')
  obtain ⟨afterReturn', line', echo, hTyped⟩ :=
    scan_of_begun (z := 0) line (zeros ++ .byte 0 :: rest) hBegun
  have hAnnouncement : scan {} afterReturn' line' (zeros ++ .byte 0 :: rest) =
      ⟨some .modeSwitch, rest, {}, afterReturn', []⟩ :=
    (scan_of_zeros (z := 0) hNineteen (by decide)).trans rfl
  refine ⟨afterReturn', echo, ?_⟩
  rw [hIncoming, List.append_assoc]
  refine hTyped.trans ?_
  rw [hAnnouncement, Reading.behind, List.append_nil]

/-! ## Waits -/

/-- No zero has been heard that could belong to an announcement, or nothing is still to arrive. -/
def Settled (console : Console) : Prop :=
  console.detector = {} ∨ console.link.incoming = []

/-- A line that is read to its end leaves no zeros behind. -/
theorem detector_scan_of_text {chars : List Char}
    (h : (scan detector afterReturn line arrivals).line? = some (.text chars)) :
    (scan detector afterReturn line arrivals).detector = {} := by
  fun_induction scan detector afterReturn line arrivals with
  | case1 | case4 => cases h
  | case2 detector afterReturn line rest ih => exact ih h
  | case3 detector afterReturn line rest b after hFeed ih => exact ih h
  | case5 detector afterReturn line rest b byte after hFeed hEdit =>
    unfold Detector.feed at hFeed
    split at hFeed
    · cases hFeed
      rfl
    · split at hFeed
      · cases hFeed
      · cases hFeed
  | case6 detector afterReturn line rest b byte after hFeed line' echo hEdit ih => exact ih h

theorem rest_scan_of_none (h : (scan detector afterReturn line arrivals).line? = none) :
    (scan detector afterReturn line arrivals).rest = [] := by
  fun_induction scan detector afterReturn line arrivals with
  | case1 => rfl
  | case4 | case5 => cases h
  | case2 detector afterReturn line rest ih => exact ih h
  | case3 detector afterReturn line rest b after hFeed ih => exact ih h
  | case6 detector afterReturn line rest b byte after hFeed line' echo hEdit ih => exact ih h

namespace Awaited

variable {r : Except Error Line} {after : Console} {s' : S}

theorem settled (h : Awaited o s (scan detector afterReturn line arrivals) r after s')
    (hTalking : r ≠ .ok .modeSwitch) : after.Settled := by
  have hLine := congrArg Reading.line? h.reading
  rcases r with e | chars | -
  · exact .inr ((congrArg Reading.rest h.reading).symm.trans (rest_scan_of_none hLine))
  · exact .inl ((congrArg Reading.detector h.reading).symm.trans (detector_scan_of_text hLine))
  · exact absurd rfl hTalking

/-- A wait in which the binary protocol is announced ends with the announcement. -/
theorem of_announces
    (h : Awaited o s (scan console.detector console.afterReturn line console.link.incoming) r after
      s') (hSettled : console.Settled) (hAnnounces : Announces console rest) :
    r = .ok .modeSwitch ∧ after.link.incoming = rest := by
  have hDetector : console.detector = {} :=
    hSettled.resolve_right fun hNone => not_announces_of_nil hNone hAnnounces
  obtain ⟨afterReturn', echo, hScan⟩ := scan_of_announces line hAnnounces
  have hReading := h.reading
  rw [hDetector, hScan] at hReading
  simp only [Reading.of, Reading.mk.injEq] at hReading
  obtain ⟨hLine, hRest, -, -, -⟩ := hReading
  refine ⟨?_, hRest.symm⟩
  cases r with
  | error e => cases hLine
  | ok line => exact congrArg Except.ok (Option.some.inj hLine).symm

end Awaited

end BusBench.Console
