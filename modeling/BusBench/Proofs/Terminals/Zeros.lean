import Mathlib.Data.List.Infix
import BusBench.Proofs.Terminals.Editing

/-!
# Zero bytes in a text

Zero bytes are no part of a text. Up to the twentieth in a row, a console that gets them does and
says what it would do and say without them; the twentieth ends the wait.

* `Detector.feed_after`: what the detector makes of a byte, after any history.
* `Tracks`: a wait among zero bytes, beside one without them.
* `zeros_unseen`: what zero bytes change, and what they do not.
-/

namespace BusBench

/-! ## The detector -/

namespace Detector

/-- What the detector knows after bytes and resets, which are `none`. -/
def after (history : List (Option UInt8)) : Detector :=
  history.foldl (fun detector step => step.elim {} fun b => (detector.feed b).2) {}

/-- How many zero bytes stand at the end of a history. -/
def zeroRun (history : List (Option UInt8)) : Nat :=
  (history.reverse.takeWhile (· == some 0)).length

theorem zeroRun_concat (history : List (Option UInt8)) (step : Option UInt8) :
    zeroRun (history ++ [step]) = if step = some 0 then zeroRun history + 1 else 0 := by
  rw [zeroRun, List.reverse_append, List.reverse_singleton, List.singleton_append,
    List.takeWhile_cons]
  by_cases hZero : step = some 0
  · simp [hZero, zeroRun]
  · simp [hZero]

theorem after_concat (history : List (Option UInt8)) (step : Option UInt8) :
    after (history ++ [step]) = step.elim {} fun b => ((after history).feed b).2 := by
  rw [after, List.foldl_append]
  rfl

/-- The detector counts the zero bytes since the last announcement. -/
theorem zeros_after (history : List (Option UInt8)) :
    (after history).zeros = zeroRun history % announcementLength := by
  induction history using List.reverseRecOn with
  | nil => rfl
  | append_singleton history step ih =>
    rw [after_concat, zeroRun_concat]
    cases step with
    | none => rfl
    | some b =>
      by_cases hZero : b = 0
      · subst hZero
        rw [if_pos rfl]
        simp only [Option.elim_some, feed, ne_eq, not_true_eq_false, if_false]
        unfold announcementLength at *
        split <;> simp only <;> omega
      · simp [feed, hZero]

/-- Other bytes pass the detector unchanged. Of the zero bytes every twentieth in a row announces
the binary protocol, and the others are swallowed. -/
theorem feed_after (history : List (Option UInt8)) (b : UInt8) :
    ((after history).feed b).1 =
      if b ≠ 0 then .data b
      else if (zeroRun history + 1) % announcementLength = 0 then .modeSwitch
      else .nothing := by
  have hZeros := zeros_after history
  unfold feed announcementLength at *
  by_cases hZero : b = 0
  · subst hZero
    simp only [ne_eq, not_true_eq_false, if_false]
    split <;> split <;> first | rfl | omega
  · rw [if_pos hZero, if_pos hZero]

end Detector

namespace Console

variable {d : Detector} {afterReturn : Bool} {line : List Char} {k : Nat}
  {front tail rest : List Arrival} {v w : Wait}

/-! ## Arrivals with and without zero bytes -/

/-- The arrivals without their zero bytes. -/
def dropZeros (arrivals : List Arrival) : List Arrival :=
  arrivals.filter (· != .byte 0)

/-- Whether some zero bytes in a row announce the binary protocol. -/
def HasRun (bytes : List UInt8) : Prop :=
  List.replicate announcementLength 0 <:+: bytes

instance (bytes : List UInt8) : Decidable (HasRun bytes) :=
  inferInstanceAs (Decidable (_ <:+: _))

/-- What was sent and when it was flushed. -/
def output (events : List PeerEvent) : List PeerEvent :=
  events.filter fun
    | .sent _ | .flushed => true
    | _ => false

theorem output_append (events more : List PeerEvent) :
    output (events ++ more) = output events ++ output more :=
  List.filter_append _ _

theorem bytesOf_append (arrivals more : List Arrival) :
    bytesOf (arrivals ++ more) = bytesOf arrivals ++ bytesOf more := by
  induction arrivals with
  | nil => rfl
  | cons arrival arrivals ih =>
    cases arrival with
    | pause => exact ih
    | byte b => exact congrArg (b :: ·) ih

theorem zero_not_mem_dropZeros (arrivals : List Arrival) : 0 ∉ bytesOf (dropZeros arrivals) := by
  induction arrivals with
  | nil => exact List.not_mem_nil
  | cons arrival arrivals ih =>
    cases arrival with
    | pause => exact ih
    | byte b =>
      by_cases hZero : b = 0
      · subst hZero
        exact ih
      · have hKept : dropZeros (.byte b :: arrivals) = .byte b :: dropZeros arrivals :=
          List.filter_cons_of_pos (by simpa using hZero)
        rw [hKept]
        exact fun hMem => (List.mem_cons.mp hMem).elim (fun h => hZero h.symm) ih

/-- Without zero bytes there are no twenty of them in a row. -/
theorem not_hasRun_of_not_mem {bytes : List UInt8} (h : 0 ∉ bytes) : ¬ HasRun bytes :=
  fun hRun => h (hRun.subset (by simp [announcementLength]))

/-- The last byte that makes the text announce the binary protocol is a zero byte. -/
theorem suffix_of_hasRun {bytes : List UInt8} {b : UInt8} (hBefore : ¬ HasRun bytes)
    (h : HasRun (bytes ++ [b])) :
    b = 0 ∧ List.replicate announcementLength 0 <:+ bytes ++ [b] := by
  have hSuffix := (List.infix_concat_iff.mp h).resolve_right hBefore
  refine ⟨?_, hSuffix⟩
  obtain ⟨lead, hLead⟩ := hSuffix
  have hLast := congrArg List.getLast? hLead
  simpa [announcementLength] using hLast.symm

/-- A text that announces the binary protocol does so at some byte for the first time. -/
theorem exists_first_announcement {arrivals : List Arrival} (h : HasRun (bytesOf arrivals)) :
    ∃ front rest, arrivals = front ++ .byte 0 :: rest ∧ ¬ HasRun (bytesOf front) ∧
      List.replicate announcementLength 0 <:+ bytesOf front ++ [0] := by
  induction arrivals using List.reverseRecOn with
  | nil => exact absurd h (by decide)
  | append_singleton arrivals arrival ih =>
    by_cases hBefore : HasRun (bytesOf arrivals)
    · obtain ⟨front, rest, rfl, hFront, hRun⟩ := ih hBefore
      exact ⟨front, rest ++ [arrival], by simp, hFront, hRun⟩
    · rw [bytesOf_append] at h
      cases arrival with
      | pause => exact absurd h (by simpa [bytesOf] using hBefore)
      | byte b =>
        obtain ⟨rfl, hRun⟩ := suffix_of_hasRun hBefore h
        exact ⟨arrivals, [], rfl, hBefore, hRun⟩

/-! ## One wait -/

/-- How many zero bytes have come in a row, with the bytes of further arrivals. -/
def pending (k : Nat) (arrivals : List Arrival) : List UInt8 :=
  List.replicate k 0 ++ bytesOf arrivals

/-- A wait `w` that is to go through `front` and `tail`, beside a wait `v` that gets `front` without
its zero bytes. The bytes of `front` stand behind `k` zero bytes and announce nothing. -/
inductive Tracks (k : Nat) (front tail : List Arrival) (v w : Wait) : Prop where
  /-- Both come to the same line, with some of `front` left over. -/
  | answered (text : List Char) (more : List Arrival) (gone : List UInt8)
    (resultLeft : v.result = .ok (.text text)) (resultRight : w.result = .ok (.text text))
    (afterReturn : w.afterReturn = v.afterReturn) (output : output w.events = output v.events)
    (restLeft : v.rest = dropZeros more) (restRight : w.rest = more ++ tail)
    (bytes : pending k front = gone ++ pending w.detector.zeros more)
    (run : ∀ b ∈ gone.getLast?, b ≠ 0)
  /-- `front` is not enough for `v`, and `w` goes on with `tail`. -/
  | waiting (zeros : Nat) (line : List Char) (before : List PeerEvent) (gone : List UInt8)
    (resultLeft : v.result = .error .link) (restLeft : v.rest = [])
    (output : output before = output v.events)
    (right : w = (wait ⟨zeros⟩ v.afterReturn line tail).behind before)
    (bytes : pending k front = gone ++ List.replicate zeros 0)
    (run : ∀ b ∈ gone.getLast?, b ≠ 0)

theorem getLast?_append_ne_zero {lead gone : List UInt8} (hLead : ∀ b ∈ lead.getLast?, b ≠ 0)
    (hGone : ∀ b ∈ gone.getLast?, b ≠ 0) : ∀ b ∈ (lead ++ gone).getLast?, b ≠ 0 := by
  intro b hb
  rw [List.getLast?_append] at hb
  cases hLast : gone.getLast? with
  | none =>
    rw [hLast] at hb
    exact hLead b hb
  | some c =>
    rw [hLast] at hb
    cases hb
    exact hGone _ hLast

/-- What comes before both waits only has to be the same to the host. -/
theorem Tracks.behind {k' : Nat} {front' : List Arrival} (h : Tracks k front tail v w)
    (first second : List PeerEvent) (hOutput : Console.output second = Console.output first)
    (lead : List UInt8) (hLead : ∀ b ∈ lead.getLast?, b ≠ 0)
    (hBytes : pending k' front' = lead ++ pending k front) :
    Tracks k' front' tail (v.behind first) (w.behind second) := by
  cases h with
  | answered text more gone hLeft hRight hReturn hEvents hRest hRest' hGone hRun =>
    refine .answered text more (lead ++ gone) hLeft hRight hReturn ?_ hRest hRest' ?_
      (getLast?_append_ne_zero hLead hRun)
    · simp only [Wait.behind, output_append, hOutput, hEvents]
    · rw [hBytes, hGone, List.append_assoc]
      rfl
  | waiting zeros line before gone hLeft hRest hEvents hRight hGone hRun =>
    refine .waiting zeros line (second ++ before) (lead ++ gone) hLeft hRest ?_ ?_ ?_
      (getLast?_append_ne_zero hLead hRun)
    · simp only [Wait.behind, output_append, hOutput, hEvents]
    · rw [hRight]
      simp only [Wait.behind, List.append_assoc]
    · rw [hBytes, hGone, List.append_assoc]

theorem pending_zero (k : Nat) (front : List Arrival) :
    pending k (.byte 0 :: front) = pending (k + 1) front := by
  rw [pending, pending, List.replicate_succ', List.append_assoc]
  rfl

/-- A zero byte is only counted, as long as it is no announcement. -/
theorem feed_zero (h : ¬ HasRun (pending k (.byte 0 :: front))) :
    (⟨k⟩ : Detector).feed 0 = (.nothing, ⟨k + 1⟩) := by
  have hFew : ¬ announcementLength ≤ k + 1 := by
    intro hMany
    obtain ⟨more, hMore⟩ := Nat.exists_eq_add_of_le hMany
    refine h ?_
    rw [pending_zero, pending, hMore, List.replicate_add, List.append_assoc]
    exact (List.prefix_append _ _).isInfix
  simp only [Detector.feed, ne_eq, not_true_eq_false, if_false, if_neg hFew]

/-- Up to the first announcement, a wait is tracked by one that gets no zero bytes. -/
theorem wait_tracks (h : ¬ HasRun (pending k front)) (d : Detector) (tail : List Arrival) :
    Tracks k front tail (wait d afterReturn line (dropZeros front))
      (wait ⟨k⟩ afterReturn line (front ++ tail)) := by
  induction front generalizing k d afterReturn line with
  | nil =>
    exact .waiting k line [] [] rfl rfl rfl rfl (List.append_nil _) nofun
  | cons arrival front ih =>
    cases arrival with
    | pause =>
      exact (ih h d).behind [.idle] [.idle] rfl [] nofun rfl
    | byte b =>
      by_cases hZero : b = 0
      · subst hZero
        have hFeed := feed_zero h
        rw [pending_zero] at h
        simp only [List.cons_append, wait, hFeed]
        exact (ih h d).behind [] [.received 0] rfl [] nofun (pending_zero k front)
      · have hKept : dropZeros (.byte b :: front) = .byte b :: dropZeros front :=
          List.filter_cons_of_pos (by simpa using hZero)
        have hFeed : ∀ d : Detector, d.feed b = (.data b, ⟨0⟩) := fun d => if_pos hZero
        have hBytes : pending k (.byte b :: front) =
            (List.replicate k 0 ++ [b]) ++ pending 0 front := by simp [pending, bytesOf]
        have hLead : ∀ c ∈ (List.replicate k 0 ++ [b]).getLast?, c ≠ 0 := by
          intro c hc
          rw [List.getLast?_concat] at hc
          cases hc
          exact hZero
        rw [hKept]
        simp only [List.cons_append, wait, hFeed]
        cases edit afterReturn line b with
        | finish => exact .answered _ front _ rfl rfl rfl rfl rfl rfl hBytes hLead
        | «continue» line' echo =>
          have hMore : ¬ HasRun (pending 0 front) := by
            rw [hBytes] at h
            exact fun hRun => h (hRun.trans (List.suffix_append _ _).isInfix)
          exact (ih hMore ⟨0⟩).behind _ _ rfl _ hLead hBytes

/-! ## One question after the other -/

/-- What the host sees of a call. -/
def Call.outcome (call : Call) : Except Error Line × List PeerEvent :=
  (call.result, output call.events)

/-- Two calls of one question look the same to the host where their waits do. -/
theorem outcome_eq {left right : Call} (hLeft : left.Follows v) (hRight : right.Follows w)
    (hQuestion : left.question = right.question) (hResult : v.result = w.result)
    (hOutput : output v.events = output w.events) : left.outcome = right.outcome := by
  unfold Call.outcome
  rw [hLeft.result, hRight.result, hLeft.events, hRight.events, output_append, output_append,
    hQuestion, hResult, hOutput]

/-- A console that gets `front` and `tail`, beside one that gets `front` without its zero bytes. -/
structure Beside (front tail : List Arrival) (plain console : Console) : Prop where
  openLeft : plain.link.IsOpen
  openRight : console.link.IsOpen
  incomingLeft : plain.link.incoming = dropZeros front
  incomingRight : console.link.incoming = front ++ tail
  afterReturn : console.afterReturn = plain.afterReturn
  quiet : ¬ HasRun (pending console.detector.zeros front)

variable {plain console : Console} {previous : Option UInt8}

theorem Beside.tracks (h : Beside front tail plain console) :
    Tracks console.detector.zeros front tail plain.next console.next := by
  rw [next, next, h.incomingLeft, h.incomingRight, h.afterReturn]
  exact wait_tracks h.quiet _ _

/-- A line that the one console returns is returned by the other too. -/
theorem Beside.call_answered (h : Beside front tail plain console) (question : String)
    {result : Line} (hResult : plain.next.result = .ok result) :
    (call question plain).outcome = (call question console).outcome ∧ ∃ more gone,
      Beside more tail (call question plain).after (call question console).after ∧
      pending console.detector.zeros front =
        gone ++ pending (call question console).after.detector.zeros more ∧
      ∀ b ∈ gone.getLast?, b ≠ 0 := by
  have hLeft := call_follows h.openLeft question
  have hRight := call_follows h.openRight question
  cases h.tracks with
  | waiting zeros line before gone hError =>
    rw [hError] at hResult
    cases hResult
  | answered text more gone hText hText' hReturn hOutput hRest hRest' hBytes hRun =>
    rw [← hRight.detector] at hBytes
    refine ⟨outcome_eq hLeft hRight rfl (hText.trans hText'.symm) hOutput.symm, more, gone,
      ⟨hLeft.isOpen, hRight.isOpen, hLeft.rest.trans hRest, hRight.rest.trans hRest', ?_, ?_⟩,
      hBytes, hRun⟩
    · rw [hRight.afterReturn, hLeft.afterReturn, hReturn]
    · have hQuiet := h.quiet
      rw [hBytes] at hQuiet
      exact fun hMore => hQuiet (hMore.trans (List.suffix_append _ _).isInfix)

/-- Where nothing else arrives, the other console does not return a line either. -/
theorem Beside.call_unanswered (h : Beside front [] plain console) (question : String)
    {e : Error} (hError : plain.next.result = .error e) :
    (call question plain).outcome = (call question console).outcome ∧
      Beside [] [] (call question plain).after (call question console).after := by
  have hLeft := call_follows h.openLeft question
  have hRight := call_follows h.openRight question
  cases h.tracks with
  | answered text more gone hText =>
    rw [hText] at hError
    cases hError
  | waiting zeros line before gone hLink hRest hOutput hNext hBytes hRun =>
    have hSame : output plain.next.events = output console.next.events := by
      rw [hNext, Wait.behind, output_append, hOutput]
      exact (List.append_nil _).symm
    have hResult : console.next.result = .error .link := by rw [hNext]; rfl
    refine ⟨outcome_eq hLeft hRight rfl (hLink.trans hResult.symm) hSame,
      hLeft.isOpen, hRight.isOpen, hLeft.rest.trans hRest, ?_, ?_, ?_⟩
    · rw [hRight.rest, hNext]
      rfl
    · rw [hRight.afterReturn, hLeft.afterReturn, hNext]
      rfl
    · rw [hRight.detector, hNext]
      have hQuiet := h.quiet
      rw [hBytes] at hQuiet
      rw [pending, bytesOf, List.append_nil]
      exact fun hMore => hQuiet (hMore.trans (List.suffix_append _ _).isInfix)

/-- Without an announcement, zero bytes change nothing. -/
theorem Beside.calls_outcome (h : Beside front [] plain console) (questions : List String) :
    (calls questions plain).map Call.outcome = (calls questions console).map Call.outcome := by
  induction questions generalizing front plain console with
  | nil => rfl
  | cons question questions ih =>
    rw [calls, calls, List.map_cons, List.map_cons]
    cases hResult : plain.next.result with
    | ok result =>
      obtain ⟨hOutcome, more, gone, hAfter, -, -⟩ := h.call_answered question hResult
      rw [hOutcome, ih hAfter]
    | error e =>
      obtain ⟨hOutcome, hAfter⟩ := h.call_unanswered question hResult
      rw [hOutcome, ih hAfter]

/-! ## The announcement -/

/-- A run of zero bytes does not reach past another byte. -/
theorem run_suffix {n : Nat} {gone bytes : List UInt8} (hGone : ∀ b ∈ gone.getLast?, b ≠ 0)
    (h : List.replicate n 0 <:+ gone ++ bytes) : List.replicate n 0 <:+ bytes := by
  rcases List.eq_nil_or_concat' gone with rfl | ⟨front, b, rfl⟩
  · exact h
  have hb : b ≠ 0 := hGone b (List.getLast?_concat ..)
  obtain ⟨lead, hLead⟩ := h
  rw [List.append_assoc] at hLead
  have hNotMem : b ∉ List.replicate n 0 := fun hMem => hb (List.eq_of_mem_replicate hMem)
  rcases List.append_eq_append_iff.mp hLead with ⟨between, rfl, hRun⟩ | ⟨between, rfl, hRun⟩
  · refine absurd ?_ hNotMem
    rw [hRun]
    simp
  · cases between with
    | nil =>
      refine absurd ?_ hNotMem
      rw [← List.nil_append (List.replicate n 0), ← hRun]
      simp
    | cons c between =>
      obtain ⟨-, hBytes⟩ := List.cons_eq_cons.mp hRun
      exact ⟨between, hBytes.symm⟩

/-- What becomes of the wait in which the announcement comes: it ends with the twentieth zero byte,
and what was sent is what is sent for the text before it. -/
structure Switched (rest : List Arrival) (made part whole : Call) : Prop where
  result : made.result = .ok .modeSwitch
  rest : made.after.link.incoming = rest
  detector : made.after.detector = {}
  unfinished : part.result = .error .link
  sent : output made.events = output part.events
  agrees : output part.events <+: output whole.events

variable {part whole : Console} {front' tail' : List Arrival}

theorem Beside.call_switched (h : Beside front (.byte 0 :: rest) part console)
    (hWhole : Beside front' tail' part whole)
    (hRun : List.replicate announcementLength 0 <:+ pending console.detector.zeros front ++ [0])
    {e : Error} (hError : part.next.result = .error e) (question : String) :
    Switched rest (call question console) (call question part) (call question whole) := by
  have hPartCall := call_follows h.openLeft question
  have hCall := call_follows h.openRight question
  have hWholeCall := call_follows hWhole.openRight question
  cases h.tracks with
  | answered text more gone hText =>
    rw [hText] at hError
    cases hError
  | waiting zeros line before gone hLink hNone hOutput hNext hBytes hGone =>
    cases hWhole.tracks with
    | answered text more gone hText =>
      rw [hText] at hError
      cases hError
    | waiting zeros' line' before' gone' hLink' hNone' hOutput' hNext' hBytes' hGone' =>
      -- The zero bytes at the end of `front` are one less than an announcement.
      have hMany : announcementLength ≤ zeros + 1 := by
        rw [hBytes, List.append_assoc, ← List.replicate_succ'] at hRun
        have hLength := (run_suffix hGone hRun).length_le
        rwa [List.length_replicate, List.length_replicate] at hLength
      have hFeed : (⟨zeros⟩ : Detector).feed 0 = (.modeSwitch, ⟨0⟩) := by
        simp only [Detector.feed, ne_eq, not_true_eq_false, if_false, if_pos hMany]
      simp only [wait, hFeed] at hNext
      refine ⟨?_, ?_, ?_, hPartCall.result.trans hLink, ?_, ?_⟩
      · rw [hCall.result, hNext]
        rfl
      · rw [hCall.rest, hNext]
        rfl
      · rw [hCall.detector, hNext]
        rfl
      · rw [hCall.events, hPartCall.events, hNext, output_append, output_append, Wait.behind,
          output_append, hOutput]
        exact congrArg _ (List.append_nil _)
      · rw [hPartCall.events, hWholeCall.events, hNext', output_append, output_append, Wait.behind,
          output_append, hOutput']
        exact (List.prefix_append_right_inj _).mpr (List.prefix_append _ _)

/-- Before the announcement zero bytes change nothing, and it comes where it should. -/
theorem calls_switched (hPart : Attentive previous part)
    (h : Beside front (.byte 0 :: rest) part console) (hWhole : Beside front' tail' part whole)
    (hRun : List.replicate announcementLength 0 <:+ pending console.detector.zeros front ++ [0])
    (questions : List String) :
    let finished := (splitLines previous [] (bytesOf part.link.incoming)).length
    ((calls questions console).take finished).map Call.outcome =
        ((calls questions whole).take finished).map Call.outcome ∧
      ∀ made ∈ (calls questions console)[finished]?,
        ∃ inPart ∈ (calls questions part)[finished]?,
          ∃ inWhole ∈ (calls questions whole)[finished]?, Switched rest made inPart inWhole := by
  induction questions generalizing front front' part whole console previous with
  | nil =>
    refine ⟨by simp only [calls, List.take_nil, List.map_nil], fun made hMade => ?_⟩
    rw [calls, List.getElem?_nil] at hMade
    exact absurd hMade (Option.not_mem_none made)
  | cons question questions ih =>
    have hLines := hPart.entry.lines
    simp only [calls]
    cases hSplit : splitLines previous [] (bytesOf part.link.incoming) with
    | nil =>
      rw [hSplit] at hLines
      refine ⟨rfl, fun made hMade => ?_⟩
      obtain rfl : call question console = made := Option.some.inj hMade
      exact ⟨_, rfl, _, rfl, h.call_switched hWhole hRun hLines.1 question⟩
    | cons line lines =>
      rw [hSplit] at hLines
      obtain ⟨hResult, last, hLast, hMore⟩ := hLines
      have hFollows := call_follows hPart.isOpen question
      obtain ⟨hOutcome, more, gone, hAfter, hBytes, hGone⟩ := h.call_answered question hResult
      obtain ⟨hOutcome', more', -, hAfter', -, -⟩ := hWhole.call_answered question hResult
      rw [hBytes, List.append_assoc] at hRun
      obtain ⟨hFirst, hSwitch⟩ := ih (hPart.after question hLast) hAfter hAfter'
        (run_suffix hGone hRun)
      rw [hFollows.rest, hMore] at hFirst hSwitch
      refine ⟨?_, hSwitch⟩
      simp only [List.length_cons, List.take_succ_cons, List.map_cons]
      rw [← hOutcome, hOutcome', hFirst]

/-- A fresh console beside one that gets some of its arrivals without their zero bytes. -/
theorem beside_fresh (link : Link) (hOpen : link.IsOpen) (hIncoming : link.incoming = front ++ tail)
    (hQuiet : ¬ HasRun (bytesOf front)) :
    Beside front tail { link := { link with incoming := dropZeros front } } { link } :=
  ⟨⟨hOpen.sendLimit, hOpen.flushLimit⟩, hOpen, rfl, hIncoming, rfl, hQuiet⟩

theorem dropZeros_append (arrivals more : List Arrival) :
    dropZeros (arrivals ++ more) = dropZeros arrivals ++ dropZeros more :=
  List.filter_append _ _

theorem dropZeros_dropZeros (arrivals : List Arrival) :
    dropZeros (dropZeros arrivals) = dropZeros arrivals := by
  rw [dropZeros, dropZeros, List.filter_filter]
  simp

/-- Zero bytes are unseen, up to the twentieth in a row. Without so many, the answers and all that
is sent and flushed are the same as without any. Otherwise this holds of all questions that are
answered before the twentieth, and the question that is asked at that moment is answered by it: the
wait has read just this far, and has sent what is sent for the text before. The detector passes
other bytes on as they are, and counts the zero bytes since the last of them, reset or
announcement. -/
theorem zeros_unseen :
    (∀ link : Link, link.IsOpen → ∀ questions : List String,
      ¬ HasRun (bytesOf link.incoming) →
      (calls questions { link }).map Call.outcome =
        (calls questions { link := { link with incoming := dropZeros link.incoming } }).map
          Call.outcome) ∧
    (∀ link : Link, link.IsOpen → HasRun (bytesOf link.incoming) →
      ∃ front rest, link.incoming = front ++ .byte 0 :: rest ∧ ¬ HasRun (bytesOf front) ∧
        HasRun (bytesOf (front ++ [.byte 0])) ∧
        ∀ questions : List String,
          let made := calls questions { link }
          let part := calls questions { link := { link with incoming := dropZeros front } }
          let whole :=
            calls questions { link := { link with incoming := dropZeros link.incoming } }
          let finished := (splitLines none [] (bytesOf (dropZeros front))).length
          (made.take finished).map Call.outcome = (whole.take finished).map Call.outcome ∧
          ∀ call ∈ made[finished]?, ∃ inPart ∈ part[finished]?, ∃ inWhole ∈ whole[finished]?,
            Switched rest call inPart inWhole) ∧
    ∀ (history : List (Option UInt8)) (b : UInt8),
      ((Detector.after history).feed b).1 =
        (if b ≠ 0 then .data b
        else if (Detector.zeroRun history + 1) % announcementLength = 0 then .modeSwitch
        else .nothing) ∧
      (Detector.after history).zeros = Detector.zeroRun history % announcementLength ∧
      (Detector.after history).zeros < announcementLength := by
  refine ⟨fun link hOpen questions hQuiet => ?_, fun link hOpen hRun => ?_, fun history b => ?_⟩
  · have hBeside := beside_fresh link hOpen (List.append_nil link.incoming).symm hQuiet
    exact (hBeside.calls_outcome questions).symm
  · obtain ⟨front, rest, hIncoming, hQuiet, hTwentieth⟩ := exists_first_announcement hRun
    have hAnnounces : HasRun (bytesOf (front ++ [.byte 0])) := by
      rw [bytesOf_append]
      exact hTwentieth.isInfix
    refine ⟨front, rest, hIncoming, hQuiet, hAnnounces, fun questions => ?_⟩
    have hText := zero_not_mem_dropZeros front
    have hPart : Attentive none { link := { link with incoming := dropZeros front } } :=
      ⟨⟨hOpen.sendLimit, hOpen.flushLimit⟩, rfl, hText⟩
    have hSplit : dropZeros link.incoming = dropZeros front ++ dropZeros (.byte 0 :: rest) := by
      rw [hIncoming, dropZeros_append]
    have hWhole := beside_fresh { link with incoming := dropZeros link.incoming }
      ⟨hOpen.sendLimit, hOpen.flushLimit⟩ hSplit (not_hasRun_of_not_mem hText)
    rw [dropZeros_dropZeros] at hWhole
    exact calls_switched hPart (beside_fresh link hOpen hIncoming hQuiet) hWhole hTwentieth questions
  · have hZeros := Detector.zeros_after history
    refine ⟨Detector.feed_after history b, hZeros, ?_⟩
    rw [hZeros]
    exact Nat.mod_lt _ (by decide)

/-- Some zero bytes in a line, and an announcement in the next one. -/
theorem zeros_unseen_announced :
    let link : Link :=
      { incoming := ([0x61, 0, 0, 0x0D] ++ List.replicate 19 (0 : UInt8) ++ [0x62] ++
          List.replicate 20 0 ++ [0x0D]).map .byte }
    let short : Link := { incoming := [0x61, 0, 0, 0x0D].map .byte }
    (link.IsOpen ∧ HasRun (bytesOf link.incoming)) ∧
      (short.IsOpen ∧ ¬ HasRun (bytesOf short.incoming)) ∧
      (calls ["> "] { link := short }).map Call.outcome =
        (calls ["> "] { link := { short with incoming := dropZeros short.incoming } }).map
          Call.outcome ∧
      ∃ front rest, link.incoming = front ++ .byte 0 :: rest ∧
        HasRun (bytesOf (front ++ [.byte 0])) := by
  intro link short
  have hOpen : link.IsOpen := ⟨rfl, rfl⟩
  have hOpen' : short.IsOpen := ⟨rfl, rfl⟩
  have hRun : HasRun (bytesOf link.incoming) := by decide
  have hQuiet : ¬ HasRun (bytesOf short.incoming) := by decide
  obtain ⟨hShort, hLong, -⟩ := zeros_unseen
  obtain ⟨front, rest, hIncoming, -, hTwentieth, -⟩ := hLong link hOpen hRun
  exact ⟨⟨hOpen, hRun⟩, ⟨hOpen', hQuiet⟩, hShort short hOpen' ["> "] hQuiet, front, rest, hIncoming,
    hTwentieth⟩

end Console

end BusBench
