import BusBench.Proofs.Terminals.Screens
import BusBench.Proofs.Terminals.Waits

/-!
# The line editor and what it shows

While a line is typed, the console keeps it in a buffer and sends an echo. A terminal shows the echo
behind the question. Buffer and echo are two accounts of the same keys, and they agree whenever the
console waits for the next one.

* `Entry`: a wait for a line as the keys tell it, for a text without zero bytes.
* `Entry.shows`, `Entry.keeps`: what the screen shows meanwhile.
* `readLine_faithful`: lines are split and shown exactly.
-/

namespace BusBench

namespace Console

variable {detector : Detector} {previous previous' : Option UInt8} {raw bytes : List UInt8}
  {b : UInt8} {arrivals : List Arrival} {w : Wait}

/-! ## Keys of a line -/

/-- The bytes that were received. -/
def received (events : List PeerEvent) : List UInt8 :=
  events.filterMap fun
    | .received b => some b
    | _ => none

/-- The bytes that were sent. -/
def said (events : List PeerEvent) : List UInt8 :=
  events.filterMap fun
    | .sent b => some b
    | _ => none

theorem received_append (events more : List PeerEvent) :
    received (events ++ more) = received events ++ received more :=
  List.filterMap_append

theorem said_append (events more : List PeerEvent) :
    said (events ++ more) = said events ++ said more :=
  List.filterMap_append

/-- Whether the console looks for the next key with this event. -/
def isLook : PeerEvent → Bool
  | .received _ | .idle | .failed .endOfInput => true
  | _ => false

/-- What happens for a key that ends no line. -/
def keyEvents (line : List UInt8) (b : UInt8) : List PeerEvent :=
  .received b :: (echo line b).map .sent ++ [.flushed]

theorem received_keyEvents (line : List UInt8) (b : UInt8) : received (keyEvents line b) = [b] := by
  have hEcho : received ((echo line b).map .sent ++ [.flushed]) = [] := by
    rw [received, List.filterMap_eq_nil_iff]
    intro event hEvent
    rcases List.mem_append.mp hEvent with hSent | hFlushed
    · obtain ⟨c, -, rfl⟩ := List.mem_map.mp hSent
      rfl
    · rw [List.mem_singleton.mp hFlushed]
  rw [keyEvents, List.cons_append]
  exact congrArg (b :: ·) hEcho

theorem said_keyEvents (line : List UInt8) (b : UInt8) : said (keyEvents line b) = echo line b := by
  have hEcho : said ((echo line b).map .sent) = echo line b := by
    rw [said, List.filterMap_map]
    exact List.filterMap_some
  rw [keyEvents, said_append]
  show said ((echo line b).map .sent) ++ [] = _
  rw [List.append_nil, hEcho]

/-- A wait for a line, key by key. `previous` is the last byte before these, and `raw` are the keys
pressed since the last line end. -/
inductive Entry : Option UInt8 → List UInt8 → List UInt8 → Wait → Prop where
  | silence {previous : Option UInt8} {raw : List UInt8} {detector : Detector} :
    Entry previous raw []
      ⟨.error .link, [], detector, previous == some 0x0D, [.failed .endOfInput]⟩
  | pause {previous : Option UInt8} {raw bytes : List UInt8} {w : Wait}
    (more : Entry previous raw bytes w) : Entry previous raw bytes (w.behind [.idle])
  | finish {previous : Option UInt8} {raw : List UInt8} {b : UInt8} {rest : List Arrival}
    {detector : Detector} (ends : endsLine previous b) :
    Entry previous raw (b :: bytesOf rest)
      ⟨.ok (.text (lineText (edited raw))), rest, detector, some b == some 0x0D,
        [.received b, .sent 0x0D, .sent 0x0A]⟩
  | key {previous : Option UInt8} {raw bytes : List UInt8} {b : UInt8} {w : Wait}
    (goesOn : endsLine previous b = false) (more : Entry (some b) (raw ++ [b]) bytes w) :
    Entry previous raw (b :: bytes) (w.behind (keyEvents (edited raw) b))

/-- Where there are no zero bytes, all that arrives is typed. -/
theorem wait_entry (hText : 0 ∉ bytesOf arrivals) :
    Entry previous raw (bytesOf arrivals)
      (wait detector (previous == some 0x0D) (lineText (edited raw)).reverse arrivals) := by
  induction arrivals generalizing detector previous raw with
  | nil => exact .silence
  | cons arrival rest ih =>
    cases arrival with
    | pause => exact .pause (ih hText)
    | byte b =>
      obtain ⟨hFirst, hRest⟩ := not_or.mp (mt List.mem_cons.mpr hText)
      have hFeed : detector.feed b = (.data b, ⟨0⟩) := if_pos (Ne.symm hFirst)
      have hReturn : decide (b = 0x0D) = (some b == some 0x0D) := rfl
      simp only [wait, hFeed]
      cases hEnds : endsLine previous b with
      | true =>
        rw [edit_finish hEnds, hReturn, List.reverse_reverse]
        exact .finish hEnds
      | false =>
        rw [edit_continue hEnds, hReturn, ← edited_concat]
        exact .key hEnds (ih hRest)

namespace Entry

/-- What was received and what is left are what was to arrive. -/
theorem received_append_rest (h : Entry previous raw bytes w) :
    bytes = received w.events ++ bytesOf w.rest := by
  induction h with
  | silence => rfl
  | pause more ih => exact ih
  | finish ends => rfl
  | key goesOn more ih =>
    rw [Wait.behind, received_append, received_keyEvents, List.append_assoc, List.singleton_append,
      ← ih]

/-- The wait ends with the first line, or where there is none. -/
theorem lines (h : Entry previous raw bytes w) :
    match splitLines previous raw bytes with
    | [] => w.result = .error .link ∧ w.rest = []
    | line :: lines =>
      w.result = .ok (.text (lineText (edited line))) ∧
        ∃ last : UInt8, w.afterReturn = (some last == some 0x0D) ∧
          splitLines (some last) [] (bytesOf w.rest) = lines := by
  induction h with
  | silence => exact ⟨rfl, rfl⟩
  | pause more ih => exact ih
  | @finish previous raw b rest detector ends =>
    rw [splitLines, if_pos ends]
    exact ⟨rfl, b, rfl, rfl⟩
  | key goesOn more ih =>
    rw [splitLines, if_neg (by simp [goesOn])]
    exact ih

/-! ## What the screen shows meanwhile -/

theorem exists_of_look {front events earlier later : List PeerEvent} {event : PeerEvent}
    (hFront : ∀ e ∈ front, isLook e = false) (hLook : isLook event)
    (h : front ++ events = earlier ++ event :: later) :
    ∃ between, earlier = front ++ between ∧ events = between ++ event :: later := by
  rcases List.append_eq_append_iff.mp h with ⟨between, hEarlier, hEvents⟩ |
    ⟨between, hEarlier, hEvents⟩
  · exact ⟨between, hEarlier, hEvents⟩
  · cases between with
    | nil => exact ⟨[], by simpa using hEarlier.symm, hEvents.symm⟩
    | cons first between =>
      obtain ⟨rfl, -⟩ := List.cons_eq_cons.mp hEvents
      have hMem : event ∈ front := by simp [hEarlier]
      exact absurd hLook (by simp [hFront event hMem])

/-- Only the first event of a key is a look. -/
theorem exists_of_look_keyEvents {line : List UInt8} {events earlier later : List PeerEvent}
    {event : PeerEvent} (hLook : isLook event)
    (h : keyEvents line b ++ events = earlier ++ event :: later) :
    earlier = [] ∨ ∃ between, earlier = keyEvents line b ++ between ∧
      events = between ++ event :: later := by
  have hOutput : ∀ e ∈ (echo line b).map .sent ++ [.flushed], isLook e = false := by
    intro e he
    rcases List.mem_append.mp he with hSent | hFlushed
    · obtain ⟨c, -, rfl⟩ := List.mem_map.mp hSent
      rfl
    · rw [List.mem_singleton.mp hFlushed]
      rfl
  cases earlier with
  | nil => exact .inl rfl
  | cons first earlier =>
    obtain ⟨rfl, hRest⟩ := List.cons_eq_cons.mp h
    obtain ⟨between, rfl, hEvents⟩ := exists_of_look hOutput hLook hRest
    exact .inr ⟨between, rfl, hEvents⟩

/-- Nothing has happened yet. -/
theorem shows_nil {base now : Screen} (hNow : base.Shows (edited raw) now) :
    base.Shows (edited (raw ++ received [])) (now.printAll (said [])) := by
  have hNone : raw ++ received [] = raw := List.append_nil raw
  rw [hNone]
  exact hNow

/-- Whenever the console looks for a key, the screen shows the line. -/
theorem shows (h : Entry previous raw bytes w) {base now : Screen}
    (hNow : base.Shows (edited raw) now) {earlier later : List PeerEvent} {event : PeerEvent}
    (hLook : isLook event) (hEvents : w.events = earlier ++ event :: later) :
    base.Shows (edited (raw ++ received earlier)) (now.printAll (said earlier)) := by
  induction h generalizing now earlier with
  | silence =>
    obtain ⟨rfl, -⟩ := List.append_eq_singleton_iff.mp hEvents.symm |>.resolve_right (by simp)
    exact shows_nil hNow
  | @pause previous raw bytes w more ih =>
    cases earlier with
    | nil => exact shows_nil hNow
    | cons first earlier =>
      obtain ⟨rfl, hRest⟩ := List.cons_eq_cons.mp hEvents
      have hMore := ih hNow hRest
      exact hMore
  | @finish previous raw b rest detector ends =>
    cases earlier with
    | nil => exact shows_nil hNow
    | cons first earlier =>
      obtain ⟨-, hRest⟩ := List.cons_eq_cons.mp hEvents
      have hMem : event ∈ [PeerEvent.sent 0x0D, .sent 0x0A] := by
        rw [hRest]
        simp
      rcases List.mem_pair.mp hMem with rfl | rfl <;> cases hLook
  | @key previous raw bytes b w goesOn more ih =>
    rcases exists_of_look_keyEvents hLook hEvents with rfl | ⟨between, rfl, hRest⟩
    · exact shows_nil hNow
    · rw [received_append, received_keyEvents, said_append, said_keyEvents, Screen.printAll_append,
        ← List.append_assoc]
      refine ih ?_ hRest
      rw [edited_concat]
      exact hNow.echo b

/-- At no time is anything erased that was there before the line, as long as the line goes on. -/
theorem keeps (h : Entry previous raw bytes w) {base now : Screen}
    (hNow : base.Shows (edited raw) now) {earlier : List PeerEvent}
    (hEarlier : earlier <+: w.events) (hGoesOn : 0x0D ∉ said earlier) :
    base.Keeps (now.printAll (said earlier)) := by
  induction h generalizing now earlier with
  | silence =>
    rcases List.prefix_cons_iff.mp hEarlier with rfl | ⟨earlier, rfl, hNil⟩
    · exact hNow.keeps
    · rw [List.prefix_nil.mp hNil]
      exact hNow.keeps
  | pause more ih =>
    rcases List.prefix_cons_iff.mp hEarlier with rfl | ⟨earlier, rfl, hMore⟩
    · exact hNow.keeps
    · have hKeeps := ih hNow hMore hGoesOn
      exact hKeeps
  | @finish previous raw b rest detector ends =>
    rw [← List.mem_inits] at hEarlier
    simp only [List.inits, List.map_cons, List.map_nil, List.mem_cons, List.not_mem_nil,
      or_false] at hEarlier
    rcases hEarlier with rfl | rfl | rfl | rfl
    · exact hNow.keeps
    · exact hNow.keeps
    · exact absurd hGoesOn (by simp [said])
    · exact absurd hGoesOn (by simp [said])
  | @key previous raw bytes b w goesOn more ih =>
    rcases List.prefix_or_prefix_of_prefix hEarlier (List.prefix_append _ _) with hPart | hWhole
    · have hSaid : said earlier <+: echo (edited raw) b := by
        rw [← said_keyEvents]
        exact hPart.filterMap _
      exact hNow.keeps_echo b hSaid
    · obtain ⟨between, rfl⟩ := hWhole
      have hBetween := (List.prefix_append_right_inj _).mp hEarlier
      rw [said_append, List.mem_append, not_or] at hGoesOn
      rw [said_append, said_keyEvents, Screen.printAll_append]
      refine ih ?_ hBetween hGoesOn.2
      rw [edited_concat]
      exact hNow.echo b

/-- No echo ends the line on the screen. -/
theorem not_mem_echo {line : List UInt8} {c : UInt8} (hc : c = 0x0D ∨ c = 0x0A) :
    c ∉ echo line b := by
  have hInvisible : isVisible c = false := by rcases hc with rfl | rfl <;> rfl
  unfold echo
  intro hMem
  split at hMem
  · next hVisible =>
    obtain rfl := List.mem_singleton.mp hMem
    rw [hInvisible] at hVisible
    cases hVisible
  · split at hMem
    · rcases hc with rfl | rfl <;> exact absurd hMem (by decide)
    · cases hMem

/-- A key that ends the line does nothing to it. -/
theorem keyed_of_endsLine {line : List UInt8} (h : endsLine previous b) : keyed line b = line := by
  simp only [endsLine, Bool.or_eq_true, Bool.and_eq_true, beq_iff_eq] at h
  rcases h with rfl | ⟨rfl, -⟩ <;> rfl

/-- The line end is the last thing that is sent, and it is sent when a line is returned. -/
theorem returned (h : Entry previous raw bytes w) {line : Line} (hLine : w.result = .ok line) :
    ∃ body, w.events = body ++ [.sent 0x0D, .sent 0x0A] ∧ 0x0D ∉ said body ∧ 0x0A ∉ said body ∧
      line = .text (lineText (edited (raw ++ received body))) := by
  induction h with
  | silence => cases hLine
  | pause more ih =>
    obtain ⟨body, hEvents, hReturn, hFeed, hText⟩ := ih hLine
    refine ⟨.idle :: body, ?_, hReturn, hFeed, hText⟩
    rw [Wait.behind, hEvents]
    rfl
  | @finish previous raw b rest detector ends =>
    cases hLine
    refine ⟨[.received b], rfl, List.not_mem_nil, List.not_mem_nil, ?_⟩
    rw [show received [.received b] = [b] from rfl, edited_concat, keyed_of_endsLine ends]
  | @key previous raw bytes b w goesOn more ih =>
    obtain ⟨body, hEvents, hReturn, hFeed, hText⟩ := ih hLine
    refine ⟨keyEvents (edited raw) b ++ body, ?_, ?_, ?_, ?_⟩
    · rw [Wait.behind, hEvents, List.append_assoc]
    · rw [said_append, said_keyEvents, List.mem_append, not_or]
      exact ⟨not_mem_echo (.inl rfl), hReturn⟩
    · rw [said_append, said_keyEvents, List.mem_append, not_or]
      exact ⟨not_mem_echo (.inr rfl), hFeed⟩
    · rw [received_append, received_keyEvents, ← List.append_assoc]
      exact hText

/-- Without a line no line end is sent. -/
theorem failed (h : Entry previous raw bytes w) {e : Error} (hError : w.result = .error e)
    {c : UInt8} (hc : c = 0x0D ∨ c = 0x0A) : c ∉ said w.events := by
  induction h with
  | silence => exact List.not_mem_nil
  | pause more ih => exact ih hError
  | finish => cases hError
  | @key previous raw bytes b w goesOn more ih =>
    rw [Wait.behind, said_append, said_keyEvents, List.mem_append, not_or]
    exact ⟨not_mem_echo hc, ih hError⟩

end Entry

/-! ## One question after the other -/

/-- What is sent for a question and its answer, told beside what a terminal shows of it. -/
structure Displays (question : String) (result : Except Error Line) (body : List PeerEvent) :
    Prop where
  /-- Whenever the console looks for a key, the line stands behind the question. -/
  line : ∀ (screen : Screen) (earlier : List PeerEvent) (event : PeerEvent)
    (later : List PeerEvent), body = earlier ++ event :: later → isLook event →
    (screen.printAll question.toUTF8.toList).Shows (edited (received earlier))
      (screen.printAll (question.toUTF8.toList ++ said earlier))
  /-- On a row of its own, a plain question and the line are all there is. -/
  row : (∀ b ∈ question.toUTF8.toList, b ∉ [0x08, 0x0D, 0x0A]) →
    ∀ (above : List (List UInt8)) (earlier : List PeerEvent) (event : PeerEvent)
      (later : List PeerEvent), body = earlier ++ event :: later → isLook event →
      ∃ erased, ({ above } : Screen).printAll (question.toUTF8.toList ++ said earlier) =
        ⟨above, (question.toUTF8.toList ++ edited (received earlier)).reverse,
          List.replicate erased Screen.blank⟩
  /-- Until the line ends, and also in the middle of an echo, the question is there. -/
  question : ∀ (screen : Screen) (earlier : List PeerEvent), earlier <+: body →
    0x0D ∉ said earlier → (screen.printAll question.toUTF8.toList).Keeps
      (screen.printAll (question.toUTF8.toList ++ said earlier))
  /-- The line is what was shown, and its end is sent last. -/
  returned : ∀ line, result = .ok line → ∃ keys, body = keys ++ [.sent 0x0D, .sent 0x0A] ∧
    0x0D ∉ said keys ∧ 0x0A ∉ said keys ∧ line = .text (lineText (edited (received keys)))
  /-- Without a line there is no line end. -/
  failed : ∀ e, result = .error e → 0x0D ∉ said body ∧ 0x0A ∉ said body

/-- On an empty row, a plain text stands with the line behind it. -/
theorem Screen.Shows.row {text line : List UInt8} {now : Screen} {above : List (List UInt8)}
    (hPlain : ∀ b ∈ text, b ∉ [0x08, 0x0D, 0x0A])
    (h : (({ above } : Screen).printAll text).Shows line now) :
    ∃ erased, now = ⟨above, (text ++ line).reverse, List.replicate erased blank⟩ := by
  rw [printAll_plain text hPlain above []] at h
  obtain ⟨erased, stale, hRight, hStale⟩ := h.right
  obtain rfl : stale = [] := List.suffix_nil.mp hStale
  obtain ⟨_, left, right⟩ := now
  obtain rfl := h.above
  obtain rfl : left = line.reverse ++ (text.reverse ++ []) := h.left
  obtain rfl : right = List.replicate erased blank ++ [] := hRight
  exact ⟨erased, by simp⟩

theorem Entry.displays (h : Entry previous [] bytes w) (question : String) :
    Displays question w.result w.events where
  line screen earlier event later hEvents hLook := by
    rw [Screen.printAll_append]
    exact h.shows (.refl _) hLook hEvents
  row hPlain above earlier event later hEvents hLook := by
    refine Screen.Shows.row hPlain ?_
    rw [Screen.printAll_append]
    exact h.shows (.refl _) hLook hEvents
  question screen earlier hEarlier hGoesOn := by
    rw [Screen.printAll_append]
    exact h.keeps (.refl _) hEarlier hGoesOn
  returned line hLine := h.returned hLine
  failed e hError := ⟨h.failed hError (.inl rfl), h.failed hError (.inr rfl)⟩

/-- What comes of so many questions if these lines arrive. -/
def answers (lines : List (List UInt8)) (count : Nat) : List (Except Error Line) :=
  (lines.map fun keys => .ok (.text (lineText (edited keys)))).take count ++
    List.replicate (count - lines.length) (.error .link)

/-- A console that has just received `previous`, and is to receive no zero byte. -/
structure Attentive (previous : Option UInt8) (console : Console) : Prop where
  isOpen : console.link.IsOpen
  afterReturn : console.afterReturn = (previous == some 0x0D)
  text : 0 ∉ bytesOf console.link.incoming

section Attentive

variable {console : Console}

theorem exists_previous (afterReturn : Bool) :
    ∃ previous : Option UInt8, afterReturn = (previous == some 0x0D) :=
  match afterReturn with
  | true => ⟨some 0x0D, rfl⟩
  | false => ⟨none, rfl⟩

/-- A question is answered as the keys tell. -/
theorem Attentive.entry (h : Attentive previous console) :
    Entry previous [] (bytesOf console.link.incoming) console.next := by
  rw [next, h.afterReturn]
  exact wait_entry h.text

theorem Attentive.after (h : Attentive previous console) (question : String)
    (hLast : console.next.afterReturn = (previous' == some 0x0D)) :
    Attentive previous' (call question console).after := by
  have hFollows := call_follows h.isOpen question
  have hText := h.text
  rw [h.entry.received_append_rest, List.mem_append, not_or] at hText
  refine ⟨hFollows.isOpen, hFollows.afterReturn.trans hLast, ?_⟩
  rw [hFollows.rest]
  exact hText.2

theorem calls_result (h : Attentive previous console) (questions : List String) :
    (calls questions console).map Call.result =
      answers (splitLines previous [] (bytesOf console.link.incoming)) questions.length := by
  induction questions generalizing console previous with
  | nil => simp [calls, answers]
  | cons question questions ih =>
    have hFollows := call_follows h.isOpen question
    have hLines := h.entry.lines
    rw [calls, List.map_cons, hFollows.result]
    cases hSplit : splitLines previous [] (bytesOf console.link.incoming) with
    | nil =>
      rw [hSplit] at hLines
      obtain ⟨last, hLast⟩ := exists_previous console.next.afterReturn
      have hRest := ih (h.after question hLast)
      rw [hFollows.rest, hLines.2] at hRest
      rw [hLines.1, hRest]
      simp [answers, splitLines, bytesOf, List.replicate_succ]
    | cons line lines =>
      rw [hSplit] at hLines
      obtain ⟨hResult, last, hLast, hMore⟩ := hLines
      have hRest := ih (h.after question hLast)
      rw [hFollows.rest, hMore] at hRest
      rw [hResult, hRest]
      simp [answers]

/-- A question is shown with its answer, and leaves the console ready for the next one. -/
theorem Attentive.call_displays (question : String) (console : Console)
    (h : ∃ previous, Attentive previous console) :
    (∃ body, (call question console).events = asking question ++ body ∧
      bytesOf console.link.incoming =
        received body ++ bytesOf (call question console).after.link.incoming ∧
      Displays question (call question console).result body) ∧
    ∃ previous, Attentive previous (call question console).after := by
  obtain ⟨previous, h⟩ := h
  have hFollows := call_follows h.isOpen question
  obtain ⟨last, hLast⟩ := exists_previous console.next.afterReturn
  refine ⟨⟨console.next.events, hFollows.events, ?_, ?_⟩, last, h.after question hLast⟩
  · rw [hFollows.rest]
    exact h.entry.received_append_rest
  · rw [hFollows.result]
    exact h.entry.displays question

end Attentive

/-- Lines are split and shown exactly. The answers are the lines of what arrives, each as it was
edited. Meanwhile the terminal shows the question with the line behind it, and only a line that is
returned is ended on the screen. -/
theorem readLine_faithful (link : Link) (hOpen : link.IsOpen) (hText : 0 ∉ bytesOf link.incoming)
    (questions : List String) :
    (calls questions { link }).map Call.result =
      answers (splitLines none [] (bytesOf link.incoming)) questions.length ∧
    ∀ call ∈ calls questions { link }, ∃ body,
      call.events = asking call.question ++ body ∧
      bytesOf call.before.link.incoming = received body ++ bytesOf call.after.link.incoming ∧
      Displays call.question call.result body := by
  have hReady : Attentive none { link } := ⟨hOpen, rfl, hText⟩
  refine ⟨calls_result hReady questions, ?_⟩
  refine forall_calls Attentive.call_displays questions ⟨none, hReady⟩

/-- Two lines, of which the first is mended and ends with both characters. -/
theorem readLine_faithful_mended :
    let link : Link :=
      { incoming := [0x61, 0x62, 0x08, 0x63, 0x0D, 0x0A, 0x78, 0x0A].map .byte }
    link.IsOpen ∧ 0 ∉ bytesOf link.incoming ∧
    (calls ["HiZ> ", "> "] { link }).map Call.result =
      [.ok (.text ['a', 'c']), .ok (.text ['x'])] ∧
    ∀ call ∈ calls ["HiZ> ", "> "] { link }, ∃ body,
      call.events = asking call.question ++ body ∧
      bytesOf call.before.link.incoming = received body ++ bytesOf call.after.link.incoming ∧
      Displays call.question call.result body := by
  intro link
  have hOpen : link.IsOpen := ⟨rfl, rfl⟩
  have hText : 0 ∉ bytesOf link.incoming := by decide
  obtain ⟨hResults, hDisplays⟩ := readLine_faithful link hOpen hText ["HiZ> ", "> "]
  refine ⟨hOpen, hText, hResults.trans ?_, hDisplays⟩
  decide

end Console

end BusBench
