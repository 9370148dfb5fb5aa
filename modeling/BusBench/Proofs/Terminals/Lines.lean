import BusBench.Proofs.Link.Dialogues
import BusBench.Terminal.Console

/-!
# What is made of the bytes of a line

On a link whose output does not fail, awaiting a line reads the arrivals one by one, and comes to a
line, to the announcement of the binary protocol, or to the end of what arrives.

* `Console.onLink_ends`, `Console.pollKey_ends`: what else is done on the link.
* `Console.scan`: what is made of the arrivals.
* `Console.readLine_ends`: what awaiting a line comes to.
-/

namespace BusBench

namespace Console

open Dialogue (Ends Yields)

variable {S α : Type} {o : Observer S} {s : S} {console : Console} {arrivals rest : List Arrival}
  {detector : Detector} {afterReturn : Bool} {line : List Char} {b : UInt8}

/-! ## Output and input -/

theorem onLink_ends {program : Dialogue Link LinkError α}
    {post : Except Error α → Console → S → Prop} (hOpen : console.link.IsOpen)
    (h : Yields o program console.link.incoming s fun r rest s' =>
      ∀ link : Link, link.IsOpen → link.incoming = rest →
        post (r.mapError fun _ => .link) { console with link } s') :
    Ends o (onLink program) console s post := by
  rintro ⟨peer, events⟩ base rfl hState
  obtain ⟨hOpen', hResult⟩ := h ⟨peer.link, events⟩ base hOpen rfl hState
  exact hResult _ hOpen' rfl

/-- What is sent over an open link arrives, and nothing that is still to arrive is lost. -/
theorem sendAll_ends {bytes : List UInt8} {post : Except Error Unit → Console → S → Prop}
    (hOpen : console.link.IsOpen)
    (h : ∀ link : Link, link.IsOpen → link.incoming = console.link.incoming →
      post (.ok ()) { console with link } (o.sayAll bytes s)) :
    Ends o (onLink (Link.sendAll bytes)) console s post :=
  onLink_ends hOpen (.sendAll h)

theorem sendAndFlush_ends {bytes : List UInt8} {post : Except Error Unit → Console → S → Prop}
    (hDeaf : o.Deaf) (hOpen : console.link.IsOpen)
    (h : ∀ link : Link, link.IsOpen → link.incoming = console.link.incoming →
      post (.ok ()) { console with link } (o.sayAll bytes s)) :
    Ends o (onLink do Link.sendAll bytes; Link.flush) console s post := by
  refine onLink_ends hOpen (.bind (.sendAll (.flush ?_)))
  rw [hDeaf.see_flushed]
  exact h

/-- A key is asked for without waiting. -/
def polled : List Arrival → Except Error (Option UInt8) × List Arrival
  | [] => (.error .link, [])
  | .pause :: rest => (.ok none, rest)
  | .byte b :: rest => (.ok (some b), rest)

theorem pollKey_ends {post : Except Error (Option UInt8) → Console → S → Prop} (hDeaf : o.Deaf)
    (hOpen : console.link.IsOpen)
    (h : ∀ link : Link, link.IsOpen → link.incoming = (polled console.link.incoming).2 →
      post (polled console.link.incoming).1 { console with link } s) :
    Ends o pollKey console s post := by
  refine onLink_ends hOpen (.tryRead (fun b rest hByte => ?_) (fun rest hPause => ?_)
    fun hEnd => ?_)
  · rw [hByte] at h
    rw [hDeaf.see_received]
    exact h
  · rw [hPause] at h
    exact h
  · rw [hEnd] at h
    rw [hDeaf.see_end]
    exact h

/-! ## The arrivals of a line -/

/-- What awaiting a line comes to. -/
structure Reading where
  /-- The line, `none` if nothing arrives any more. -/
  line? : Option Line
  /-- What arrives after it. -/
  rest : List Arrival
  detector : Detector
  afterReturn : Bool
  /-- What is sent meanwhile. -/
  echo : List UInt8

namespace Reading

/-- What a result, the console after it and what was sent say. -/
def of (result : Except Error Line) (console : Console) (echo : List UInt8) : Reading :=
  ⟨result.toOption, console.link.incoming, console.detector, console.afterReturn, echo⟩

/-- What it comes to if something was sent before. -/
def behind (echo : List UInt8) (reading : Reading) : Reading :=
  { reading with echo := echo ++ reading.echo }

theorem behind_behind (echo more : List UInt8) (reading : Reading) :
    (reading.behind more).behind echo = reading.behind (echo ++ more) := by
  simp [behind]

end Reading

/-- What is made of the arrivals, where a part of the line has been typed already. -/
def scan (detector : Detector) (afterReturn : Bool) (line : List Char) : List Arrival → Reading
  | [] => ⟨none, [], detector, afterReturn, []⟩
  | .pause :: rest => scan detector afterReturn line rest
  | .byte b :: rest =>
    match detector.feed b with
    | (.nothing, detector) => scan detector afterReturn line rest
    | (.modeSwitch, detector) => ⟨some .modeSwitch, rest, detector, afterReturn, []⟩
    | (.data byte, detector) =>
      match edit afterReturn line byte with
      | .finish => ⟨some (.text line.reverse), rest, detector, byte = 0x0D, [0x0D, 0x0A]⟩
      | .continue line echo => (scan detector (byte = 0x0D) line rest).behind echo

theorem scan_of_nextByte (h : nextByte arrivals = some (b, rest)) :
    scan detector afterReturn line arrivals = scan detector afterReturn line (.byte b :: rest) := by
  induction arrivals with
  | nil => cases h
  | cons arrival arrivals ih =>
    cases arrival with
    | pause => exact ih h
    | byte b' =>
      cases h
      rfl

theorem scan_of_none (h : nextByte arrivals = none) :
    scan detector afterReturn line arrivals = ⟨none, [], detector, afterReturn, []⟩ := by
  induction arrivals with
  | nil => rfl
  | cons arrival arrivals ih =>
    cases arrival with
    | pause => exact ih h
    | byte b => cases h

/-- What one round makes of the line that was typed before it. -/
def RoundPost (o : Observer S) (before : Console) (line : List Char) (s : S) :
    Except Error (List Char ⊕ Line) → Console → S → Prop
  | .ok (.inl line'), after, s' =>
    after.link.IsOpen ∧ after.link.incoming.length < before.link.incoming.length ∧
      ∃ echo, s' = o.sayAll echo s ∧
        scan before.detector before.afterReturn line before.link.incoming =
          (scan after.detector after.afterReturn line' after.link.incoming).behind echo
  | .ok (.inr result), after, s' =>
    after.link.IsOpen ∧ ∃ echo, s' = o.sayAll echo s ∧
      scan before.detector before.afterReturn line before.link.incoming =
        .of (.ok result) after echo
  | .error e, after, s' =>
    after.link.IsOpen ∧ e = .link ∧ s' = s ∧
      scan before.detector before.afterReturn line before.link.incoming = .of (.error e) after []

theorem readLineRound_ends (hDeaf : o.Deaf) (hOpen : console.link.IsOpen) (line : List Char) :
    Ends o (readLineRound line) console s (RoundPost o console line s) := by
  refine .bind (onLink_ends hOpen (.read (fun b rest hNext link hOpen' hRest => ?_)
    fun hNone link hOpen' hRest => ?_))
  · have hScan : scan console.detector console.afterReturn line console.link.incoming =
        scan console.detector console.afterReturn line (.byte b :: rest) := scan_of_nextByte hNext
    have hShorter := length_of_nextByte hNext
    subst hRest
    rw [hDeaf.see_received]
    refine .bind (.peer ?_)
    dsimp only
    simp only [scan] at hScan
    generalize console.detector.feed b = fed at hScan ⊢
    obtain ⟨heard, detector⟩ := fed
    refine .bind (.modifyPeer ?_)
    cases heard with
    | nothing => exact .pure ⟨hOpen', hShorter, [], rfl, hScan⟩
    | modeSwitch => exact .pure ⟨hOpen', [], rfl, hScan⟩
    | data byte =>
      refine .bind (.modifyPeer ?_)
      dsimp only at hScan ⊢
      generalize edit console.afterReturn line byte = edited at hScan ⊢
      cases edited with
      | finish =>
        refine .bind (sendAll_ends hOpen' fun link' hOpen'' hRest =>
          .pure ⟨hOpen'', _, rfl, ?_⟩)
        rw [hScan, Reading.of, hRest]
        rfl
      | «continue» line' echo =>
        refine .bind (sendAndFlush_ends hDeaf hOpen' fun link' hOpen'' hRest =>
          .pure ⟨hOpen'', ?_, echo, rfl, ?_⟩)
        · rw [hRest]
          exact hShorter
        · rw [hScan, hRest]
  · refine ⟨hOpen', rfl, hDeaf.see_end s, ?_⟩
    rw [scan_of_none hNone, Reading.of, hRest]
    rfl

/-- What a wait for a line comes to: it fails only where nothing arrives any more. -/
structure Awaited (o : Observer S) (s : S) (expected : Reading) (result : Except Error Line)
    (after : Console) (s' : S) : Prop where
  isOpen : after.link.IsOpen
  reading : expected = .of result after expected.echo
  result : ∀ e, result = .error e → e = .link
  seen : s' = o.sayAll expected.echo s

/-- What was scanned decides how a wait ends. -/
theorem Awaited.result_eq {expected : Reading} {result : Except Error Line} {after : Console}
    {s' : S} (h : Awaited o s expected result after s') :
    result = expected.line?.elim (.error .link) .ok := by
  have hLine := congrArg Reading.line? h.reading
  rw [hLine]
  cases result with
  | ok line => rfl
  | error e => exact congrArg Except.error (h.result e rfl)

theorem readLineRounds_ends (hDeaf : o.Deaf) {limit : Nat} (hOpen : console.link.IsOpen)
    (line : List Char) (hLimit : console.link.incoming.length < limit) :
    Ends o (rounds (throw .link) readLineRound limit line) console s
      (Awaited o s (scan console.detector console.afterReturn line console.link.incoming)) := by
  -- The bound is never reached, since every round takes a byte from what arrives.
  induction limit generalizing console line s with
  | zero => exact absurd hLimit (Nat.not_lt_zero _)
  | succ limit ih =>
    refine .bind ((readLineRound_ends hDeaf hOpen line).mono fun r after s' hRound => ?_)
    rcases r with e | line' | result
    · obtain ⟨hOpen', rfl, rfl, hScan⟩ := hRound
      rw [hScan]
      exact ⟨hOpen', rfl, fun _ h => by cases h; rfl, rfl⟩
    · obtain ⟨hOpen', hShorter, echo, rfl, hScan⟩ := hRound
      refine (ih hOpen' line' (by omega)).mono fun r after' s' hAwaited => ?_
      rw [hScan]
      refine ⟨hAwaited.isOpen, ?_, hAwaited.result, ?_⟩
      · exact congrArg (Reading.behind echo) hAwaited.reading
      · rw [hAwaited.seen]
        exact (o.sayAll_append _ _ s).symm
    · obtain ⟨hOpen', echo, rfl, hScan⟩ := hRound
      rw [hScan]
      exact .pure ⟨hOpen', rfl, nofun, rfl⟩

theorem readLine_ends (hDeaf : o.Deaf) (hOpen : console.link.IsOpen) (question : String) :
    Ends o (readLine question) console s (Awaited o (o.sayAll question.toUTF8.toList s)
      (scan console.detector console.afterReturn [] console.link.incoming)) := by
  refine .bind (sendAndFlush_ends hDeaf hOpen fun link hOpen' hIncoming => .bind (.peer ?_))
  rw [← hIncoming]
  exact readLineRounds_ends hDeaf hOpen' [] (Nat.lt_succ_self _)

end Console

end BusBench
