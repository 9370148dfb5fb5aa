import BusBench.Proofs.Binary.Agreement

/-!
# Finding back to the root

A host that does not know in which command it stopped can send zeros. They complete whatever was
begun, however many bytes it still wants, and then leave the engine; the root only answers them. So
the byte that ends the protocol is taken as such behind enough zeros, unless the UART has begun to
pass everything on.

* `padded`: bytes, then zeros, then the byte that ends the protocol.
* `payload_padded`: the zeros complete every command.
* `Session.resync`, `Splits.resync`: the zeros leave every engine, and then the protocol ends.
* `conversation_resync`: the same for the whole protocol on a board.
-/

namespace BusBench.Binary

/-! ## Streams that end in zeros -/

/-- Bytes, then `n` zeros, then the byte that ends the protocol. -/
def padded (bytes : List UInt8) (n : Nat) : List UInt8 :=
  bytes ++ (List.replicate n 0 ++ [0x0F])

theorem length_padded (bytes : List UInt8) (n : Nat) :
    (padded bytes n).length = bytes.length + n + 1 := by
  simp [padded, Nat.add_assoc]

/-- The first byte of such a stream, unless it is one of the zeros or the last byte. -/
theorem of_cons_eq_padded {b : UInt8} {rest bytes : List UInt8} {n : Nat}
    (h : b :: rest = padded bytes n) (hZero : b ≠ 0) (hLast : bytes = [] → n = 0 → b ≠ 0x0F) :
    ∃ later, bytes = b :: later ∧ rest = padded later n := by
  match bytes, n with
  | b' :: later, n =>
    obtain ⟨rfl, hRest⟩ := List.cons.inj h
    exact ⟨later, rfl, hRest⟩
  | [], 0 => exact absurd (List.cons.inj h).1 (hLast rfl rfl)
  | [], n + 1 => exact absurd (List.cons.inj h).1 hZero

/-- What is left of such a stream where not all of its zeros were taken. -/
theorem of_append_eq_padded {taken rest bytes : List UInt8} {n : Nat}
    (h : taken ++ rest = padded bytes n) (hLength : taken.length < bytes.length + n) :
    (∃ later, bytes = taken ++ later ∧ rest = padded later n) ∨
      ∃ k, rest = padded [] (k + 1) := by
  induction taken generalizing bytes n with
  | nil => exact .inl ⟨bytes, rfl, h⟩
  | cons b taken ih =>
    cases bytes with
    | cons b' bytes =>
      obtain ⟨rfl, hTail⟩ := List.cons.inj h
      rcases ih hTail (by simpa [Nat.succ_add] using hLength) with ⟨later, rfl, hRest⟩ | hRest
      · exact .inl ⟨later, rfl, hRest⟩
      · exact .inr hRest
    | nil =>
      rw [List.length_cons, List.length_nil, Nat.zero_add] at hLength
      obtain ⟨n, rfl⟩ := Nat.exists_eq_succ_of_ne_zero (Nat.ne_zero_of_lt hLength)
      have hShorter : taken.length < n := Nat.lt_of_succ_lt_succ hLength
      have hTail : taken ++ rest = padded [] n := (List.cons.inj h).2
      rcases ih hTail (by simpa using hShorter) with ⟨later, hNone, hRest⟩ | hRest
      · obtain ⟨k, rfl⟩ := Nat.exists_eq_succ_of_ne_zero (Nat.ne_zero_of_lt hShorter)
        obtain ⟨-, rfl⟩ := List.append_eq_nil_iff.mp hNone.symm
        exact .inr ⟨k, hRest⟩
      · exact .inr hRest

/-! ## Commands -/

/-- Whether the command lets the UART pass on everything that follows. -/
def isBridge (server : Server) (frame : List UInt8) : Bool :=
  server = .uart && frame.head? = some 0x0F

theorem Engine.ne_zero {c : UInt8} {engine : Engine} (h : Engine.ofCommandByte? c = some engine) :
    c ≠ 0 := by
  rintro rfl
  cases h

theorem kind_ne_bridge {server : Server} {c : UInt8} {bytes : List UInt8}
    (h : isBridge server (c :: bytes) = false) : kind server c ≠ .bridge := by
  intro hKind
  have hByte : server = .uart ∧ c.toNat = 0x0F := by
    unfold kind at hKind
    grind
  obtain ⟨rfl, hByte⟩ := hByte
  obtain rfl : c = 0x0F := UInt8.toNat_inj.mp hByte
  cases h

theorem bulk_le {server : Server} {c : UInt8} {count : Nat} (h : kind server c = .bulk count) :
    count ≤ 16 := by
  unfold kind at h
  grind

/-- The two counts of a command that is completed by zeros, and how many bytes they ask for. -/
theorem take_four_padded (bytes : List UInt8) {n : Nat} (hZeros : 65538 ≤ n) :
    ∃ a b c d, (padded bytes n).take 4 = [a, b, c, d] ∧ 4 + countOf a b < bytes.length + n := by
  obtain ⟨n, rfl⟩ : ∃ k, n = k + 4 := ⟨n - 4, by omega⟩
  match bytes with
  | [] => exact ⟨0, 0, 0, 0, rfl, by simp [countOf]; omega⟩
  | [a] =>
    refine ⟨a, 0, 0, 0, rfl, ?_⟩
    have := a.toNat_lt
    simp only [countOf, List.length_singleton, UInt8.toNat_zero]
    omega
  | a :: b :: bytes =>
    have hTwo : ((padded bytes (n + 4)).take 2).length = 2 := by
      rw [List.length_take, length_padded]
      omega
    match hRest : (padded bytes (n + 4)).take 2, hTwo with
    | [c, d], _ =>
      refine ⟨a, b, c, d, congrArg (a :: b :: ·) hRest, ?_⟩
      have := a.toNat_lt
      have := b.toNat_lt
      simp only [countOf, List.length_cons]
      omega

/-- Enough zeros complete a command whatever it still wants, and are not used up by it. -/
theorem payload_padded {server : Server} {c : UInt8} {mid rest : List Arrival}
    {bytes taken : List UInt8} {complete : Bool} {n : Nat}
    (h : payload (kind server c) mid = (taken, rest, complete))
    (hBridge : isBridge server (c :: taken) = false) (hMid : bytesOf mid = padded bytes n)
    (hZeros : 65538 ≤ n) : complete = true ∧ taken.length < bytes.length + n := by
  have hLength : (bytesOf mid).length = bytes.length + n + 1 := hMid ▸ length_padded bytes n
  cases hKind : kind server c with
  | bridge => exact absurd hKind (kind_ne_bridge hBridge)
  | banner | status | ignored =>
    rw [hKind] at h
    cases h
    exact ⟨rfl, by simp only [List.length_nil]; omega⟩
  | bulk count =>
    rw [hKind] at h
    cases h
    have hCount := bulk_le hKind
    have hFetched : (fetch count mid).1.length = count := length_fetch_of_le (by omega)
    exact ⟨decide_eq_true hFetched, by omega⟩
  | paired =>
    rw [hKind] at h
    obtain ⟨a, b, c, d, hFour, hCount⟩ := take_four_padded bytes hZeros
    rw [← hMid, ← fetch_fst] at hFour
    have hRest := congrArg List.length (fetch_append_bytesOf 4 mid)
    rw [List.length_append, hFour, hLength] at hRest
    have hFetched : (fetch (countOf a b) (fetch 4 mid).2).1.length = countOf a b :=
      length_fetch_of_le (by simp only [List.length_cons, List.length_nil] at hRest; omega)
    change afterCounts (fetch 4 mid).1 (fetch 4 mid).2 = _ at h
    rw [hFour] at h
    cases h
    refine ⟨decide_eq_true hFetched, ?_⟩
    simp only [List.length_cons, hFetched]
    omega

/-! ## Places -/

/-- No command that begins among the first `m` bytes is a bridge. -/
def Unbridged : Nat → List (Server × List UInt8) → Prop
  | _, [] => True
  | m, (server, frame) :: rest =>
    (0 < m → isBridge server frame = false) ∧ Unbridged (m - frame.length) rest

theorem unbridged_zero (frames : List (Server × List UInt8)) : Unbridged 0 frames := by
  induction frames with
  | nil => trivial
  | cons key frames ih => exact ⟨nofun, by rw [Nat.zero_sub]; exact ih⟩

theorem Unbridged.of_append {m : Nat} {frames frames' : List (Server × List UInt8)}
    (h : Unbridged m (frames ++ frames')) :
    Unbridged m frames ∧ Unbridged (m - (frames.map Prod.snd).flatten.length) frames' := by
  induction frames generalizing m with
  | nil => exact ⟨trivial, h⟩
  | cons key frames ih =>
    obtain ⟨hHead, hTail⟩ := ih h.2
    refine ⟨⟨h.1, hHead⟩, ?_⟩
    rw [List.map_cons, List.flatten_cons, List.length_append, ← Nat.sub_sub]
    exact hTail

theorem le_of_mem_placed {place offset : Nat} {server : Server} {frame : List UInt8}
    {commands : List Command} (h : (place, server, frame) ∈ placed offset commands) :
    offset ≤ place := by
  induction commands generalizing offset with
  | nil => cases h
  | cons command commands ih =>
    cases h with
    | head => exact Nat.le_refl _
    | tail _ hLater => exact Nat.le_trans (Nat.le_add_right _ _) (ih hLater)

theorem unbridged_of_placed {m : Nat} (offset : Nat) {commands : List Command}
    (h : ∀ place server frame, (place, server, frame) ∈ placed offset commands →
      place < offset + m → isBridge server frame = false) :
    Unbridged m (commands.map fun command => (command.server, command.frame)) := by
  induction commands generalizing m offset with
  | nil => trivial
  | cons command commands ih =>
    refine ⟨fun hBegins => h offset _ _ List.mem_cons_self (by omega), ?_⟩
    refine ih (offset + command.frame.length) fun place server frame hPlaced hBegins => ?_
    have hBehind := le_of_mem_placed hPlaced
    exact h place server frame (List.mem_cons_of_mem _ hPlaced) (by omega)

/-! ## Engines -/

/-- Behind enough zeros, or at zeros, an engine is left. What remains of the stream is zeros and
the byte that ends the protocol, and all of the zeros if it did not want any of them before. -/
theorem Session.resync {server : Server} {incoming rest : List Arrival} {frames : List (List UInt8)}
    {r : Except LinkError Unit} (h : Session server incoming frames r rest) {bytes : List UInt8}
    {n : Nat} (hBytes : bytesOf incoming = padded bytes n)
    (hZeros : 65538 ≤ n ∨ bytes = [] ∧ 0 < n)
    (hUnbridged : Unbridged bytes.length (frames.map (server, ·))) :
    r = .ok () ∧ ((∃ later, bytes = frames.flatten ++ later ∧ bytesOf rest = padded later n) ∨
      ∃ k, bytesOf rest = padded [] k) := by
  -- Zeros behind `bytes` can be taken by one command only: the next one is the zero that leaves.
  induction h generalizing bytes n with
  | ended hEnd =>
    rw [bytesOf_of_none hEnd] at hBytes
    simp [padded] at hBytes
  | left hNext =>
    rw [bytesOf_of_nextByte hNext] at hBytes
    refine ⟨rfl, ?_⟩
    cases bytes with
    | cons b later =>
      obtain ⟨rfl, hRest⟩ := List.cons.inj hBytes
      exact .inl ⟨later, rfl, hRest⟩
    | nil =>
      have hSome : n ≠ 0 := by grind
      obtain ⟨k, rfl⟩ := Nat.exists_eq_succ_of_ne_zero hSome
      exact .inr ⟨k, (List.cons.inj hBytes).2⟩
  | cut hNext hStays hPayload =>
    rw [bytesOf_of_nextByte hNext] at hBytes
    obtain ⟨later, rfl, hMid⟩ := of_cons_eq_padded hBytes hStays (by grind)
    have hBridge := hUnbridged.1 (Nat.succ_pos _)
    cases (payload_padded hPayload hBridge hMid (by simpa using hZeros)).1
  | @served incoming c mid taken rest frames r last hNext hStays hPayload hRest ih =>
    rw [bytesOf_of_nextByte hNext] at hBytes
    obtain ⟨later, rfl, hMid⟩ := of_cons_eq_padded hBytes hStays (by grind)
    have hEnough : 65538 ≤ n := by simpa using hZeros
    have hBridge := hUnbridged.1 (Nat.succ_pos _)
    obtain ⟨-, hTaken⟩ := payload_padded hPayload hBridge hMid hEnough
    rw [← payload_append_bytesOf hPayload] at hMid
    rcases of_append_eq_padded hMid hTaken with ⟨last', rfl, hBytes'⟩ | ⟨k, hBytes'⟩
    · have hLater : Unbridged last'.length (frames.map (server, ·)) := by
        have hFrames := hUnbridged.2
        rwa [List.length_cons, List.length_cons, List.length_append, Nat.add_sub_add_right,
          Nat.add_sub_cancel_left] at hFrames
      obtain ⟨hOk, ⟨last'', rfl, hLast⟩ | hLast⟩ := ih hBytes' (.inl hEnough) hLater
      · exact ⟨hOk, .inl ⟨last'', by simp, hLast⟩⟩
      · exact ⟨hOk, .inr hLast⟩
    · obtain ⟨hOk, ⟨last'', hNone, hLast⟩ | hLast⟩ :=
        ih hBytes' (.inr ⟨rfl, Nat.succ_pos k⟩) (unbridged_zero _)
      · obtain ⟨-, rfl⟩ := List.append_eq_nil_iff.mp hNone.symm
        exact ⟨hOk, .inr ⟨_, hLast⟩⟩
      · exact ⟨hOk, .inr hLast⟩

/-! ## The whole protocol -/

theorem Splits.resync {grants : List Bool} {incoming rest : List Arrival}
    {frames : List (Server × List UInt8)} {r : Except LinkError Unit}
    (h : Splits grants incoming frames r rest) {bytes : List UInt8} {n : Nat}
    (hBytes : bytesOf incoming = padded bytes n) (hZeros : 65538 ≤ n ∨ bytes = [])
    (hUnbridged : Unbridged bytes.length frames) : r = .ok () := by
  induction h generalizing bytes n with
  | ended hEnd =>
    rw [bytesOf_of_none hEnd] at hBytes
    simp [padded] at hBytes
  | left hNext => rfl
  | plain hNext hStays hPlain hRest ih =>
    rw [bytesOf_of_nextByte hNext] at hBytes
    match bytes, n with
    | b :: later, n =>
      obtain ⟨rfl, hLater⟩ := List.cons.inj hBytes
      exact ih hLater (.inl (by simpa using hZeros)) hUnbridged.2
    | [], 0 => exact absurd (List.cons.inj hBytes).1 hStays
    | [], n + 1 =>
      have hLater : bytesOf _ = padded [] n := (List.cons.inj hBytes).2
      exact ih hLater (.inr rfl) (unbridged_zero _)
  | refused hNext hEngine hRest ih =>
    rw [bytesOf_of_nextByte hNext] at hBytes
    obtain ⟨later, rfl, hLater⟩ := of_cons_eq_padded hBytes (Engine.ne_zero hEngine)
      fun _ _ => Engine.ne_of_ofCommandByte? hEngine
    exact ih hLater (.inl (by simpa using hZeros)) hUnbridged.2
  | broken hNext hEngine hSession =>
    rw [bytesOf_of_nextByte hNext] at hBytes
    obtain ⟨later, rfl, hLater⟩ := of_cons_eq_padded hBytes (Engine.ne_zero hEngine)
      fun _ _ => Engine.ne_of_ofCommandByte? hEngine
    cases (hSession.resync hLater (.inl (by simpa using hZeros)) hUnbridged.2).1
  | granted hNext hEngine hSession hRest ih =>
    rw [bytesOf_of_nextByte hNext] at hBytes
    obtain ⟨later, rfl, hLater⟩ := of_cons_eq_padded hBytes (Engine.ne_zero hEngine)
      fun _ _ => Engine.ne_of_ofCommandByte? hEngine
    have hEnough : 65538 ≤ n := by simpa using hZeros
    obtain ⟨hHere, hThen⟩ := hUnbridged.2.of_append
    rcases (hSession.resync hLater (.inl hEnough) hHere).2 with ⟨last, rfl, hLast⟩ | ⟨k, hLast⟩
    · refine ih hLast (.inl hEnough) ?_
      simpa [Function.comp_def] using hThen
    · exact ih hLast (.inr rfl) (unbridged_zero _)

/-- Whatever the host has sent, the protocol ends well where enough zeros and the byte that ends the
protocol follow, unless the UART began before to pass everything on. -/
theorem conversation_resync {ω β : Type} (board : Board β) (own : ω) (state : β) {link : Link}
    (hOpen : link.IsOpen) (bytes : List UInt8) {n : Nat} (hZeros : 65538 ≤ n)
    (hIncoming : bytesOf link.incoming = bytes ++ (List.replicate n 0 ++ [0x0F]))
    (hUnbridged : ∀ place server frame,
      (place, server, frame) ∈ placed 0 (commands (conversation board own state link).2.events) →
        place < bytes.length → isBridge server frame = false) :
    (conversation board own state link).1 = .ok () := by
  refine (conversation_splits board own state hOpen).resync hIncoming (.inl hZeros) ?_
  exact unbridged_of_placed 0 (by simpa using hUnbridged)

theorem head?_of_mem_placed {place offset : Nat} {server : Server} {frame : List UInt8}
    {commands : List Command} {b : UInt8} (h : (place, server, frame) ∈ placed offset commands)
    (hHead : frame.head? = some b) :
    (commands.map Command.frame).flatten[place - offset]? = some b := by
  induction commands generalizing offset with
  | nil => cases h
  | cons command commands ih =>
    rw [List.map_cons, List.flatten_cons]
    cases h with
    | head =>
      obtain ⟨frame, hFrame⟩ := List.head?_eq_some_iff.mp hHead
      rw [hFrame, Nat.sub_self]
      rfl
    | tail _ hLater =>
      have hBehind := le_of_mem_placed hLater
      rw [List.getElem?_append_right (by omega), Nat.sub_sub]
      exact ih hLater

/-- No bridge begins among bytes that do not contain its command byte. -/
theorem isBridge_of_not_mem {ω β : Type} (board : Board β) (own : ω) (state : β) {link : Link}
    (hOpen : link.IsOpen) {bytes later : List UInt8}
    (hIncoming : bytesOf link.incoming = bytes ++ later) (hByte : 0x0F ∉ bytes) (place : Nat)
    (server : Server) (frame : List UInt8)
    (hPlaced :
      (place, server, frame) ∈ placed 0 (commands (conversation board own state link).2.events))
    (hPlace : place < bytes.length) : isBridge server frame = false := by
  refine Bool.eq_false_iff.mpr fun hBridge => hByte ?_
  have hHead : frame.head? = some 0x0F :=
    of_decide_eq_true (Bool.and_eq_true_iff.mp hBridge).2
  have hStream := (conversation_splits board own state hOpen).flatten_append_bytesOf
  rw [List.map_map, hIncoming] at hStream
  have hFound := head?_of_mem_placed hPlaced hHead
  rw [Nat.sub_zero] at hFound
  obtain ⟨hBound, -⟩ := List.getElem?_eq_some_iff.mp hFound
  have hByte' : (bytes ++ later)[place]? = some 0x0F := by
    rw [← hStream]
    exact (List.getElem?_append_left hBound).trans hFound
  rw [List.getElem?_append_left hPlace] at hByte'
  exact List.mem_of_getElem? hByte'

/-- A host that has sent half of a count to the I2C engine. -/
def halfCount : List UInt8 := [0x02, 0x08, 0xFF]

/-- The zeros complete the counts, and are the bytes for which the first count asks. -/
theorem conversation_resync_halfCount :
    (conversation (Recording.board "" {}) () {}
      { incoming := (halfCount ++ (List.replicate 65538 0 ++ [0x0F])).map .byte }).1 = .ok () := by
  exact conversation_resync (Recording.board "" {}) () {} ⟨rfl, rfl⟩ halfCount (Nat.le_refl _)
    (bytesOf_map_byte _)
    (isBridge_of_not_mem (Recording.board "" {}) () {} ⟨rfl, rfl⟩ (bytesOf_map_byte _) (by decide))

end BusBench.Binary
