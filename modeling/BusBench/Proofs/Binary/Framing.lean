import BusBench.Binary.Root
import BusBench.Proofs.Binary.Commands

/-!
# Frames of a stream

How a stream is cut into commands follows from the stream and from the engines that the board
grants. Nothing else that a board answers has a say in it.

* `Session`: the commands that one engine takes from a stream.
* `Splits`: the commands of the whole protocol.
* `Splits.unique`: only the grants decide.
-/

namespace BusBench.Binary

theorem length_afterCounts_le (counts : List UInt8) (arrivals : List Arrival) :
    (afterCounts counts arrivals).2.1.length ≤ arrivals.length := by
  unfold afterCounts
  split
  · exact length_fetch_le _ arrivals
  · exact Nat.le_refl _

theorem length_payload_le (kind : Kind) (arrivals : List Arrival) :
    (payload kind arrivals).2.1.length ≤ arrivals.length := by
  cases kind with
  | banner | status | ignored => exact Nat.le_refl _
  | bulk n => exact length_fetch_le n arrivals
  | paired => exact Nat.le_trans (length_afterCounts_le _ _) (length_fetch_le 4 arrivals)
  | bridge => exact Nat.zero_le _

theorem length_of_payload {kind : Kind} {arrivals rest : List Arrival} {bytes : List UInt8}
    {complete : Bool} (h : payload kind arrivals = (bytes, rest, complete)) :
    rest.length ≤ arrivals.length := by
  have hLength := length_payload_le kind arrivals
  rwa [h] at hLength

/-- Where the payload is cut short, nothing arrives any more. -/
theorem payload_cut {kind : Kind} {arrivals rest : List Arrival} {bytes : List UInt8}
    (h : payload kind arrivals = (bytes, rest, false)) : rest = [] := by
  cases kind with
  | banner | status | ignored => cases h
  | bulk n =>
    obtain ⟨-, hRest⟩ := Prod.mk.inj h
    obtain ⟨rfl, hCut⟩ := Prod.mk.inj hRest
    exact fetch_cut (of_decide_eq_false hCut)
  | paired =>
    change afterCounts (fetch 4 arrivals).1 (fetch 4 arrivals).2 = _ at h
    unfold afterCounts at h
    split at h
    · obtain ⟨-, hRest⟩ := Prod.mk.inj h
      obtain ⟨rfl, hCut⟩ := Prod.mk.inj hRest
      exact fetch_cut (of_decide_eq_false hCut)
    · next hFour =>
      obtain ⟨-, hRest⟩ := Prod.mk.inj h
      obtain ⟨rfl, -⟩ := Prod.mk.inj hRest
      refine fetch_cut fun hLength => ?_
      match hCounts : (fetch 4 arrivals).1, hLength with
      | [a, b, c, d], _ => exact hFour a b c d hCounts
  | bridge => cases h; rfl

theorem payload_append_bytesOf {kind : Kind} {arrivals rest : List Arrival} {bytes : List UInt8}
    {complete : Bool} (h : payload kind arrivals = (bytes, rest, complete)) :
    bytes ++ bytesOf rest = bytesOf arrivals := by
  cases kind with
  | banner | status | ignored =>
    cases h
    rfl
  | bulk n =>
    cases h
    exact fetch_append_bytesOf n arrivals
  | paired =>
    have hFour := fetch_append_bytesOf 4 arrivals
    change afterCounts (fetch 4 arrivals).1 (fetch 4 arrivals).2 = _ at h
    unfold afterCounts at h
    split at h
    · next hCounts =>
      obtain ⟨rfl, hRest⟩ := Prod.mk.inj h
      obtain ⟨rfl, -⟩ := Prod.mk.inj hRest
      rw [hCounts] at hFour
      simp only [List.cons_append, List.nil_append] at hFour ⊢
      change _ :: _ :: _ :: _ :: ((fetch _ _).1 ++ bytesOf (fetch _ _).2) = _
      rw [fetch_append_bytesOf, hFour]
    · obtain ⟨rfl, hRest⟩ := Prod.mk.inj h
      obtain ⟨rfl, -⟩ := Prod.mk.inj hRest
      exact hFour
  | bridge =>
    cases h
    exact List.append_nil _

/-! ## One engine -/

/-- From a stream an engine takes commands with these bytes and comes to an end in this way, with
these arrivals left. -/
inductive Session (server : Server) :
    List Arrival → List (List UInt8) → Except LinkError Unit → List Arrival → Prop
  | ended {incoming} (hEnd : nextByte incoming = none) :
    Session server incoming [] (.error .endOfInput) []
  | left {incoming rest} (hNext : nextByte incoming = some (0x00, rest)) :
    Session server incoming [[0x00]] (.ok ()) rest
  | cut {incoming c mid bytes rest} (hNext : nextByte incoming = some (c, mid)) (hStays : c ≠ 0x00)
    (hPayload : payload (kind server c) mid = (bytes, rest, false)) :
    Session server incoming [c :: bytes] (.error .endOfInput) []
  | served {incoming c mid bytes rest frames r last} (hNext : nextByte incoming = some (c, mid))
    (hStays : c ≠ 0x00) (hPayload : payload (kind server c) mid = (bytes, rest, true))
    (hRest : Session server rest frames r last) :
    Session server incoming ((c :: bytes) :: frames) r last

namespace Session

variable {server : Server} {incoming rest rest' : List Arrival} {frames frames' : List (List UInt8)}
  {r r' : Except LinkError Unit}

/-- A moment of silence does not matter. -/
theorem pause (h : Session server incoming frames r rest) :
    Session server (.pause :: incoming) frames r rest := by
  cases h with
  | ended hEnd => exact .ended hEnd
  | left hNext => exact .left hNext
  | cut hNext hStays hPayload => exact .cut hNext hStays hPayload
  | served hNext hStays hPayload hRest => exact .served hNext hStays hPayload hRest

theorem length_le (h : Session server incoming frames r rest) : rest.length ≤ incoming.length := by
  induction h with
  | ended | cut => exact Nat.zero_le _
  | left hNext => exact Nat.le_of_lt (length_of_nextByte hNext)
  | served hNext hStays hPayload hRest ih =>
    exact Nat.le_trans ih (Nat.le_trans (length_of_payload hPayload)
      (Nat.le_of_lt (length_of_nextByte hNext)))

/-- The bytes of the stream are those of the commands, and those that are left. -/
theorem flatten_append_bytesOf (h : Session server incoming frames r rest) :
    frames.flatten ++ bytesOf rest = bytesOf incoming := by
  induction h with
  | ended hEnd => exact (bytesOf_of_none hEnd).symm
  | left hNext => exact (bytesOf_of_nextByte hNext).symm
  | cut hNext hStays hPayload =>
    obtain rfl := payload_cut hPayload
    rw [bytesOf_of_nextByte hNext, ← payload_append_bytesOf hPayload]
    simp
  | served hNext hStays hPayload hRest ih =>
    rw [bytesOf_of_nextByte hNext, ← payload_append_bytesOf hPayload, ← ih]
    simp

theorem unique (h : Session server incoming frames r rest)
    (h' : Session server incoming frames' r' rest') : frames = frames' ∧ r = r' ∧ rest = rest' := by
  induction h generalizing frames' with
  | ended hEnd => cases h' <;> simp_all
  | left hNext => cases h' <;> simp_all
  | cut hNext hStays hPayload => cases h' <;> simp_all
  | served hNext hStays hPayload hRest ih =>
    cases h' with
    | ended hEnd' => simp_all
    | left hNext' => simp_all
    | cut hNext' hStays' hPayload' => simp_all
    | served hNext' hStays' hPayload' hRest' =>
      obtain ⟨rfl, rfl⟩ := Prod.mk.inj (Option.some.inj (hNext.symm.trans hNext'))
      obtain ⟨rfl, hSame⟩ := Prod.mk.inj (hPayload.symm.trans hPayload')
      obtain ⟨rfl, -⟩ := Prod.mk.inj hSame
      obtain ⟨rfl, rfl, rfl⟩ := ih hRest'
      exact ⟨rfl, rfl, rfl⟩

end Session

/-! ## The whole protocol -/

/-- The loop that takes the commands of an engine. -/
def Engine.server : Engine → Server
  | .spi => .spi
  | .i2c => .i2c
  | .uart => .uart

/-- With these grants, the protocol takes commands with these servers and bytes from a stream and
comes to an end in this way, with these arrivals left. -/
inductive Splits : List Bool → List Arrival → List (Server × List UInt8) → Except LinkError Unit →
    List Arrival → Prop
  | ended {incoming} (hEnd : nextByte incoming = none) :
    Splits [] incoming [] (.error .endOfInput) []
  | left {incoming rest} (hNext : nextByte incoming = some (0x0F, rest)) :
    Splits [] incoming [(.root, [0x0F])] (.ok ()) rest
  | plain {grants incoming c rest frames r last} (hNext : nextByte incoming = some (c, rest))
    (hStays : c ≠ 0x0F) (hPlain : Engine.ofCommandByte? c = none)
    (hRest : Splits grants rest frames r last) :
    Splits grants incoming ((.root, [c]) :: frames) r last
  | refused {grants incoming c engine rest frames r last}
    (hNext : nextByte incoming = some (c, rest)) (hEngine : Engine.ofCommandByte? c = some engine)
    (hRest : Splits grants rest frames r last) :
    Splits (false :: grants) incoming ((.root, [c]) :: frames) r last
  | broken {incoming c engine rest frames e last}
    (hNext : nextByte incoming = some (c, rest)) (hEngine : Engine.ofCommandByte? c = some engine)
    (hSession : Session engine.server rest frames (.error e) last) :
    Splits [true] incoming ((.root, [c]) :: frames.map (engine.server, ·)) (.error e) last
  | granted {grants incoming c engine rest frames mid frames' r last}
    (hNext : nextByte incoming = some (c, rest)) (hEngine : Engine.ofCommandByte? c = some engine)
    (hSession : Session engine.server rest frames (.ok ()) mid)
    (hRest : Splits grants mid frames' r last) :
    Splits (true :: grants) incoming
      ((.root, [c]) :: (frames.map (engine.server, ·) ++ frames')) r last

/-- The two boards decided alike as long as both were asked. -/
def Concur (grants grants' : List Bool) : Prop :=
  ∀ (i : Nat) (granted granted' : Bool),
    grants[i]? = some granted → grants'[i]? = some granted' → granted = granted'

theorem Concur.of_eq {grants grants' : List Bool} (h : grants = grants') : Concur grants grants' := by
  intro i granted granted' hGranted hGranted'
  rw [h, hGranted'] at hGranted
  exact (Option.some.inj hGranted).symm

theorem Concur.head {granted granted' : Bool} {grants grants' : List Bool}
    (h : Concur (granted :: grants) (granted' :: grants')) : granted = granted' :=
  h 0 granted granted' rfl rfl

theorem Concur.tail {granted granted' : Bool} {grants grants' : List Bool}
    (h : Concur (granted :: grants) (granted' :: grants')) : Concur grants grants' :=
  fun i => h (i + 1)

theorem Engine.ne_of_ofCommandByte? {c : UInt8} {engine : Engine}
    (h : Engine.ofCommandByte? c = some engine) : c ≠ 0x0F := by
  rintro rfl
  cases h

/-- The stream and the grants decide everything. -/
theorem Splits.unique {grants grants' : List Bool} {incoming rest rest' : List Arrival}
    {frames frames' : List (Server × List UInt8)} {r r' : Except LinkError Unit}
    (h : Splits grants incoming frames r rest) (h' : Splits grants' incoming frames' r' rest')
    (hConcur : Concur grants grants') : frames = frames' ∧ r = r' ∧ rest = rest' := by
  induction h generalizing grants' frames' with
  | ended hEnd => cases h' <;> simp_all
  | left hNext =>
    cases h' with
    | ended | left | plain => simp_all
    | refused hNext' hEngine' | broken hNext' hEngine' | granted hNext' hEngine' =>
      have := Engine.ne_of_ofCommandByte? hEngine'
      simp_all
  | plain hNext hStays hPlain hRest ih =>
    cases h' with
    | ended | left | refused | broken | granted => simp_all
    | plain hNext' hStays' hPlain' hRest' =>
      obtain ⟨rfl, rfl⟩ := Prod.mk.inj (Option.some.inj (hNext.symm.trans hNext'))
      obtain ⟨rfl, rfl, rfl⟩ := ih hRest' hConcur
      exact ⟨rfl, rfl, rfl⟩
  | refused hNext hEngine hRest ih =>
    cases h' with
    | ended | plain => simp_all
    | left =>
      have := Engine.ne_of_ofCommandByte? hEngine
      simp_all
    | broken | granted => cases hConcur.head
    | refused hNext' hEngine' hRest' =>
      obtain ⟨rfl, rfl⟩ := Prod.mk.inj (Option.some.inj (hNext.symm.trans hNext'))
      obtain ⟨rfl, rfl, rfl⟩ := ih hRest' hConcur.tail
      exact ⟨rfl, rfl, rfl⟩
  | broken hNext hEngine hSession =>
    cases h' with
    | ended | plain => simp_all
    | left =>
      have := Engine.ne_of_ofCommandByte? hEngine
      simp_all
    | refused => cases hConcur.head
    | broken hNext' hEngine' hSession' =>
      obtain ⟨rfl, rfl⟩ := Prod.mk.inj (Option.some.inj (hNext.symm.trans hNext'))
      obtain rfl := Option.some.inj (hEngine.symm.trans hEngine')
      obtain ⟨rfl, hEnd, rfl⟩ := hSession.unique hSession'
      exact ⟨rfl, hEnd, rfl⟩
    | granted hNext' hEngine' hSession' =>
      obtain ⟨rfl, rfl⟩ := Prod.mk.inj (Option.some.inj (hNext.symm.trans hNext'))
      obtain rfl := Option.some.inj (hEngine.symm.trans hEngine')
      cases (hSession.unique hSession').2.1
  | granted hNext hEngine hSession hRest ih =>
    cases h' with
    | ended | plain => simp_all
    | left =>
      have := Engine.ne_of_ofCommandByte? hEngine
      simp_all
    | refused => cases hConcur.head
    | broken hNext' hEngine' hSession' =>
      obtain ⟨rfl, rfl⟩ := Prod.mk.inj (Option.some.inj (hNext.symm.trans hNext'))
      obtain rfl := Option.some.inj (hEngine.symm.trans hEngine')
      cases (hSession.unique hSession').2.1
    | granted hNext' hEngine' hSession' hRest' =>
      obtain ⟨rfl, rfl⟩ := Prod.mk.inj (Option.some.inj (hNext.symm.trans hNext'))
      obtain rfl := Option.some.inj (hEngine.symm.trans hEngine')
      obtain ⟨rfl, -, rfl⟩ := hSession.unique hSession'
      obtain ⟨rfl, rfl, rfl⟩ := ih hRest' hConcur.tail
      exact ⟨rfl, rfl, rfl⟩

/-- The bytes of the stream are those of the commands, and those that are left. -/
theorem Splits.flatten_append_bytesOf {grants : List Bool} {incoming rest : List Arrival}
    {frames : List (Server × List UInt8)} {r : Except LinkError Unit}
    (h : Splits grants incoming frames r rest) :
    (frames.map Prod.snd).flatten ++ bytesOf rest = bytesOf incoming := by
  induction h with
  | ended hEnd => exact (bytesOf_of_none hEnd).symm
  | left hNext => exact (bytesOf_of_nextByte hNext).symm
  | plain hNext hStays hPlain hRest ih | refused hNext hEngine hRest ih =>
    rw [bytesOf_of_nextByte hNext, ← ih]
    rfl
  | broken hNext hEngine hSession =>
    rw [bytesOf_of_nextByte hNext, ← hSession.flatten_append_bytesOf]
    simp [Function.comp_def]
  | granted hNext hEngine hSession hRest ih =>
    rw [bytesOf_of_nextByte hNext, ← hSession.flatten_append_bytesOf, ← ih]
    simp [Function.comp_def]

end BusBench.Binary
