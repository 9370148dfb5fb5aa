import BusBench.Proofs.Binary.Framing
import BusBench.Proofs.World.Talks

/-!
# Rounds of the engines

A round of an engine takes one command and replies to it. What a round may come to is the same for
all engines, and rounds together are a session.

* `Round`: what a round may come to.
* `Serves`: one more command stands in the tally.
* `Lasts`: what rounds together come to.
* `Engaged`: what an engine comes to.
-/

namespace BusBench.Binary

open Act (Yields)

/-! ## The tally of a round -/

namespace Tally

/-- The commands without their replies. -/
def keys (t : Tally) : List (Server × List UInt8) :=
  t.commands.map fun command => (command.server, command.frame)

theorem keys_say (b : UInt8) (t : Tally) : (t.say b).keys = t.keys := by
  rcases t with ⟨_, _ | _, _⟩ <;> rfl

theorem keys_sayAll (bytes : List UInt8) (t : Tally) :
    (observer.sayAll bytes t).keys = t.keys := by
  induction bytes generalizing t with
  | nil => rfl
  | cons b bytes ih => exact (ih (t.say b)).trans (keys_say b t)

theorem grants_sayAll (bytes : List UInt8) (t : Tally) :
    (observer.sayAll bytes t).grants = t.grants := by
  induction bytes generalizing t with
  | nil => rfl
  | cons b bytes ih =>
    refine (ih (t.say b)).trans ?_
    rcases t with ⟨_, _ | _, _⟩ <;> rfl

/-- No command lets the UART pass on what it receives. -/
def Calm (t : Tally) : Prop :=
  ∀ key ∈ t.keys, stirs key.1 key.2 = false

theorem Calm.of_keys {t t' : Tally} {front : List (Server × List UInt8)} (h : t'.Calm)
    (hKeys : t'.keys = front ++ t.keys) : t.Calm :=
  fun key hKey => h key (hKeys ▸ List.mem_append_right front hKey)

/-- All commands are replied to as they should. -/
def Proper (t : Tally) : Prop :=
  ∀ command ∈ t.commands, command.Proper

theorem Proper.serving {t : Tally} (h : t.Proper) {command : Command} (hCommand : command.Proper) :
    (t.serving command).Proper := by
  intro other hOther
  rcases List.mem_cons.mp hOther with rfl | hOther
  · exact hCommand
  · exact h other hOther

/-- Nothing was heard. Something may be said meanwhile, but only by an echo. -/
structure Waits (echo : Bool) (t t' : Tally) : Prop where
  keys : t'.keys = t.keys
  grants : t'.grants = t.grants
  proper : echo = false → t.Proper → t'.Proper

/-- One more command was taken, and replied to as it should unless there is an echo. -/
structure Serves (echo : Bool) (server : Server) (frame : List UInt8) (t t' : Tally) : Prop where
  keys : t'.keys = (server, frame) :: t.keys
  grants : t'.grants = t.grants
  proper : echo = false → t'.Calm → t.Proper → t'.Proper

theorem Waits.trans {echo : Bool} {t t' t'' : Tally} (h : Waits echo t t')
    (h' : Waits echo t' t'') : Waits echo t t'' where
  keys := h'.keys.trans h.keys
  grants := h'.grants.trans h.grants
  proper hEcho hProper := h'.proper hEcho (h.proper hEcho hProper)

theorem Waits.serves {echo : Bool} {server : Server} {frame : List UInt8} {t t' t'' : Tally}
    (h : Waits echo t t') (h' : Serves echo server frame t' t'') :
    Serves echo server frame t t'' where
  keys := h'.keys.trans (by rw [h.keys])
  grants := h'.grants.trans h.grants
  proper hEcho hCalm hProper := h'.proper hEcho hCalm (h.proper hEcho hProper)

theorem Serves.of_serving {echo : Bool} {server : Server} {frame reply : List UInt8} (t : Tally)
    (h : (Command.mk server frame reply).Proper) :
    Serves echo server frame t (t.serving ⟨server, frame, reply⟩) :=
  ⟨rfl, rfl, fun _ _ hProper => hProper.serving h⟩

end Tally

open Tally (Waits Serves)

/-! ## Rounds -/

section Rounds

variable {σ : Type} (server : Server) (echo : σ → Bool)

/-- What a round of an engine may come to. -/
inductive Round (x : σ) (incoming : List Arrival) (t : Tally) :
    Except LinkError (σ ⊕ Unit) → List Arrival → Tally → Prop
  | ended {t'} (hEnd : nextByte incoming = none) (hWaits : Waits (echo x) t t') :
    Round x incoming t (.error .endOfInput) [] t'
  | paused {rest t'} (hPause : incoming = .pause :: rest) (hWaits : Waits (echo x) t t') :
    Round x incoming t (.ok (.inl x)) rest t'
  | left {rest t'} (hNext : nextByte incoming = some (0x00, rest))
    (hServes : Serves (echo x) server [0x00] t t') :
    Round x incoming t (.ok (.inr ())) rest t'
  | cut {c mid bytes rest t'} (hNext : nextByte incoming = some (c, mid)) (hStays : c ≠ 0x00)
    (hPayload : payload (kind server c) mid = (bytes, rest, false))
    (hServes : Serves (echo x) server (c :: bytes) t t') :
    Round x incoming t (.error .endOfInput) [] t'
  | served {c mid bytes rest t' x'} (hNext : nextByte incoming = some (c, mid)) (hStays : c ≠ 0x00)
    (hPayload : payload (kind server c) mid = (bytes, rest, true))
    (hServes : Serves (echo x) server (c :: bytes) t t')
    (hEcho : echo x = false → t'.Calm → echo x' = false) :
    Round x incoming t (.ok (.inl x')) rest t'

end Rounds

/-- A round may begin with waiting. -/
theorem Round.of_waits {σ : Type} {server : Server} {echo : σ → Bool} {x : σ}
    {incoming rest : List Arrival} {t t' t'' : Tally} {r : Except LinkError (σ ⊕ Unit)}
    (hWaits : Waits (echo x) t t') (h : Round server echo x incoming t' r rest t'') :
    Round server echo x incoming t r rest t'' := by
  cases h with
  | ended hEnd hWaits' => exact .ended hEnd (hWaits.trans hWaits')
  | paused hPause hWaits' => exact .paused hPause (hWaits.trans hWaits')
  | left hNext hServes => exact .left hNext (hWaits.serves hServes)
  | cut hNext hStays hPayload hServes => exact .cut hNext hStays hPayload (hWaits.serves hServes)
  | served hNext hStays hPayload hServes hEcho =>
    exact .served hNext hStays hPayload (hWaits.serves hServes) hEcho

/-- What rounds together come to: a session, whose commands are replied to as they should unless
there is an echo. -/
structure Lasts (server : Server) (echo : Bool) (incoming : List Arrival) (t : Tally)
    (r : Except LinkError Unit) (rest : List Arrival) (t' : Tally) : Prop where
  session : ∃ frames, Session server incoming frames r rest ∧
    t'.keys = (frames.map (server, ·)).reverse ++ t.keys
  grants : t'.grants = t.grants
  proper : echo = false → t'.Calm → t.Proper → t'.Proper

namespace Lasts

variable {server : Server} {echo echo' : Bool} {incoming rest last : List Arrival}
  {t t' t'' : Tally} {r : Except LinkError Unit}

theorem of_waits (hEnd : nextByte incoming = none) (hWaits : Waits echo t t') :
    Lasts server echo incoming t (.error .endOfInput) [] t' where
  session := ⟨[], .ended hEnd, hWaits.keys⟩
  grants := hWaits.grants
  proper hEcho _ := hWaits.proper hEcho

theorem of_serves {frame : List UInt8} (hSession : Session server incoming [frame] r rest)
    (hServes : Serves echo server frame t t') : Lasts server echo incoming t r rest t' where
  session := ⟨[frame], hSession, hServes.keys⟩
  grants := hServes.grants
  proper := hServes.proper

theorem pause (hPause : incoming = .pause :: rest) (hWaits : Waits echo t t')
    (h : Lasts server echo rest t' r last t'') : Lasts server echo incoming t r last t'' where
  session := by
    obtain ⟨frames, hSession, hKeys⟩ := h.session
    rw [hPause]
    exact ⟨frames, hSession.pause, hKeys.trans (by rw [hWaits.keys])⟩
  grants := h.grants.trans hWaits.grants
  proper hEcho hCalm hProper := h.proper hEcho hCalm (hWaits.proper hEcho hProper)

theorem serve {c : UInt8} {mid : List Arrival} {bytes : List UInt8}
    (hNext : nextByte incoming = some (c, mid)) (hStays : c ≠ 0x00)
    (hPayload : payload (kind server c) mid = (bytes, rest, true))
    (hServes : Serves echo server (c :: bytes) t t')
    (hEcho : echo = false → t'.Calm → echo' = false)
    (h : Lasts server echo' rest t' r last t'') : Lasts server echo incoming t r last t'' where
  session := by
    obtain ⟨frames, hSession, hKeys⟩ := h.session
    refine ⟨(c :: bytes) :: frames, .served hNext hStays hPayload hSession, ?_⟩
    rw [hKeys, hServes.keys, List.map_cons, List.reverse_cons, List.append_assoc,
      List.singleton_append]
  grants := h.grants.trans hServes.grants
  proper hQuiet hCalm hProper := by
    obtain ⟨frames, -, hKeys⟩ := h.session
    have hCalm' : t'.Calm := hCalm.of_keys hKeys
    exact h.proper (hEcho hQuiet hCalm') hCalm (hServes.proper hQuiet hCalm' hProper)

end Lasts

section Loops

variable {σ ω β : Type} {server : Server} {echo : σ → Bool} {incoming rest : List Arrival}
  {t t' : Tally}

/-- Rounds that come to what they may come to last as they should. -/
theorem Round.roundPost {x : σ} {r : Except LinkError (σ ⊕ Unit)}
    (h : Round server echo x incoming t r rest t') :
    Yields.roundPost (fun x => Lasts server (echo x)) x incoming t r rest t' := by
  cases h with
  | ended hEnd hWaits => exact .of_waits hEnd hWaits
  | paused hPause hWaits =>
    refine ⟨by rw [hPause]; exact Nat.lt_succ_self _, fun r last t'' hLasts => ?_⟩
    exact hLasts.pause hPause hWaits
  | left hNext hServes => exact .of_serves (.left hNext) hServes
  | cut hNext hStays hPayload hServes => exact .of_serves (.cut hNext hStays hPayload) hServes
  | served hNext hStays hPayload hServes hEcho =>
    refine ⟨Nat.lt_of_le_of_lt (length_of_payload hPayload) (length_of_nextByte hNext),
      fun r last t'' hLasts => ?_⟩
    exact hLasts.serve hNext hStays hPayload hServes hEcho

theorem serveUntil_yields {round : σ → Talk ω β (σ ⊕ Unit)}
    (hRound : ∀ x incoming t,
      Yields Tally.observer (round x) incoming t (Round server echo x incoming t)) (x : σ) :
    Yields Tally.observer (serveUntil round x) incoming t (Lasts server (echo x) incoming t) :=
  .serveUntil (fun x incoming t => (hRound x incoming t).mono fun _ _ _ h => h.roundPost) x

end Loops

/-! ## Engines -/

/-- What an engine may come to that a command of the root asked for. Its banner is part of the reply
to that command. -/
inductive Engaged (server : Server) (c : UInt8) (incoming : List Arrival) (t : Tally) :
    Except LinkError Unit → List Arrival → Tally → Prop
  | refused : Engaged server c incoming t (.ok ()) incoming
      ((t.granting false).serving ⟨.root, [c], []⟩)
  | granted {reply r rest t'}
    (hLasts : Lasts server false incoming ((t.granting true).serving ⟨.root, [c], reply⟩)
      r rest t') : Engaged server c incoming t r rest t'

end BusBench.Binary
