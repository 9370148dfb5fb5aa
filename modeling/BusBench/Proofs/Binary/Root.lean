import BusBench.Proofs.Binary.I2c
import BusBench.Proofs.Binary.Spi
import BusBench.Proofs.Binary.Uart

/-!
# Rounds of the root

* `Follows`: what rounds of the root together come to.
* `serveRound_yields`: a round of the root, with the engine that it hands over to.
* `run_yields`: the whole protocol.
-/

namespace BusBench.Binary

open Act (Yields)
open Tally (observer)

variable {ω β : Type} {incoming rest last : List Arrival} {t t' t'' : Tally}
  {r : Except LinkError Unit}

/-! ## Banners -/

namespace Tally

/-- The last command is one whose reply is not looked at. -/
def Rests (t : Tally) : Prop :=
  ∀ key ∈ t.keys.head?, key.1 = .root ∨ key.2 = [0x00]

theorem Proper.say {b : UInt8} (h : t.Proper) (hRests : t.Rests) : (t.say b).Proper := by
  rcases t with ⟨awaiting?, _ | ⟨command, commands⟩, grants⟩
  · exact h
  · intro other hOther hServer hFrame
    rcases List.mem_cons.mp hOther with rfl | hOther
    · rcases hRests (command.server, command.frame) rfl with hRoot | hZero
      · exact absurd hRoot hServer
      · exact absurd hZero hFrame
    · exact h other (List.mem_cons_of_mem _ hOther) hServer hFrame

theorem Proper.sayAll {bytes : List UInt8} (h : t.Proper) (hRests : t.Rests) :
    (observer.sayAll bytes t).Proper := by
  induction bytes generalizing t with
  | nil => exact h
  | cons b bytes ih =>
    have hRests' : (t.say b).Rests := by
      rw [Rests, keys_say]
      exact hRests
    exact ih (h.say hRests) hRests'

end Tally

/-- An engine is left by the byte 0. -/
theorem Session.last_of_ok {server : Server} {frames : List (List UInt8)}
    (h : Session server incoming frames (.ok ()) rest) : frames.getLast? = some [0x00] := by
  generalize hOk : Except.ok () = r at h
  induction h with
  | ended | cut => cases hOk
  | left hNext => rfl
  | served hNext hStays hPayload hRest ih => rw [List.getLast?_cons, ih hOk]; rfl

/-! ## Rounds -/

/-- What rounds of the root together come to. -/
structure Follows (incoming : List Arrival) (t : Tally) (r : Except LinkError Unit)
    (rest : List Arrival) (t' : Tally) : Prop where
  splits : ∃ grants frames, Splits grants incoming frames r rest ∧
    t'.grants = grants.reverse ++ t.grants ∧ t'.keys = frames.reverse ++ t.keys
  proper : t'.Calm → t.Proper → t'.Proper

theorem proper_root {frame reply : List UInt8} : (Command.mk .root frame reply).Proper :=
  fun hServer => absurd rfl hServer

theorem Follows.plain {c : UInt8} {reply : List UInt8} (hNext : nextByte incoming = some (c, rest))
    (hStays : c ≠ 0x0F) (hPlain : Engine.ofCommandByte? c = none)
    (h : Follows rest (t.serving ⟨.root, [c], reply⟩) r last t') :
    Follows incoming t r last t' where
  splits := by
    obtain ⟨grants, frames, hSplits, hGrants, hKeys⟩ := h.splits
    exact ⟨grants, _, .plain hNext hStays hPlain hSplits, hGrants, hKeys.trans (by simp; rfl)⟩
  proper hCalm hProper := h.proper hCalm (hProper.serving proper_root)

theorem Follows.refused {c : UInt8} {engine : Engine} {reply : List UInt8}
    (hNext : nextByte incoming = some (c, rest)) (hEngine : Engine.ofCommandByte? c = some engine)
    (h : Follows rest ((t.granting false).serving ⟨.root, [c], reply⟩) r last t') :
    Follows incoming t r last t' where
  splits := by
    obtain ⟨grants, frames, hSplits, hGrants, hKeys⟩ := h.splits
    exact ⟨_, _, .refused hNext hEngine hSplits, hGrants.trans (by simp; rfl),
      hKeys.trans (by simp; rfl)⟩
  proper hCalm hProper := h.proper hCalm (Tally.Proper.serving hProper proper_root)

theorem Follows.broken {c : UInt8} {engine : Engine} {reply : List UInt8} {e : LinkError}
    (hNext : nextByte incoming = some (c, rest)) (hEngine : Engine.ofCommandByte? c = some engine)
    (hLasts : Lasts engine.server false rest ((t.granting true).serving ⟨.root, [c], reply⟩)
      (.error e) last t') : Follows incoming t (.error e) last t' where
  splits := by
    obtain ⟨frames, hSession, hKeys⟩ := hLasts.session
    exact ⟨_, _, .broken hNext hEngine hSession, hLasts.grants, hKeys.trans (by simp; rfl)⟩
  proper hCalm hProper := hLasts.proper rfl hCalm (Tally.Proper.serving hProper proper_root)

/-- The banner of the root does not count as a reply to the engine. -/
theorem Follows.granted {c : UInt8} {engine : Engine} {reply : List UInt8} {mid : List Arrival}
    {bytes : List UInt8} (hNext : nextByte incoming = some (c, rest))
    (hEngine : Engine.ofCommandByte? c = some engine)
    (hLasts : Lasts engine.server false rest ((t.granting true).serving ⟨.root, [c], reply⟩)
      (.ok ()) mid t')
    (h : Follows mid (observer.sayAll bytes t') r last t'') : Follows incoming t r last t'' where
  splits := by
    obtain ⟨frames, hSession, hKeys⟩ := hLasts.session
    obtain ⟨grants, frames', hSplits, hGrants', hKeys'⟩ := h.splits
    refine ⟨_, _, .granted hNext hEngine hSession hSplits, ?_, ?_⟩
    · rw [hGrants', Tally.grants_sayAll, hLasts.grants]
      simp
      rfl
    · rw [hKeys', Tally.keys_sayAll, hKeys]
      simp
      rfl
  proper hCalm hProper := by
    obtain ⟨frames, hSession, hKeys⟩ := hLasts.session
    obtain ⟨_, frames', -, -, hKeys'⟩ := h.splits
    have hRests : t'.Rests := by
      intro key hKey
      rw [hKeys, List.head?_append, List.head?_reverse, List.getLast?_map,
        hSession.last_of_ok] at hKey
      obtain rfl := Option.some.inj hKey
      exact Or.inr rfl
    have hCalm' : t'.Calm := hCalm.of_keys (hKeys'.trans (by rw [Tally.keys_sayAll]))
    have hProper' : t'.Proper :=
      hLasts.proper rfl hCalm' (Tally.Proper.serving hProper proper_root)
    exact h.proper hCalm (hProper'.sayAll hRests)

theorem Engine.run_yields (engine : Engine) {c : UInt8} :
    Yields observer (engine.run : Talk ω β Unit) incoming (t.serving ⟨.root, [c], []⟩)
      (Engaged engine.server c incoming t) := by
  cases engine with
  | spi => exact Spi.run_yields
  | i2c => exact I2c.run_yields
  | uart => exact Uart.run_yields

theorem banner_yields {post : Except LinkError Unit → List Arrival → Tally → Prop}
    (h : post (.ok ()) incoming (observer.sayAll banner.toUTF8.toList t)) :
    Yields observer (sendBanner banner : Talk ω β Unit) incoming t post :=
  .dialogue (.bind (.sendAll (.flush h)))

theorem serveRound_yields :
    Yields observer (serveRound () : Talk ω β _) incoming t
      (Yields.roundPost (fun _ => Follows) () incoming t) := by
  refine .bind (.reach (.bind (.dialogue (.read (fun c mid hNext => ?_) fun hEnd =>
    ⟨⟨[], [], .ended hEnd, rfl, rfl⟩, fun _ => id⟩))))
  change Yields observer _ mid (t.serving ⟨.root, [c], []⟩) _
  have hShorter := length_of_nextByte hNext
  refine .ite (fun hZero => ?_) fun hNonzero => .ite (fun hLeave => ?_) fun hStays => ?_
  · subst hZero
    exact .bind (sendBanner_yields (.pure
      ⟨hShorter, fun r last t' h => h.plain hNext (by decide) rfl⟩))
  · subst hLeave
    exact .bind (reply_yields (.pure
      ⟨⟨[], _, .left hNext, rfl, rfl⟩, fun _ hProper => hProper.serving proper_root⟩))
  · split
    · next hPlain =>
      exact .pure ⟨hShorter, fun r last t' h => h.plain hNext hStays hPlain⟩
    · next engine hEngine =>
      refine .bind ((engine.run_yields).mono fun r rest t' hEngaged => ?_)
      cases hEngaged with
      | refused =>
        exact .bind (sendBanner_yields (.pure
          ⟨hShorter, fun r last t' h => h.refused hNext hEngine⟩))
      | granted hLasts =>
        cases r with
        | error e => exact .broken hNext hEngine hLasts
        | ok _ =>
          obtain ⟨frames, hSession, -⟩ := hLasts.session
          exact .bind (banner_yields (.pure ⟨Nat.lt_of_le_of_lt hSession.length_le hShorter,
            fun r last t'' h => .granted hNext hEngine hLasts h⟩))

theorem run_yields :
    Yields observer (run : Talk ω β Unit) incoming {} (Follows incoming {}) := by
  refine .bind (banner_yields ?_)
  have hSilent : observer.sayAll banner.toUTF8.toList ({} : Tally) = {} := by
    induction banner.toUTF8.toList with
    | nil => rfl
    | cons b bytes ih => exact ih
  rw [hSilent]
  exact .serveUntil (fun _ _ _ => serveRound_yields) ()

end BusBench.Binary
