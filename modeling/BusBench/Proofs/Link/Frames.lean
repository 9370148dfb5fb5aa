import BusBench.Proofs.Link.Dialogues
import BusBench.Proofs.World.Moments

/-!
# Frames that arrive

A frame of bytes may arrive with moments of silence in between. Whoever reads the bytes one by one,
or counts, or many bytes at once, gets those of the frame.

* `Arrives`: a frame arrives before everything else.
* `Dialogue.Ends.read_of_arrives` and so on: what is read of it, whatever becomes of the output.
-/

namespace BusBench

/-! ## Arriving -/

/-- These bytes arrive first, and this comes after them. -/
inductive Arrives : List Arrival → List UInt8 → List Arrival → Prop
  | nil (arrivals) : Arrives arrivals [] arrivals
  | cons {arrivals b mid bytes rest} (hNext : nextByte arrivals = some (b, mid))
    (h : Arrives mid bytes rest) : Arrives arrivals (b :: bytes) rest

namespace Arrives

variable {arrivals rest : List Arrival} {b : UInt8} {bytes : List UInt8}

theorem cons_iff : Arrives arrivals (b :: bytes) rest ↔
    ∃ mid, nextByte arrivals = some (b, mid) ∧ Arrives mid bytes rest := by
  constructor
  · intro h
    cases h with
    | cons hNext h => exact ⟨_, hNext, h⟩
  · rintro ⟨mid, hNext, h⟩
    exact .cons hNext h

theorem of_bytes (bytes : List UInt8) (rest : List Arrival) :
    Arrives (bytes.map .byte ++ rest) bytes rest := by
  induction bytes with
  | nil => exact .nil _
  | cons b bytes ih => exact .cons rfl ih

end Arrives

/-! ## Reading -/

namespace Dialogue.Ends

variable {S : Type} {o : Observer S} {link : Link} {rest : List Arrival} {s : S}

theorem read_of_arrives {b : UInt8} {bytes : List UInt8}
    {post : Except LinkError UInt8 → Link → S → Prop}
    (hArrives : Arrives link.incoming (b :: bytes) rest)
    (h : ∀ mid, Arrives mid bytes rest →
      post (.ok b) { link with incoming := mid } (o.see (.peer (.received b)) s)) :
    Ends o Link.read link s post := by
  obtain ⟨mid, hFirst, hBytes⟩ := Arrives.cons_iff.mp hArrives
  rintro r base rfl rfl
  obtain ⟨new, hRun, hSeen⟩ := Yields.read_run (o := o) r base
  rw [hRun]
  simp only [hSeen, hFirst]
  exact h mid hBytes

theorem readCount_of_arrives {high low : UInt8} {bytes : List UInt8}
    {post : Except LinkError Nat → Link → S → Prop}
    (hArrives : Arrives link.incoming (high :: low :: bytes) rest)
    (h : ∀ mid, Arrives mid bytes rest → post (.ok (high.toNat * 256 + low.toNat))
      { link with incoming := mid } (o.hearAll [high, low] s)) :
    Ends o Link.readCount link s post :=
  .bind (read_of_arrives hArrives fun _ hLow => .bind (read_of_arrives hLow fun mid hBytes =>
    .pure (h mid hBytes)))

theorem collect_of_arrives {bytes collected : List UInt8}
    {post : Except LinkError (List UInt8) → Link → S → Prop}
    (hArrives : Arrives link.incoming bytes rest)
    (h : post (.ok (collected.reverse ++ bytes)) { link with incoming := rest }
      (o.hearAll bytes s)) :
    Ends o (Link.collect bytes.length collected) link s post := by
  induction bytes generalizing link s collected with
  | nil =>
    cases hArrives
    rw [List.append_nil] at h
    exact .pure h
  | cons b bytes ih =>
    refine .bind (read_of_arrives hArrives fun mid hBytes => ih hBytes ?_)
    rw [List.reverse_cons, List.append_assoc]
    exact h

theorem readExact_of_arrives {bytes : List UInt8}
    {post : Except LinkError (List UInt8) → Link → S → Prop}
    (hArrives : Arrives link.incoming bytes rest)
    (h : post (.ok bytes) { link with incoming := rest } (o.hearAll bytes s)) :
    Ends o (Link.readExact bytes.length) link s post :=
  collect_of_arrives hArrives h

end Dialogue.Ends

end BusBench
