import BusBench.Binary.Root
import BusBench.Proofs.World.Moments

/-!
# How the binary protocol is left

The protocol ends without a failure only where the host has sent the byte that leaves it.

* `Binary.Leaving`: the root has just taken and acknowledged this byte.
* `Binary.run_leaving`: how the protocol ends.
-/

namespace BusBench

open Act (Ends)

variable {ω β τ ε α : Type}

namespace Binary

/-- The last that happened is that the root took the byte `0x0F`, perhaps after a silence, and
acknowledged it. -/
def Leaving (events : List Event) : Prop :=
  ∃ silence earlier, (∀ event ∈ silence, event = PeerEvent.idle) ∧
    events = (.flushed :: .sent 1 :: .received 0x0F :: silence).map .peer ++
      .reached (.command .root) :: earlier

/-- Where the binary protocol ends without a failure, the host has left it. -/
theorem run_leaving (board : Board β) (world : World ω β Link) :
    Ends board (run : Talk ω β Unit) world fun r w =>
      r = .ok () → Leaving w.events := by
  have hRound : ∀ (u : Unit) (w : World ω β Link), True →
      Ends board (serveRound u : Talk ω β (Unit ⊕ Unit)) w fun
        | .ok (.inl _), _ => True
        | .ok (.inr _), w' => Leaving w'.events
        | .error _, _ => True := by
    intro u w _
    let waiting : World ω β Link := { w with events := .reached (.command .root) :: w.events }
    have hReached : ((Act.reach (.command .root) : Talk ω β Unit) board).run w =
        (.ok (), waiting) := rfl
    refine Ends.bind_run hReached (.bind ?_)
    have hRead : Act.Records (Act.dialogue Link.read : Talk ω β UInt8) fun c new =>
        ∃ silence, (∀ event ∈ silence, event = PeerEvent.idle) ∧
          new = (PeerEvent.received c :: silence).map .peer :=
      .dialogue (.read fun c silence hSilence => ⟨silence, hSilence, rfl⟩)
    have hReply : Act.Records (reply 1 : Talk ω β Unit) fun _ new =>
        new = [PeerEvent.flushed, .sent 1].map .peer :=
      .dialogue (.bind (.send (.flush rfl)))
    have hIgnored : ∀ (program : Talk ω β Unit) (w : World ω β Link),
        Ends board (do program; return .inl () : Talk ω β (Unit ⊕ Unit)) w fun
          | .ok (.inl _), _ => True
          | .ok (.inr _), w' => Leaving w'.events
          | .error _, _ => True := by
      intro program w
      have hAny : Ends board program w fun _ _ => True := trivial
      refine .bind (hAny.mono fun r w' _ => ?_)
      cases r with
      | ok _ => exact .pure trivial
      | error e => trivial
    refine (Ends.of_records board hRead).mono fun r w₁ hRead => ?_
    cases r with
    | error e => trivial
    | ok command =>
      obtain ⟨_, hEvents, silence, hSilence, rfl⟩ := hRead command rfl
      by_cases hBanner : command = 0x00
      · dsimp only
        rw [if_pos hBanner]
        exact hIgnored _ w₁
      · dsimp only
        rw [if_neg hBanner]
        by_cases hLeave : command = 0x0F
        · rw [if_pos hLeave]
          refine .bind ((Ends.of_records board hReply).mono fun r w₂ hReplied => ?_)
          cases r with
          | error e => trivial
          | ok _ =>
            obtain ⟨_, hEvents', rfl⟩ := hReplied () rfl
            subst hLeave
            refine .pure ⟨silence, w.events, hSilence, ?_⟩
            rw [hEvents', hEvents]
            simp [waiting]
        · rw [if_neg hLeave]
          split
          · exact .pure trivial
          · next engine hEngine =>
            have hSame := hIgnored (do engine.run; sendBanner banner) w₁
            rw [bind_assoc] at hSame
            exact hSame
  have hBanner : Ends board (sendBanner banner : Talk ω β Unit) world fun _ _ => True := trivial
  refine .bind (hBanner.mono fun r w _ => ?_)
  cases r with
  | error e => exact nofun
  | ok _ =>
    have hRounds : Ends board (rounds (throw .endOfInput) serveRound
        (w.peer.incoming.length + 1) () : Talk ω β Unit) w fun r w' =>
          r = .ok () → Leaving w'.events := by
      refine .rounds (I := fun _ => True) (fun w _ => .throw nofun) (fun u w h => ?_) _ _ trivial
      refine (hRound u w h).mono fun r w' h => ?_
      rcases r with e | u | u
      · exact nofun
      · trivial
      · exact fun _ => h
    exact hRounds

end Binary

end BusBench
