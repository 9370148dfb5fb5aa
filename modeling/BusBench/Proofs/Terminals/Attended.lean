import BusBench.Proofs.Terminals.Accord
import BusBench.Proofs.Terminals.Announcements

/-!
# Which lines are waited for

An attended console is one of which it is written down in which states it began to wait for a line.
Nobody who uses it notices. As soon as the binary protocol is announced in one of these waits the
talk is over, and what arrives next is what follows the announcement.

* `Attended`: a console with the waits so far.
* `Attended.accord`: an attended console beside one that is not.
* `Attended.bond`, `Attended.poll`: programs come to the same on both.
-/

namespace BusBench

/-- A console, and its states when a line was waited for, the newest first. -/
structure Attended where
  console : Console
  waits : List Console := []

namespace Attended

variable {α : Type}

def onConsole (talk : Dialogue Console Error α) : Dialogue Attended Error α :=
  talk.within (·.console) (fun console attended => { attended with console }) id

def readLine (question : String) : Dialogue Attended Error Line := do
  Dialogue.modifyPeer fun attended =>
    { attended with waits := attended.console :: attended.waits }
  onConsole (Console.readLine question)

instance : Terminal Attended where
  remaining attended := Terminal.remaining attended.console
  write text := onConsole (Console.write text)
  readLine := readLine
  pollKey := onConsole Console.pollKey
  writeBytes bytes := onConsole (Console.writeBytes bytes)

end Attended

/-! ## Consoles that are alike -/

namespace Console

/-- Consoles on open links to which the same is still to arrive, and which make the same of it. -/
structure Alike (console console' : Console) : Prop where
  isOpen : console.link.IsOpen
  isOpen' : console'.link.IsOpen
  incoming : console.link.incoming = console'.link.incoming
  detector : console.detector = console'.detector
  afterReturn : console.afterReturn = console'.afterReturn

theorem Awaited.unique {S : Type} {o : Observer S} {s s₁ s₁' s₂ : S} {expected : Reading}
    {r r' : Except Error Line} {after after' : Console} (h : Awaited o s expected r after s₁)
    (h' : Awaited o s₁' expected r' after' s₂) : r = r' ∧ after.Alike after' := by
  have hSame : Reading.of r after expected.echo = .of r' after' expected.echo :=
    h.reading.symm.trans h'.reading
  simp only [Reading.of, Reading.mk.injEq] at hSame
  obtain ⟨-, hIncoming, hDetector, hReturn, -⟩ := hSame
  exact ⟨h.result_eq.trans h'.result_eq.symm, h.isOpen, h'.isOpen, hIncoming, hDetector, hReturn⟩

end Console

/-! ## The accord -/

namespace Attended

open Dialogue (Ends)

variable {S α : Type} {o : Observer S} {s : S} {attended : Attended} {console : Console}

/-- The talk goes on: nothing was announced where a line was waited for. -/
structure Talking (attended : Attended) (console : Console) : Prop where
  alike : attended.console.Alike console
  settled : console.Settled
  unannounced : ∀ wait ∈ attended.waits, ∀ rest, ¬ wait.Announces rest

/-- The talk is over: if anything was announced it was in the latest wait, and what arrives next is
what follows the announcement. -/
structure Over (attended : Attended) (console : Console) : Prop where
  alike : attended.console.Alike console
  latest : ∀ wait ∈ attended.waits, ∀ rest, wait.Announces rest → console.link.incoming = rest

def Tie : Bool → Attended → Console → Prop
  | false => Talking
  | true => Over

/-- The announcement ends the talk. -/
def accord : Accord Attended Console where
  tie ended told told' := Tie ended told.1 told'.1
  ends e := e = .modeSwitch
  ends_cases h := .inl (of_decide_eq_true h)
  tie_cons _ h := h

theorem accords_of_ends {ended : Bool} {talk : Dialogue Attended Error α}
    {talk' : Dialogue Console Error α} {said : α → Bool}
    (h : ∀ attended console, Tie ended attended console →
      Ends .blind talk attended () fun r attended' _ =>
        Ends .blind talk' console () fun r' console' _ =>
          r = r' ∧ Tie (accord.isOver said r) attended' console') :
    Dialogue.Accords accord ended talk talk' said :=
  .of_ends (o := .blind) (Q := fun ended attended console _ _ => Tie ended attended console)
    (fun _ => id) .rfl fun attended console _ _ hTie => (h attended console hTie).mono
      fun _ _ _ hEnds => hEnds.mono fun _ _ _ hSame _ => hSame

/-- What only sends leaves the consoles alike. -/
theorem keeps_of_sends {talk : Dialogue Console Error Unit}
    (h : ∀ {console : Console} {post : Except Error Unit → Console → Unit → Prop},
      console.link.IsOpen → (∀ link : Link, link.IsOpen → link.incoming = console.link.incoming →
        post (.ok ()) { console with link } ()) → Ends .blind talk console () post) :
    Dialogue.Keeps accord (onConsole talk) talk := by
  refine accords_of_ends fun attended console hTie => ?_
  obtain ⟨hAlike, hSettled, hUnannounced⟩ := hTie
  refine .within (h hAlike.isOpen fun link hOpen hIncoming =>
    h hAlike.isOpen' fun link' hOpen' hIncoming' => ⟨rfl, ?_, ?_, hUnannounced⟩)
  · exact ⟨hOpen, hOpen', hIncoming.trans (hAlike.incoming.trans hIncoming'.symm),
      hAlike.detector, hAlike.afterReturn⟩
  · exact hSettled.imp id hIncoming'.trans

theorem readLine_accords (question : String) :
    Dialogue.Accords accord false (readLine question) (Console.readLine question)
      accord.endsWith := by
  refine accords_of_ends fun attended console hTie => ?_
  obtain ⟨hAlike, hSettled, hUnannounced⟩ := hTie
  have hSettled' : attended.console.Settled :=
    hSettled.imp hAlike.detector.trans hAlike.incoming.trans
  refine .bind (.modifyPeer (.within ?_))
  refine (Console.readLine_ends Observer.deaf_blind hAlike.isOpen question).mono
    fun r after _ hAwaited => (Console.readLine_ends Observer.deaf_blind hAlike.isOpen'
      question).mono fun r' after' _ hAwaited' => ?_
  have hAnnounced : ∀ rest, attended.console.Announces rest →
      r = .ok .modeSwitch ∧ after.link.incoming = rest :=
    fun rest => hAwaited.of_announces hSettled'
  rw [hAlike.incoming, hAlike.detector, hAlike.afterReturn] at hAwaited
  obtain ⟨rfl, hAlike'⟩ := hAwaited.unique hAwaited'
  have hTalking : r ≠ .ok .modeSwitch →
      Talking ⟨after, attended.console :: attended.waits⟩ after' := by
    intro hGoesOn
    refine ⟨hAlike', hAwaited'.settled hGoesOn, fun wait hWait rest hAnnounces => ?_⟩
    rcases List.mem_cons.mp hWait with rfl | hWait
    · exact hGoesOn (hAnnounced rest hAnnounces).1
    · exact hUnannounced wait hWait rest hAnnounces
  refine ⟨rfl, ?_⟩
  rcases r with e | chars | -
  · obtain rfl := hAwaited'.result e rfl
    exact hTalking nofun
  · exact hTalking nofun
  · refine ⟨hAlike', fun wait hWait rest hAnnounces => ?_⟩
    rcases List.mem_cons.mp hWait with rfl | hWait
    · exact hAlike'.incoming.symm.trans (hAnnounced rest hAnnounces).2
    · exact absurd hAnnounces (hUnannounced wait hWait rest)

theorem pollKey_keeps : Dialogue.Keeps accord (onConsole Console.pollKey) Console.pollKey := by
  refine accords_of_ends fun attended console hTie => ?_
  obtain ⟨hAlike, hSettled, hUnannounced⟩ := hTie
  refine .within (Console.pollKey_ends Observer.deaf_blind hAlike.isOpen
    fun link hOpen hRest => Console.pollKey_ends Observer.deaf_blind hAlike.isOpen'
      fun link' hOpen' hRest' => ?_)
  rw [hAlike.incoming] at hRest ⊢
  have hTalking : Talking ⟨{ attended.console with link }, attended.waits⟩
      { console with link := link' } := by
    refine ⟨⟨hOpen, hOpen', hRest.trans hRest'.symm, hAlike.detector, hAlike.afterReturn⟩,
      hSettled.imp id fun hNone => hRest'.trans ?_, hUnannounced⟩
    rw [hNone]
    rfl
  refine ⟨rfl, ?_⟩
  rcases console.link.incoming with _ | ⟨_ | _, rest⟩
  · exact hTalking
  · exact hTalking
  · exact hTalking

theorem poll : accord.Poll where
  pollKey := pollKey_keeps
  remaining h := congrArg List.length h.alike.incoming
  goesOn := rfl

theorem bond : accord.Bond where
  write _ := keeps_of_sends Console.sendAll_ends
  writeBytes _ := keeps_of_sends (Console.sendAndFlush_ends Observer.deaf_blind)
  readLine := readLine_accords
  select := poll.select (fun _ => keeps_of_sends Console.sendAll_ends) readLine_accords

end Attended

end BusBench
