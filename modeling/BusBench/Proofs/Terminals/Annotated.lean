import BusBench.Proofs.Terminals.Spending

/-!
# What is taken for lines and what for keys

An annotated console is one of which it is written down what it took for lines, and what was there
when it was asked for a key. Nobody who uses it notices.

* `Annotated`: a console with what it took.
* `Annotated.plain`, `Annotated.run_forget`: it runs as the console itself.
* `Annotated.between`: an annotated console beside another console.
-/

namespace BusBench

/-- What a console has been asked for. -/
structure Taken where
  /-- What was taken for lines. -/
  lines : List Arrival := []
  /-- What was there when a key was asked for, `none` where nothing was to arrive any more. -/
  keys : List (Option Arrival) := []

structure Annotated where
  console : Console
  taken : Taken := {}

namespace Annotated

variable {α : Type}

/-- A dialogue with the console, after which something is written down. -/
def noting (note : Annotated → Console → Taken) (talk : Dialogue Console Error α) :
    Dialogue Annotated Error α :=
  talk.within (·.console) (fun console annotated => ⟨console, note annotated console⟩) id

def noteNothing (annotated : Annotated) (_ : Console) : Taken :=
  annotated.taken

/-- What of the arrivals at the first console is gone at the second. -/
def gone (before after : Console) : List Arrival :=
  before.link.incoming.take (before.link.incoming.length - after.link.incoming.length)

def noteLine (annotated : Annotated) (after : Console) : Taken :=
  { annotated.taken with lines := gone annotated.console after ++ annotated.taken.lines }

def noteKey (annotated : Annotated) (_ : Console) : Taken :=
  { annotated.taken with keys := annotated.console.link.incoming.head? :: annotated.taken.keys }

instance : Terminal Annotated where
  remaining annotated := Terminal.remaining annotated.console
  write text := noting noteNothing (Console.write text)
  readLine question := noting noteLine (Console.readLine question)
  pollKey := noting noteKey Console.pollKey
  writeBytes bytes := noting noteNothing (Console.writeBytes bytes)

/-! ## Dialogues -/

open Dialogue (Ends Spends)

variable {S ω β : Type} {o : Observer S} {s : S} {annotated : Annotated}
  {note : Annotated → Console → Taken} {talk : Dialogue Console Error α}

theorem noting_run (note : Annotated → Console → Taken) (talk : Dialogue Console Error α)
    (r : Recorded Annotated) : (noting note talk).run r =
      let done := talk.run ⟨r.peer.console, r.events⟩
      (done.1, ⟨⟨done.2.peer, note r.peer done.2.peer⟩, done.2.events⟩) :=
  Dialogue.within_run _ _ talk r

theorem readLine_run (question : String) (r : Recorded Annotated) :
    (Terminal.readLine question : Dialogue Annotated Error Line).run r =
      let done := (Console.readLine question).run ⟨r.peer.console, r.events⟩
      (done.1, ⟨⟨done.2.peer, noteLine r.peer done.2.peer⟩, done.2.events⟩) :=
  noting_run noteLine (Console.readLine question) r

theorem pollKey_run (r : Recorded Annotated) :
    (Terminal.pollKey : Dialogue Annotated Error (Option UInt8)).run r =
      let done := Console.pollKey.run ⟨r.peer.console, r.events⟩
      (done.1, ⟨⟨done.2.peer, noteKey r.peer done.2.peer⟩, done.2.events⟩) :=
  noting_run noteKey Console.pollKey r

/-! ## Beside the console itself -/

variable {P : Taken → Prop}

/-- The consoles are the same, and so is all that has happened, and `P` holds of what was taken. -/
def plain (P : Taken → Prop) : Accord Annotated Console where
  tie _ told told' := P told.1.taken ∧ told.1.console = told'.1 ∧ told.2 = told'.2
  ends _ := false
  ends_cases h := absurd h Bool.false_ne_true
  tie_cons := by
    rintro ended told told' event - ⟨hTaken, hConsole, hEvents⟩
    exact ⟨hTaken, hConsole, congrArg (event :: ·) hEvents⟩

theorem plain_accords {said : α → Bool}
    (hNote : ∀ annotated after, P annotated.taken → P (note annotated after))
    (h : Spends Console.meter 0 talk) :
    Dialogue.Accords (plain P) false (noting note talk) talk said := by
  refine fun base base' => ⟨fun _ => id, ?_⟩
  rintro r r' - ⟨hTaken, hConsole, hEvents⟩
  obtain ⟨result, after, new, hRun, -⟩ := h r'.peer
  have hSame : r.peer.console = r'.peer := hConsole
  rw [noting_run, hSame, hRun, hRun]
  refine ⟨rfl, hNote _ _ hTaken, rfl, ?_⟩
  simp only [List.map_append, List.append_assoc]
  exact congrArg (new.map Event.peer ++ ·) hEvents

theorem plain_even : (plain P).Even where
  remaining h := congrArg Terminal.remaining h.2.1
  goesOn := rfl

theorem plain_bond (hLine : ∀ annotated after, P annotated.taken → P (noteLine annotated after)) :
    (plain P).Bond where
  write text := plain_accords (fun _ _ => id) (Console.write_spends text)
  writeBytes bytes := plain_accords (fun _ _ => id) (Console.writeBytes_spends bytes)
  readLine question := plain_accords hLine ((Console.readLine_spends question).mono (Nat.zero_le 1))
  select := plain_even.select
    (fun text => plain_accords (fun _ _ => id) (Console.write_spends text))
    fun question => plain_accords hLine ((Console.readLine_spends question).mono (Nat.zero_le 1))

theorem plain_poll (hKey : ∀ annotated after, P annotated.taken → P (noteKey annotated after)) :
    (plain P).Poll where
  toEven := plain_even
  pollKey := plain_accords hKey (Console.pollKey_spends.mono (Nat.zero_le 1))

/-- The world without what was written down. -/
def forget (w : World ω β Annotated) : World ω β Console :=
  ⟨w.own, w.board, w.peer.console, w.events⟩

/-- The world with nothing written down yet. -/
def annotate (w : World ω β Console) : World ω β Annotated :=
  ⟨w.own, w.board, { console := w.peer }, w.events⟩

theorem eq_forget {ended : Bool} {w : World ω β Annotated} {w' : World ω β Console}
    (h : (plain P).Worlds ended w w') : w' = forget w := by
  obtain ⟨own, s, annotated, events⟩ := w
  obtain ⟨own', s', console, events'⟩ := w'
  obtain ⟨hOwn, hBoard, -, hConsole, hEvents⟩ := h
  obtain rfl : own = own' := hOwn
  obtain rfl : s = s' := hBoard
  obtain rfl : annotated.console = console := hConsole
  obtain rfl : events = events' := hEvents
  rfl

/-- What runs in accord on both runs as if nothing were written down, and what holds of all that is
taken holds afterwards. -/
theorem run_forget {program : Act ω β Annotated Error α} {program' : Act ω β Console Error α}
    {said : α → Bool} (h : Act.Accords (plain P) false program program' said) (board : Board β)
    {w : World ω β Annotated} (hTaken : P w.peer.taken) :
    (program' board).run (forget w) =
        (((program board).run w).1, forget (program.after board w)) ∧
      P (program.after board w).peer.taken := by
  obtain ⟨hResult, hAfter⟩ :=
    (h board).agrees w (forget w) not_false ⟨rfl, rfl, hTaken, rfl, rfl⟩
  exact ⟨Prod.ext hResult.symm (eq_forget hAfter), hAfter.told.1⟩

/-! ## Beside another console -/

/-- No failure but the announcement of the binary protocol ends the talk. -/
def switches (e : Error) : Bool :=
  e = .modeSwitch

variable {R : Console → Console → Prop} {lost : Taken → Prop}

/-- The consoles are related, and an observer has seen the same. Nothing is announced, so the talk
does not end. -/
def between (o : Observer S) (R : Console → Console → Prop) (lost : Taken → Prop) :
    Accord Annotated Console where
  tie ended told told' := ended = false ∧ R told.1.console told'.1 ∧ o.of told.2 = o.of told'.2
  ends := switches
  lost annotated := lost annotated.taken
  ends_cases h := .inl (of_decide_eq_true h)
  tie_cons := by
    rintro ended told told' event - ⟨hTalking, hRelated, hSeen⟩
    exact ⟨hTalking, hRelated, congrArg (o.see event) hSeen⟩

theorem between_accords {said : α → Bool}
    (hLoses : ∀ annotated after, lost annotated.taken → lost (note annotated after))
    (h : ∀ annotated console s, R annotated.console console →
      Ends o talk annotated.console s fun r after t => Ends o talk console s fun r' after' t' =>
        ¬ lost (note annotated after) →
          r = r' ∧ overAfter switches said r = false ∧ R after after' ∧ t = t') :
    Dialogue.Accords (between o R lost) false (noting note talk) talk said := by
  refine .of_ends (Q := fun ended annotated console s s' => ended = false ∧
    R annotated.console console ∧ s = s') (fun r hLost => ?_) .rfl ?_
  · rw [noting_run]
    exact hLoses _ _ hLost
  · rintro annotated console s s' ⟨-, hRelated, rfl⟩
    exact .within (h annotated console s hRelated)

/-- A relation of consoles on open links, to which output does not matter. -/
structure Steady (R : Console → Console → Prop) : Prop where
  isOpen : ∀ {console console'}, R console console' → console.link.IsOpen ∧ console'.link.IsOpen
  with_link : ∀ {console console'} {link link' : Link}, R console console' → link.IsOpen →
    link'.IsOpen → link.incoming = console.link.incoming →
    link'.incoming = console'.link.incoming →
    R { console with link } { console' with link := link' }

/-- What only sends is sent on both. -/
theorem between_keeps_of_sends {talk : Dialogue Console Error Unit} {bytes : List UInt8}
    (hSteady : Steady R)
    (h : ∀ {console : Console} {s : S} {post : Except Error Unit → Console → S → Prop},
      console.link.IsOpen → (∀ link : Link, link.IsOpen → link.incoming = console.link.incoming →
        post (.ok ()) { console with link } (o.sayAll bytes s)) → Ends o talk console s post) :
    Dialogue.Keeps (between o R lost) (noting noteNothing talk) talk := by
  refine between_accords (fun _ _ => id) fun annotated console s hRelated => ?_
  obtain ⟨hOpen, hOpen'⟩ := hSteady.isOpen hRelated
  exact h hOpen fun link hLink hIncoming => h hOpen' fun link' hLink' hIncoming' _ =>
    ⟨rfl, rfl, hSteady.with_link hRelated hLink hLink' hIncoming hIncoming', rfl⟩

end Annotated

end BusBench
