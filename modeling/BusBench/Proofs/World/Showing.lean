import BusBench.Proofs.World.Moments
import BusBench.Terminal.Console
import BusBench.Terminal.Script

/-!
# Texts among the events

What a terminal was shown is found among the events again. A text that was taken is told by its
events, and these are the same wherever it was shown.

* `peerEvents`: what happened between a program and its peer.
* `Terminal.Spells`: by which events a text is told.
* `Act.Records.writeLines`: lines that were shown.
-/

namespace BusBench

/-! ## Events of the peer -/

def Event.peer? : Event → Option PeerEvent
  | peer event => some event
  | _ => none

/-- The events between a program and its peer. The oldest stands first. -/
def peerEvents (events : List Event) : List PeerEvent :=
  events.reverse.filterMap Event.peer?

theorem peerEvents_append (new earlier : List Event) :
    peerEvents (new ++ earlier) = peerEvents earlier ++ peerEvents new := by
  rw [peerEvents, List.reverse_append, List.filterMap_append]
  rfl

theorem peerEvents_map (events : List PeerEvent) :
    peerEvents (events.map .peer) = events.reverse := by
  rw [peerEvents, ← List.map_reverse, List.filterMap_map]
  exact List.filterMap_some

/-! ## Terminals -/

/-- Every text that the terminal takes is told by these events, the oldest first. -/
def Terminal.Spells (τ : Type) [Terminal τ] (spell : String → List PeerEvent) : Prop :=
  ∀ text, Dialogue.Records (Terminal.write text : Dialogue τ Error Unit)
    fun _ new => new = (spell text).reverse

/-- The events of lines of text. -/
def spelled (spell : String → List PeerEvent) (lines : List String) : List PeerEvent :=
  lines.flatMap fun line => spell (line ++ "\n")

theorem spelled_append (spell : String → List PeerEvent) (lines more : List String) :
    spelled spell (lines ++ more) = spelled spell lines ++ spelled spell more :=
  List.flatMap_append

/-- A scripted terminal keeps a text as a whole, unless it is empty. -/
def Script.spelling (text : String) : List PeerEvent :=
  if text.isEmpty then [] else [.shown text]

theorem Script.keep_records (text : String) :
    Dialogue.Records (Script.keep text) fun _ new => new = (spelling text).reverse := by
  unfold Script.keep spelling
  by_cases hEmpty : text.isEmpty = true
  · rw [if_pos hEmpty, if_pos hEmpty]
    exact .pure rfl
  · rw [if_neg hEmpty, if_neg hEmpty]
    exact .note rfl

/-- Where there is no room for a text it is not taken. -/
theorem Script.spells : Terminal.Spells Script Script.spelling := by
  intro text
  change Dialogue.Records (Script.write text) _
  unfold Script.write
  refine .bind (.peer fun script => ?_)
  cases script.room with
  | none => exact (keep_records text).mono fun _ new hNew => hNew.symm ▸ List.append_nil _
  | some n =>
    dsimp only
    by_cases hRoom : text.utf8ByteSize ≤ n
    · rw [if_pos hRoom]
      refine .bind ((keep_records text).mono fun _ new hNew => .modifyPeer ?_)
      rw [hNew, List.append_nil, List.nil_append]
    · rw [if_neg hRoom]
      refine .bind ((keep_records _).mono fun _ _ _ => .bind (.modifyPeer (.throw _)))

/-- The terminal on a link sends the bytes of a text. -/
def Console.spelling (text : String) : List PeerEvent :=
  (wireBytes text).map .sent

theorem Console.spells : Terminal.Spells Console Console.spelling := by
  intro text
  have hSent : Dialogue.Records (Link.sendAll (wireBytes text))
      fun _ new => new = (spelling text).reverse := .sendAll rfl
  change Dialogue.Records (Console.onLink (Link.sendAll (wireBytes text))) _
  exact .within hSent

/-! ## Programs -/

/-- The events are these exchanges with the board, and tell these lines of text. -/
structure Shown (spell : String → List PeerEvent) (events : List Event) (trace : List Exchange)
    (lines : List String) : Prop where
  exchanges : exchanges events = trace
  peerEvents : peerEvents events = spelled spell lines

namespace Shown

variable {spell : String → List PeerEvent} {events earlier : List Event}
  {trace trace' : List Exchange} {lines lines' : List String}

theorem append (h : Shown spell events trace lines) (h' : Shown spell earlier trace' lines') :
    Shown spell (events ++ earlier) (trace' ++ trace) (lines' ++ lines) where
  exchanges := by rw [exchanges_append, h.exchanges, h'.exchanges]
  peerEvents := by rw [peerEvents_append, h.peerEvents, h'.peerEvents, spelled_append]

theorem board (exchange : Exchange) : Shown spell [.board exchange] [exchange] [] :=
  ⟨rfl, rfl⟩

theorem line (text : String) :
    Shown spell ((spell (text ++ "\n")).reverse.map .peer) [] [text] where
  exchanges := exchanges_map_peer _
  peerEvents := by
    rw [peerEvents_map, List.reverse_reverse]
    exact (List.append_nil _).symm

end Shown

namespace Act

variable {ω β τ ε α γ : Type} {spell : String → List PeerEvent}

/-- If the program succeeds, it does so with an answer, with exchanges and with lines of text that
`post` accepts. -/
def Prints (spell : String → List PeerEvent) (program : Act ω β τ ε α)
    (post : α → List Exchange → List String → Prop) : Prop :=
  Records program fun a new => ∃ trace lines, Shown spell new trace lines ∧ post a trace lines

namespace Prints

variable {program : Act ω β τ ε α} {post : α → List Exchange → List String → Prop}

theorem mono {weak : α → List Exchange → List String → Prop} (h : Prints spell program post)
    (hPost : ∀ a trace lines, post a trace lines → weak a trace lines) :
    Prints spell program weak :=
  Records.mono h fun a _ ⟨trace, lines, hShown, hResult⟩ =>
    ⟨trace, lines, hShown, hPost a trace lines hResult⟩

theorem pure {a : α} (h : post a [] []) : Prints spell (Pure.pure a : Act ω β τ ε α) post :=
  Records.pure ⟨[], [], ⟨rfl, rfl⟩, h⟩

theorem bind {next : α → Act ω β τ ε γ} {post : γ → List Exchange → List String → Prop}
    (h : Prints spell program fun a trace lines => Prints spell (next a) fun c trace' lines' =>
      post c (trace ++ trace') (lines ++ lines')) :
    Prints spell (program >>= next) post := by
  refine Records.bind (Records.mono h fun a new hFirst => ?_)
  obtain ⟨trace, lines, hShown, hNext⟩ := hFirst
  refine Records.mono hNext fun c new' hSecond => ?_
  obtain ⟨trace', lines', hShown', hResult⟩ := hSecond
  exact ⟨trace ++ trace', lines ++ lines', hShown'.append hShown, hResult⟩

theorem ask {request : Request} {post : request.Answer → List Exchange → List String → Prop}
    (h : ∀ answer, post answer [⟨request, answer⟩] []) :
    Prints spell (Act.ask request : Act ω β τ ε request.Answer) post :=
  Records.ask fun answer => ⟨_, _, .board ⟨request, answer⟩, h answer⟩

theorem tell {request : Request} {post : Unit → List Exchange → List String → Prop}
    (h : ∀ answer, post () [⟨request, answer⟩] []) :
    Prints spell (Act.tell request : Act ω β τ ε Unit) post :=
  .bind (.ask fun answer => .pure (h answer))

variable [Terminal τ] (hSpells : Terminal.Spells τ spell)
include hSpells

theorem writeLine {line : String} {post : Unit → List Exchange → List String → Prop}
    (h : post () [] [line]) : Prints spell (Act.writeLine line : Act ω β τ Error Unit) post := by
  refine Records.dialogue ((hSpells (line ++ "\n")).mono fun _ new hNew => ?_)
  rw [hNew]
  exact ⟨_, _, .line line, h⟩

theorem writeLines {lines : List String} {post : PUnit → List Exchange → List String → Prop}
    (h : post () [] lines) :
    Prints spell (lines.forM Act.writeLine : Act ω β τ Error PUnit) post := by
  induction lines generalizing post with
  | nil => exact .pure h
  | cons line lines ih => exact .bind (.writeLine hSpells (ih h))

/-- What follows a line that could not be shown is not of interest, if it does not succeed. -/
theorem attempt_writeLine {line : String} {next : Except Error Unit → Act ω β τ Error α}
    (h : Prints spell (next (.ok ())) fun a trace lines => post a trace (line :: lines))
    (hFailed : ∀ e, Records (next (.error e)) fun _ _ => False) :
    Prints spell (Act.attempt (Act.writeLine line) >>= next) post := by
  refine Records.bind (Records.attempt_dialogue ?_ fun e new => ?_)
  · refine (hSpells (line ++ "\n")).mono fun _ new hNew => Records.mono h fun a new' hRest => ?_
    obtain ⟨trace, lines, hShown, hResult⟩ := hRest
    have hLine : Shown spell (new.map .peer) [] [line] := hNew ▸ .line line
    exact ⟨trace, line :: lines, hShown.append hLine, hResult⟩
  · exact (hFailed e).mono fun _ _ hNever => hNever.elim

end Prints

end Act

end BusBench
