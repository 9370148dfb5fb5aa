import BusBench.Board.Recording
import BusBench.Proofs.Serve.Termination
import BusBench.Proofs.Terminals.Respelled
import BusBench.Proofs.World.Moments

/-!
# Sessions whose lines are ended in different ways

A host is served the same whether it ends its lines by a carriage return, by a line feed or by both,
as long as nothing of the end of a line is taken for a key. Keys are taken as they arrive, and so is
the line feed that belongs to the line before.

* `Loops.agree_of_passes`: loops whose rounds come to the same.
* `Bench.roundTakes`: what a round takes for lines and for keys.
* `Bench.Retyped`: sessions that differ in the ends of lines.
* `Bench.retyped_of_quiet`: lines that ask for no key.
* `Bench.serve_lineEnds`: they come to the same.
* `Bench.runVoltmeter_of_arrived`: a byte that has arrived already ends the voltmeter.
-/

namespace BusBench

open Act (Ends Passes)

/-- Loops come to the same if related worlds are related again after each round that is made. -/
theorem Loops.agree_of_passes {ω β τ τ' ε σ α : Type} {board : Board β}
    {round : σ → Act ω β τ ε (σ ⊕ α)} {round' : σ → Act ω β τ' ε (σ ⊕ α)} {x : σ}
    {w after : World ω β τ} {w' after' : World ω β τ'} {r r' : Except ε α}
    {T : World ω β τ → World ω β τ' → Prop} (h : Loops (fun x => round x board) x w r after)
    (h' : Loops (fun x => round' x board) x w' r' after')
    (hRound : ∀ {x' v v'}, Passes board round x w x' v → T v v' →
      ((round x' board).run v).1 = ((round' x' board).run v').1 ∧
        T ((round x').after board v) ((round' x').after board v')) (hStart : T w w') :
    r = r' ∧ T after after' := by
  unfold Act.after at hRound
  obtain ⟨hSame, hNext⟩ := hRound .start hStart
  induction h generalizing w' with
  | goesOn hRun hRest ih =>
    rw [hRun] at hSame hNext
    have hFirst := Passes.next .start hRun
    have hLater := fun {x' v v'} hPasses => @hRound x' v v' (hFirst.trans hPasses)
    obtain ⟨hSame', hNext'⟩ := hLater .start hNext
    exact ih (h'.after_first (Prod.ext hSame.symm rfl)) hLater hNext hSame' hNext'
  | answers hRun =>
    rw [hRun] at hSame hNext
    obtain ⟨rfl, rfl⟩ := h'.after_first (Prod.ext hSame.symm rfl)
    exact ⟨rfl, hNext⟩
  | fails hRun =>
    rw [hRun] at hSame hNext
    obtain ⟨rfl, rfl⟩ := h'.after_first (Prod.ext hSame.symm rfl)
    exact ⟨rfl, hNext⟩

namespace Bench

open Annotated (annotate between forget plain plain_bond plain_poll run_forget)
open Console (Respelled Typing lineEnds respelled)

variable {S β : Type} {o : Observer S} {board : Board β} {w w' : World Bench β Console}
  {ending ending' : LineEnd} {lines : List (List Char)}

/-! ## Rounds -/

/-- What the round that begins in this world takes for lines and for keys, up to the binary
protocol. -/
def roundTakes (board : Board β) (w : World Bench β Console) : Taken :=
  (awaitFlow.after board (annotate w)).peer.taken

section Rounds

variable {R : Console → Console → Prop} {lost : Taken → Prop}

/-- What was written down in a round does not matter for the next. -/
theorem worlds_anew {ended : Bool} {u : World Bench β Annotated} {u' : World Bench β Console}
    (h : (between o R lost).Worlds ended u u') :
    (between o R lost).Worlds false (annotate (forget u)) u' :=
  ⟨h.own, h.board, rfl, h.told.2⟩

/-- A round in which the accord is not lost comes to the same, and the next one may follow. -/
theorem serveRound_agrees (hBond : (between o R lost).Bond) (hKeys : (between o R lost).Keys)
    (hKept : ¬ lost (roundTakes board w)) (h : (between o R lost).Worlds false (annotate w) w') :
    (((serveRound ()) board).run w).1 = (((serveRound ()) board).run w').1 ∧
      (between o R lost).Worlds false (annotate ((serveRound ()).after board w))
        ((serveRound ()).after board w') := by
  obtain ⟨hFlow, hWorlds⟩ :=
    (awaitFlow_accords hBond hKeys board).agrees (annotate w) w' hKept h
  have hAlone : (plain fun _ => True).Bond := plain_bond fun _ _ => id
  have hPlain : (awaitFlow board).run w = _ :=
    (run_forget (awaitFlow_accords hAlone ((plain_poll fun _ _ => id).keys hAlone)) board
      (w := annotate w) trivial).1
  unfold Act.after at hPlain ⊢
  rw [serveRound_eq, Act.run_bind, Act.run_bind, hPlain]
  generalize (awaitFlow board).run (annotate w) = done, (awaitFlow board).run w' = done'
    at hFlow hWorlds ⊢
  obtain ⟨r, u⟩ := done
  obtain ⟨r', u'⟩ := done'
  obtain rfl : r = r' := hFlow
  have hNext := worlds_anew hWorlds
  rcases r with e | flow
  · exact ⟨rfl, hNext⟩
  · cases flow with
    | «continue» => exact ⟨rfl, hNext⟩
    | reset => exact ⟨rfl, hNext⟩
    | binary => exact nomatch hWorlds.told.1

/-- A session in none of whose rounds the accord is lost comes to the same. -/
theorem serve_agrees (hBond : (between o R lost).Bond) (hKeys : (between o R lost).Keys)
    (hKept : ∀ v, Passes board serveRound () w () v → ¬ lost (roundTakes board v))
    (h : (between o R lost).Worlds false (annotate w) w') :
    ((serve board).run w).1 = ((serve board).run w').1 ∧
      (between o R lost).Worlds false (annotate (serve.after board w)) (serve.after board w') := by
  have hLoop : ∀ v : World Bench β Console, Loops (fun u => serveRound u board) () v
      ((serve board).run v).1 (serve.after board v) :=
    Act.RunsOut.askUntil serveRound_spends board ()
  exact (hLoop w).agree_of_passes (hLoop w')
    (fun hPasses hWorlds => serveRound_agrees hBond hKeys (hKept _ hPasses) hWorlds) h

end Rounds

/-! ## Rounds without keys -/

/-- Only a command that waits for keys is answered with the help of one. -/
theorem keys_roundTakes (hQuiet : ∀ chars, (((Act.dialogue (Console.readLine w.own.prompt) :
      Act Bench β Console Error Line) board).run w).1 = .ok (.text chars) → ¬ Polls chars) :
    (roundTakes board w).keys = [] := by
  have hBond : (plain (·.keys = [])).Bond := plain_bond fun _ _ => id
  have hRead : Act.Accords (plain (·.keys = [])) false
      (Act.dialogue (Terminal.readLine w.own.prompt) : Act Bench β Annotated Error Line)
      (Act.dialogue (Console.readLine w.own.prompt)) (plain (·.keys = [])).endsWith :=
    .dialogue (hBond.readLine w.own.prompt)
  obtain ⟨hLine, hWorlds⟩ :=
    (hRead board).agrees (annotate w) w not_false ⟨rfl, rfl, rfl, rfl, rfl⟩
  have hRun : (awaitFlow board).run (annotate w) =
      ((Act.dialogue (Terminal.readLine w.own.prompt) >>= answerLine) board).run (annotate w) := rfl
  rw [roundTakes, Act.after, hRun, Act.run_bind]
  generalize ((Act.dialogue (Terminal.readLine w.own.prompt) : Act Bench β Annotated Error Line)
      board).run (annotate w) = done,
    ((Act.dialogue (Console.readLine w.own.prompt) : Act Bench β Console Error Line) board).run w =
      done' at hLine hWorlds hQuiet ⊢
  obtain ⟨r, u⟩ := done
  obtain ⟨r', u'⟩ := done'
  obtain rfl : r = r' := hLine
  cases r with
  | error e => exact hWorlds.told.1
  | ok line =>
    have hAnswer := answerLine_accords hBond line (β := β) fun hText hPolls =>
      absurd hPolls (hQuiet _ (congrArg _ hText))
    exact ((hAnswer board).agrees u u' not_false hWorlds).2.told.1

/-- A session of lines none of which starts the voltmeter or a macro asks for no key. -/
theorem keyless_of_quiet (hTyping : Typing ending lines w.peer)
    (hQuiet : ∀ line ∈ lines, ¬ Polls line) {x : Unit} {v : World Bench β Console}
    (h : Passes board serveRound () w x v) : (roundTakes board v).keys = [] := by
  let A := lineEnds .blind lines ending ending lines.length
  have hHere : ∀ v : World Bench β Console, A.Worlds false (annotate v) v →
      (roundTakes board v).keys = [] := by
    intro v hWorlds
    obtain ⟨-, ⟨rest, hLeft, -, hRest, -⟩, -⟩ := hWorlds.told
    refine keys_roundTakes fun chars hRead => hQuiet chars (hLeft.subset ?_)
    have hNext := (Console.readLine_typing Observer.deaf_blind hRest v.own.prompt
      ⟨v.peer, []⟩ () rfl rfl).1
    cases rest with
    | nil => cases hNext.symm.trans hRead
    | cons line rest =>
      cases hNext.symm.trans hRead
      exact List.mem_cons_self
  -- What is left of the lines is the same as on the console itself, from round to round.
  have hAll : A.Worlds false (annotate v) v := by
    induction h with
    | start => exact ⟨rfl, rfl, rfl, ⟨lines, List.suffix_rfl, Nat.le_refl _, hTyping, hTyping⟩, rfl⟩
    | next h hRound ih =>
      have hNext := (serveRound_agrees (Console.lineEnds_bond Observer.deaf_blind)
        (Console.lineEnds_keys Observer.deaf_blind) (not_not_intro (hHere _ ih)) ih).2
      rw [Act.after, hRound] at hNext
      exact hNext
  exact hHere v hAll

/-! ## Sessions -/

/-- The sessions that begin in these worlds differ in nothing but the ends of lines, and nothing of
them is taken for a key in the first. -/
inductive Retyped (board : Board β) (w w' : World Bench β Console) : Prop
  /-- The same lines are to arrive, ended in any two ways, and no round asks for a key. -/
  | lines {ending ending' : LineEnd} {lines : List (List Char)}
    (hTyping : Typing ending lines w.peer) (hTyping' : Typing ending' lines w'.peer)
    (hKeyless : ∀ v, Passes board serveRound () w () v → (roundTakes board v).keys = []) :
    Retyped board w w'
  /-- The same is to arrive, keys and pauses included, but for carriage returns at the one where
  there are line feeds at the other. No round takes one of them for a key. -/
  | keys {mark mark' : UInt8} (hMarks : Marks mark mark')
    (hSame : Respelled mark mark' w.peer w'.peer)
    (hSorted : ∀ v, Passes board serveRound () w () v → (roundTakes board v).Sorted mark mark') :
    Retyped board w w'

/-- Lines of which none starts the voltmeter or a macro may be ended in any way. -/
theorem retyped_of_quiet (hTyping : Typing ending lines w.peer)
    (hTyping' : Typing ending' lines w'.peer) (hQuiet : ∀ line ∈ lines, ¬ Polls line) :
    Retyped board w w' :=
  .lines hTyping hTyping' fun _ hPasses => keyless_of_quiet hTyping hQuiet hPasses

/-- Whether the event is a matter of what arrives, or of when the output is flushed. -/
def isInput : Event → Bool
  | .peer (.received _) | .peer .idle | .peer (.failed .endOfInput) | .peer .flushed => true
  | _ => false

/-- Somebody who writes down what is exchanged with the board and what is sent. -/
def outward : Observer (List Event) :=
  ⟨[], fun event events => if isInput event then events else event :: events, fun _ => rfl⟩

theorem deaf_outward : outward.Deaf :=
  ⟨fun _ _ => rfl, fun _ => rfl, fun _ => rfl⟩

/-- Sessions that differ in the ends of lines come to the same, unless something of the end of a
line is taken for a key: from the same state, with boards in the same state, they end with the same
result in the same state, and nobody who takes no notice of input can tell them apart, not even with
all exchanges and all that is sent written down. -/
theorem serve_lineEnds (board : Board β) (h : Retyped board w w') (hOwn : w.own = w'.own)
    (hBoard : w.board = w'.board) (hDeaf : o.Deaf) (hSeen : o.of w.events = o.of w'.events) :
    ((serve board).run w).1 = ((serve board).run w').1 ∧
      (serve.after board w).own = (serve.after board w').own ∧
      (serve.after board w).board = (serve.after board w').board ∧
      o.of (serve.after board w).events = o.of (serve.after board w').events := by
  cases h with
  | @lines ending ending' lines hTyping hTyping' hKeyless =>
    have hWorlds : (lineEnds o lines ending ending' lines.length).Worlds false (annotate w) w' :=
      ⟨hOwn, hBoard, rfl, ⟨lines, List.suffix_rfl, Nat.le_refl _, hTyping, hTyping'⟩, hSeen⟩
    obtain ⟨hSame, hAfter⟩ := serve_agrees (Console.lineEnds_bond hDeaf)
      (Console.lineEnds_keys hDeaf) (fun v hPasses => not_not_intro (hKeyless v hPasses)) hWorlds
    exact ⟨hSame, hAfter.own, hAfter.board, hAfter.told.2.2⟩
  | @keys mark mark' hMarks hSame hSorted =>
    have hWorlds : (respelled o mark mark').Worlds false (annotate w) w' :=
      ⟨hOwn, hBoard, rfl, hSame, hSeen⟩
    obtain ⟨hSame, hAfter⟩ := serve_agrees (Console.respelled_bond hDeaf hMarks)
      (Console.respelled_keys hDeaf hMarks) (fun v hPasses => not_not_intro (hSorted v hPasses))
      hWorlds
    exact ⟨hSame, hAfter.own, hAfter.board, hAfter.told.2.2⟩

/-- In these lines the I2C mode is entered, the macro that scans for addresses is run, and a group. -/
def i2cLines : List (List Char) :=
  ["m 4".toList, [], ['2'], "(1)".toList, "[0x54 1]".toList, ['#'], ['y']]

/-- The prompt on a recording board, with this to come. -/
def awaiting (incoming : List Arrival) : World Bench Recording.State Console where
  own := {}
  board := (started {}).2.board
  peer := { link := { incoming } }
  events := (started {}).2.events

def typed (ending : LineEnd) : World Bench Recording.State Console :=
  awaiting ((ending.spell i2cLines).map .byte)

theorem typing_typed (ending : LineEnd) : Typing ending i2cLines (typed ending).peer := by
  refine ⟨⟨rfl, rfl⟩, rfl, ?_, ?_⟩
  · change Console.Arriving i2cLines ending false (bytesOf ((ending.spell i2cLines).map .byte))
    rw [bytesOf_map_byte]
    exact .start fun _ => rfl
  · decide +kernel

/-- The voltmeter is started, measures twice and is ended by a key. Then a reset is confirmed. -/
def measuring (mark : UInt8) : World Bench Recording.State Console :=
  awaiting [.byte 'D'.toUInt8, .byte mark, .pause, .pause, .byte 'x'.toUInt8, .byte '#'.toUInt8,
    .byte mark, .byte 'y'.toUInt8, .byte mark]

theorem serve_lineEnds_typed :
    let board := Recording.board "fake" {}
    (Typing .carriageReturn i2cLines (typed .carriageReturn).peer ∧
      Typing .pair i2cLines (typed .pair).peer ∧
      ((serve board).run (typed .pair)).1 = .ok () ∧
      outward.of (serve.after board (typed .carriageReturn)).events =
        outward.of (serve.after board (typed .pair)).events) ∧
    (roundTakes board (measuring 0x0D)).keys =
        [some (.byte 'x'.toUInt8), some .pause, some .pause] ∧
      ((serve board).run (measuring 0x0A)).1 = .ok () ∧
      outward.of (serve.after board (measuring 0x0D)).events =
        outward.of (serve.after board (measuring 0x0A)).events := by
  intro board
  have hKeyless : ∀ v, Passes board serveRound () (typed .carriageReturn) () v →
      (roundTakes board v).keys = [] := by
    intro v hPasses
    have hOnly : Passes.passesOnly board serveRound
        (fun v => decide ((roundTakes board v).keys = [])) 4 () (typed .carriageReturn) = true := by
      decide +kernel
    exact of_decide_eq_true (hPasses.of_passesOnly hOnly)
  obtain ⟨hSame, -, -, hSeen⟩ := serve_lineEnds board
    (.lines (typing_typed .carriageReturn) (typing_typed .pair) hKeyless) rfl rfl deaf_outward rfl
  have hSorted : ∀ v, Passes board serveRound () (measuring 0x0D) () v →
      (roundTakes board v).Sorted 0x0D 0x0A := by
    intro v hPasses
    have hOnly : Passes.passesOnly board serveRound
        (fun v => decide ((roundTakes board v).Sorted 0x0D 0x0A)) 3 () (measuring 0x0D) = true := by
      decide +kernel
    exact of_decide_eq_true (hPasses.of_passesOnly hOnly)
  have hRespelled : Respelled 0x0D 0x0A (measuring 0x0D).peer (measuring 0x0A).peer :=
    ⟨⟨rfl, rfl⟩, ⟨rfl, rfl⟩, rfl, rfl, by decide +kernel, nofun, fun _ => rfl⟩
  obtain ⟨hSame', -, -, hSeen'⟩ := serve_lineEnds board
    (.keys .returnToFeed hRespelled hSorted) rfl rfl deaf_outward rfl
  refine ⟨⟨typing_typed _, typing_typed _, ?_, hSeen⟩, ?_, ?_, hSeen'⟩
  · rw [← hSame]
    decide +kernel
  · decide +kernel
  · rw [← hSame']
    decide +kernel

/-! ## Keys -/

/-- A byte that has arrived already is the key that ends the voltmeter, before anything is measured:
so it is with the line feed that belongs to the line of the command. -/
theorem runVoltmeter_of_arrived {b : UInt8} {rest : List Arrival} (hOpen : w.peer.link.IsOpen)
    (hArrived : w.peer.link.incoming = .byte b :: rest) :
    Ends board (runVoltmeter : Act Bench β Console Error Unit) w fun r w' => r = .ok () ∧
      exchanges w'.events = exchanges w.events ∧ w'.peer.link.incoming = rest := by
  refine .bind (writeLine_ends hOpen fun w₁ hSent => ?_)
  have hArrived₁ : w₁.peer.link.incoming = .byte b :: rest := hSent.incoming.trans hArrived
  have hRound : Ends board (voltmeterRound () : Act Bench β Console Error (Unit ⊕ Unit)) w₁
      fun r w' => r = .ok (.inr ()) ∧ exchanges w'.events = exchanges w₁.events ∧
        w'.peer.link.IsOpen ∧ w'.peer.link.incoming = rest := by
    refine .bind (.talk (Console.pollKey_ends Observer.deaf_blind hSent.isOpen
      fun link hOpen' hRest events => ?_))
    rw [hArrived₁] at hRest ⊢
    exact Ends.pure ⟨rfl, exchanges_peer_append events w₁.events, hOpen', hRest⟩
  have hKey : Ends board (Act.askUntil voltmeterRound () : Act Bench β Console Error Unit) w₁
      fun r w' => r = .ok () ∧ exchanges w'.events = exchanges w₁.events ∧
        w'.peer.link.IsOpen ∧ w'.peer.link.incoming = rest := by
    have hFirst : ((Act.askUntil voltmeterRound () : Act Bench β Console Error Unit) board).run w₁ =
        (rounds (throw .link) voltmeterRound (Terminal.remaining w₁.peer + 1) () board).run w₁ :=
      rfl
    unfold Ends at hRound ⊢
    rw [hFirst, Act.rounds_apply, rounds_succ_run]
    generalize ((voltmeterRound () : Act Bench β Console Error (Unit ⊕ Unit)) board).run w₁ = done
      at hRound ⊢
    obtain ⟨r, w₂⟩ := done
    obtain ⟨rfl, hEnded⟩ := hRound
    exact ⟨rfl, hEnded⟩
  refine .bind (hKey.mono fun r w₂ hEnded => ?_)
  obtain ⟨rfl, hTrace, hOpen₂, hRest⟩ := hEnded
  exact writeLine_ends hOpen₂ fun w₃ hSent' =>
    ⟨rfl, hSent'.exchanges.trans (hTrace.trans hSent.exchanges), hSent'.incoming.trans hRest⟩

end Bench

end BusBench
