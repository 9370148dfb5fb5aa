import BusBench.Board.Recording
import BusBench.Proofs.Binary.Root

/-!
# What a board cannot change

Two boards that grant the same engines take the same commands from a host, whatever else they
answer, and reply to each of them in a way that the host can follow.

* `conversation`: the whole protocol on a board.
* `conversations_agree`: two boards that grant the same engines.
-/

namespace BusBench.Binary

/-- The protocol on a board, with a link to the host. -/
def conversation {ω β : Type} (board : Board β) (own : ω) (state : β) (link : Link) :
    Except LinkError Unit × World ω β Link :=
  (run board).run { own, board := state, peer := link }

section Conversation

variable {ω ω' β β' : Type} (board : Board β) (board' : Board β') (own : ω) (own' : ω') (state : β)
  (state' : β') {link link' : Link}

/-- The commands of a conversation follow from the stream and from what the board granted. -/
theorem conversation_splits (hOpen : link.IsOpen) :
    Splits (grants (conversation board own state link).2.events) link.incoming
      ((commands (conversation board own state link).2.events).map fun command =>
        (command.server, command.frame))
      (conversation board own state link).1
      (conversation board own state link).2.peer.incoming := by
  obtain ⟨-, hFollows⟩ := run_yields board { own, board := state, peer := link } hOpen rfl rfl
  obtain ⟨grants, frames, hSplits, hGrants, hKeys⟩ := hFollows.splits
  have hGrants' : Binary.grants (conversation board own state link).2.events = grants := by
    refine (congrArg List.reverse hGrants).trans ?_
    rw [List.append_nil, List.reverse_reverse]
  have hFrames : (commands (conversation board own state link).2.events).map (fun command =>
      (command.server, command.frame)) = frames := by
    refine (List.map_reverse ..).trans ((congrArg List.reverse hKeys).trans ?_)
    rw [Tally.keys, List.map_nil, List.append_nil, List.reverse_reverse]
  rw [hGrants', hFrames]
  exact hSplits

theorem conversation_proper (hOpen : link.IsOpen)
    (hCalm : ∀ command ∈ commands (conversation board own state link).2.events,
      stirs command.server command.frame = false) :
    ∀ command ∈ commands (conversation board own state link).2.events, command.Proper := by
  obtain ⟨-, hFollows⟩ := run_yields board { own, board := state, peer := link } hOpen rfl rfl
  have hProper := hFollows.proper (fun key hKey => ?_) nofun
  · exact fun command hCommand => hProper command (List.mem_reverse.mp hCommand)
  · obtain ⟨command, hCommand, rfl⟩ := List.mem_map.mp hKey
    exact hCalm command (List.mem_reverse.mpr hCommand)

theorem placed_of_map_eq {commands commands' : List Command} (offset : Nat)
    (h : commands.map (fun command => (command.server, command.frame)) =
      commands'.map fun command => (command.server, command.frame)) :
    placed offset commands = placed offset commands' := by
  induction commands generalizing commands' offset with
  | nil =>
    cases commands' with
    | nil => rfl
    | cons command' commands' => cases h
  | cons command commands ih =>
    cases commands' with
    | nil => cases h
    | cons command' commands' =>
      obtain ⟨hHead, hTail⟩ := List.cons.inj h
      obtain ⟨hServer, hFrame⟩ := Prod.mk.inj hHead
      rw [placed, placed, hServer, hFrame, ih _ hTail]

/-- On boards that grant the same engines the same stream has the same commands in the same places,
the same bytes are left unread and the protocol ends in the same way. Unless the UART passes on what
it receives, how much is replied to a command of an engine follows from the command and the first
byte of the reply. -/
theorem conversations_agree (hOpen : link.IsOpen) (hOpen' : link'.IsOpen)
    (hIncoming : link.incoming = link'.incoming)
    (hGrants : Concur (grants (conversation board own state link).2.events)
      (grants (conversation board' own' state' link').2.events)) :
    let done := conversation board own state link
    let done' := conversation board' own' state' link'
    placed 0 (commands done.2.events) = placed 0 (commands done'.2.events) ∧
      done.2.peer.incoming = done'.2.peer.incoming ∧ done.1 = done'.1 ∧
      ((commands done.2.events).map Command.frame).flatten ++ bytesOf done.2.peer.incoming =
        bytesOf link.incoming ∧
      ((∀ command ∈ commands done.2.events, stirs command.server command.frame = false) →
        ∀ command ∈ commands done.2.events ++ commands done'.2.events, command.Proper) := by
  intro done done'
  have hSplits := conversation_splits board own state hOpen
  have hSplits' := conversation_splits board' own' state' hOpen'
  rw [← hIncoming] at hSplits'
  obtain ⟨hFrames, hResult, hRest⟩ := hSplits.unique hSplits' hGrants
  refine ⟨placed_of_map_eq 0 hFrames, hRest, hResult, ?_, fun hCalm => ?_⟩
  · have hBytes := hSplits.flatten_append_bytesOf
    rw [List.map_map] at hBytes
    exact hBytes
  · have hCalm' : ∀ command ∈ commands done'.2.events,
        stirs command.server command.frame = false := by
      intro command' hCommand'
      have hKey := List.mem_map_of_mem (f := fun command : Command =>
        (command.server, command.frame)) hCommand'
      rw [← hFrames] at hKey
      obtain ⟨command, hCommand, hSame⟩ := List.mem_map.mp hKey
      obtain ⟨hServer, hFrame⟩ := Prod.mk.inj hSame
      rw [← hServer, ← hFrame]
      exact hCalm command hCommand
    intro command hCommand
    rcases List.mem_append.mp hCommand with hCommand | hCommand
    · exact conversation_proper board own state hOpen hCalm command hCommand
    · exact conversation_proper board' own' state' hOpen' hCalm' command hCommand

end Conversation

/-- Transfers that fail shorten a reply, and change nothing else. -/
theorem conversations_agree_failing :
    let link : Link := { incoming := [0x01, 0x04, 0, 1, 0, 2, 0x55, 0x13, 1, 2, 3, 4, 0, 0x0F].map .byte }
    let board := Recording.board "" {}
    let failing : Recording.State := { faults := { rules := [⟨"spi.transfer", none⟩] } }
    (conversation board () {} link).1 = (conversation board () failing link).1 ∧
      commands (conversation board () {} link).2.events ≠
        commands (conversation board () failing link).2.events ∧
      placed 0 (commands (conversation board () {} link).2.events) =
        placed 0 (commands (conversation board () failing link).2.events) := by
  intro link board failing
  have hGrants : Concur (grants (conversation board () {} link).2.events)
      (grants (conversation board () failing link).2.events) := .of_eq (by decide +kernel)
  obtain ⟨hPlaced, -, hResult, -⟩ :=
    conversations_agree board board () () {} failing ⟨rfl, rfl⟩ ⟨rfl, rfl⟩ rfl hGrants
  exact ⟨hResult, by decide +kernel, hPlaced⟩

end BusBench.Binary
