import BusBench.CommandLine

/-!
# The program

Standard input is collected as it arrives. After each part of it, everything that the program writes
for the input so far is known, and what of that is new is written to standard output. Where the
program polls for input and has something to show meanwhile, silence is a part of the input too.
-/

namespace BusBench.Main

/-- What has arrived and was not taken yet. -/
structure Inbox where
  arrivals : Array Arrival := #[]
  ended : Bool := false

/-- Collects standard input until it ends. -/
partial def collect (inbox : IO.Ref Inbox) : IO Unit := do
  let bytes ← (← IO.getStdin).read 1
  if bytes.isEmpty then inbox.modify ({ · with ended := true })
  else
    inbox.modify fun box => { box with arrivals := box.arrivals ++ bytes.data.map .byte }
    collect inbox

/-- Awaits a part of the input, `none` at its end. A silence that shows is such a part. -/
partial def await (inbox : IO.Ref Inbox) (silenceShows : Bool) : IO (Option (List Arrival)) := do
  let box ← inbox.modifyGet fun box => (box, { box with arrivals := #[] })
  if !box.arrivals.isEmpty then return some box.arrivals.toList
  if box.ended then return none
  if silenceShows then
    IO.sleep 100
    if (← inbox.get).arrivals.isEmpty then return some [.pause]
  else IO.sleep 10
  await inbox silenceShows

/-- Writes what the input so far adds to the output, then awaits more of it, until it ends. -/
partial def serve (controllers : Bool) (inbox : IO.Ref Inbox) (input : List Arrival)
    (written : Nat) : IO UInt32 := do
  let (output, error) := CommandLine.transcript controllers input
  let code := (CommandLine.exitCode error).toUInt32
  let stdout ← IO.getStdout
  stdout.write ⟨(output.drop written).toArray⟩
  stdout.flush
  if error ≠ .link then return code
  let (shown, _) := CommandLine.transcript controllers (input ++ [.pause])
  match ← await inbox (output.length < shown.length) with
  | none => return code
  | some part => serve controllers inbox (input ++ part) output.length

end BusBench.Main

open BusBench in
/-- Serves the simulated board, or does what else the arguments ask for. -/
def main (arguments : List String) : IO UInt32 := do
  match CommandLine.parse arguments with
  | .options options =>
    if options.device?.isSome then
      IO.eprintln "cannot open the serial device"
      return 1
    let inbox ← IO.mkRef {}
    let _ ← IO.asTask (Main.collect inbox) Task.Priority.dedicated
    Main.serve (!options.bitBanged) inbox [] 0
  | .version =>
    IO.print CommandLine.versionLine
    return 0
  | .help =>
    IO.eprintln CommandLine.usage
    return 0
  | .invalid =>
    IO.eprintln CommandLine.usage
    return 2
