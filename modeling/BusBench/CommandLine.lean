import BusBench.Board.Simulated
import BusBench.Prompt.Serve

/-!
# The command line

The program serves the simulated board on its standard input and output, starting over with a fresh
board after every reset.

* `CommandLine.parse`: what the arguments ask for.
* `CommandLine.session`: a console served on one board.
* `CommandLine.transcript`: everything the program writes for an input.
* `CommandLine.run`: the output and exit code for arguments and an input.
-/

namespace BusBench.CommandLine

/-! ## Arguments -/

/-- What the arguments ask for. -/
structure Options where
  /-- The serial device to serve on, standard input and output when omitted. -/
  device? : Option String := none
  baud? : Option Nat := none
  /-- Whether the board pretends to have no controllers. -/
  bitBanged : Bool := false
  verbosity : Nat := 0
  deriving DecidableEq, Repr

/-- How reading the arguments ends. -/
inductive Parsed where
  | options (options : Options)
  | version
  | help
  /-- An argument is unknown, repeated, or lacks its value. -/
  | invalid
  deriving DecidableEq, Repr

/-- Whether a text can stand as the value of an option, where it is an argument of its own. -/
def isValue (text : List Char) : Bool :=
  match text with
  | ['-'] => true
  | '-' :: _ => false
  | _ => true

/-- A baud rate: decimal digits, with a plus sign allowed before them, that fit in 64 bits. -/
def baud? (text : List Char) : Option Nat :=
  (Text.answer? text).filter (· < UInt64.size)

/-- The options with a serial device, which can be given only once. -/
def withDevice (options : Options) (value : List Char) : Option Options :=
  if options.device?.isSome then none
  else some { options with device? := some (String.ofList value) }

/-- The options with a baud rate, which can be given only once. -/
def withBaud (options : Options) (value : List Char) : Option Options :=
  if options.baud?.isSome then none
  else (baud? value).map fun n => { options with baud? := some n }

/-- The options without controllers, which can be asked for only once. -/
def withBitBanged (options : Options) : Option Options :=
  if options.bitBanged then none else some { options with bitBanged := true }

/-- The option that takes a value. -/
inductive Valued where
  | device
  | baud
  deriving DecidableEq, Repr

def Valued.apply (options : Options) (value : List Char) : Valued → Option Options
  | device => withDevice options value
  | baud => withBaud options value

/-- What one argument asks for. -/
inductive Step where
  | options (options : Options)
  /-- The value of an option has to follow. -/
  | pending (options : Options) (option : Valued)
  | version
  | help
  | invalid

/-- The step to some options, if there are any. -/
def Step.ofOptions? : Option Options → Step
  | some given => .options given
  | none => .invalid

/-- The letters of an argument, of which those that take a value take the rest of it, behind an
equals sign if there is one. -/
def readLetters (options : Options) : List Char → Step
  | [] => .options options
  | 'v' :: rest => readLetters { options with verbosity := options.verbosity + 1 } rest
  | 'V' :: _ => .version
  | 'h' :: _ => .help
  | ['p'] => .pending options .device
  | ['b'] => .pending options .baud
  | 'p' :: '=' :: value => .ofOptions? (Valued.device.apply options value)
  | 'b' :: '=' :: value => .ofOptions? (Valued.baud.apply options value)
  | 'p' :: value => .ofOptions? (Valued.device.apply options value)
  | 'b' :: value => .ofOptions? (Valued.baud.apply options value)
  | _ => .invalid

/-- A long option, with its value if one follows behind an equals sign. -/
def readLong (options : Options) (name : String) (value? : Option (List Char)) : Step :=
  match name, value? with
  | "port", none => .pending options .device
  | "baud", none => .pending options .baud
  | "port", some value => .ofOptions? (Valued.device.apply options value)
  | "baud", some value => .ofOptions? (Valued.baud.apply options value)
  | "bitbang", none => .ofOptions? (withBitBanged options)
  | "verbose", none => .options { options with verbosity := options.verbosity + 1 }
  | "version", none => .version
  | "help", none => .help
  | _, _ => .invalid

/-- An argument that is no value. -/
def readArgument (options : Options) : List Char → Step
  | '-' :: '-' :: long =>
    let (name, value) := long.span (· ≠ '=')
    readLong options (String.ofList name) (if value.isEmpty then none else some value.tail)
  | '-' :: letter :: letters => readLetters options (letter :: letters)
  | _ => .invalid

/-- Reads the arguments that follow, given the options so far and the one whose value is awaited.
Nothing may follow two dashes. -/
def readArguments (options : Options) : Option Valued → List (List Char) → Parsed
  | none, [] => .options options
  | some _, [] => .invalid
  | some option, value :: rest =>
    if isValue value then
      match option.apply options value with
      | some options => readArguments options none rest
      | none => .invalid
    else .invalid
  | none, argument :: rest =>
    if argument = ['-', '-'] then
      if rest.isEmpty then .options options else .invalid
    else
      match readArgument options argument with
      | .options options => readArguments options none rest
      | .pending options option => readArguments options (some option) rest
      | .version => .version
      | .help => .help
      | .invalid => .invalid

def parse (arguments : List String) : Parsed :=
  readArguments {} none (arguments.map String.toList)

/-! ## Serving -/

/-- Serves a console on a fresh board; answers how that ends, and what has become of everything. -/
def session (controllers : Bool) (console : Console) :
    Except Error Unit × World Bench Simulated.State Console :=
  (Bench.run Simulated.board).run.run ⟨{}, Simulated.initial controllers, console, []⟩

/-- Serves a console on a fresh board; answers whether it is to be served again, the console
afterwards, and the events. -/
def serveOnce (controllers : Bool) (console : Console) :
    Except Error Unit × Console × List Event :=
  let (result, world) := session controllers console
  (result, world.peer, world.events)

/-- Serves a console on one fresh board after another, until one of them ends with an error. Each of
them reads something, so the length of the input bounds their number. -/
def serveAll (controllers : Bool) : Nat → Console → List (List Event) → Error × List (List Event)
  | 0, _, events => (.link, events)
  | limit + 1, console, events =>
    match serveOnce controllers console with
    | (.ok _, console, new) => serveAll controllers limit console (new :: events)
    | (.error e, _, new) => (e, new :: events)

/-- The bytes sent among events, of which the newest stands first. -/
def sentBytes (events : List Event) : List UInt8 :=
  events.foldl (fun bytes event =>
    match event with
    | .peer (.sent byte) => byte :: bytes
    | _ => bytes) []

/-- Everything the program writes for an input, and how it ends. -/
def transcript (controllers : Bool) (input : List Arrival) : List UInt8 × Error :=
  let console : Console := { link := { incoming := input } }
  let (error, events) := serveAll controllers (input.length + 1) console []
  ((events.reverse.map sentBytes).flatten, error)

/-- The exit code: a closed link is no failure. -/
def exitCode (error : Error) : Nat :=
  if error = .link then 0 else 1

/-- What the program answers when asked for its version. -/
def versionLine : String := "prcli " ++ Bench.version ++ "\n"

def usage : String := "usage: prcli [--port PORT] [--baud BAUD] [--bitbang] [--verbose] [--version]"

/-- The output and exit code for arguments and an input. There are no serial devices to serve on. -/
def run (arguments : List String) (input : List UInt8) : List UInt8 × Nat :=
  match parse arguments with
  | .invalid => ([], 2)
  | .help => ([], 0)
  | .version => (versionLine.toUTF8.toList, 0)
  | .options options =>
    if options.device?.isSome then ([], 1)
    else
      let (output, error) := transcript (!options.bitBanged) (input.map .byte)
      (output, exitCode error)

end BusBench.CommandLine
