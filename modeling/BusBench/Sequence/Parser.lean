import BusBench.Text.Blank
import BusBench.Text.Literal
import BusBench.Sequence.Action

/-!
# Reading sequences

A sequence such as `[0xA0 0x00 r:4]` is cut into tokens, and each token names one action. Tokens
need no separator where their characters tell them apart: a token ends before a blank or comma,
before a symbol, and where digits meet other characters. The repeat marks `:` and `;` belong to
whatever stands on either side of them.

* `tokens`: the tokens of a text.
* `resolve`: the action that a token names.
* `parse`: the actions of a text, none at all if any of its tokens names no action.
-/

namespace BusBench.Sequence

open Text (Literal.Fault)

/-! ## Tokens -/

/-- Whether `c` stands between tokens. -/
def isSeparator (c : Char) : Bool :=
  Text.isBlank c || c == ','

/-- Whether `c` may occur in a number: the hexadecimal digits, and the `x` of a prefix. -/
def isDigitClass (c : Char) : Bool :=
  (Text.digitValue? c).isSome || c == 'x' || c == 'X'

/-- Whether `c` introduces a repeat count. -/
def isRepeatMark (c : Char) : Bool :=
  c == ':' || c == ';'

/-- What a structural character stands for. -/
inductive Symbol where
  /-- An action that cannot be repeated. -/
  | marker (action : Action)
  /-- An action for each repeat count. -/
  | repeatable (action : UInt16 → Action)

def symbol? : Char → Option Symbol
  | '{' | '[' => some (.marker .start)
  | '}' | ']' => some (.marker .stop)
  | '/' => some (.marker .clockHigh)
  | '\\' => some (.marker .clockLow)
  | '-' => some (.marker .dataHigh)
  | '_' => some (.marker .dataLow)
  | '.' => some (.marker .readPin)
  | 'r' => some (.repeatable .read)
  | '^' => some (.repeatable .clockTick)
  | '!' => some (.repeatable .bitRead)
  | _ => none

/-- Whether `c` goes on with the token that `last` is in. -/
def joins (last c : Char) : Bool :=
  !isSeparator c && (symbol? c).isNone &&
    (isRepeatMark c || isDigitClass c == (isDigitClass last || isRepeatMark last))

/-- The tokens of a text, in order. -/
def tokens : List Char → List (List Char)
  | [] => []
  | c :: cs =>
    if isSeparator c then tokens cs
    else
      match cs, tokens cs with
      | d :: _, t :: ts => if joins c d then (c :: t) :: ts else [c] :: t :: ts
      | _, ts => [c] :: ts

/-! ## Actions -/

/-- The repeat count after the colon of a token. -/
def repeatCount (text : List Char) : Except Literal.Fault UInt16 := do
  let n ← Text.Literal.read text
  if n = 0 ∨ 0xFFFF < n then throw .malformed
  return n.toUInt16

/-- The token up to its first colon, and what follows the colon. -/
def splitColon : List Char → List Char × Option (List Char)
  | [] => ([], none)
  | c :: cs =>
    if c == ':' then ([], some cs)
    else
      let (front, back) := splitColon cs
      (c :: front, back)

/-- The action of a token's part before the colon, to be repeated `n` times. -/
def resolveBody (n : UInt16) (text : List Char) : Except Literal.Fault Action :=
  match text with
  | [] => throw .malformed
  | c :: cs =>
    match symbol? c with
    | some symbol =>
      if !cs.isEmpty then throw .malformed
      else
        match symbol with
        | .marker action => if n = 1 then pure action else throw .malformed
        | .repeatable action => pure (action n)
    | none => do
      let value ← Text.Literal.read text
      if 0xFF < value then throw .malformed
      return .write value.toUInt8 n

/-- The action that a token names. The semicolon has no meaning yet and is refused. -/
def resolve (token : List Char) : Except Literal.Fault Action := do
  if token.contains ';' then throw .malformed
  match splitColon token with
  | (body, none) => resolveBody 1 body
  | (body, some count) =>
    let n ← repeatCount count
    resolveBody n body

/-- The actions of a text, or what is wrong with its first bad token. -/
def parseActions (text : List Char) : Except Literal.Fault (List Action) :=
  (tokens text).mapM resolve

/-- The actions of a text. One malformed token makes the whole sequence empty, so that a slip never
runs half of a transaction. -/
def parse (text : List Char) : Except Literal.Fault (List Action) :=
  match parseActions text with
  | .error .malformed => pure []
  | result => result

end BusBench.Sequence
