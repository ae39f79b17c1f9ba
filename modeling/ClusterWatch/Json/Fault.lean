import ClusterWatch.Decimal.Shortest
import ClusterWatch.Text.Blank
import ClusterWatch.Text.Quoted

/-!
# Fault — why and where a JSON text is refused

Reading stops at the first fault.  A fault has a cause and a place; the place is kept as the
number of bytes not yet read, which a reader knows without knowing the whole text, and becomes a
line and a column when the whole text is at hand (`Position.of`).

Two kinds of place occur.  A fault lies *behind* what was read (`Fault.behind`), or *ahead*, at the
next byte, which was looked at and not read (`Fault.ahead`); at the end of the text both are the
end.
-/

namespace ClusterWatch.Json
open Text

/-- What stands where a value of another kind is due. -/
inductive Found
  | null
  | boolean (b : Bool)
  | integer (i : Int)
  | float (negative : Bool) (size : Rat)
  | text (s : List Char)
  | sequence
  | map
  deriving DecidableEq

/-- Why a text is refused. -/
inductive Cause
  | endInValue
  | endInList
  | endInObject
  | endInText
  | expectedColon
  | expectedListEnd
  | expectedObjectEnd
  | expectedLiteral
  | expectedValue
  | invalidEscape
  | invalidNumber
  | numberOutOfRange
  | loneSurrogate
  | unfinishedEscape
  | controlCharacter
  | keyNotText
  | trailingComma
  | trailingCharacters
  | wrongKind (found : Found) (want : String)
  | negativeCount (i : Int)
  | missingField (name : String)
  | duplicateField (name : String)
  | wrongLength (length : Nat) (want : String) (fields : Nat)
  deriving DecidableEq

/-- A thing found, as messages name it. -/
def Found.describe : Found → String
  | null => "null"
  | boolean true => "boolean `true`"
  | boolean false => "boolean `false`"
  | integer i => "integer `" ++ Decimal.signed i ++ "`"
  | float negative size =>
    "floating point `" ++ String.ofList (Decimal.floatText negative size) ++ "`"
  | text s => "string " ++ String.ofList (quoted s)
  | sequence => "sequence"
  | map => "map"

/-- The wording of a cause. -/
def Cause.message : Cause → String
  | endInValue => "EOF while parsing a value"
  | endInList => "EOF while parsing a list"
  | endInObject => "EOF while parsing an object"
  | endInText => "EOF while parsing a string"
  | expectedColon => "expected `:`"
  | expectedListEnd => "expected `,` or `]`"
  | expectedObjectEnd => "expected `,` or `\x7d`"
  | expectedLiteral => "expected ident"
  | expectedValue => "expected value"
  | invalidEscape => "invalid escape"
  | invalidNumber => "invalid number"
  | numberOutOfRange => "number out of range"
  | loneSurrogate => "lone leading surrogate in hex escape"
  | unfinishedEscape => "unexpected end of hex escape"
  | controlCharacter => "control character (\\u0000-\\u001F) found while parsing a string"
  | keyNotText => "key must be a string"
  | trailingComma => "trailing comma"
  | trailingCharacters => "trailing characters"
  | wrongKind found want => "invalid type: " ++ found.describe ++ ", expected " ++ want
  | negativeCount i => "invalid value: integer `" ++ Decimal.signed i ++ "`, expected u64"
  | missingField name => "missing field `" ++ name ++ "`"
  | duplicateField name => "duplicate field `" ++ name ++ "`"
  | wrongLength length want fields =>
    "invalid length " ++ Decimal.text length ++ ", expected " ++ want ++ " with " ++
      Decimal.text fields ++ " elements"

/-- A cause, and the bytes that are left unread where it lies. -/
structure Fault where
  cause : Cause
  left : Nat
  deriving DecidableEq

namespace Fault

/-- A fault behind what was read; `rest` is what was not. -/
def behind (cause : Cause) (rest : List Char) : Fault := ⟨cause, byteLength rest⟩

/-- A fault at the first byte of `rest`, or at the end. -/
def ahead (cause : Cause) (rest : List Char) : Fault := ⟨cause, byteLength rest - 1⟩

end Fault

/-- A place in a text: the line, counted from one, and the bytes before it in that line. -/
structure Position where
  line : Nat
  column : Nat
  deriving DecidableEq, Repr

namespace Position

/-- The place `offset` bytes behind `p`, when `s` is the text behind `p`. -/
def advance (p : Position) : List Char → Nat → Position
  | [], _ => p
  | c :: s, offset =>
    if offset < c.utf8Size then ⟨p.line, p.column + offset⟩
    else if c = '\n' then advance ⟨p.line + 1, 0⟩ s (offset - c.utf8Size)
    else advance ⟨p.line, p.column + c.utf8Size⟩ s (offset - c.utf8Size)

/-- The place of a byte offset in a text. -/
def of (s : List Char) (offset : Nat) : Position := advance ⟨1, 0⟩ s offset

end Position

/-- A fault at its place in the whole text. -/
structure Problem where
  cause : Cause
  position : Position
  deriving DecidableEq

/-- A fault of the text `s`, with its place. -/
def Fault.inText (s : List Char) (f : Fault) : Problem :=
  ⟨f.cause, .of s (byteLength s - f.left)⟩

/-- The wording of a problem. -/
def Problem.message (p : Problem) : String :=
  p.cause.message ++ " at line " ++ Decimal.text p.position.line ++ " column " ++
    Decimal.text p.position.column

end ClusterWatch.Json
