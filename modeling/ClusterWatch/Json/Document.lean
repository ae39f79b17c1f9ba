import ClusterWatch.Decimal
import ClusterWatch.Text.Hex

/-!
# Document — JSON values to be written

A document is written over several lines: every element of a list and every member of an object
begins a line of its own, two spaces further in than the bracket that holds it.  A line break
inside a text is written as an escape, so line breaks in a written document are those between its
elements.
-/

namespace ClusterWatch.Json

/-- A JSON value. -/
inductive Document
  | null
  | count (n : Nat)
  | text (s : String)
  | list (items : List Document)
  | object (members : List (String × Document))

/-- A character as it is written between the quotes of a string: control characters, the quote and
the backslash are written as escapes, everything else as it stands. -/
def encodeChar (c : Char) : List Char :=
  if c = '"' then ['\\', '"']
  else if c = '\\' then ['\\', '\\']
  else if c = '\x08' then ['\\', 'b']
  else if c = '\x0c' then ['\\', 'f']
  else if c = '\n' then ['\\', 'n']
  else if c = '\r' then ['\\', 'r']
  else if c = '\t' then ['\\', 't']
  else if c.toNat < 0x20 then
    ['\\', 'u', '0', '0', Text.hexDigit (c.toNat / 16), Text.hexDigit (c.toNat % 16)]
  else [c]

/-- A text as a string literal. -/
def encodeString (s : String) : List Char := ['"'] ++ s.toList.flatMap encodeChar ++ ['"']

/-- The start of a line at a depth. -/
def newLine (depth : Nat) : List Char := '\n' :: List.replicate (2 * depth) ' '

mutual

/-- A document written at a depth, that is, inside so many brackets. -/
def Document.written (depth : Nat) : Document → List Char
  | .null => ['n', 'u', 'l', 'l']
  | .count n => Decimal.numeral n
  | .text s => encodeString s
  | .list items =>
    if items.isEmpty then ['[', ']']
    else ['['] ++ itemsWritten (depth + 1) items ++ newLine depth ++ [']']
  | .object members =>
    if members.isEmpty then ['{', '}']
    else ['{'] ++ membersWritten (depth + 1) members ++ newLine depth ++ ['}']

/-- The elements of a list written at a depth, with commas between them. -/
def itemsWritten (depth : Nat) : List Document → List Char
  | [] => []
  | item :: items =>
    newLine depth ++ item.written depth ++ (if items.isEmpty then [] else [',']) ++
      itemsWritten depth items

/-- The members of an object written at a depth, with commas between them. -/
def membersWritten (depth : Nat) : List (String × Document) → List Char
  | [] => []
  | (key, value) :: members =>
    newLine depth ++ encodeString key ++ [':', ' '] ++ value.written depth ++
      (if members.isEmpty then [] else [',']) ++ membersWritten depth members

end

/-- A document written on its own. -/
def Document.pretty (d : Document) : List Char := d.written 0

end ClusterWatch.Json
