import ClusterWatch.Decimal
import ClusterWatch.Source.Query
import ClusterWatch.Text.Hex
import ClusterWatch.Text.Pieces

/-!
# Host — the machine that an address names

A host is a name or a number.  A number of four bytes is written as up to four numerals with points
between them, of which each stands for one byte and the last for all that are left (`isDotted`).  A
number of eight groups of sixteen bits is written in square brackets, the groups with colons between
them; two colons stand for a run of groups that are zero, and the last two groups may be written as
four bytes with points (`isGrouped`).  A name that ends in a numeral has to be a number, and a name
has none of the characters that have a meaning in an address.

A name of plain letters is asked for in small ones.  How any other name is brought into that form is
a standard of its own, which is left open (`HostNames`).
-/

namespace ClusterWatch

/-- How the names of hosts that are not written in plain letters are brought into the form in which
they are asked for. -/
class HostNames where
  /-- The form of a name in plain letters, if it has one. -/
  plain? : List Char → Option (List Char)

namespace Host

/-! ### Four bytes -/

/-- The base of a numeral, and its digits: `0x` stands before hexadecimal digits, and another `0`
before octal ones. -/
def based : List Char → Nat × List Char
  | '0' :: 'x' :: ds => (16, ds)
  | '0' :: 'X' :: ds => (16, ds)
  | '0' :: d :: ds => (8, d :: ds)
  | ds => (10, ds)

/-- The value of digits in a base of at most sixteen, behind the digits of `n`. -/
def valueFrom? (base n : Nat) : List Char → Option Nat
  | [] => some n
  | c :: ds =>
    match Text.hexValue? c with
    | none => none
    | some d => if d < base then valueFrom? base (base * n + d) ds else none

/-- The number that a numeral denotes. -/
def number? (s : List Char) : Option Nat :=
  if s = [] then none else valueFrom? (based s).1 0 (based s).2

/-- Whether numbers fill the given count of bytes: one each, and the last all that are left. -/
def fill : Nat → List Nat → Bool
  | 0, _ => false
  | _ + 1, [] => false
  | bytes + 1, [n] => n < Nat.pow 256 (bytes + 1)
  | bytes + 1, n :: m :: rest => n < 256 && fill bytes (m :: rest)

/-- The numerals of a host, which points stand between; one more point may stand at the end. -/
def numerals (s : List Char) : List (List Char) :=
  let ps := Text.pieces (· = '.') s
  if 1 < ps.length ∧ ps.getLast? = some [] then ps.dropLast else ps

/-- Whether a host is a number of four bytes. -/
def isDotted (s : List Char) : Bool :=
  match (numerals s).mapM number? with
  | none => false
  | some ns => fill 4 ns

/-- Whether what stands behind the last point of a host is a numeral, or digits at least. -/
def endsInNumeral (s : List Char) : Bool :=
  match (numerals s).getLast? with
  | none => false
  | some p => (!p.isEmpty && p.all Char.isDigit) || (number? p).isSome

/-! ### Eight groups -/

/-- Whether a text is the numeral of a byte. -/
def isByte (s : List Char) : Bool :=
  Decimal.value s < 256 && s = Decimal.numeral (Decimal.value s)

/-- Whether a text is four bytes with points between them. -/
def isFourBytes (s : List Char) : Bool :=
  let ps := Text.pieces (· = '.') s
  ps.length = 4 && ps.all isByte

/-- Whether a text is a group: one to four hexadecimal digits. -/
def isGroup (s : List Char) : Bool :=
  1 ≤ s.length && s.length ≤ 4 && s.all fun c => (Text.hexValue? c).isSome

/-- How many groups the pieces between colons come to; the last piece may be four bytes. -/
def groups? : List (List Char) → Option Nat
  | [] => some 0
  | [p] => if isGroup p then some 1 else if isFourBytes p then some 2 else none
  | p :: q :: rest => if isGroup p then (groups? (q :: rest)).map (· + 1) else none

/-- The pieces of a text that colons stand between; an empty text has none. -/
def groupPieces (s : List Char) : List (List Char) :=
  if s.isEmpty then [] else Text.pieces (· = ':') s

/-- What stands before and behind the first two colons in a row. -/
def splitGap? : List Char → Option (List Char × List Char)
  | [] => none
  | ':' :: ':' :: s => some ([], s)
  | c :: s => (splitGap? s).map fun (before, behind) => (c :: before, behind)

/-- Whether a text is a number of eight groups. -/
def isGrouped (s : List Char) : Bool :=
  match splitGap? s with
  | none => groups? (groupPieces s) = some 8
  | some (before, behind) =>
    (groupPieces before).all isGroup &&
      match groups? (groupPieces behind) with
      | none => false
      | some n => (groupPieces before).length + n ≤ 7

/-! ### Names -/

/-- Whether a character may stand in a name. -/
def isNameChar (c : Char) : Bool :=
  0x20 < c.toNat && c.toNat != 0x7F && c != Text.replacement &&
    !("#%/:<>?@[\\]^|".toList.contains c)

/-- Whether a name is written in plain letters; a part of it that begins with `xn--` stands for one
that is not. -/
def isPlain (name : List Char) : Bool :=
  name.all (·.toNat < 0x80) &&
    (Text.pieces (· = '.') name).all fun part => !"xn--".toList.isPrefixOf (part.map Char.toLower)

/-- A name in small letters. -/
def small (name : List Char) : List Char := name.map Char.toLower

/-- The form in which a name is asked for, its percent signs resolved. -/
def nameOf? [HostNames] (s : List Char) : Option (List Char) :=
  let name := Text.decodeLossy (Query.unescape s)
  if isPlain name then some (small name) else HostNames.plain? name

/-- The host that a text names, if it names one. -/
def parse? [HostNames] (s : List Char) : Option (List Char) :=
  match Text.after? ['['] s with
  | some inside =>
    match Text.before? ']' inside with
    | none => none
    | some groups => if isGrouped groups then some s else none
  | none =>
    match nameOf? s with
    | none => none
    | some name =>
      if name.isEmpty || !name.all isNameChar then none
      else if endsInNumeral name && !isDotted name then none
      else some name

/-- A host without square brackets around it. -/
def bare (host : List Char) : List Char := host.filter fun c => c ≠ '[' && c ≠ ']'

end Host

/-- Takes names of the basic alphabet as they stand, and no others. -/
@[reducible] def HostNames.standard : HostNames where
  plain? name := if name.all (·.toNat < 0x80) then some (Host.small name) else none

end ClusterWatch
