import ClusterWatch.Text.Hex
import ClusterWatch.Text.Utf8

/-!
# Query — a parameter in the query of an address

A parameter is written in the form of a web form: letters, digits and `*-._` as they stand, a space
as a plus sign, and every other byte of the text as a percent sign and two hexadecimal digits.
-/

namespace ClusterWatch.Query
open Text

/-- A byte as a percent sign and two hexadecimal digits. -/
def percent (b : UInt8) : List Char :=
  ['%', upperHexDigit (b.toNat / 16), upperHexDigit (b.toNat % 16)]

/-- The bytes of a text in which a percent sign and two hexadecimal digits stand for a byte. -/
def unescape : List Char → List UInt8
  | [] => []
  | '%' :: a :: b :: s =>
    match hexValue? a, hexValue? b with
    | some high, some low => UInt8.ofNat (16 * high + low) :: unescape s
    | _, _ => utf8Char '%' ++ unescape (a :: b :: s)
  | c :: s => utf8Char c ++ unescape s

/-- Whether a byte of a form stands for itself. -/
def isPlain (b : UInt8) : Bool :=
  let c := Char.ofNat b.toNat
  c.isAlphanum || c = '*' || c = '-' || c = '.' || c = '_'

/-- A byte as it is written in a form. -/
def formByte (b : UInt8) : List Char :=
  if b.toNat = 0x20 then ['+']
  else if isPlain b then [Char.ofNat b.toNat]
  else percent b

/-- A text as it is written in a form. -/
def formEncode (s : List Char) : List Char := (utf8 s).flatMap formByte

/-- A query with one more parameter behind it. -/
def append (query : Option (List Char)) (name value : List Char) : List Char :=
  let pair := formEncode name ++ ['='] ++ formEncode value
  match query with
  | none => pair
  | some [] => pair
  | some q => q ++ ['&'] ++ pair

end ClusterWatch.Query
