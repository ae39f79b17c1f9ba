import ClusterWatch.Decimal

/-!
# Word — the words of a command line

A word that begins with two dashes names an option, and may carry a value behind an equals sign; a
word that begins with one dash and has more behind it holds one-letter options; `--` alone ends the
options.  Every other word, a lone dash among them, is plain.
-/

namespace ClusterWatch.CommandLine

/-- A word, by its dashes. -/
inductive Word
  | ending
  | long (name : List Char) (attached : Option (List Char))
  | short (letters : List Char)
  | plain
  deriving DecidableEq, Repr

/-- What stands before and behind the first equals sign; none behind when there is no such sign. -/
def splitEquals (s : List Char) : List Char × Option (List Char) :=
  match s.dropWhile (· ≠ '=') with
  | [] => (s, none)
  | _ :: value => (s.takeWhile (· ≠ '='), some value)

/-- The kind of a word. -/
def Word.of (s : String) : Word :=
  match s.toList with
  | '-' :: '-' :: [] => .ending
  | '-' :: '-' :: c :: name => .long (splitEquals (c :: name)).1 (splitEquals (c :: name)).2
  | '-' :: c :: letters => .short (c :: letters)
  | _ => .plain

/-- The number that a text is: decimal digits, with a plus sign before them or without, of a number
below 2 ^ 64. -/
def number? (s : List Char) : Option Nat :=
  let ds := if s.head? = some '+' then s.tail else s
  if ds ≠ [] ∧ ds.all Char.isDigit ∧ Decimal.value ds < Nat.pow 2 64 then some (Decimal.value ds)
  else none

end ClusterWatch.CommandLine
