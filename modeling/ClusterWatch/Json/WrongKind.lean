import ClusterWatch.Json.Numeral
import ClusterWatch.Json.StringLiteral

/-!
# WrongKind — what a reader finds where its value is due

When the next token cannot begin the value that is due, the fault says what stands there.  A
keyword, a number or a string is read to its end first, so a fault inside it comes before the
complaint about its kind; a list or an object is not entered.
-/

namespace ClusterWatch.Json

/-- The thing that a number is. -/
def Number.found : Number → Found
  | .count n => .integer n
  | .negative size => .integer (-(size : Int))
  | .float minus size => .float minus size

/-- Whether a character begins a number. -/
def startsNumber (c : Char) : Bool := c = '-' || c.isDigit

/-- The fault of a keyword that stands where `want` is due. -/
def wrongWord (w : List Char) (found : Found) (want : String) (s : List Char) : Fault :=
  match word w s with
  | .error e => e
  | .ok r => .behind (.wrongKind found want) r

/-- The fault of a text, without blanks at its front, that does not begin with the wanted value. -/
def wrongKind (want : String) : List Char → Fault
  | [] => .ahead .endInValue []
  | c :: r =>
    if c = 'n' then wrongWord ['u', 'l', 'l'] .null want r
    else if c = 't' then wrongWord ['r', 'u', 'e'] (.boolean true) want r
    else if c = 'f' then wrongWord ['a', 'l', 's', 'e'] (.boolean false) want r
    else if c = '"' then
      match readString r with
      | .error e => e
      | .ok (t, r) => .behind (.wrongKind (.text t) want) r
    else if startsNumber c then
      match readNumber (c :: r) with
      | .error e => e
      | .ok (n, r) => .behind (.wrongKind n.found want) r
    else if c = '[' then .behind (.wrongKind .sequence want) (c :: r)
    else if c = '{' then .behind (.wrongKind .map want) (c :: r)
    else .ahead .expectedValue (c :: r)

end ClusterWatch.Json
