import ClusterWatch.Source.Host

/-!
# Url — the address of a request

An address can be asked if it names the web's scheme and a host (`Host.parse?`).  What a request
names of it is the path, with its dots resolved, and the query; characters that may not stand there
are written as percent signs and hexadecimal digits.  An answer may name another place, seen from
the address that was asked (`Url.place?`).
-/

namespace ClusterWatch

/-- The parts of an address that can be asked. -/
structure Url where
  secure : Bool
  host : List Char
  socket : Option Nat
  path : List Char
  query : Option (List Char)
  deriving DecidableEq, Repr

namespace Url
open Text

/-- Whether a character is a slash of an address. -/
def isSlash (c : Char) : Bool := c = '/' || c = '\\'

/-- Whether a character ends the host of an address. -/
def endsHost (c : Char) : Bool := isSlash c || c = '?' || c = '#'

/-- Whether a character ends the path of an address. -/
def endsPath (c : Char) : Bool := c = '?' || c = '#'

/-- An address without control characters and spaces at its ends, and without tabs and line ends. -/
def cleaned (s : List Char) : List Char :=
  let outer := fun (c : Char) => decide (c.toNat ≤ 0x20)
  let s := ((s.dropWhile outer).reverse.dropWhile outer).reverse
  s.filter fun c => !(c = '\t' || c = '\n' || c = '\r')

/-- The scheme of an address: whether it is the secure one, and what stands behind its colon and any
slashes. -/
def scheme? (s : List Char) : Option (Bool × List Char) :=
  let (name, rest) := splitAt (· = ':') s
  let secure? : Option Bool :=
    if name.map Char.toLower = "http".toList then some false
    else if name.map Char.toLower = "https".toList then some true
    else none
  match secure?, after? [':'] rest with
  | some secure, some rest => some (secure, rest.dropWhile isSlash)
  | _, _ => none

/-- The number of the socket that is asked for, which a colon stands before, if one is; nothing when
what stands there is no number of a socket. -/
def socket? : List Char → Option (Option Nat)
  | [] => some none
  | ':' :: ds =>
    if ds.all Char.isDigit ∧ Decimal.value ds < 65536 then
      some (if ds = [] then none else some (Decimal.value ds))
    else none
  | _ :: _ => none

/-- What stands before and from the colon behind a host; one in square brackets may hold colons. -/
def splitHost (s : List Char) : List Char × List Char :=
  if s.head? = some '[' then
    let (inside, rest) := splitAt (· = ']') s
    (inside ++ rest.take 1, rest.drop 1)
  else splitAt (· = ':') s

/-- The host of an address and the number of its socket, without the name of a user before them. -/
def authority? [HostNames] (s : List Char) : Option (List Char × Option Nat) :=
  let (host, rest) := splitHost (s.reverse.takeWhile (· ≠ '@')).reverse
  match Host.parse? host, socket? rest with
  | some host, some socket => some (host, socket)
  | _, _ => none

/-- The parts of an address, if it can be asked. -/
def parse? [HostNames] (s : List Char) : Option Url :=
  match scheme? (cleaned s) with
  | none => none
  | some (secure, s) =>
    let (authority, s) := splitAt endsHost s
    match authority? authority with
    | none => none
    | some (host, socket) =>
      let (path, s) := splitAt endsPath s
      let query := match s with
        | '?' :: s => some (s.takeWhile (· ≠ '#'))
        | _ => none
      some ⟨secure, host, socket, path, query⟩

/-! ### What a request names -/

/-- A character as it is written, if those that `p` picks out are escaped. -/
def escapeWhere (p : Char → Bool) (c : Char) : List Char :=
  if p c then (utf8Char c).flatMap Query.percent else [c]

/-- Whether a character is escaped in a path. -/
def escapedInPath (c : Char) : Bool :=
  c.toNat ≤ 0x20 || 0x7F ≤ c.toNat || "\"#<>?`\x7b\x7d".toList.contains c

/-- Whether a character is escaped in a query. -/
def escapedInQuery (c : Char) : Bool :=
  c.toNat ≤ 0x20 || 0x7F ≤ c.toNat || "\"#<>\x27".toList.contains c

/-- Whether a part of a path stands for the place it is in. -/
def isHere (part : List Char) : Bool :=
  [".".toList, "%2e".toList].contains (part.map Char.toLower)

/-- Whether a part of a path leads back. -/
def isBack (part : List Char) : Bool :=
  ["..".toList, ".%2e".toList, "%2e.".toList, "%2e%2e".toList].contains (part.map Char.toLower)

/-- Whether a part of a path is the letter of a drive, which no part behind it leads back from. -/
def isDrive : List Char → Bool
  | [letter, mark] => letter.isAlpha && (mark = ':' || mark = '|')
  | _ => false

/-- The parts that are left, in reverse, when one leads back. -/
def back : List (List Char) → List (List Char)
  | [] => []
  | part :: done => if isDrive part then part :: done else done

/-- The parts of a path behind those that have been resolved, which are in reverse. -/
def resolve (done : List (List Char)) : List (List Char) → List (List Char)
  | [] => done.reverse
  | part :: rest =>
    if isBack part then resolve (if rest = [] then [] :: back done else back done) rest
    else if isHere part then resolve (if rest = [] then [] :: done else done) rest
    else resolve (part :: done) rest

/-- The path as a request names it. -/
def pathText (u : Url) : List Char :=
  (resolve [] (pieces isSlash u.path.tail)).flatMap fun part =>
    '/' :: part.flatMap (escapeWhere escapedInPath)

/-- The query as a request names it. -/
def queryText (u : Url) : Option (List Char) :=
  u.query.map fun q => q.flatMap (escapeWhere escapedInQuery)

/-- Path and query of an address, as a request names them. -/
def target (u : Url) : List Char :=
  u.pathText ++ match u.queryText with
    | none => []
    | some q => '?' :: q

/-- Path and query of an address with one more parameter. -/
def targetWith (u : Url) (name value : List Char) : List Char :=
  u.pathText ++ '?' :: Query.append u.queryText name value

/-! ### Places named in answers -/

/-- What stands before the path of an address. -/
def origin (u : Url) : List Char :=
  (if u.secure then "https://" else "http://").toList ++ u.host ++ match u.socket with
    | none => []
    | some n => ':' :: Decimal.numeral n

/-- Whether a text begins with the name of a scheme and a colon. -/
def namesScheme (s : List Char) : Bool :=
  let (name, rest) := splitAt (· = ':') s
  rest ≠ [] && (name.head?.map Char.isAlpha).getD false &&
    name.all fun c => c.isAlphanum || "+-.".toList.contains c

/-- The address that a text names when it is seen from another address: as a whole, or from the
host, the path, the part of the path it is in, or the query on. -/
def relative (u : Url) (s : List Char) : List Char :=
  if namesScheme s then s
  else match s with
    | [] => u.origin ++ u.target
    | c :: rest =>
      if isSlash c then
        if (rest.head?.map isSlash).getD false then
          (if u.secure then "https:" else "http:").toList ++ s
        else u.origin ++ s
      else if c = '?' then u.origin ++ u.pathText ++ s
      else if c = '#' then u.origin ++ u.target ++ s
      else u.origin ++ (u.pathText.reverse.dropWhile (· ≠ '/')).reverse ++ s

/-- The place that a text names when it is seen from an address: none, or one that is not of the
web, or an address that can be asked. -/
def place? [HostNames] (u : Url) (s : List Char) : Option (Option Url) :=
  let s := u.relative (cleaned s)
  match scheme? s, parse? s with
  | none, _ => some none
  | some _, none => none
  | some _, some v => some (some v)

end Url

end ClusterWatch
