import ClusterWatch.CommandLine.Word
import ClusterWatch.Source.Fetch

/-!
# Answer — requests and answers as bytes

A request is written in version 1.0 of the web's protocol, so the answer to it ends with the
connection; an answer that announces the length of its body is cut short if the connection ends
before that (`Arrival.ofBytes`).  A connection that ends before the head of an answer is complete
has brought no answer, and one that only announces another answer is passed over.
-/

namespace ClusterWatch

/-- A request as the bytes that are sent to a host. -/
def Request.bytes (r : Request) (host : List Char) : List UInt8 :=
  Text.utf8 ((r.method ++ " " ++ r.target ++ " HTTP/1.0\r\nhost: ").toList ++ host ++
    ("\r\naccept: " ++ r.accept ++ "\r\n\r\n").toList)

namespace Answer

/-- The head of an answer and what stands behind its empty line. -/
def splitHead : List UInt8 → Option (List UInt8 × List UInt8)
  | [] => none
  | b :: bs =>
    if [13, 10, 13, 10].isPrefixOf (b :: bs) then some ([], bs.drop 3)
    else match splitHead bs with
      | none => none
      | some (head, body) => some (b :: head, body)

/-- The lines of a head. -/
def lines (head : List UInt8) : List String :=
  (String.ofList (head.map fun b => Char.ofNat b.toNat)).splitOn "\r\n"

/-- The status in the first line of a head. -/
def code? (line : String) : Option Nat :=
  match line.splitOn " " with
  | _ :: code :: _ => if code.length = 3 then CommandLine.number? code.toList else none
  | _ => none

/-- What a line of a head says about a thing, if that is what it is about. -/
def field? (name line : String) : Option (List Char) :=
  let (key, value) := Text.splitAt (· = ':') line.toList
  if (String.ofList key).toLower = name then some (Text.trim (value.drop 1)) else none

/-- The answer that a head and what stands behind it make. -/
def arrival (brokenOff : Failure) (code : Nat) (fields : List String) (body : List UInt8) :
    Arrival where
  delivery :=
    match (fields.findSome? (field? "content-length")).bind CommandLine.number? with
    | none => .answered code body none
    | some length =>
      .answered code (body.take length) (if length ≤ body.length then none else some brokenOff)
  location := (fields.findSome? (field? "location")).bind fun place =>
    (String.fromUTF8? (ByteArray.mk (place.map fun c => UInt8.ofNat c.toNat).toArray)).map
      String.toList

theorem length_splitHead {bytes head body : List UInt8} (h : splitHead bytes = some (head, body)) :
    body.length < bytes.length := by
  fun_induction splitHead bytes generalizing head body with
  | case1 => cases h
  | case2 b bs hend =>
      cases h
      rw [List.length_drop, List.length_cons]
      omega
  | case3 b bs hmore hnone ih => cases h
  | case4 b bs hmore head' body' hsome ih =>
      cases h
      exact Nat.lt_succ_of_lt (ih hsome)

end Answer

/-- What the network has made of a request when a connection ends, given the bytes it has brought:
the first answer that announces no other. -/
def Arrival.ofBytes (brokenOff : Failure) (bytes : List UInt8) : Arrival :=
  match _h : Answer.splitHead bytes with
  | none => ⟨.unanswered brokenOff, none⟩
  | some (head, body) =>
    match Answer.lines head with
    | [] => ⟨.unanswered brokenOff, none⟩
    | first :: fields =>
      match Answer.code? first with
      | none => ⟨.unanswered brokenOff, none⟩
      | some code =>
        if isFinal code then Answer.arrival brokenOff code fields body
        else Arrival.ofBytes brokenOff body
termination_by bytes.length
decreasing_by exact Answer.length_splitHead ‹_›

end ClusterWatch
