import ClusterWatch.Source
import ClusterWatch.Source.Url

/-!
# Client — what carries a request to a master and brings the answer

A source asks through a client.  To each request the network makes an arrival (`Arrival`), and out
of the arrivals the client makes one delivery (`Delivery`): it passes over an answer that only
announces another one, and where an answer is a redirect it asks the place that this names instead,
up to ten times in a row.

What a client makes of addresses, and how it puts a failure, is its own: `Client` leaves that open,
and `Client.standard` is one that the program can run with.
-/

namespace ClusterWatch

/-- A request as a master sees it. -/
structure Request where
  method : String
  target : String
  accept : String
  deriving DecidableEq, Repr

/-- What a client delivers: no request could be sent, or no answer to it has come, or an answer has,
of which the body may be cut short.  What has failed is put in words. -/
inductive Delivery
  | unsent (failure : Failure)
  | unanswered (failure : Failure)
  | answered (code : Nat) (body : List UInt8) (cut : Option Failure)
  deriving DecidableEq, Repr, Inhabited

/-- What the network makes of one request: what has come of it last, and the place that the answer
names, if it names one. -/
structure Arrival where
  delivery : Delivery
  location : Option (List Char)
  deriving DecidableEq, Repr

/-- Where a client gives up by itself: a text is no address that can be asked, a request cannot be
sent, nothing has come of it in time, an answer to it was announced and has not come, or a redirect
does not lead on. -/
inductive Lapse
  | unusable (address : String)
  | unsendable (u : Url) (request : Request)
  | late (u : Url) (request : Request)
  | unended (u : Url) (request : Request) (code : Nat)
  | astray (u : Url) (request : Request)
  deriving DecidableEq, Repr

/-- What a client makes of addresses, and how it puts its failures. -/
class Client extends HostNames where
  /-- Whether it can send a request to an address; one that is too long it cannot. -/
  sends : Url → Request → Bool
  /-- The place that an answer names, seen from the address that was asked: none that makes sense,
  one that is not of the web, or an address. -/
  place? : Url → List Char → Option (Option Url)
  /-- How it says that it gives up. -/
  wording : Lapse → Failure

/-- Whether an answer of a status can have a body. -/
def hasBody (code : Nat) : Bool := code ≠ 204 && code ≠ 304

/-- Whether a status is a success. -/
def isSuccess (code : Nat) : Bool := 200 ≤ code && code < 300

/-- Whether a status is that of an answer: it has three digits, and those that begin with a one
announce another answer, but for the one that changes the protocol. -/
def isFinal (code : Nat) : Bool := code = 101 || (200 ≤ code && code < 1000)

/-- Whether a status is a redirect that is followed. -/
def isRedirect (code : Nat) : Bool := [301, 302, 303, 307, 308].contains code

/-- How many redirects in a row a client follows. -/
def redirectLimit : Nat := 10

/-- The place that an arrival leads to, seen from the address that was asked, if it is a redirect
that names one. -/
def Arrival.leads? [Client] (x : Arrival) (u : Url) : Option (Option Url) :=
  match x.delivery, x.location with
  | .answered code _ _, some location =>
    if isRedirect code then Client.place? u location else none
  | _, _ => none

/-- What a client delivers of what has come last of a request. -/
def Delivery.ended [Client] (u : Url) (request : Request) : Delivery → Delivery
  | .answered code body cut =>
    if isFinal code then .answered code body cut
    else .unanswered (Client.wording (.unended u request code))
  | .unsent failure => .unsent failure
  | .unanswered failure => .unanswered failure

/-- The words of a failure of a request. -/
def Failure.of (u : Url) (request : Request) (what : String) (causes : List String) : Failure :=
  ⟨what ++ " for url (" ++ String.ofList u.origin ++ request.target ++ ")", causes⟩

/-- A client that takes names of the basic alphabet as they stand. -/
@[reducible] def Client.standard : Client where
  toHostNames := .standard
  sends u request := u.origin.length + request.target.length < 65535
  place? := @Url.place? .standard
  wording
    | .unusable _ => ⟨"builder error", ["the address cannot be asked"]⟩
    | .unsendable u request => .of u request "builder error" ["the address is too long"]
    | .late u request => .of u request "error sending request" ["operation timed out"]
    | .unended u request _ => .of u request "error sending request"
        ["client error (SendRequest)", "connection closed before message completed"]
    | .astray u request => .of u request "error following redirect" ["too many redirects"]

end ClusterWatch
