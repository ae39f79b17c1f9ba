import ClusterWatch.Source.Client

/-!
# Fetch — one exchange with a master

In an exchange a source asks its address, through its client, and then the places that redirects
lead to (`SourceConfig.exchange`).  It makes a status of what it is delivered in the end, or says
why not (`SourceConfig.fetch`).  The first of these that applies is the reason: no answer arrived,
the answer's status is no success, its body was cut short, its body holds no status.
-/

namespace ClusterWatch

/-- An exchange: the requests that were made, one after the other, what is delivered, the address of
which the arrival is still awaited, if one is, and the arrivals that belong to later exchanges. -/
structure Exchange where
  requests : List Request
  delivery : Delivery
  awaits : Option Url
  later : List Arrival

/-- An exchange with one more request before the others. -/
def Exchange.behind (request : Request) (x : Exchange) : Exchange :=
  { x with requests := request :: x.requests }

namespace SourceConfig

variable (config : SourceConfig)

/-- What a source accepts as an answer. -/
def accept : String :=
  match config.format with
  | .json => "application/json"
  | .jsonp _ => "*/*"

/-- The request of a source for an address. -/
def requestFor (u : Url) : Request :=
  match config.format with
  | .json => ⟨"GET", String.ofList u.target, config.accept⟩
  | .jsonp callback =>
    ⟨"GET", String.ofList (u.targetWith "jsonp".toList callback.toList), config.accept⟩

/-- The request of a source for a place that an answer has named. -/
def requestAgain (u : Url) : Request := ⟨"GET", String.ofList u.target, config.accept⟩

/-- The status that a body holds, or that it holds none. -/
def ofBody (body : List UInt8) : Except SourceError Status :=
  match decodeBody config.format (Text.decodeLossy body) with
  | .ok s => .ok s
  | .error p => .error (.malformed p)

variable [Client]

/-- The request that a source sends; none when its address cannot be asked. -/
def request? : Option Request := (Url.parse? config.url.toList).map config.requestFor

/-- Asks an address for which so many more redirects may be followed. -/
def ask (left : Nat) (u : Url) (request : Request) (arrivals : List Arrival) : Exchange :=
  if Client.sends u request then
    match arrivals with
    | [] => ⟨[request], .unanswered (Client.wording (.late u request)), some u, []⟩
    | x :: later =>
      match x.leads? u with
      | none => ⟨[request], x.delivery.ended u request, none, later⟩
      | some place =>
        match place, left with
        | some v, left + 1 => (ask left v (config.requestAgain v) later).behind request
        | _, _ => ⟨[request], .unanswered (Client.wording (.astray u request)), none, later⟩
  else ⟨[], .unsent (Client.wording (.unsendable u request)), none, arrivals⟩

/-- The exchange that a source has with the network. -/
def exchange (arrivals : List Arrival) : Exchange :=
  match Url.parse? config.url.toList with
  | none => ⟨[], .unsent (Client.wording (.unusable config.url)), none, arrivals⟩
  | some u => config.ask redirectLimit u (config.requestFor u) arrivals

/-- The exchanges that a source has one after the other, until nothing more arrives. -/
def exchanges (arrivals : List Arrival) : List Exchange :=
  let first := config.exchange arrivals
  if first.later.length < arrivals.length then first :: exchanges first.later else []
termination_by arrivals.length

/-- The status that a source makes of what it is delivered; a source that can send no request has no
use for an answer. -/
def fetch (delivery : Delivery) : Except SourceError Status :=
  match config.request?, delivery with
  | _, .unsent failure | _, .unanswered failure => .error (.transport config.url failure)
  | none, .answered .. => .error (.transport config.url (Client.wording (.unusable config.url)))
  | some _, .answered code body cut =>
    if !isSuccess code then .error (.status config.url code)
    else if !hasBody code then config.ofBody []
    else match cut with
      | some failure => .error (.transport config.url failure)
      | none => config.ofBody body

end SourceConfig

end ClusterWatch
