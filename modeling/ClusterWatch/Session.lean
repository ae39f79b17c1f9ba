import ClusterWatch.CommandLine
import ClusterWatch.Snapshot.Raw
import ClusterWatch.Snapshot.Table
import ClusterWatch.Source.Fetch
import ClusterWatch.World

/-!
# Session — what the commands print

`status` asks once: it prints the status, or nothing but a report of what failed (`Session.status`).
`watch` is a world of one poller and its view whose update stream is printed as it yields
(`Session.printed`): raw, each loaded snapshot as a document and a line end; otherwise each snapshot
as a table on a cleared screen.
-/

namespace ClusterWatch

/-- What a run of the program leaves: its exit code, what it printed, and the report of a failure. -/
structure Result where
  exit : Nat
  stdout : String
  report : Option String
  deriving DecidableEq, Repr

namespace Session

/-! ### Reports -/

/-- A text whose lines after the first are indented. -/
def hanging (indent : Nat) (s : List Char) : List Char :=
  s.flatMap fun c => if c = '\n' then '\n' :: List.replicate indent ' ' else [c]

/-- The mark before a numbered cause: its number, up to the fifth place, and a colon. -/
def mark (i : Nat) : List Char :=
  List.replicate (5 - (Decimal.numeral i).length) ' ' ++ Decimal.numeral i ++ [':', ' ']

/-- Causes as lines of a report, numbered from `i` on. -/
def numbered (i : Nat) : List String → List Char
  | [] => []
  | cause :: causes => mark i ++ hanging 7 cause.toList ++ '\n' :: numbered (i + 1) causes

/-- The causes of a failure as lines of a report: a single cause stands alone, several are
numbered. -/
def causeLines : List String → List Char
  | [cause] => List.replicate 4 ' ' ++ hanging 4 cause.toList ++ ['\n']
  | causes => numbered 0 causes

/-- A report: what was attempted, and then the causes. -/
def reportText (attempt : String) (causes : List String) : String :=
  "Error: " ++ attempt ++ "\n\nCaused by:\n" ++ String.ofList (causeLines causes)

/-- The report of a failed fetch. -/
def report (url : String) (e : SourceError) : String :=
  reportText ("failed to fetch " ++ url) e.causes

/-! ### Showing the status once -/

/-- A snapshot as `status` prints it. -/
def shown (raw : Bool) (s : Snapshot) (now : Instant) : String :=
  if raw then String.ofList (s.raw ++ ['\n']) else s.render now

variable [Client]

/-- Shows the status that a fetch gives at a time. -/
def status (source : SourceConfig) (raw : Bool) (now : Instant) (delivery : Delivery) : Result :=
  match source.fetch delivery with
  | .ok s => ⟨0, shown raw (.ofStatus s now) now, none⟩
  | .error e => ⟨1, "", some (report source.url e)⟩

/-! ### Watching -/

/-- What clears the screen and goes to its first place. -/
def clearScreen : String := "\x1b[2J\x1b[H"

/-- A snapshot as `watch` prints it. -/
def frame (raw : Bool) (s : Snapshot) (now : Instant) : String :=
  if raw then (if s.isLoaded then shown true s now else "")
  else clearScreen ++ shown false s now

/-- What is printed of the snapshots that the steps of a world yield. -/
def printed (raw : Bool) (history : List Stepped) : String :=
  String.join (history.flatMap fun s =>
    s.yielded.map fun snapshot => frame raw snapshot (.ofMillis s.world.now))

/-- The world of a watch before its first step. -/
def watchWorld (interval : Nat) : World := .ofPollers [(watchInterval interval, 0)]

/-- A fetched status, or a failure, as a reply. -/
def replyOf : Except SourceError Status → Reply
  | .ok s => .settles (.status s) false
  | .error _ => .settles .failure false

/-- What a watch does about one fetch: it takes the reply and prints what is new. -/
def exchange (fetched : Except SourceError Status) : List Step :=
  [.reply 0 (replyOf fetched), .updates 0]

/-- What a watch does about its fetches, with its interval between one and the next. -/
def exchanges (interval : Nat) : List (Except SourceError Status) → List Step
  | [] => []
  | [fetched] => exchange fetched
  | fetched :: rest =>
    exchange fetched ++ [.advance (watchInterval interval)] ++ exchanges interval rest

/-- The steps of a watch whose fetches are delivered one after the other. -/
def watchSteps (source : SourceConfig) (interval : Nat) (deliveries : List Delivery) : List Step :=
  [.start 0, .updates 0] ++ exchanges interval (deliveries.map source.fetch)

/-- A watch that is interrupted once its fetches have been delivered. -/
def watch (source : SourceConfig) (interval : Nat) (raw : Bool) (deliveries : List Delivery) :
    Result :=
  let history := (watchWorld interval).history (watchSteps source interval deliveries)
  ⟨0, printed raw history, none⟩

/-! ### The program -/

/-- What a run of the program comes to: what it leaves, and the requests that it has made. -/
structure Outcome where
  result : Result
  requests : List Request

/-- A run of the program: `arrivals` is what the network makes of its requests, one after the other,
and `now` is the time at which a status is shown. -/
def run (env : Environment) (words : List String) (now : Instant) (arrivals : List Arrival) :
    Outcome :=
  match CommandLine.parse env words with
  | .error e => ⟨⟨e.exitCode, "", none⟩, []⟩
  | .ok a =>
    match a.command with
    | .status raw =>
      let x := a.source.exchange arrivals
      ⟨status a.source raw now x.delivery, x.requests⟩
    | .watch interval raw =>
      let xs := a.source.exchanges arrivals
      ⟨watch a.source interval raw (xs.map (·.delivery)), xs.flatMap (·.requests)⟩

end Session

end ClusterWatch
