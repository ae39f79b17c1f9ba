import ClusterWatch.Session
import ClusterWatch.Source.Answer
import Std.Async
import Std.Time

/-!
# Main — the program

The outer layer: it reads the arguments, the environment and the clock, exchanges bytes with a
master, and prints.  Addresses of the secure scheme are refused, since bytes are exchanged as they
are.
-/

namespace ClusterWatch.Main
open Std Std.Async

local instance : Client := .standard

/-- The time, in milliseconds since the start of 1970. -/
def nowMillis : IO Nat := do
  return (← Time.Timestamp.now).toMillisecondsSinceUnixEpoch.val.toNat

/-- All bytes that a connection brings until it ends. -/
partial def receive (client : TCP.Socket.Client) (bytes : ByteArray) : Async ByteArray := do
  match ← client.recv? 65536 with
  | none => return bytes
  | some more => receive client (bytes ++ more)

/-- Sends a request to a host and gives what arrives; a connection that breaks has brought what came
before. -/
def exchange (u : Url) (address : Net.SocketAddress) (request : Request) : Async Arrival := do
  let failure := fun cause => Failure.of u request "error sending request" [cause]
  let client ← TCP.Socket.Client.mk
  try
    client.connect address
  catch e => return ⟨.unsent (failure (toString e)), none⟩
  try
    client.send (ByteArray.mk (request.bytes u.host).toArray)
    let brokenOff := failure "connection closed before message completed"
    return .ofBytes brokenOff (← receive client .empty).toList
  catch e => return ⟨.unanswered (failure (toString e)), none⟩

/-- The addresses of a host, each with the number of the socket that is asked for. -/
def resolve (host : String) (socket : UInt16) : Async (List Net.SocketAddress) := do
  try
    return (← DNS.getAddrInfo host (toString socket)).toList.map fun
      | .v4 addr => .v4 ⟨addr, socket⟩
      | .v6 addr => .v6 ⟨addr, socket⟩
  catch _ => return []

/-- Milliseconds as the timer takes them. -/
def millis (n : Nat) : Time.Millisecond.Offset := .ofNat n

/-- What the network makes of a request to an address. -/
def arrive (u : Url) (request : Request) : Async Arrival := do
  let failure := fun cause => Failure.of u request "error sending request" [cause]
  if u.secure then return ⟨.unsent (failure "the secure scheme is not spoken"), none⟩
  let socket := UInt16.ofNat (u.socket.getD 80)
  match ← resolve (String.ofList (Host.bare u.host)) socket with
  | [] => return ⟨.unsent (failure "the host is not known"), none⟩
  | address :: _ => exchange u address request

/-- Completes an exchange of a source with what arrives next. -/
partial def complete (source : SourceConfig) (arrivals : List Arrival) : Async Exchange := do
  let x := source.exchange arrivals
  match x.awaits, x.requests.getLast? with
  | some u, some request => complete source (arrivals ++ [← arrive u request])
  | _, _ => return x

/-- What the client of a source delivers, within the source's limit. -/
def deliver (source : SourceConfig) : IO Delivery := do
  let late := (source.exchange []).delivery
  Async.block <| Async.race (do return (← complete source []).delivery) do
    sleep (millis source.requestTimeout)
    return late

/-- Prints a text at once. -/
def emit (text : String) : IO Unit := do
  let out ← IO.getStdout
  out.putStr text
  out.flush

/-- Watches a source from a world on. -/
partial def watch (source : SourceConfig) (interval : Nat) (raw : Bool) (w : World) : IO Unit := do
  let fetched := source.fetch (← deliver source)
  let w := { w with now := ← nowMillis }
  let history := w.history (Session.exchange fetched)
  emit (Session.printed raw history)
  let w := (history.getLast?.map (·.world)).getD w
  Async.block (sleep (millis (watchInterval interval)))
  watch source interval raw (w.step (.advance (watchInterval interval))).world

/-- Watches a source until the program is interrupted. -/
def watchUntilInterrupted (source : SourceConfig) (interval : Nat) (raw : Bool) : IO Unit := do
  let interrupted ← (← Signal.Waiter.mk .sigint false).wait
  let w := { Session.watchWorld interval with now := ← nowMillis }
  let history := w.history [.start 0, .updates 0]
  emit (Session.printed raw history)
  let w := (history.getLast?.map (·.world)).getD w
  discard (IO.asTask (watch source interval raw w))
  discard interrupted.block

/-- Runs the program. -/
def run (words : List String) : IO UInt32 := do
  let env : Environment := ⟨← IO.getEnv "DTCRAFT_MASTER_URL", ← IO.getEnv "DTCRAFT_OTLP_URL",
    ← IO.getEnv "DTCRAFT_OTLP_TOKEN"⟩
  match CommandLine.parse env words with
  | .error e =>
    IO.eprintln e.message
    return UInt32.ofNat e.exitCode
  | .ok a =>
    match a.command with
    | .status raw =>
      let delivery ← deliver a.source
      let result := Session.status a.source raw (.ofMillis (← nowMillis)) delivery
      emit result.stdout
      result.report.forM fun text => IO.eprint text
      return UInt32.ofNat result.exit
    | .watch interval raw =>
      watchUntilInterrupted a.source interval raw
      return 0

end ClusterWatch.Main

/-- The program. -/
def main (words : List String) : IO UInt32 := ClusterWatch.Main.run words
