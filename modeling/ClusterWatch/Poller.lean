import ClusterWatch.Snapshot

/-!
# Poller — one turn of a polling loop

A poller asks its source for the status again and again.  While it polls it holds one *loop*, which
waits for the reply to a fetch, or sleeps until the next fetch is due.  A fetch is issued as soon
as the loop starts, and then the poller's interval after the last fetch was settled, whether it
succeeded or not.

What a loop does at one moment is a *turn* (`Poller.issue`, `Poller.settle`): it goes on until its
fetch finds no reply, until it has to sleep, or until it ends.  A loop ends when its fetch panics or
when its poller is gone once the fetch has settled; the status of such a fetch is thrown away.  A
turn is a matter of its poller and the time alone; what it does to the rest of the world is in its
`Act`s.
-/

namespace ClusterWatch

/-- How a fetch is settled: with a status or with an error. -/
inductive Outcome
  | status (s : Status)
  | failure
  deriving DecidableEq, Repr

/-- What a source has ready for a fetch: an outcome, and whether the fetch drops its own poller
before it settles; or a panic, which leaves the poller as it is. -/
inductive Reply
  | settles (outcome : Outcome) (dropsPoller : Bool)
  | panics
  deriving DecidableEq, Repr

/-- Whether a fetch drops its own poller. -/
def Reply.dropsPoller : Reply → Bool
  | settles _ drops => drops
  | panics => false

/-- What a poller holds: nothing, the loop of one of its rounds, or nothing ever again. -/
inductive Handle
  | free
  | held (round : Nat)
  | gone
  deriving DecidableEq, Repr

/-- A poller, the replies that wait for its fetches, and how many loops it has started and fetches
it has issued. -/
structure Poller where
  interval : Nat
  view : Nat
  handle : Handle
  rounds : Nat
  fetches : Nat
  queue : List Reply
  deriving DecidableEq, Repr

/-- What a loop is at: a fetch to be issued, a fetch that waits for its reply, or sleep. -/
inductive Phase
  | due
  | waiting
  | sleeping (deadline : Nat)
  deriving DecidableEq, Repr

/-- What a loop does: it issues a fetch, takes a reply, or applies a status to a view; or the fetch
it waits for is cancelled. -/
inductive Act
  | issued
  | took (reply : Reply)
  | applied (view : Nat) (status : Status)
  | cancelled
  deriving DecidableEq, Repr

/-- What a turn leaves: the poller, the loop's phase unless it has ended, and what it did. -/
structure Turn where
  poller : Poller
  phase : Option Phase
  acts : List Act

namespace Poller

/-- The milliseconds between fetches unless others are chosen. -/
def standardInterval : Nat := 1000

/-- A poller that has not been started. -/
def fresh (interval view : Nat) : Poller := ⟨interval, view, .free, 0, 0, []⟩

/-- A poller after one of its replies has been taken. -/
def afterTaking (p : Poller) (reply : Reply) (rest : List Reply) : Poller :=
  { p with queue := rest, handle := if reply.dropsPoller then .gone else p.handle }

/-- What is done with the reply to a fetch whose poller is still there. -/
def applying (p : Poller) : Reply → List Act
  | .settles (.status s) _ => [.applied p.view s]
  | .settles .failure _ | .panics => []

/-- The turn of a loop whose fetch has been issued and finds the given replies. -/
def settle (now : Nat) : List Reply → Poller → Turn
  | [], p => ⟨{ p with queue := [] }, some .waiting, []⟩
  | reply :: rest, p =>
    let q := p.afterTaking reply rest
    if reply = .panics ∨ q.handle = .gone then ⟨q, none, [.took reply]⟩
    else if q.interval = 0 then
      let t := settle now rest { q with fetches := q.fetches + 1 }
      ⟨t.poller, t.phase, .took reply :: q.applying reply ++ .issued :: t.acts⟩
    else
      ⟨q, some (.sleeping (now + q.interval)), .took reply :: q.applying reply⟩

/-- The turn of a loop that issues a fetch. -/
def issue (now : Nat) (p : Poller) : Turn :=
  let t := settle now p.queue { p with fetches := p.fetches + 1 }
  ⟨t.poller, t.phase, .issued :: t.acts⟩

/-- The turn of a loop at a phase. -/
def turn (now : Nat) (phase : Phase) (p : Poller) : Turn :=
  match phase with
  | .waiting => settle now p.queue p
  | .due | .sleeping _ => issue now p

/-- Whether a loop at a phase has something to do. -/
def isRunnable (now : Nat) (phase : Phase) (p : Poller) : Bool :=
  match phase with
  | .due => true
  | .waiting => !p.queue.isEmpty
  | .sleeping deadline => deadline ≤ now

end Poller

end ClusterWatch
