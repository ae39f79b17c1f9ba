import ClusterWatch.Poller

/-!
# World — pollers, their loops and their views

The world is a clock in milliseconds, the pollers, the loops that are alive, and the views the
pollers write to; several pollers may share a view.  A step is a call on one poller or view, after
which every loop that has something to do takes its turn (`World.run`), or the passing of some
milliseconds, after each of which the loops do so.  Loops take their turns in the order in which
they last came to rest.

A step gives the new world and the events in it, in their order (`Stepped`); what a view shows, and
whether a step changed it, can be read off the events alone.
-/

namespace ClusterWatch

/-- A loop, named by its poller and the round of that poller that started it. -/
structure LoopId where
  poller : Nat
  round : Nat
  deriving DecidableEq, Repr

/-- A loop that is alive. -/
structure Loop where
  id : LoopId
  phase : Phase
  deriving DecidableEq, Repr

/-- Something a loop did, or that was done to it, and when. -/
structure Event where
  time : Nat
  loop : LoopId
  act : Act
  deriving DecidableEq, Repr

/-- A view: what it shows, and whether its update stream has not yielded that yet. -/
structure View where
  snapshot : Snapshot
  unseen : Bool
  deriving DecidableEq, Repr

/-- A view to which nothing has been written. -/
def View.fresh : View := ⟨.empty, true⟩

/-- A view after a status has replaced what it showed. -/
def View.apply (v : View) (now : Nat) (s : Status) : View :=
  { v with snapshot := .ofStatus s (.ofMillis now), unseen := true }

/-- The pollers, the loops that are alive, and the views, at a time. -/
structure World where
  now : Nat
  pollers : List Poller
  loops : List Loop
  views : List View
  deriving DecidableEq, Repr

/-- What a user of a poller can see of it. -/
inductive PollerState
  | idle
  | polling
  | dropped
  deriving DecidableEq, Repr

/-- What can be done in one step. -/
inductive Step
  | start (poller : Nat)
  | stop (poller : Nat)
  | drop (poller : Nat)
  | look
  | reply (poller : Nat) (reply : Reply)
  | advance (ms : Nat)
  | updates (view : Nat)
  deriving DecidableEq, Repr

/-- What a step gives: the world after it, the events in it, and what an update stream yielded. -/
structure Stepped where
  world : World
  events : List Event
  yielded : List Snapshot

namespace World

/-- A world of pollers that have not been started, each given by its interval and its view. -/
def ofPollers (pollers : List (Nat × Nat)) : World where
  now := 0
  pollers := pollers.map fun p => .fresh p.1 p.2
  loops := []
  views := List.replicate (pollers.foldl (fun n p => max n (p.2 + 1)) 0) .fresh

/-- Whether a loop is alive. -/
def isLive (w : World) (id : LoopId) : Bool := w.loops.any (·.id = id)

/-- The state of the poller `p` at place `i`. -/
def stateOf (w : World) (i : Nat) (p : Poller) : PollerState :=
  match p.handle with
  | .free => .idle
  | .held round => if w.isLive ⟨i, round⟩ then .polling else .idle
  | .gone => .dropped

/-- The states of all pollers. -/
def states (w : World) : List PollerState := w.pollers.mapIdx fun i p => w.stateOf i p

/-! ### Turns -/

/-- The views after an act: an applied status replaces what its view showed. -/
def applyAct (now : Nat) (views : List View) : Act → List View
  | .applied view s => views.modify view (·.apply now s)
  | .issued | .took _ | .cancelled => views

/-- The turn of a loop; the loop comes to rest behind all others, unless it ends. -/
def turn (w : World) (loop : Loop) : World × List Event :=
  match w.pollers[loop.id.poller]? with
  | none => (w, [])
  | some p =>
    let t := p.turn w.now loop.phase
    ({ w with
        pollers := w.pollers.set loop.id.poller t.poller
        loops := w.loops.filter (·.id ≠ loop.id) ++ t.phase.toList.map (⟨loop.id, ·⟩)
        views := t.acts.foldl (applyAct w.now) w.views },
      t.acts.map (⟨w.now, loop.id, ·⟩))

/-- Whether a loop has something to do. -/
def isRunnable (w : World) (loop : Loop) : Bool :=
  match w.pollers[loop.id.poller]? with
  | none => false
  | some p => p.isRunnable w.now loop.phase

/-- Turns of loops, one after the other. -/
def turns (w : World) : List Loop → World × List Event
  | [] => (w, [])
  | loop :: loops =>
    let (w, es) := w.turn loop
    let (w, es') := turns w loops
    (w, es ++ es')

/-- The turns of all loops that have something to do. -/
def run (w : World) : World × List Event := w.turns (w.loops.filter w.isRunnable)

/-! ### Calls -/

/-- Starts a loop for the poller at place `i`, unless it polls already or is gone. -/
def start (w : World) (i : Nat) : World :=
  match w.pollers[i]? with
  | none => w
  | some p =>
    match w.stateOf i p with
    | .idle =>
      { w with
        pollers := w.pollers.set i { p with handle := .held p.rounds, rounds := p.rounds + 1 }
        loops := w.loops ++ [⟨⟨i, p.rounds⟩, .due⟩] }
    | .polling | .dropped => w

/-- The event that a loop is cancelled, if it waits for a reply. -/
def cancelling (now : Nat) (loop : Loop) : List Event :=
  match loop.phase with
  | .waiting => [⟨now, loop.id, .cancelled⟩]
  | .due | .sleeping _ => []

/-- Takes its handle from the poller at place `i`, which ends its loop, and leaves it another. -/
def release (w : World) (i : Nat) (handle : Handle) : World × List Event :=
  match w.pollers[i]? with
  | none => (w, [])
  | some p =>
    match p.handle with
    | .gone => (w, [])
    | .free => ({ w with pollers := w.pollers.set i { p with handle := handle } }, [])
    | .held round =>
      ({ w with
          pollers := w.pollers.set i { p with handle := handle }
          loops := w.loops.filter (·.id ≠ ⟨i, round⟩) },
        (w.loops.filter (·.id = ⟨i, round⟩)).flatMap (cancelling w.now))

/-- Puts a reply behind those that wait for the fetches of the poller at place `i`. -/
def enqueue (w : World) (i : Nat) (reply : Reply) : World :=
  { w with pollers := w.pollers.modify i fun p => { p with queue := p.queue ++ [reply] } }

/-- Lets one millisecond pass. -/
def tick (w : World) : World × List Event := run { w with now := w.now + 1 }

/-- Lets milliseconds pass, behind the given events. -/
def advance : Nat → World × List Event → World × List Event
  | 0, s => s
  | ms + 1, (w, es) =>
    let (w, es') := w.tick
    advance ms (w, es ++ es')

/-- Takes what the update stream of a view has ready. -/
def takeUpdates (w : World) (view : Nat) : World × List Snapshot :=
  match w.views[view]? with
  | none => (w, [])
  | some v =>
    ({ w with views := w.views.set view { v with unseen := false } },
      if v.unseen then [v.snapshot] else [])

/-- What a step does before the loops take their turns. -/
def call (w : World) : Step → Stepped
  | .start i => ⟨w.start i, [], []⟩
  | .stop i => let (w, es) := w.release i .free; ⟨w, es, []⟩
  | .drop i => let (w, es) := w.release i .gone; ⟨w, es, []⟩
  | .look => ⟨w, [], []⟩
  | .reply i r => ⟨w.enqueue i r, [], []⟩
  | .advance ms => let (w, es) := advance ms (w, []); ⟨w, es, []⟩
  | .updates view => let (w, taken) := w.takeUpdates view; ⟨w, [], taken⟩

/-- A step. -/
def step (w : World) (s : Step) : Stepped :=
  let called := w.call s
  let (w, es) := called.world.run
  ⟨w, called.events ++ es, called.yielded⟩

/-- What each of several steps gives. -/
def history (w : World) : List Step → List Stepped
  | [] => []
  | s :: rest => w.step s :: history (w.step s).world rest

end World

/-- Whether an event is that a status was applied to a view. -/
def Event.writes (view : Nat) (e : Event) : Bool :=
  match e.act with
  | .applied v _ => v = view
  | .issued | .took _ | .cancelled => false

/-- Whether a step has changed a view. -/
def Stepped.changed (s : Stepped) (view : Nat) : Bool := s.events.any (·.writes view)

end ClusterWatch
