import ClusterWatch.World

/-!
# Locked view — loops and cancels that meet at the lock of a view

`World` takes an apply as one act, and a stop or a drop as one call.  Here both come in moves, and
the moves of any number of loops, cancels and readers of one view come in any order that the view's
lock permits.

* A loop that has fetched a status enters the lock and only then loads its flag.  If the flag is set
  the loop writes the new snapshot part by part, otherwise it throws the status away; then it leaves
  the lock and is told which of the two it was.
* A cancel clears the flag of its loop, asks that the loop be aborted, enters the lock and leaves it
  again: whoever was inside when the flag was cleared has left by the time the cancel returns.  An
  abort takes effect only where a loop waits, in a fetch or in its sleep.
* A reader sees the whole snapshot at a moment at which nobody is inside the lock.

A snapshot is not replaced at once, since a reader that did not care for the lock could see some of
its parts without the others; writes of all parts with nothing between them replace it in one act.
Each loop is there from the start, about to take its first look at its flag, so a loop that is
started late is one whose first move comes late.  A move carries what was seen in it: the flag as it
was loaded, the snapshot as it was read, the outcome of an apply.  A list of moves is therefore the
record of what happened, and `LockedView.run?` says which lists can happen.
-/

namespace ClusterWatch

/-- The parts of a snapshot, which are written one after the other. -/
inductive Snapshot.Part
  | master
  | agents
  | updatedAt
  deriving DecidableEq, Repr

/-- The parts in the order in which they are written. -/
def Snapshot.Part.all : List Snapshot.Part := [.master, .agents, .updatedAt]

/-- A snapshot `y` after one part of `x` has been written over it. -/
def Snapshot.Part.write (x y : Snapshot) : Snapshot.Part → Snapshot
  | .master => { y with master := x.master }
  | .agents => { y with agents := x.agents }
  | .updatedAt => { y with updatedAt := x.updatedAt }

/-- What is shown of a status that was applied at a time. -/
def Snapshot.ofTimed (a : Instant × Status) : Snapshot := .ofStatus a.2 a.1

/-- A cancel, named by its loop and by which of the loop's cancels it is. -/
structure CancelId where
  loop : LoopId
  call : Nat
  deriving DecidableEq, Repr

/-- Whoever can be inside the lock. -/
inductive Thread
  | loop (id : LoopId)
  | cancel (id : CancelId)
  deriving DecidableEq, Repr

/-- What a move does with the lock. -/
inductive Grip
  | enters
  | leaves
  | keeps
  deriving DecidableEq, Repr

/-- Who is inside the lock after a move of the thread `t`. -/
def Grip.after (t : Thread) (holder : Option Thread) : Grip → Option Thread
  | .enters => some t
  | .leaves => none
  | .keeps => holder

/-! ### Loops -/

/-- Where a loop stands: about to look at its flag, in a fetch, in front of the lock with a status,
inside the lock before it has loaded its flag, inside the lock with so many parts written, inside
the lock with a status that it throws away, in its sleep, or at its end. -/
inductive LoopStage
  | due
  | fetching
  | arriving (s : Status)
  | inside (s : Status)
  | writing (a : Instant × Status) (parts : Nat)
  | refused (a : Instant × Status)
  | sleeping
  | ended
  deriving DecidableEq, Repr

/-- What a loop does: it looks at its flag before a fetch; the fetch settles or panics; it enters
the lock, loads its flag at a time, writes a part, and leaves the lock with the outcome of the
apply; it wakes; or it is aborted. -/
inductive LoopMove
  | look (set : Bool)
  | settle (outcome : Outcome)
  | panic
  | enter
  | load (set : Bool) (now : Instant)
  | write (part : Snapshot.Part) (a : Instant × Status)
  | leave (applied : Bool) (a : Instant × Status)
  | wake
  | abort
  deriving DecidableEq, Repr

/-- What a loop's move does with the lock. -/
def LoopMove.grip : LoopMove → Grip
  | .enter => .enters
  | .leave _ _ => .leaves
  | .look _ | .settle _ | .panic | .load _ _ | .write _ _ | .wake | .abort => .keeps

/-- What is shown after a loop's move. -/
def LoopMove.shows (x : Snapshot) : LoopMove → Snapshot
  | .write part a => part.write (.ofTimed a) x
  | .look _ | .settle _ | .panic | .enter | .load _ _ | .leave _ _ | .wake | .abort => x

/-- Where a loop stands after a move, if it can make that move from where it stands. -/
def LoopStage.next? : LoopStage → LoopMove → Option LoopStage
  | .due, .look set => some (if set then .fetching else .ended)
  | .fetching, .settle (.status s) => some (.arriving s)
  | .fetching, .settle .failure => some .sleeping
  | .fetching, .panic => some .ended
  | .arriving s, .enter => some (.inside s)
  | .inside s, .load set now => some (if set then .writing (now, s) 0 else .refused (now, s))
  | .writing a parts, .write part b =>
    if Snapshot.Part.all[parts]? = some part ∧ a = b then some (.writing a (parts + 1)) else none
  | .writing a parts, .leave true b =>
    if parts = Snapshot.Part.all.length ∧ a = b then some .sleeping else none
  | .refused a, .leave false b => if a = b then some .ended else none
  | .sleeping, .wake => some .due
  | .fetching, .abort | .sleeping, .abort => some .ended
  | _, _ => none

/-! ### Cancels -/

/-- Where a cancel stands: not called, behind clearing the flag, behind asking for the abort, inside
the lock, or returned. -/
inductive CancelStage
  | uncalled
  | cleared
  | asked
  | inside
  | returned
  deriving DecidableEq, Repr

/-- What a cancel does; with the last it returns. -/
inductive CancelMove
  | clear
  | ask
  | enter
  | leave
  deriving DecidableEq, Repr

/-- What a cancel's move does with the lock. -/
def CancelMove.grip : CancelMove → Grip
  | .enter => .enters
  | .leave => .leaves
  | .clear | .ask => .keeps

/-- Where a cancel stands after a move, if it can make that move from where it stands. -/
def CancelStage.next? : CancelStage → CancelMove → Option CancelStage
  | .uncalled, .clear => some .cleared
  | .cleared, .ask => some .asked
  | .asked, .enter => some .inside
  | .inside, .leave => some .returned
  | _, _ => none

/-! ### The view -/

/-- A move of a loop or of a cancel, or a read. -/
inductive Move
  | loop (id : LoopId) (m : LoopMove)
  | cancel (id : CancelId) (m : CancelMove)
  | read (x : Snapshot)
  deriving DecidableEq, Repr

/-- What a view shows, who is inside its lock, the flags of the loops, which of them are to be
aborted, and where loops and cancels stand. -/
structure LockedView where
  shown : Snapshot
  holder : Option Thread
  alive : LoopId → Bool
  aborted : LoopId → Bool
  loops : LoopId → LoopStage
  cancels : CancelId → CancelStage

namespace LockedView

/-- A view before anything has happened. -/
def fresh : LockedView where
  shown := .empty
  holder := none
  alive := fun _ => true
  aborted := fun _ => false
  loops := fun _ => .due
  cancels := fun _ => .uncalled

/-- Whether a move of the loop `i` is one that the flags and the lock permit. -/
def permits (v : LockedView) (i : LoopId) : LoopMove → Bool
  | .look set | .load set _ => v.alive i = set
  | .enter => v.holder = none
  | .abort => v.aborted i
  | .settle _ | .panic | .write _ _ | .leave _ _ | .wake => true

/-- The view after a move of the loop `i`, which then stands at `st`. -/
def afterLoop (v : LockedView) (i : LoopId) (m : LoopMove) (st : LoopStage) : LockedView :=
  { v with
    shown := m.shows v.shown
    holder := m.grip.after (.loop i) v.holder
    loops := fun j => if j = i then st else v.loops j }

/-- The view after a move of the cancel `c`, which then stands at `st`. -/
def afterCancel (v : LockedView) (c : CancelId) (m : CancelMove) (st : CancelStage) : LockedView :=
  { v with
    holder := m.grip.after (.cancel c) v.holder
    alive := fun i => if m = .clear ∧ i = c.loop then false else v.alive i
    aborted := fun i => if m = .ask ∧ i = c.loop then true else v.aborted i
    cancels := fun d => if d = c then st else v.cancels d }

/-- The view after a move, if the move can happen. -/
def move? (v : LockedView) : Move → Option LockedView
  | .loop i m => if v.permits i m then ((v.loops i).next? m).map (v.afterLoop i m) else none
  | .cancel c m =>
    if m = .enter → v.holder = none then ((v.cancels c).next? m).map (v.afterCancel c m) else none
  | .read x => if v.holder = none ∧ v.shown = x then some v else none

/-- The view after several moves, if they can happen one after the other. -/
def run? (v : LockedView) : List Move → Option LockedView
  | [] => some v
  | m :: rest => (v.move? m).bind (·.run? rest)

end LockedView

end ClusterWatch
