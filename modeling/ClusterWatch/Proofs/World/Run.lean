import ClusterWatch.Proofs.Poller.Turn
import ClusterWatch.World

/-!
# Runs — several steps after each other

`World.after w steps` is the world behind the steps and `World.log w steps` are the events in them,
in their order: the events of `World.history` strung together.  A world is *reachable* when it
stands behind some steps of pollers that have not been started.

The milliseconds of `World.advance` are ticks, each with the turns that it makes due, and what came
before stays in front (`advance_append`).  Turns take no time (`turns_now`), so a step lasts
`Step.duration` (`step_now`).
-/

namespace ClusterWatch

/-- The milliseconds that pass in a step. -/
def Step.duration : Step → Nat
  | .advance ms => ms
  | .start _ | .stop _ | .drop _ | .look | .reply _ _ | .updates _ => 0

namespace World

/-- The world behind several steps. -/
def after (w : World) : List Step → World
  | [] => w
  | s :: rest => (w.step s).world.after rest

/-- The events in several steps. -/
def log (w : World) (steps : List Step) : List Event := (w.history steps).flatMap (·.events)

/-- A world that pollers come to from their start. -/
def Reachable (w : World) : Prop :=
  ∃ (pollers : List (Nat × Nat)) (steps : List Step), w = (ofPollers pollers).after steps

@[simp] theorem log_nil (w : World) : w.log [] = [] := rfl

/-- The events of the first step come first. -/
@[simp] theorem log_cons (w : World) (s : Step) (rest : List Step) :
    w.log (s :: rest) = (w.step s).events ++ (w.step s).world.log rest := rfl

/-- More steps lead on from where the steps before them have led. -/
theorem after_append (w : World) (steps rest : List Step) :
    w.after (steps ++ rest) = (w.after steps).after rest := by
  induction steps generalizing w with
  | nil => rfl
  | cons s steps ih => exact ih (w.step s).world

/-- What steps give depends on those before them only through the world that these lead to. -/
theorem history_append (w : World) (steps rest : List Step) :
    w.history (steps ++ rest) = w.history steps ++ (w.after steps).history rest := by
  induction steps generalizing w with
  | nil => rfl
  | cons s steps ih => exact congrArg (w.step s :: ·) (ih (w.step s).world)

/-- The events of more steps come behind those of the steps before them. -/
theorem log_append (w : World) (steps rest : List Step) :
    w.log (steps ++ rest) = w.log steps ++ (w.after steps).log rest := by
  induction steps generalizing w with
  | nil => rfl
  | cons s steps ih =>
      rw [List.cons_append, log_cons, log_cons, ih, List.append_assoc]
      rfl

/-- All that a loop's end gives is that its fetch is cancelled. -/
theorem mem_cancelling {now : Nat} {l : Loop} {e : Event} (h : e ∈ cancelling now l) :
    e = ⟨now, l.id, .cancelled⟩ := by
  simp only [cancelling] at h
  split at h
  · exact List.mem_singleton.1 h
  all_goals cases h

/-! ### Time -/

/-- What came before some milliseconds stays in front of what comes in them. -/
theorem advance_append (ms : Nat) (w : World) (es : List Event) :
    advance ms (w, es) = ((advance ms (w, [])).1, es ++ (advance ms (w, [])).2) := by
  induction ms generalizing w es with
  | zero => simp [advance]
  | succ ms ih =>
      simp only [advance, List.nil_append]
      rw [ih _ (es ++ w.tick.2), ih _ w.tick.2, List.append_assoc]

/-- The events of the first millisecond come first. -/
theorem advance_succ (ms : Nat) (w : World) :
    advance (ms + 1) (w, []) =
      ((advance ms (w.tick.1, [])).1, w.tick.2 ++ (advance ms (w.tick.1, [])).2) :=
  advance_append ms w.tick.1 w.tick.2

/-- A turn takes no time. -/
@[simp] theorem turn_now (w : World) (l : Loop) : (w.turn l).1.now = w.now := by
  rw [turn]
  split <;> rfl

theorem turns_cons (w : World) (l : Loop) (ls : List Loop) :
    w.turns (l :: ls) =
      (((w.turn l).1.turns ls).1, (w.turn l).2 ++ ((w.turn l).1.turns ls).2) := rfl

/-- However many loops take their turns, it takes no time. -/
@[simp] theorem turns_now (w : World) (ls : List Loop) : (w.turns ls).1.now = w.now := by
  induction ls generalizing w with
  | nil => rfl
  | cons l ls ih => exact (ih _).trans (turn_now w l)

@[simp] theorem run_now (w : World) : w.run.1.now = w.now := turns_now w _

/-- The clock goes on by the milliseconds that pass. -/
theorem advance_now (ms : Nat) (w : World) : (advance ms (w, [])).1.now = w.now + ms := by
  induction ms generalizing w with
  | zero => rfl
  | succ ms ih =>
      rw [advance_succ]
      refine (ih _).trans ?_
      rw [tick, run_now]
      exact Nat.add_right_comm w.now 1 ms

@[simp] theorem start_now (w : World) (i : Nat) : (w.start i).now = w.now := by
  rw [start]
  split
  · rfl
  · split <;> rfl

@[simp] theorem release_now (w : World) (i : Nat) (h : Handle) : (w.release i h).1.now = w.now := by
  rw [release]
  split
  · rfl
  · split <;> rfl

@[simp] theorem takeUpdates_now (w : World) (v : Nat) : (w.takeUpdates v).1.now = w.now := by
  rw [takeUpdates]
  split <;> rfl

/-- A call lasts as long as its step: the turns behind it take no time. -/
theorem call_now (w : World) (s : Step) : (w.call s).world.now = w.now + s.duration := by
  cases s with
  | advance ms => exact advance_now ms w
  | start i => exact start_now w i
  | stop i => exact release_now w i .free
  | drop i => exact release_now w i .gone
  | look => rfl
  | reply i r => rfl
  | updates v => exact takeUpdates_now w v

/-- A step lasts as long as it says; the turns behind it take no time. -/
theorem step_now (w : World) (s : Step) : (w.step s).world.now = w.now + s.duration :=
  (run_now _).trans (call_now w s)

/-! ### What a poller is given -/

/-- The interval and the view of each poller. -/
def setup (w : World) : List (Nat × Nat) := w.pollers.map fun p => (p.interval, p.view)

/-- Pollers that have not been started have the intervals and the views they are made with. -/
theorem setup_ofPollers (pollers : List (Nat × Nat)) : (ofPollers pollers).setup = pollers := by
  simp [setup, ofPollers, Poller.fresh, Function.comp_def]

/-- Pollers keep what they were given when one of them changes in nothing but the rest. -/
theorem setup_set {w : World} {i : Nat} {p q : Poller} (hp : w.pollers[i]? = some p)
    (hq : (q.interval, q.view) = (p.interval, p.view)) :
    (w.pollers.set i q).map (fun p => (p.interval, p.view)) = w.setup := by
  obtain ⟨hi, rfl⟩ := List.getElem?_eq_some_iff.mp hp
  rw [List.map_set, hq, setup]
  refine List.ext_getElem (by simp) fun j _ _ => ?_
  rw [List.getElem_set]
  split <;> simp_all

/-- A turn leaves its poller the interval and the view. -/
theorem setup_turn (w : World) (l : Loop) : (w.turn l).1.setup = w.setup := by
  rw [turn]
  split
  · rfl
  next p hp =>
    have h := Poller.turn_settled w.now l.phase p
    exact setup_set hp (Prod.ext h.interval h.view)

theorem setup_turns (w : World) (ls : List Loop) : (w.turns ls).1.setup = w.setup := by
  induction ls generalizing w with
  | nil => rfl
  | cons l ls ih => exact (ih _).trans (setup_turn w l)

/-- However much time passes, pollers keep what they were given. -/
theorem setup_advance (ms : Nat) (w : World) : (advance ms (w, [])).1.setup = w.setup := by
  induction ms generalizing w with
  | zero => rfl
  | succ ms ih =>
      rw [advance_succ]
      exact (ih _).trans (setup_turns _ _)

/-- A start changes neither the interval nor the view of a poller. -/
theorem setup_start (w : World) (i : Nat) : (w.start i).setup = w.setup := by
  rw [start]
  split
  · rfl
  next p hp =>
    split
    · exact setup_set hp rfl
    all_goals rfl

/-- A poller from which its handle is taken keeps its interval and its view. -/
theorem setup_release (w : World) (i : Nat) (h : Handle) : (w.release i h).1.setup = w.setup := by
  rw [release]
  split
  · rfl
  next p hp =>
    split
    · rfl
    · exact setup_set hp rfl
    · exact setup_set hp rfl

/-- A reply changes nothing of its poller but the queue. -/
theorem setup_enqueue (w : World) (i : Nat) (r : Reply) : (w.enqueue i r).setup = w.setup := by
  refine List.ext_getElem? fun j => ?_
  simp only [setup, enqueue, List.getElem?_map, List.getElem?_modify]
  cases w.pollers[j]? with
  | none => rfl
  | some p => split <;> rfl

/-- No step changes what a poller was given. -/
theorem setup_step (w : World) (s : Step) : (w.step s).world.setup = w.setup := by
  refine (setup_turns _ _).trans ?_
  cases s with
  | start i => exact setup_start w i
  | stop i => exact setup_release w i .free
  | drop i => exact setup_release w i .gone
  | look => rfl
  | reply i r => exact setup_enqueue w i r
  | advance ms => exact setup_advance ms w
  | updates v =>
      simp only [call, takeUpdates]
      split <;> rfl

/-- Pollers keep through a run what they were given. -/
theorem setup_after (w : World) (steps : List Step) : (w.after steps).setup = w.setup := by
  induction steps generalizing w with
  | nil => rfl
  | cons s steps ih => exact (ih _).trans (setup_step w s)

end World

end ClusterWatch
