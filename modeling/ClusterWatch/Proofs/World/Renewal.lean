import ClusterWatch.Proofs.World.Alike
import ClusterWatch.Proofs.World.Loops

/-!
# Renewal — a poller that does not poll is as good as new

`World.answers w steps` is all that is seen of the steps from `w`: for each, the states of the
pollers when it is called, and behind it their states, their counters of fetches, the replies that
wait for them, what the views show and whether they have changed, and what update streams yielded.

* `Alike.answers`: alike worlds give the same answers, but for how far the counters are ahead.
* `alike_renewed`: in the place of a poller that does not poll, however it came to that, a new
  one with the same replies makes an alike world.
* `start_and_stop_by_state` is what follows for the calls: a start is no step at all where the
  poller polls, and is the start of a new poller where it does not; there a stop is no step at all.
-/

namespace ClusterWatch

/-- What is seen of a step. -/
structure Answer where
  /-- The states of the pollers when the step is called. -/
  called : List PollerState
  /-- The states of the pollers behind the step. -/
  states : List PollerState
  /-- How many fetches each poller has issued. -/
  fetches : List Nat
  /-- The replies that wait for each poller. -/
  queues : List (List Reply)
  /-- What each view shows, and whether it has changed in the step. -/
  views : List (Snapshot × Bool)
  /-- What an update stream yielded. -/
  updates : List Snapshot
  deriving DecidableEq, Repr

/-- An answer in which the counter of the poller at place `i` is `ahead i` higher. -/
def Answer.ahead (ahead : Nat → Nat) (a : Answer) : Answer :=
  { a with fetches := a.fetches.mapIdx fun i n => n + ahead i }

theorem Answer.ahead_zero (a : Answer) : a.ahead (fun _ => 0) = a := by
  have hid : a.fetches.mapIdx (fun _ n => n + 0) = a.fetches :=
    List.ext_getElem? fun i => by simp
  simp only [ahead, hid]

namespace World

/-- What is seen of a step. -/
def answer (w : World) (s : Step) : Answer where
  called := (w.call s).world.states
  states := (w.step s).world.states
  fetches := (w.step s).world.pollers.map (·.fetches)
  queues := (w.step s).world.pollers.map (·.queue)
  views := (w.step s).world.views.mapIdx fun v view => (view.snapshot, (w.step s).changed v)
  updates := (w.step s).yielded

/-- What is seen of several steps. -/
def answers (w : World) : List Step → List Answer
  | [] => []
  | s :: rest => w.answer s :: (w.step s).world.answers rest

/-- The world with a new poller in the place of the poller `p` at place `i`: over the same source,
with the same replies waiting, and with the same interval and view. -/
def renewed (w : World) (i : Nat) (p : Poller) : World :=
  { w with pollers := w.pollers.set i { Poller.fresh p.interval p.view with queue := p.queue } }

/-- The world in which the poller `p` at place `i` holds no loop. -/
def freed (w : World) (i : Nat) (p : Poller) : World :=
  { w with pollers := w.pollers.set i { p with handle := .free } }

variable {w w' : World} {i : Nat} {p : Poller}

/-! ### Alike worlds give the same answers -/

namespace Alike

variable {ahead : Nat → Nat}

theorem fetches (h : Alike ahead w w') :
    w.pollers.map (·.fetches) = (w'.pollers.map (·.fetches)).mapIdx fun i n => n + ahead i := by
  refine List.ext_getElem? fun i => ?_
  simp only [List.getElem?_mapIdx, List.getElem?_map]
  rcases h.poller_cases i with ⟨hp, hq⟩ | ⟨p, q, hp, hq, hpq⟩
  · simp [hp, hq]
  · simp [hp, hq, hpq.fetches]

theorem queues (h : Alike ahead w w') :
    w.pollers.map (·.queue) = w'.pollers.map (·.queue) := by
  refine List.ext_getElem? fun i => ?_
  simp only [List.getElem?_map]
  rcases h.poller_cases i with ⟨hp, hq⟩ | ⟨p, q, hp, hq, hpq⟩
  · simp [hp, hq]
  · simp [hp, hq, hpq.queue]

theorem answer (h : Alike ahead w w') (hw : w.Owned) (hw' : w'.Owned) (s : Step) :
    w.answer s = (w'.answer s).ahead ahead := by
  have hcall := h.call hw hw' s
  have hstep := h.step hw hw' s
  have hchanged : ∀ v, (w.step s).changed v = (w'.step s).changed v := by
    intro v
    have hacts := congrArg (List.any · fun a => Event.writes v ⟨0, ⟨0, 0⟩, a⟩) hstep.acts
    rw [List.any_map, List.any_map] at hacts
    exact hacts
  simp only [World.answer, Answer.ahead, hcall.world.states (hw.call s) (hw'.call s),
    hstep.world.states (hw.step s) (hw'.step s), hstep.world.fetches, hstep.world.queues,
    hstep.world.views, hstep.yielded, hchanged]

/-- **Alike worlds give the same answers**, but for how far the counters are ahead. -/
theorem answers (h : Alike ahead w w') (hw : w.Owned) (hw' : w'.Owned) (steps : List Step) :
    w.answers steps = (w'.answers steps).map (·.ahead ahead) := by
  induction steps generalizing w w' with
  | nil => rfl
  | cons s rest ih =>
      simp only [World.answers, List.map_cons]
      rw [h.answer hw hw' s, ih (h.step hw hw' s).world (hw.step s) (hw'.step s)]

theorem answers_eq (h : Alike (fun _ => 0) w w') (hw : w.Owned) (hw' : w'.Owned)
    (steps : List Step) : w.answers steps = w'.answers steps := by
  rw [h.answers hw hw' steps]
  exact (List.map_congr_left fun a _ => a.ahead_zero).trans (List.map_id _)

end Alike

/-! ### Another poller in the same place -/

/-- A like poller in the place of one makes an alike world. -/
theorem alike_set {n : Nat} (hp : w.pollers[i]? = some p) {q : Poller} (hlike : p.Like n q) :
    Alike (fun j => if j = i then n else 0) w { w with pollers := w.pollers.set i q } := by
  refine ⟨rfl, fun j => ?_, List.forall₂_same.2 fun _ _ => ⟨rfl, rfl⟩, rfl⟩
  have hlt := (List.getElem?_eq_some_iff.1 hp).1
  by_cases hj : j = i
  · subst hj
    rw [List.getElem?_set_self hlt, hp, if_pos rfl]
    exact .some hlike
  · rw [List.getElem?_set_ne (Ne.symm hj), if_neg hj]
    cases w.pollers[j]? with
    | none => exact .none
    | some r => exact .some (.refl r)

/-- Where a poller has no live loop, it does not matter which rounds are behind it. -/
theorem Owned.set_idle (hw : w.Owned) (hp : w.pollers[i]? = some p) (hs : w.stateOf i p = .idle)
    (q : Poller) : ({ w with pollers := w.pollers.set i q } : World).Owned :=
  hw.set hp (List.Sublist.refl _)
    (fun l hl hi => absurd hi (hw.not_live hp (by simp [hs]) hl)) _ _

theorem not_gone_of_idle (hs : w.stateOf i p = .idle) : p.handle ≠ .gone := by
  intro hg
  simp [stateOf, hg] at hs

/-- **A poller that does not poll is like a new one.** -/
theorem alike_renewed (hp : w.pollers[i]? = some p) (hs : w.stateOf i p = .idle) :
    Alike (fun j => if j = i then p.fetches else 0) w (w.renewed i p) := by
  refine alike_set hp ⟨rfl, rfl, ?_, (Nat.zero_add _).symm, rfl⟩
  exact ⟨fun h => absurd h (not_gone_of_idle hs), fun h => nomatch h⟩

theorem alike_freed (hp : w.pollers[i]? = some p) (hs : w.stateOf i p = .idle) :
    Alike (fun _ => 0) w (w.freed i p) := by
  have hlike : p.Like 0 { p with handle := .free } :=
    { Poller.Like.refl p with
      gone := ⟨fun h => absurd h (not_gone_of_idle hs), fun h => nomatch h⟩ }
  simpa [freed] using alike_set hp hlike

/-! ### The calls -/

theorem run_eq_self (h : ∀ l ∈ w.loops, w.isRunnable l = false) : w.run = (w, []) := by
  have hnone : w.loops.filter w.isRunnable = [] :=
    List.filter_eq_nil_iff.2 fun l hl => by simp [h l hl]
  rw [run, hnone]
  rfl

/-- In a reachable world nothing happens of itself. -/
theorem Reachable.run_eq (h : w.Reachable) : w.run = (w, []) :=
  run_eq_self fun _ hl => h.not_runnable hl

theorem Reachable.look_eq (h : w.Reachable) : w.step .look = ⟨w, [], []⟩ := by
  simp only [step, call, h.run_eq, List.append_nil]

theorem Reachable.answers_look (h : w.Reachable) (rest : List Step) :
    w.answers (.look :: rest) = w.answer .look :: w.answers rest := by
  rw [answers, h.look_eq]

/-- A start of a poller that polls is no step at all. -/
theorem call_start_polling (hp : w.pollers[i]? = some p) (hs : w.stateOf i p = .polling) :
    w.call (.start i) = w.call .look := by
  simp only [call, start, hp, hs]

/-- A poller that does not poll does so as soon as it is started. -/
theorem Owned.called_start_idle (hw : w.Owned) (hp : w.pollers[i]? = some p)
    (hs : w.stateOf i p = .idle) : (w.answer (.start i)).called[i]? = some .polling := by
  have hx := lane_of_poller hp
  have hloop := (hw.not_polling_iff hx).1 (by simp [hs])
  have hlane := hw.lane_start_self hx
  have hlive : (Lane.start i ⟨p, w.loops.find? (·.id.poller = i)⟩).loop.isSome := by
    have hg : p.handle ≠ .gone := not_gone_of_idle hs
    have hnone : w.loops.find? (·.id.poller = i) = none := hloop
    simp [Lane.start, hnone, hg]
  have hstate := ((hw.start i).polling_iff hlane).2 hlive
  simp only [answer, World.call, states, List.getElem?_mapIdx, (lane_eq_some hlane).1,
    Option.map_some, hstate]

/-- A stop of a poller that does not poll takes no more from it than the handle of a dead loop. -/
theorem Owned.call_stop_idle (hw : w.Owned) (hp : w.pollers[i]? = some p)
    (hs : w.stateOf i p = .idle) :
    w.call (.stop i) = (w.freed i p).call .look := by
  obtain ⟨hall, hown⟩ := hw.filter_of_not_polling hp (by simp [hs])
  simp only [World.call, freed, hw.release_eq hp (not_gone_of_idle hs), hall, hown,
    List.flatMap_nil]

/-- In the world behind such a stop nothing happens of itself either. -/
theorem Reachable.freed_look_eq (h : w.Reachable) (hp : w.pollers[i]? = some p)
    (hs : w.stateOf i p = .idle) : (w.freed i p).step .look = ⟨w.freed i p, [], []⟩ := by
  have hrun : (w.freed i p).run = (w.freed i p, []) := run_eq_self fun l hl => by
    rw [← (alike_freed hp hs).isRunnable ⟨rfl, rfl⟩, h.not_runnable hl]
  simp only [step, call, hrun, List.append_nil]

/-- **What a start does depends only on whether the poller polls.**  If it polls, a start changes
nothing, as if it were a look.  If it does not, whatever brought it there, it polls once started,
and all that is seen of the start and of any steps behind it is what is seen where a new poller with
the same replies is in its place, but for the fetches counted before; and a stop is no more than a
look. -/
theorem start_and_stop_by_state (h : w.Reachable) (hp : w.pollers[i]? = some p) :
    (w.stateOf i p = .polling →
      w.step (.start i) = ⟨w, [], []⟩ ∧
      ∀ rest, w.answers (.start i :: rest) = w.answer .look :: w.answers rest) ∧
    (w.stateOf i p = .idle →
      (w.answer (.start i)).called[i]? = some .polling ∧
      ∀ rest, w.answers (.start i :: rest) = ((w.renewed i p).answers (.start i :: rest)).map
        (·.ahead fun j => if j = i then p.fetches else 0)) ∧
    (w.stateOf i p = .idle →
      w.step (.stop i) = ⟨w.freed i p, [], []⟩ ∧
      ∀ rest, w.answers (.stop i :: rest) = w.answer .look :: w.answers rest) := by
  have hw := h.owned
  refine ⟨fun hs => ?_, fun hs => ⟨hw.called_start_idle hp hs, fun rest => ?_⟩, fun hs => ?_⟩
  · have hcall := call_start_polling hp hs
    have hstep : w.step (.start i) = ⟨w, [], []⟩ := by rw [← h.look_eq, step, step, hcall]
    refine ⟨hstep, fun rest => ?_⟩
    rw [answers, hstep, answer, answer, hcall, hstep, h.look_eq]
  · exact (alike_renewed hp hs).answers hw (hw.set_idle hp hs _) _
  · -- the world behind the stop is alike, so the stop is seen as a look
    have hcall := hw.call_stop_idle hp hs
    have hstep : w.step (.stop i) = (w.freed i p).step .look := by rw [step, step, hcall]
    refine ⟨hstep.trans (h.freed_look_eq hp hs), fun rest => ?_⟩
    calc w.answers (.stop i :: rest)
        = (w.freed i p).answers (.look :: rest) := by
          rw [answers, answers, answer, answer, hcall, hstep]
      _ = w.answers (.look :: rest) :=
          ((alike_freed hp hs).answers_eq hw (hw.set_idle hp hs _) _).symm
      _ = w.answer .look :: w.answers rest := h.answers_look rest

/-- A poller that polls, and one that still holds its loop, which has died of a panic. -/
theorem start_and_stop_by_state_after_panic :
    (∃ w p, w = (ofPollers [(5, 0)]).after [.start 0] ∧ w.Reachable ∧ w.pollers[0]? = some p ∧
      w.stateOf 0 p = .polling ∧ w.step (.start 0) = ⟨w, [], []⟩) ∧
    (∃ w p, w = (ofPollers [(5, 0)]).after [.start 0, .reply 0 .panics] ∧ w.Reachable ∧
      w.pollers[0]? = some p ∧ w.stateOf 0 p = .idle ∧ p.handle = .held 0 ∧ p.fetches = 1 ∧
      (w.answer (.start 0)).called[0]? = some .polling ∧
      (∀ rest, w.answers (.start 0 :: rest) =
        ((w.renewed 0 p).answers (.start 0 :: rest)).map
          (·.ahead fun j => if j = 0 then p.fetches else 0)) ∧
      ∀ rest, w.answers (.stop 0 :: rest) = w.answer .look :: w.answers rest) := by
  constructor
  · have hw : ((ofPollers [(5, 0)]).after [.start 0]).Reachable := ⟨_, _, rfl⟩
    exact ⟨_, _, rfl, hw, rfl, rfl, ((start_and_stop_by_state hw rfl).1 rfl).1⟩
  · have hw : ((ofPollers [(5, 0)]).after [.start 0, .reply 0 .panics]).Reachable := ⟨_, _, rfl⟩
    obtain ⟨-, hstart, hstop⟩ := start_and_stop_by_state hw (i := 0) rfl
    exact ⟨_, _, rfl, hw, rfl, rfl, rfl, rfl, (hstart rfl).1, (hstart rfl).2, (hstop rfl).2⟩

end World

end ClusterWatch
