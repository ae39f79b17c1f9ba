import ClusterWatch.Proofs.World.Renewal
import ClusterWatch.Proofs.World.Views

/-!
# Apart — pollers do not interfere

A step is *elsewhere* for a poller when it is a call on another poller, or a look: time does not
pass in it, and no update stream is asked.  `World.seen see w steps` is what an observer `see` sees
of steps each of which is kept or only done: so `w.seen see steps` and `w.seen see (kept steps)` are
what it sees of the same kept steps in two runs, one with the others and one without them.

* `seen_filter` says when the two are the same: a step that is kept takes related worlds to related
  worlds and is seen alike in both, and one that is left out changes nothing that the relation
  knows.
* For a poller the relation is to have the same lane at the same time (`SameLane`).  That is enough
  whoever shares its view, since a lane runs on its own (`Owned.lane_step`) and, being at rest, does
  nothing in a step elsewhere (`Lane.step_elsewhere`).
* For the view of a poller that shares it with none, the view is the same as well (`SameView`): what
  is applied to it comes from the poller's own events (`accepted_eventsOf`).

`pollers_do_not_interfere` puts both together for any pollers and any steps.
-/

namespace ClusterWatch

/-- Whether a step is none of the poller at place `i`: a call on another poller, or a look. -/
def Step.IsElsewhere (i : Nat) : Step → Prop
  | .start j | .stop j | .drop j | .reply j _ => j ≠ i
  | .look => True
  | .advance _ | .updates _ => False

/-- What is seen of one poller in a step: its state when the step is called, and behind the step its
state, its counter of fetches and the replies that wait for it. -/
structure PollerAnswer where
  called : Option PollerState
  state : Option PollerState
  fetches : Option Nat
  queue : Option (List Reply)
  deriving DecidableEq, Repr

/-- What is seen of one view in a step: what it shows behind the step, whether it has changed in it,
and what its update stream yielded. -/
structure ViewAnswer where
  shown : Option (Snapshot × Bool)
  yielded : List Snapshot
  deriving DecidableEq, Repr

/-- What an answer says of the poller at place `i`. -/
def Answer.ofPoller (i : Nat) (a : Answer) : PollerAnswer :=
  ⟨a.called[i]?, a.states[i]?, a.fetches[i]?, a.queues[i]?⟩

/-- What the answer to a step says of the view `v`. -/
def Answer.ofView (v : Nat) (s : Step) (a : Answer) : ViewAnswer :=
  ⟨a.views[v]?, if s = .updates v then a.updates else []⟩

namespace World

/-- What an observer sees of those of several steps that are kept; the others are only done. -/
def seen {α : Type} (see : World → Step → α) : World → List (Step × Bool) → List α
  | _, [] => []
  | w, (s, true) :: rest => see w s :: seen see (w.step s).world rest
  | w, (s, false) :: rest => seen see (w.step s).world rest

/-- What is seen of the poller at place `i` in a step. -/
def seePoller (i : Nat) (w : World) (s : Step) : PollerAnswer := (w.answer s).ofPoller i

/-- What is seen of the view `v` in a step. -/
def seeView (v : Nat) (w : World) (s : Step) : ViewAnswer := (w.answer s).ofView v s

/-- Where all steps are kept, the answers to them are what is seen. -/
theorem seen_answer (w : World) (steps : List Step) :
    w.seen answer (steps.map (·, true)) = w.answers steps := by
  induction steps generalizing w with
  | nil => rfl
  | cons s rest ih => exact congrArg (w.answer s :: ·) (ih (w.step s).world)

/-- **Two runs are seen alike** if they are related by what the kept steps preserve, show, and the
others do not touch. -/
theorem seen_filter {α : Type} {see : World → Step → α} {R : World → World → Prop}
    {Left : Step → Prop} (hsee : ∀ {w w'} s, R w w' → see w s = see w' s)
    (hkept : ∀ {w w'} s, R w w' → R (w.step s).world (w'.step s).world)
    (hleft : ∀ {w w'} s, Left s → R w w' → R (w.step s).world w')
    {w w' : World} (h : R w w') {steps : List (Step × Bool)}
    (hsteps : ∀ s, (s, false) ∈ steps → Left s) :
    w.seen see steps = w'.seen see (steps.filter (·.2)) := by
  induction steps generalizing w w' with
  | nil => rfl
  | cons m rest ih =>
      obtain ⟨s, kept⟩ := m
      have hrest : ∀ s, (s, false) ∈ rest → Left s := fun s' hs' =>
        hsteps s' (List.mem_cons_of_mem _ hs')
      cases kept with
      | true =>
          rw [List.filter_cons_of_pos rfl, seen, seen, hsee s h, ih (hkept s h) hrest]
      | false =>
          rw [List.filter_cons_of_neg Bool.false_ne_true, seen]
          exact ih (hleft s (hsteps s List.mem_cons_self) h) hrest

end World

/-! ### A lane and the steps elsewhere -/

namespace Lane

/-- The state of a lane's poller. -/
def state (x : Lane) : PollerState :=
  if x.loop.isSome then .polling else if x.poller.handle = .gone then .dropped else .idle

/-- At rest there is nothing to do. -/
theorem AtRest.run_eq {now : Nat} {x : Lane} (h : x.AtRest now) : x.run now = (x, []) := by
  have hnot : x.isRunnable now = false := by
    rw [isRunnable]
    split
    · rfl
    next l hl => exact h.not_runnable hl
  rw [run, if_neg (by simp [hnot])]

/-- **A lane at rest does nothing in a step elsewhere**, and time does not pass. -/
theorem step_elsewhere {i now : Nat} {x : Lane} (h : x.AtRest now) {s : Step}
    (hs : s.IsElsewhere i) : s.duration = 0 ∧ x.step i now s = (x, []) := by
  have hcall : s.duration = 0 ∧ x.call i now s = (x, []) := by
    cases s with
    | start j => exact ⟨rfl, by simp only [call, if_neg hs]⟩
    | stop j => exact ⟨rfl, by simp only [call, if_neg hs]⟩
    | drop j => exact ⟨rfl, by simp only [call, if_neg hs]⟩
    | look => exact ⟨rfl, rfl⟩
    | reply j r => exact ⟨rfl, by simp only [call, if_neg hs]⟩
    | advance ms => exact hs.elim
    | updates v => exact hs.elim
  obtain ⟨hduration, hcall⟩ := hcall
  refine ⟨hduration, ?_⟩
  rw [step_eq, hcall, hduration, Nat.add_zero, h.run_eq]
  rfl

end Lane

namespace World

variable {w w' : World} {i v : Nat} {x : Lane}

/-! ### Worlds with the same lane -/

theorem Owned.states_lane (hw : w.Owned) (hx : w.lane i = some x) :
    w.states[i]? = some x.state := by
  rw [states, List.getElem?_mapIdx, (lane_eq_some hx).1, Option.map_some, hw.stateOf_lane hx,
    Lane.state]

/-- What is seen of a poller in a step is a matter of its lane. -/
theorem Owned.seePoller_lane (hw : w.Owned) (hx : w.lane i = some x) (s : Step) :
    w.seePoller i s =
      ⟨some (x.call i w.now s).1.state, some (x.step i w.now s).1.state,
        some (x.step i w.now s).1.poller.fetches, some (x.step i w.now s).1.poller.queue⟩ := by
  have hcall := (hw.lane_call hx s).1
  have hstep := (hw.lane_step hx s).1
  simp only [seePoller, answer, Answer.ofPoller, (hw.call s).states_lane hcall,
    (hw.step s).states_lane hstep, List.getElem?_map, (lane_eq_some hstep).1, Option.map_some]

/-- Worlds that are the same for the poller at place `i`, which is at rest in them. -/
structure SameLane (i : Nat) (x : Lane) (w w' : World) : Prop where
  owned : w.Owned
  owned' : w'.Owned
  now : w.now = w'.now
  lane : w.lane i = some x
  lane' : w'.lane i = some x
  rest : x.AtRest w.now

namespace SameLane

theorem refl (hw : w.Owned) (hx : w.lane i = some x) (hrest : x.AtRest w.now) :
    SameLane i x w w := ⟨hw, hw, rfl, hx, hx, hrest⟩

theorem seePoller (h : SameLane i x w w') (s : Step) : w.seePoller i s = w'.seePoller i s := by
  rw [h.owned.seePoller_lane h.lane, h.owned'.seePoller_lane h.lane', h.now]

/-- A step of both. -/
theorem step (h : SameLane i x w w') (s : Step) :
    SameLane i (x.step i w.now s).1 (w.step s).world (w'.step s).world where
  owned := h.owned.step s
  owned' := h.owned'.step s
  now := by rw [step_now, step_now, h.now]
  lane := (h.owned.lane_step h.lane s).1
  lane' := by rw [(h.owned'.lane_step h.lane' s).1, h.now]
  rest := by
    rw [step_now]
    exact Lane.step_atRest h.rest i s

/-- A step elsewhere of one of them. -/
theorem step_elsewhere (h : SameLane i x w w') {s : Step} (hs : s.IsElsewhere i) :
    SameLane i x (w.step s).world w' := by
  obtain ⟨hduration, hstep⟩ := Lane.step_elsewhere h.rest hs
  have hnow : (w.step s).world.now = w.now := by rw [step_now, hduration, Nat.add_zero]
  have hlane := (h.owned.lane_step h.lane s).1
  rw [hstep] at hlane
  exact ⟨h.owned.step s, h.owned', hnow.trans h.now, hlane, h.lane', hnow.symm ▸ h.rest⟩

end SameLane

/-! ### Worlds with the same view -/

/-- What is accepted for a view of one poller is in that poller's events. -/
theorem accepted_eventsOf {given : List (Nat × Nat)}
    (hown : ∀ j interval, given[j]? = some (interval, v) → j = i) (es : List Event) :
    accepted given v es = accepted given v (eventsOf i es) := by
  rw [accepted, accepted, eventsOf, List.filterMap_filter]
  refine congrArg (List.filterMap · es) (funext fun e => ?_)
  by_cases he : e.loop.poller = i
  · simp [he]
  · -- another poller's event is accepted for another view
    rw [if_neg (by simpa using he), Event.accepted?]
    split
    next interval view r hgiven _ =>
      have hview : view ≠ v := fun h => he (hown _ interval (h ▸ hgiven))
      rw [if_neg hview]
    next => rfl

/-- What is applied in a step to a view of one poller is a matter of the poller's lane. -/
theorem Owned.written_lane (hw : w.Owned) (hx : w.lane i = some x)
    (hown : ∀ j interval, w.setup[j]? = some (interval, v) → j = i) (s : Step) :
    written v (w.step s).events = accepted w.setup v (x.step i w.now s).2 := by
  rw [hw.written_step, accepted_eventsOf hown, (hw.lane_step hx s).2]

/-- What is seen of a view in a step is a matter of the view and of what is applied to it. -/
theorem seeView_eq (w : World) (v : Nat) (s : Step) :
    w.seeView v s =
      ⟨w.views[v]?.map fun view =>
          (((view.asked v s).write (written v (w.step s).events)).snapshot,
            decide (written v (w.step s).events ≠ [])),
        if s = .updates v then (w.views[v]?.map View.ready).getD [] else []⟩ := by
  have hchanged : (w.step s).changed v = decide (written v (w.step s).events ≠ []) :=
    Bool.eq_iff_iff.2 ((Stepped.changed_iff _ v).trans (decide_eq_true_iff).symm)
  simp only [seeView, answer, Answer.ofView, List.getElem?_mapIdx, views_step, Option.map_map,
    hchanged, Function.comp_def]
  split
  next hs =>
    rw [hs, yielded_updates]
  next => rfl

/-- Worlds that are the same for the poller at place `i` and its view, which it shares with none. -/
structure SameView (i v : Nat) (x : Lane) (w w' : World) : Prop extends SameLane i x w w' where
  setup : w.setup = w'.setup
  own : ∀ j interval, w.setup[j]? = some (interval, v) → j = i
  view : w.views[v]? = w'.views[v]?

namespace SameView

theorem written (h : SameView i v x w w') (s : Step) :
    written v (w.step s).events = written v (w'.step s).events := by
  rw [h.owned.written_lane h.lane h.own, h.owned'.written_lane h.lane' (h.setup ▸ h.own), h.setup,
    h.now]

theorem seeView (h : SameView i v x w w') (s : Step) : w.seeView v s = w'.seeView v s := by
  rw [seeView_eq, seeView_eq, h.written, h.view]

theorem step (h : SameView i v x w w') (s : Step) :
    SameView i v (x.step i w.now s).1 (w.step s).world (w'.step s).world where
  toSameLane := h.toSameLane.step s
  setup := by rw [setup_step, setup_step, h.setup]
  own := by
    rw [setup_step]
    exact h.own
  view := by rw [views_step, views_step, h.view, h.written]

theorem step_elsewhere (h : SameView i v x w w') {s : Step} (hs : s.IsElsewhere i) :
    SameView i v x (w.step s).world w' where
  toSameLane := h.toSameLane.step_elsewhere hs
  setup := (setup_step w s).trans h.setup
  own := by
    rw [setup_step]
    exact h.own
  view := by
    have hnone : ClusterWatch.written v (w.step s).events = [] := by
      rw [h.owned.written_lane h.lane h.own, (Lane.step_elsewhere h.rest hs).2]
      rfl
    have hasked : ∀ view : View, view.asked v s = view := by
      intro view
      rw [View.asked, if_neg]
      rintro rfl
      exact hs
    rw [views_step, hnone, ← h.view]
    simp only [hasked, View.write_nil, Option.map_id']

end SameView

/-! ### Two runs -/

/-- **Pollers do not interfere.**  Of any steps of any pollers leave out some that are elsewhere for
the poller at place `i`.  In the steps that are kept the same is seen of the poller, whoever shares
its view; and if no other poller does, the same is seen of the view and of its update stream. -/
theorem pollers_do_not_interfere (pollers : List (Nat × Nat)) {i interval v : Nat}
    (hgiven : pollers[i]? = some (interval, v)) {steps : List (Step × Bool)}
    (hsteps : ∀ s, (s, false) ∈ steps → s.IsElsewhere i) :
    (ofPollers pollers).seen (seePoller i) steps =
        (ofPollers pollers).seen (seePoller i) (steps.filter (·.2)) ∧
      ((∀ j interval, pollers[j]? = some (interval, v) → j = i) →
        (ofPollers pollers).seen (seeView v) steps =
          (ofPollers pollers).seen (seeView v) (steps.filter (·.2))) := by
  obtain ⟨hi, -⟩ := List.getElem?_eq_some_iff.1 hgiven
  have hlane := SameLane.refl (owned_ofPollers pollers) (lane_ofPollers hi) fun _ hl => nomatch hl
  refine ⟨?_, fun hown => ?_⟩
  · exact seen_filter (R := fun w w' => ∃ x, SameLane i x w w') (fun s ⟨_, h⟩ => h.seePoller s)
      (fun s ⟨_, h⟩ => ⟨_, h.step s⟩) (fun s hs ⟨x, h⟩ => ⟨x, h.step_elsewhere hs⟩)
      ⟨_, hlane⟩ hsteps
  · have hview : SameView i v _ (ofPollers pollers) (ofPollers pollers) :=
      { hlane with setup := rfl, own := by rwa [setup_ofPollers], view := rfl }
    exact seen_filter (R := fun w w' => ∃ x, SameView i v x w w') (fun s ⟨_, h⟩ => h.seeView s)
      (fun s ⟨_, h⟩ => ⟨_, h.step s⟩) (fun s hs ⟨x, h⟩ => ⟨x, h.step_elsewhere hs⟩)
      ⟨_, hview⟩ hsteps

/-- A poller that shares its view with one that is started, answered and dropped, with and without
those steps; and one whose view is its own, with two others beside it. -/
theorem pollers_do_not_interfere_shared :
    (∃ pollers steps, pollers = [(5, 0), (0, 0)] ∧
      steps = [(.start 0, true), (.start 1, false),
        (.reply 1 (.settles (.status ⟨⟨"b", 1, 2⟩, []⟩) false), false), (.advance 3, true),
        (.reply 0 (.settles .failure false), true), (.drop 1, false), (.advance 5, true)] ∧
      pollers[0]? = some (5, 0) ∧ (∀ s, (s, false) ∈ steps → s.IsElsewhere 0) ∧
      (ofPollers pollers).seen (seePoller 0) steps =
        (ofPollers pollers).seen (seePoller 0) (steps.filter (·.2)) ∧
      ((ofPollers pollers).seen (seePoller 0) steps).map (·.fetches) =
        [some 1, some 1, some 1, some 2]) ∧
    (∃ pollers steps, pollers = [(5, 0), (0, 0), (3, 1)] ∧
      steps = [(.start 2, true), (.start 0, false), (.updates 1, true),
        (.reply 0 (.settles (.status ⟨⟨"a", 1, 2⟩, []⟩) true), false), (.look, false),
        (.reply 2 (.settles (.status ⟨⟨"c", 3, 4⟩, []⟩) false), true), (.stop 1, false),
        (.updates 1, true)] ∧
      pollers[2]? = some (3, 1) ∧ (∀ s, (s, false) ∈ steps → s.IsElsewhere 2) ∧
      (∀ j interval, pollers[j]? = some (interval, 1) → j = 2) ∧
      (ofPollers pollers).seen (seeView 1) steps =
        (ofPollers pollers).seen (seeView 1) (steps.filter (·.2)) ∧
      ((ofPollers pollers).seen (seeView 1) steps).map (·.yielded) =
        [[], [⟨none, [], none⟩], [], [⟨some ⟨"c", 3, 4⟩, [], some (.ofMillis 0)⟩]]) := by
  constructor
  · refine ⟨_, _, rfl, rfl, rfl, ?_, ?_⟩
    · simp [Step.IsElsewhere]
    · exact ⟨(pollers_do_not_interfere _ (i := 0) rfl (by simp [Step.IsElsewhere])).1, rfl⟩
  · have hown : ∀ j interval, [(5, 0), (0, 0), (3, 1)][j]? = some (interval, 1) → j = 2 := by
      intro j interval h
      match j with
      | 0 | 1 => simp at h
      | 2 => rfl
      | j + 3 => simp at h
    refine ⟨_, _, rfl, rfl, rfl, ?_, hown, ?_⟩
    · simp [Step.IsElsewhere]
    · exact ⟨(pollers_do_not_interfere _ (i := 2) rfl (by simp [Step.IsElsewhere])).2 hown, rfl⟩

end World

end ClusterWatch
