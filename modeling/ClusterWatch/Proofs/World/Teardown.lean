import ClusterWatch.Proofs.World.Loops
import ClusterWatch.Proofs.World.Views

/-!
# Teardown — a poller that has ended does nothing

A poller without a live loop, whether it has not been started, was stopped or dropped, dropped
itself in a fetch or ended in a panic, is *silent* until it is started: it issues no fetch, takes
no reply and writes to no view, whatever steps follow (`Silent`).

* `Owned.silent_after`: a poller that does not poll is silent through any steps that do not start
  it, by induction on the steps from `Lane.step_dead`.
* `Owned.step_releases`: a stop or a drop does no more than cancel the fetch in flight.
* `Owned.step_ends`: a reply that ends the loop is the last thing the poller does in the step.
* `teardown_is_final` puts these together for every reachable world.
-/

namespace ClusterWatch.World

/-- What it is for the poller at place `i`, which was `p` in the world `w`, to do nothing in the
steps `steps`; it is `q` behind them. -/
structure Silent (w : World) (i : Nat) (p : Poller) (steps : List Step) (q : Poller) : Prop where
  /-- The poller behind the steps. -/
  there : (w.after steps).pollers[i]? = some q
  /-- It still does not poll. -/
  down : (w.after steps).stateOf i q ≠ .polling
  /-- It has issued no fetch. -/
  fetches : q.fetches = p.fetches
  /-- Nothing was taken from its queue, and what came is behind what waited. -/
  queue : q.queue = p.queue ++ steps.flatMap (·.repliesTo i)
  /-- Nothing in the steps was done by a loop of it. -/
  still : ∀ e ∈ w.log steps, e.loop.poller ≠ i
  /-- What the views show behind the steps comes from the other pollers. -/
  views : ∀ v : Nat, (w.after steps).views[v]?.map (·.snapshot) = w.views[v]?.map fun view =>
    (view.write (written v ((w.log steps).filter (·.loop.poller ≠ i)))).snapshot

/-- What is left of the poller at place `i`, which was `p` in the world `w`, behind a step `s` in
which a reply `r` ends its loop behind the events `before`. -/
structure Ended (w : World) (i : Nat) (p : Poller) (s : Step) (before : List Event) (r : Reply)
    (q : Poller) : Prop where
  /-- The poller behind the step. -/
  there : (w.step s).world.pollers[i]? = some q
  /-- It does not poll. -/
  down : (w.step s).world.stateOf i q ≠ .polling
  /-- It has issued no fetch since. -/
  fetches : q.fetches = p.fetches + issued (eventsOf i before)
  /-- The reply is the last that was taken. -/
  queue : p.queue ++ s.repliesTo i = taken (eventsOf i before) ++ r :: q.queue

variable {w : World} {i : Nat} {x : Lane}

/-- Without a live loop and without a start, a lane does nothing. -/
theorem Owned.dead_after (hw : w.Owned) (hx : w.lane i = some x) (hloop : x.loop = none)
    {steps : List Step} (hstart : .start i ∉ steps) :
    ∃ y, (w.after steps).lane i = some y ∧ y.loop = none ∧ eventsOf i (w.log steps) = [] := by
  induction steps generalizing w x with
  | nil => exact ⟨x, hx, hloop, rfl⟩
  | cons s steps ih =>
      rw [List.mem_cons, not_or] at hstart
      obtain ⟨hlane, hevents⟩ := hw.lane_step hx s
      obtain ⟨hnone, hdead⟩ := Lane.step_dead hloop w.now (Ne.symm hstart.1)
      obtain ⟨y, hy, hlast, hrest⟩ := ih (hw.step s) hlane hdead hstart.2
      refine ⟨y, hy, hlast, ?_⟩
      rw [log_cons, eventsOf_append, hevents, hnone, hrest, List.append_nil]

theorem Owned.silent_after (hw : w.Owned) (hx : w.lane i = some x) (hloop : x.loop = none)
    {steps : List Step} (hstart : .start i ∉ steps) :
    ∃ q, Silent w i x.poller steps q := by
  obtain ⟨y, hy, hlast, hnone⟩ := hw.dead_after hx hloop hstart
  have hrest : x.AtRest w.now := fun l hl => nomatch hloop.symm.trans hl
  obtain ⟨y', hy', haccounts, -⟩ := hw.lane_after hx hrest steps
  obtain rfl : y = y' := Option.some.inj (hy.symm.trans hy')
  have hafter : (w.after steps).Owned := hw.after steps
  rw [hnone] at haccounts
  have hstill : ∀ e ∈ w.log steps, e.loop.poller ≠ i := by
    intro e he
    simpa using List.filter_eq_nil_iff.1 hnone e he
  refine ⟨y.poller, (lane_eq_some hy).1, (hafter.not_polling_iff hy).2 hlast, haccounts.fetches,
    haccounts.queue.symm, hstill, fun v => ?_⟩
  have hall : (w.log steps).filter (·.loop.poller ≠ i) = w.log steps :=
    List.filter_eq_self.2 fun e he => decide_eq_true (hstill e he)
  rw [hall]
  exact views_after w steps v

/-- A stop or a drop ends the loop, and does no more than cancel the fetch in flight. -/
theorem Owned.step_releases (hw : w.Owned) (hx : w.lane i = some x) {s : Step}
    (hs : s.Releases i) :
    ∃ q, (w.step s).world.pollers[i]? = some q ∧ (w.step s).world.stateOf i q ≠ .polling ∧
      q.fetches = x.poller.fetches ∧ q.queue = x.poller.queue ∧
      ∀ e ∈ (w.step s).events, e.loop.poller = i → e.act = .cancelled := by
  obtain ⟨hlane, hevents⟩ := hw.lane_step hx s
  obtain ⟨hloop, hcancelled⟩ := Lane.step_release (hw.not_gone hx) hs w.now
  have haccounts := Lane.step_accounts i w.now x s
  have hissued : issued (x.step i w.now s).2 = 0 :=
    List.countP_eq_zero.2 fun e he => by simp [hcancelled e he, Act.isIssue]
  have htaken : taken (x.step i w.now s).2 = [] :=
    List.filterMap_eq_nil_iff.2 fun e he => by rw [hcancelled e he]; rfl
  refine ⟨_, (lane_eq_some hlane).1, ((hw.step s).not_polling_iff hlane).2 hloop, ?_, ?_, ?_⟩
  · rw [haccounts.fetches, hissued]
    rfl
  · have hqueue := haccounts.queue
    rw [hs.spec.2.1, htaken, List.append_nil] at hqueue
    exact hqueue.symm
  · intro e he hi
    refine hcancelled e ?_
    rw [← hevents]
    exact List.mem_filter.2 ⟨he, decide_eq_true hi⟩

/-- A reply that ends the loop is the last thing that the poller does in a step. -/
theorem Owned.step_ends (hw : w.Owned) (hx : w.lane i = some x) {s : Step} {r : Reply}
    (hr : r.Ends) {before behind : List Event} {e : Event} (hi : e.loop.poller = i)
    (he : e.act = .took r) (hevents : (w.step s).events = before ++ e :: behind) :
    (∃ q, Ended w i x.poller s before r q) ∧ ∀ e' ∈ behind, e'.loop.poller ≠ i := by
  obtain ⟨hlane, hown⟩ := hw.lane_step hx s
  have hfinal := Lane.step_final i w.now x s
  have haccounts := Lane.step_accounts i w.now x s
  have hself : eventsOf i [e] = [e] := eventsOf_eq_self fun e' he' => by
    rw [List.mem_singleton.1 he', hi]
  rw [← hown, hevents, ← List.singleton_append, eventsOf_append, eventsOf_append, hself]
    at hfinal haccounts
  have hends : e.act.Ends := by
    rw [he]
    exact hr
  -- an event of the poller behind `e` would make `e` one that ends nothing
  have hnone : eventsOf i behind = [] := by
    refine List.eq_nil_iff_forall_not_mem.2 fun e' he' => ?_
    have hlast := (List.pairwise_append.1 hfinal.last).2.1
    exact (List.pairwise_cons.1 hlast).1 e' he' hends
  have hdead : (x.step i w.now s).1.loop = none := hfinal.dead e (by simp) hends
  rw [hnone, List.append_nil] at haccounts
  refine ⟨⟨_, (lane_eq_some hlane).1, ((hw.step s).not_polling_iff hlane).2 hdead, ?_, ?_⟩, ?_⟩
  · rw [haccounts.fetches]
    simp [issued, he, Act.isIssue]
  · rw [haccounts.queue]
    simp [taken, he, Act.reply?]
  · intro e' he'
    simpa using List.filter_eq_nil_iff.1 hnone e' he'

/-- **Teardown is final.**  In every reachable world, a poller that does not poll is silent through
all steps that do not start it; a stop or a drop brings it there and no more than cancels its fetch;
and so does a reply in which a fetch drops its poller or panics, within the step in which it is
taken. -/
theorem teardown_is_final (hw : w.Reachable) {p : Poller} (hp : w.pollers[i]? = some p) :
    (∀ steps, w.stateOf i p ≠ .polling → Step.start i ∉ steps → ∃ q, Silent w i p steps q) ∧
    (∀ s, s = .stop i ∨ s = .drop i →
      ∃ q, (w.step s).world.pollers[i]? = some q ∧ (w.step s).world.stateOf i q ≠ .polling ∧
        q.fetches = p.fetches ∧ q.queue = p.queue ∧
        ∀ e ∈ (w.step s).events, e.loop.poller = i → e.act = .cancelled) ∧
    (∀ s before e behind r, (w.step s).events = before ++ e :: behind → e.loop.poller = i →
      e.act = .took r → r = .panics ∨ r.dropsPoller = true →
      (∃ q, Ended w i p s before r q) ∧ ∀ e' ∈ behind, e'.loop.poller ≠ i) := by
  have hown := hw.owned
  have hlane := lane_of_poller hp
  refine ⟨fun steps hs hstart => ?_, fun s hs => ?_, fun s before e behind r hevents hi he hr => ?_⟩
  · exact hown.silent_after hlane ((hown.not_polling_iff hlane).1 hs) hstart
  · refine hown.step_releases hlane ?_
    rcases hs with rfl | rfl <;> exact rfl
  · exact hown.step_ends hlane hr hi he hevents

/-- A status comes after a stop, and the deadline of the sleep before it passes; and a fetch drops
its poller and settles with a status, with no interval and with more replies behind its own. -/
theorem teardown_is_final_stopped_dropped :
    (∃ w p, w = (ofPollers [(5, 0)]).after [.start 0, .reply 0 (.settles .failure false), .stop 0] ∧
      w.Reachable ∧ w.pollers[0]? = some p ∧ w.stateOf 0 p ≠ .polling ∧
      ∃ q, Silent w 0 p
        [.reply 0 (.settles (.status ⟨⟨"a", 1, 2⟩, []⟩) false), .advance 10] q) ∧
    (∃ w p, w = (ofPollers [(0, 0)]).after
        [.reply 0 (.settles (.status ⟨⟨"a", 1, 2⟩, []⟩) true), .reply 0 .panics] ∧
      w.Reachable ∧ w.pollers[0]? = some p ∧
      (w.step (.start 0)).events = [⟨0, ⟨0, 0⟩, .issued⟩] ++
        ⟨0, ⟨0, 0⟩, .took (.settles (.status ⟨⟨"a", 1, 2⟩, []⟩) true)⟩ :: [] ∧
      ∃ q, Ended w 0 p (.start 0) [⟨0, ⟨0, 0⟩, .issued⟩]
        (.settles (.status ⟨⟨"a", 1, 2⟩, []⟩) true) q) := by
  constructor
  · have hw : ((ofPollers [(5, 0)]).after
        [.start 0, .reply 0 (.settles .failure false), .stop 0]).Reachable := ⟨_, _, rfl⟩
    exact ⟨_, _, rfl, hw, rfl, by decide,
      (teardown_is_final hw rfl).1 _ (by decide) (by decide)⟩
  · have hw : ((ofPollers [(0, 0)]).after
        [.reply 0 (.settles (.status ⟨⟨"a", 1, 2⟩, []⟩) true), .reply 0 .panics]).Reachable :=
      ⟨_, _, rfl⟩
    refine ⟨_, _, rfl, hw, rfl, rfl, ?_⟩
    exact ((teardown_is_final hw rfl).2.2 (.start 0) _ ⟨0, ⟨0, 0⟩, .took _⟩ [] _ rfl rfl rfl
      (.inr rfl)).1

end ClusterWatch.World
