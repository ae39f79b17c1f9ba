import ClusterWatch.Proofs.World.Account

/-!
# Loops — one loop and one fetch for a poller, and where its fetches went

After any steps a poller has at most one live loop, which its handle names, and that loop waits in
at most one fetch.  Every fetch it has issued has taken a reply, has been cancelled by a stop or a
drop, or is the one in flight; and the replies taken are the oldest of those that came.

* `Owned.lane_after` carries the account of a step (`Lane.step_accounts`) and its rest
  (`Lane.step_atRest`) along a run.
* `Owned.cancelled_after` counts the cancelled fetches by what was in flight when the steps came
  that cancel.
* `one_loop_one_fetch` puts both together, in terms of the world alone (`Kept`).
-/

namespace ClusterWatch.World

/-- The number of fetches of the poller at place `i` that are in flight. -/
def inFlight (w : World) (i : Nat) : Nat :=
  w.loops.countP fun l => l.id.poller = i ∧ l.phase = .waiting

/-- The number of fetches of the poller at place `i` that were in flight when a step stopped or
dropped it. -/
def cancellations (i : Nat) : World → List Step → Nat
  | _, [] => 0
  | w, s :: rest =>
    (if s.Releases i then w.inFlight i else 0) + cancellations i (w.step s).world rest

/-- What holds of the poller `p` at place `i` in the world `w` that the steps `steps` from `start`
lead to. -/
structure Kept (start : World) (steps : List Step) (w : World) (i : Nat) (p : Poller) : Prop where
  /-- It has the interval and the view it was given. -/
  given : start.setup[i]? = some (p.interval, p.view)
  /-- It polls just when it has one live loop, and holds it. -/
  polls : w.stateOf i p = .polling ↔
    ∃ l, w.loops.filter (·.id.poller = i) = [l] ∧ p.handle = .held l.id.round
  /-- It holds every live loop of its own. -/
  holds : ∀ l ∈ w.loops, l.id.poller = i → p.handle = .held l.id.round
  /-- A live loop waits with nothing to take, or sleeps for at most an interval. -/
  rests : ∀ l ∈ w.loops, l.id.poller = i →
    l.phase = .waiting ∧ p.queue = [] ∨
      ∃ deadline, l.phase = .sleeping deadline ∧ w.now < deadline ∧ deadline ≤ w.now + p.interval
  /-- With no interval it does not sleep. -/
  awake : p.interval = 0 → ∀ l ∈ w.loops, l.id.poller = i → l.phase = .waiting
  /-- It has at most one fetch in flight. -/
  single : w.inFlight i ≤ 1
  /-- Unless it polls it has none. -/
  quiet : w.stateOf i p ≠ .polling → w.inFlight i = 0
  /-- Its counter is the number of fetches issued. -/
  counts : p.fetches = issued (eventsOf i (start.log steps))
  /-- Each fetch has taken a reply, was cancelled, or is in flight. -/
  balances : p.fetches = (taken (eventsOf i (start.log steps))).length +
    cancellations i start steps + w.inFlight i
  /-- The replies that came are those taken, in their order, and those that wait. -/
  orders : steps.flatMap (·.repliesTo i) = taken (eventsOf i (start.log steps)) ++ p.queue

/-! ### A lane along a run -/

variable {w : World} {i : Nat} {x : Lane}

/-- A poller polls just when it has one live loop, the one it holds. -/
theorem Owned.polling_iff_loops (hw : w.Owned) (hx : w.lane i = some x) :
    w.stateOf i x.poller = .polling ↔
      ∃ l, w.loops.filter (·.id.poller = i) = [l] ∧ x.poller.handle = .held l.id.round := by
  rw [hw.polling_iff hx, hw.filter_loops hx]
  constructor
  · intro h
    obtain ⟨l, hl⟩ := Option.isSome_iff_exists.1 h
    exact ⟨l, by rw [hl]; rfl, hw.handle_of_loop hx hl⟩
  · rintro ⟨l, hl, -⟩
    cases hloop : x.loop with
    | none => rw [hloop] at hl; cases hl
    | some l' => rfl

theorem Owned.inFlight_lane (hw : w.Owned) (hx : w.lane i = some x) :
    w.inFlight i = x.inFlight := by
  have hfilter : w.inFlight i =
      (w.loops.filter (·.id.poller = i)).countP (·.phase = .waiting) := by
    rw [List.countP_filter]
    exact List.countP_congr fun l _ => by simp [and_comm]
  rw [hfilter, hw.filter_loops hx, Lane.inFlight]
  rcases x.loop with _ | l
  · rfl
  · cases hphase : l.phase <;> simp [hphase, Phase.inFlight]

theorem Owned.lane_after (hw : w.Owned) (hx : w.lane i = some x) (hrest : x.AtRest w.now)
    (steps : List Step) :
    ∃ y, (w.after steps).lane i = some y ∧
      x.Accounts (steps.flatMap (·.repliesTo i)) (eventsOf i (w.log steps)) y ∧
      y.AtRest (w.after steps).now := by
  induction steps generalizing w x with
  | nil => exact ⟨x, hx, .refl x, hrest⟩
  | cons s steps ih =>
      obtain ⟨hlane, hevents⟩ := hw.lane_step hx s
      have hrest' := Lane.step_atRest hrest i s
      rw [← step_now] at hrest'
      obtain ⟨y, hy, haccounts, hat⟩ := ih (hw.step s) hlane hrest'
      refine ⟨y, hy, ?_, hat⟩
      rw [List.flatMap_cons, log_cons, eventsOf_append, hevents]
      exact (Lane.step_accounts i w.now x s).trans haccounts

theorem Owned.cancelled_after (hw : w.Owned) (hx : w.lane i = some x) (steps : List Step) :
    cancelled (eventsOf i (w.log steps)) = cancellations i w steps := by
  induction steps generalizing w x with
  | nil => rfl
  | cons s steps ih =>
      obtain ⟨hlane, hevents⟩ := hw.lane_step hx s
      have hcancelled := ih (hw.step s) hlane
      rw [cancelled] at hcancelled
      rw [log_cons, eventsOf_append, hevents, cancelled, List.countP_append, hcancelled,
        cancellations, hw.inFlight_lane hx, ← Lane.step_cancelled (hw.not_gone hx) s, cancelled]

theorem lane_ofPollers {pollers : List (Nat × Nat)} (hi : i < pollers.length) :
    (ofPollers pollers).lane i =
      some ⟨.fresh pollers[i].1 pollers[i].2, none⟩ := by
  simp [lane, ofPollers, hi]

/-- A poller of a reachable world is at rest. -/
theorem Reachable.lane_atRest (h : w.Reachable) (hx : w.lane i = some x) : x.AtRest w.now := by
  obtain ⟨pollers, steps, rfl⟩ := h
  have hlength : ((ofPollers pollers).after steps).pollers.length = pollers.length := by
    have hsetup := (setup_after (ofPollers pollers) steps).trans (setup_ofPollers pollers)
    simpa [setup] using congrArg List.length hsetup
  have hi : i < pollers.length := hlength ▸ (List.getElem?_eq_some_iff.1 (lane_eq_some hx).1).1
  obtain ⟨y, hy, -, hrest⟩ :=
    (owned_ofPollers pollers).lane_after (lane_ofPollers hi) (fun _ hl => by cases hl) steps
  obtain rfl : y = x := Option.some.inj (hy.symm.trans hx)
  exact hrest

/-- No loop of a reachable world has anything to do. -/
theorem Reachable.not_runnable (h : w.Reachable) {l : Loop} (hl : l ∈ w.loops) :
    w.isRunnable l = false := by
  obtain ⟨p, hp, -⟩ := h.owned.held l hl
  have hx := lane_of_poller hp
  rw [isRunnable, hp]
  exact (h.lane_atRest hx).not_runnable (h.owned.lane_loop hl hx)

/-- **A poller has at most one live loop, which waits in at most one fetch, and each of its fetches
is accounted for.** -/
theorem one_loop_one_fetch (pollers : List (Nat × Nat)) (steps : List Step) {i : Nat}
    (hi : i < pollers.length) :
    ∃ p, ((ofPollers pollers).after steps).pollers[i]? = some p ∧
      Kept (ofPollers pollers) steps ((ofPollers pollers).after steps) i p := by
  have hw : ((ofPollers pollers).after steps).Owned := Reachable.owned ⟨pollers, steps, rfl⟩
  have hfresh := lane_ofPollers hi
  obtain ⟨y, hy, haccounts, hrest⟩ :=
    (owned_ofPollers pollers).lane_after hfresh (fun _ hl => nomatch hl) steps
  have hcancelled := (owned_ofPollers pollers).cancelled_after hfresh steps
  generalize hworld : (ofPollers pollers).after steps = w at *
  have hloops : ∀ l ∈ w.loops, l.id.poller = i → y.loop = some l := by
    rintro l hl rfl
    exact hw.lane_loop hl hy
  have hflight := hw.inFlight_lane hy
  have hrests : ∀ l ∈ w.loops, l.id.poller = i → l.phase = .waiting ∧ y.poller.queue = [] ∨
      ∃ deadline, l.phase = .sleeping deadline ∧ w.now < deadline ∧
        deadline ≤ w.now + y.poller.interval := fun l hl hli => hrest l (hloops l hl hli)
  refine ⟨y.poller, (lane_eq_some hy).1, ?_⟩
  constructor
  case given =>
    rw [← setup_after _ steps, hworld, setup, List.getElem?_map, (lane_eq_some hy).1]
    rfl
  case polls => exact hw.polling_iff_loops hy
  case holds => exact fun l hl hli => hw.handle_of_loop hy (hloops l hl hli)
  case rests => exact hrests
  case awake =>
    intro h0 l hl hli
    rcases hrests l hl hli with ⟨hwait, -⟩ | ⟨d, -, hlt, hle⟩
    · exact hwait
    · omega
  case single => exact hflight ▸ y.inFlight_le_one
  case quiet =>
    intro h
    rw [hflight, Lane.inFlight, (hw.not_polling_iff hy).1 h]
    rfl
  case counts => exact haccounts.fetches.trans (Nat.zero_add _)
  case balances =>
    have hbalance := haccounts.balance
    rw [hcancelled] at hbalance
    rw [haccounts.fetches, hflight]
    exact (Nat.zero_add _).trans hbalance
  case orders => exact haccounts.queue

/-- A poller that is started again after a panic, and stopped while it waits: it has issued two
fetches, of which one has taken its reply and one was cancelled. -/
theorem one_loop_one_fetch_restarted :
    ∃ start steps w p, start = ofPollers [(5, 0)] ∧
      steps = [.start 0, .reply 0 .panics, .start 0, .stop 0] ∧ w = start.after steps ∧
      0 < [(5, 0)].length ∧ w.pollers[0]? = some p ∧ Kept start steps w 0 p ∧
      p.fetches = 2 ∧ taken (eventsOf 0 (start.log steps)) = [.panics] ∧
      cancellations 0 start steps = 1 ∧ w.inFlight 0 = 0 ∧ w.stateOf 0 p = .idle := by
  obtain ⟨p, hp, hkept⟩ := one_loop_one_fetch [(5, 0)]
    [.start 0, .reply 0 .panics, .start 0, .stop 0] (i := 0) (by decide)
  have hw : ((ofPollers [(5, 0)]).after
      [.start 0, .reply 0 .panics, .start 0, .stop 0]).pollers[0]? =
        some ⟨5, 0, .free, 2, 2, []⟩ := rfl
  obtain rfl := Option.some.inj (hp.symm.trans hw)
  exact ⟨_, _, _, _, rfl, rfl, rfl, by decide, hp, hkept, rfl, by decide, by decide, by decide,
    by decide⟩

end ClusterWatch.World
