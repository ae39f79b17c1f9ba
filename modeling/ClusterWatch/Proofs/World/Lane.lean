import ClusterWatch.Proofs.World.Ownership

/-!
# Lanes — a poller by itself

The lane of a poller is the poller with its live loop.  A lane runs on its own: `Lane.step` says
what a step does to it and which events that gives, without a look at the rest of the world.

The main statement is `Owned.lane_step`: in an owned world, the lane behind a step is the lane's own
step, and the events of its loop are the lane's own events.  So pollers do not interfere, whether
they share a view or not, and every law about one poller is a law about `Lane.step`.

The proof follows the world's step.  A turn of another poller's loop leaves the lane alone
(`lane_turn_other`), the one turn of its own loop is the lane's turn (`Owned.lane_turn_self`), and
ownership says that there is at most one.
-/

namespace ClusterWatch

/-- A poller with its live loop, if it has one. -/
structure Lane where
  poller : Poller
  loop : Option Loop
  deriving DecidableEq, Repr

/-- The lane of the poller at place `i`. -/
def World.lane (w : World) (i : Nat) : Option Lane :=
  w.pollers[i]?.map fun p => ⟨p, w.loops.find? (·.id.poller = i)⟩

/-- The events among `es` that are those of the loops of the poller at place `i`. -/
def eventsOf (i : Nat) (es : List Event) : List Event := es.filter (·.loop.poller = i)

@[simp] theorem eventsOf_nil (i : Nat) : eventsOf i [] = [] := rfl

/-- The events of a poller in two stretches are those in both, in this order. -/
@[simp] theorem eventsOf_append (i : Nat) (es es' : List Event) :
    eventsOf i (es ++ es') = eventsOf i es ++ eventsOf i es' := List.filter_append es es'

/-- Where all events are those of one poller, these are its events. -/
theorem eventsOf_eq_self {i : Nat} {es : List Event} (h : ∀ e ∈ es, e.loop.poller = i) :
    eventsOf i es = es :=
  List.filter_eq_self.2 fun e he => decide_eq_true (h e he)

/-- Where no event is one of a poller, it has none. -/
theorem eventsOf_eq_nil {i : Nat} {es : List Event} (h : ∀ e ∈ es, e.loop.poller ≠ i) :
    eventsOf i es = [] :=
  List.filter_eq_nil_iff.2 fun e he => by simpa using h e he

/-! ### A lane on its own -/

namespace Lane

/-- The turn of the live loop. -/
def turn (now : Nat) (x : Lane) : Lane × List Event :=
  match x.loop with
  | none => (x, [])
  | some l =>
    let t := x.poller.turn now l.phase
    (⟨t.poller, t.phase.map (⟨l.id, ·⟩)⟩, t.acts.map (⟨now, l.id, ·⟩))

/-- Whether there is a live loop that has something to do. -/
def isRunnable (now : Nat) (x : Lane) : Bool :=
  match x.loop with
  | none => false
  | some l => x.poller.isRunnable now l.phase

/-- The turn of the live loop if it has something to do. -/
def run (now : Nat) (x : Lane) : Lane × List Event :=
  if x.isRunnable now then x.turn now else (x, [])

/-- Starts a loop, unless one is live or the poller is gone. -/
def start (i : Nat) (x : Lane) : Lane :=
  if x.loop.isSome ∨ x.poller.handle = .gone then x
  else
    ⟨{ x.poller with handle := .held x.poller.rounds, rounds := x.poller.rounds + 1 },
      some ⟨⟨i, x.poller.rounds⟩, .due⟩⟩

/-- Ends the live loop and leaves the poller another handle. -/
def release (now : Nat) (handle : Handle) (x : Lane) : Lane × List Event :=
  if x.poller.handle = .gone then (x, [])
  else (⟨{ x.poller with handle := handle }, none⟩, x.loop.toList.flatMap (World.cancelling now))

/-- Puts a reply behind those that wait. -/
def enqueue (r : Reply) (x : Lane) : Lane :=
  { x with poller := { x.poller with queue := x.poller.queue ++ [r] } }

/-- Lets milliseconds pass. -/
def advance : Nat → Nat → Lane → Lane × List Event
  | 0, _, x => (x, [])
  | ms + 1, now, x =>
    let (x, es) := x.run (now + 1)
    let (x, es') := advance ms (now + 1) x
    (x, es ++ es')

/-- What a step does to the lane of the poller at place `i` before the loops take their turns. -/
def call (i now : Nat) (x : Lane) : Step → Lane × List Event
  | .start j => (if j = i then x.start i else x, [])
  | .stop j => if j = i then x.release now .free else (x, [])
  | .drop j => if j = i then x.release now .gone else (x, [])
  | .reply j r => (if j = i then x.enqueue r else x, [])
  | .advance ms => advance ms now x
  | .look | .updates _ => (x, [])

/-- A step, for the lane of the poller at place `i`. -/
def step (i now : Nat) (x : Lane) (s : Step) : Lane × List Event :=
  let (x, es) := x.call i now s
  let (x, es') := x.run (now + s.duration)
  (x, es ++ es')

theorem advance_succ (ms now : Nat) (x : Lane) :
    x.advance (ms + 1) now =
      (((x.run (now + 1)).1.advance ms (now + 1)).1,
        (x.run (now + 1)).2 ++ ((x.run (now + 1)).1.advance ms (now + 1)).2) := rfl

/-- A step is its call, and then the turn that is due behind it. -/
theorem step_eq (i now : Nat) (x : Lane) (s : Step) :
    x.step i now s =
      (((x.call i now s).1.run (now + s.duration)).1,
        (x.call i now s).2 ++ ((x.call i now s).1.run (now + s.duration)).2) := rfl

end Lane

/-! ### Turns of the world's loops -/

namespace World

variable {w : World} {i : Nat} {x : Lane}

/-- What a lane is made of: the poller at its place, and the first of its live loops. -/
theorem lane_eq_some (h : w.lane i = some x) :
    w.pollers[i]? = some x.poller ∧ w.loops.find? (·.id.poller = i) = x.loop := by
  obtain ⟨p, hp, rfl⟩ := Option.map_eq_some_iff.1 h
  exact ⟨hp, rfl⟩

/-- Every poller has a lane. -/
theorem lane_of_poller {p : Poller} (hp : w.pollers[i]? = some p) :
    w.lane i = some ⟨p, w.loops.find? (·.id.poller = i)⟩ := by
  rw [lane, hp]
  rfl

/-- The loop of a lane is alive, and its poller's. -/
theorem mem_of_lane {l : Loop} (h : w.lane i = some x) (hl : x.loop = some l) :
    l ∈ w.loops ∧ l.id.poller = i := by
  have hf := (lane_eq_some h).2.trans hl
  exact ⟨List.mem_of_find?_eq_some hf, by simpa using List.find?_some hf⟩

/-- A live loop is the one in its poller's lane. -/
theorem Owned.lane_loop (hw : w.Owned) {l : Loop} (hl : l ∈ w.loops)
    (hx : w.lane l.id.poller = some x) : x.loop = some l := by
  rw [← (lane_eq_some hx).2]
  cases hf : w.loops.find? (·.id.poller = l.id.poller) with
  | none => simpa using List.find?_eq_none.1 hf l hl
  | some l' =>
      have hp : l'.id.poller = l.id.poller := by simpa using List.find?_some hf
      rw [hw.eq_of_poller (List.mem_of_find?_eq_some hf) hl hp]

/-- **A turn of a lane's loop is the lane's turn**, and its events are the lane's. -/
theorem Owned.lane_turn_self (hw : w.Owned) {l : Loop} (hl : l ∈ w.loops)
    (hx : w.lane l.id.poller = some x) :
    (w.turn l).1.lane l.id.poller = some (x.turn w.now).1 ∧
      eventsOf l.id.poller (w.turn l).2 = (x.turn w.now).2 := by
  obtain ⟨hp, hf⟩ := lane_eq_some hx
  have hloop := hw.lane_loop hl hx
  have hlt := (List.getElem?_eq_some_iff.1 hp).1
  simp only [World.turn, hp, Lane.turn, hloop]
  refine ⟨?_, eventsOf_eq_self ?_⟩
  · have hold : (w.loops.filter (·.id ≠ l.id)).find? (·.id.poller = l.id.poller) = none := by
      rw [hw.filter_ne hl]
      refine List.find?_eq_none.2 fun l' hl' h => ?_
      exact of_decide_eq_true (List.mem_filter.1 hl').2 (of_decide_eq_true h)
    simp only [lane, List.getElem?_set_self hlt, Option.map_some, List.find?_append, hold]
    cases (x.poller.turn w.now l.phase).phase <;> simp
  · intro e he
    obtain ⟨a, -, rfl⟩ := List.mem_map.1 he
    rfl

/-- A turn of another poller's loop. -/
theorem lane_turn_other {l : Loop} (h : l.id.poller ≠ i) :
    (w.turn l).1.lane i = w.lane i ∧ eventsOf i (w.turn l).2 = [] := by
  rw [World.turn]
  split
  · exact ⟨rfl, rfl⟩
  next p hp =>
    refine ⟨?_, eventsOf_eq_nil fun e he => ?_⟩
    · have hold : (w.loops.filter (·.id ≠ l.id)).find? (·.id.poller = i) =
          w.loops.find? (·.id.poller = i) := by
        rw [List.find?_filter]
        refine congrArg (List.find? · w.loops) (funext fun l' => ?_)
        by_cases hi : l'.id.poller = i
        · have hne : l'.id ≠ l.id := fun e => h (congrArg LoopId.poller e ▸ hi)
          simp [hi, hne]
        · simp [hi]
      simp only [lane, List.getElem?_set_ne h, List.find?_append, hold]
      cases (p.turn w.now l.phase).phase <;> simp [h]
    · obtain ⟨a, -, rfl⟩ := List.mem_map.1 he
      exact h

/-- Turns of the loops of other pollers leave a lane alone, one after the other. -/
theorem lane_turns_other {ls : List Loop} (h : ∀ l ∈ ls, l.id.poller ≠ i) :
    (w.turns ls).1.lane i = w.lane i ∧ eventsOf i (w.turns ls).2 = [] := by
  induction ls generalizing w with
  | nil => exact ⟨rfl, rfl⟩
  | cons l ls ih =>
      obtain ⟨hlane, hevents⟩ := lane_turn_other (w := w) (h l List.mem_cons_self)
      obtain ⟨hlane', hevents'⟩ := ih (w := (w.turn l).1) fun l' hl' =>
        h l' (List.mem_cons_of_mem l hl')
      refine ⟨hlane'.trans hlane, ?_⟩
      simp only [turns_cons, eventsOf_append, hevents, hevents', List.nil_append]

/-- Among the turns of pending loops there is one of the lane's loop, which is the lane's turn. -/
theorem Owned.lane_turns_self {ls : List Loop} (hw : w.Owned) (hls : w.Pending ls) {l : Loop}
    (hl : l ∈ ls) (hx : w.lane l.id.poller = some x) :
    (w.turns ls).1.lane l.id.poller = some (x.turn w.now).1 ∧
      eventsOf l.id.poller (w.turns ls).2 = (x.turn w.now).2 := by
  refine turns_induct (P := fun w ls => l ∈ ls → w.lane l.id.poller = some x →
    (w.turns ls).1.lane l.id.poller = some (x.turn w.now).1 ∧
      eventsOf l.id.poller (w.turns ls).2 = (x.turn w.now).2)
    (fun _ _ hl => absurd hl List.not_mem_nil) (fun w l' ls hw hls ih hl hx => ?_) hw hls hl hx
  have hl' : l' ∈ w.loops := hls.live l' List.mem_cons_self
  simp only [turns_cons, eventsOf_append]
  by_cases h : l'.id.poller = l.id.poller
  · -- the turn of the lane's loop: none of those behind it is the lane's
    obtain ⟨hlane, hevents⟩ := hw.lane_turn_self hl' (h ▸ hx)
    have hrest : ∀ l₂ ∈ ls, l₂.id.poller ≠ l.id.poller := fun l₂ hl₂ e =>
      (List.nodup_cons.1 hls.single).1 (List.mem_map.2 ⟨l₂, hl₂, e.trans h.symm⟩)
    obtain ⟨hlane', hevents'⟩ := lane_turns_other (w := (w.turn l').1) hrest
    rw [h] at hlane hevents
    exact ⟨hlane'.trans hlane, by rw [hevents, hevents', List.append_nil]⟩
  · -- the turn of another's loop: the lane's is among those behind it
    obtain ⟨hlane, hevents⟩ := lane_turn_other (w := w) h
    have hmem : l ∈ ls := (List.mem_cons.1 hl).resolve_left fun e => h (e ▸ rfl)
    obtain ⟨hlane', hevents'⟩ := ih hmem (hlane.trans hx)
    rw [turn_now] at hlane' hevents'
    exact ⟨hlane', by rw [hevents, hevents', List.nil_append]⟩

/-- **What a run does to a lane is the lane's own run.** -/
theorem Owned.lane_run (hw : w.Owned) (hx : w.lane i = some x) :
    w.run.1.lane i = some (x.run w.now).1 ∧ eventsOf i w.run.2 = (x.run w.now).2 := by
  obtain ⟨hp, hf⟩ := lane_eq_some hx
  have hrun : ∀ l ∈ w.loops, l.id.poller = i → w.isRunnable l = x.isRunnable w.now := by
    rintro l hl rfl
    simp only [isRunnable, hp, Lane.isRunnable, hw.lane_loop hl hx]
  rw [Lane.run]
  by_cases h : x.isRunnable w.now = true
  · rw [if_pos h]
    cases hloop : x.loop with
    | none => simp [Lane.isRunnable, hloop] at h
    | some l =>
        obtain ⟨hl, rfl⟩ := mem_of_lane hx hloop
        exact hw.lane_turns_self hw.pending_run
          (List.mem_filter.2 ⟨hl, (hrun l hl rfl).trans h⟩) hx
  · rw [if_neg h, ← hx]
    refine lane_turns_other fun l hl hi => h ?_
    obtain ⟨hl, hr⟩ := List.mem_filter.1 hl
    rw [← hrun l hl hi, hr]

/-! ### Calls and steps -/

/-- Whether a poller polls is whether its lane has a live loop. -/
theorem Owned.isLive_iff (hw : w.Owned) (hx : w.lane i = some x) {round : Nat}
    (hh : x.poller.handle = .held round) : w.isLive ⟨i, round⟩ = x.loop.isSome := by
  cases hloop : x.loop with
  | none =>
      rw [isLive, Option.isSome_none, List.any_eq_false]
      intro l hl h
      have hid : l.id = ⟨i, round⟩ := of_decide_eq_true h
      have hnone := List.find?_eq_none.1 ((lane_eq_some hx).2.trans hloop) l hl
      exact hnone (decide_eq_true (congrArg LoopId.poller hid))
  | some l =>
      obtain ⟨hl, rfl⟩ := mem_of_lane hx hloop
      rw [isLive, Option.isSome_some, List.any_eq_true]
      refine ⟨l, hl, decide_eq_true ?_⟩
      rw [← hw.round_eq hl (lane_eq_some hx).1 hh]

/-- A poller holds the loop in its lane. -/
theorem Owned.handle_of_loop (hw : w.Owned) (hx : w.lane i = some x) {l : Loop}
    (hl : x.loop = some l) : x.poller.handle = .held l.id.round := by
  obtain ⟨hmem, rfl⟩ := mem_of_lane hx hl
  obtain ⟨p, hp, hheld⟩ := hw.held l hmem
  rwa [Option.some.inj (hp.symm.trans (lane_eq_some hx).1)] at hheld

/-- A poller with a live loop has not been dropped. -/
theorem Owned.not_gone (hw : w.Owned) (hx : w.lane i = some x) (h : x.loop.isSome) :
    x.poller.handle ≠ .gone := by
  obtain ⟨l, hl⟩ := Option.isSome_iff_exists.1 h
  rw [hw.handle_of_loop hx hl]
  exact Handle.noConfusion

/-- What a user can see of a poller is in its lane. -/
theorem Owned.stateOf_lane (hw : w.Owned) (hx : w.lane i = some x) :
    w.stateOf i x.poller =
      if x.loop.isSome then .polling else if x.poller.handle = .gone then .dropped else .idle := by
  cases hloop : x.loop with
  | some l =>
      have hh := hw.handle_of_loop hx hloop
      simp [stateOf, hh, hw.isLive_iff hx hh, hloop]
  | none =>
      cases hh : x.poller.handle with
      | free => simp [stateOf, hh]
      | gone => simp [stateOf, hh]
      | held round => simp [stateOf, hh, hw.isLive_iff hx hh, hloop]

/-- A poller polls just when there is a live loop in its lane. -/
theorem Owned.polling_iff (hw : w.Owned) (hx : w.lane i = some x) :
    w.stateOf i x.poller = .polling ↔ x.loop.isSome := by
  rw [hw.stateOf_lane hx]
  split
  next h => exact ⟨fun _ => h, fun _ => rfl⟩
  next h => split <;> simp [h]

theorem Owned.not_polling_iff (hw : w.Owned) (hx : w.lane i = some x) :
    w.stateOf i x.poller ≠ .polling ↔ x.loop = none := by
  rw [Ne, hw.polling_iff hx, Option.not_isSome_iff_eq_none]

/-- To start a poller is to start its lane. -/
theorem Owned.lane_start_self (hw : w.Owned) (hx : w.lane i = some x) :
    (w.start i).lane i = some (x.start i) := by
  obtain ⟨hp, hf⟩ := lane_eq_some hx
  have hlt := (List.getElem?_eq_some_iff.1 hp).1
  simp only [World.start, hp, hw.stateOf_lane hx, Lane.start]
  cases hloop : x.loop with
  | some l => simpa [hloop] using hx
  | none =>
      by_cases hg : x.poller.handle = .gone
      · simpa [hloop, hg] using hx
      · rw [hloop] at hf
        simp [hg, lane, List.getElem?_set_self hlt, List.find?_append, hf]

/-- To start another poller leaves a lane alone. -/
theorem lane_start_other {j : Nat} (h : j ≠ i) : (w.start j).lane i = w.lane i := by
  rw [World.start]
  split
  · rfl
  · split
    · simp [lane, List.getElem?_set_ne h, List.find?_append, h]
    all_goals rfl

/-- The live loops of a poller are the one in its lane. -/
theorem Owned.filter_loops (hw : w.Owned) (hx : w.lane i = some x) :
    w.loops.filter (·.id.poller = i) = x.loop.toList := by
  have hall : ∀ l ∈ w.loops.filter (·.id.poller = i), x.loop = some l := by
    intro l hl
    obtain ⟨hmem, hi⟩ := List.mem_filter.1 hl
    obtain rfl : l.id.poller = i := of_decide_eq_true hi
    exact hw.lane_loop hmem hx
  have hnodup : (w.loops.filter (·.id.poller = i)).Nodup := (hw.single.of_map _).filter _
  have hlane := (lane_eq_some hx).2
  cases hloop : x.loop with
  | none =>
      exact List.filter_eq_nil_iff.2 (List.find?_eq_none.1 (hlane.trans hloop))
  | some l =>
      obtain ⟨hmem, hi⟩ := mem_of_lane hx hloop
      have hin : l ∈ w.loops.filter (·.id.poller = i) := List.mem_filter.2 ⟨hmem, decide_eq_true hi⟩
      have heq : ∀ l' ∈ w.loops.filter (·.id.poller = i), l' = l := fun l' hl' =>
        Option.some.inj ((hall l' hl').symm.trans hloop)
      exact List.perm_singleton.1 ((List.perm_ext_iff_of_nodup hnodup (List.nodup_singleton l)).2
        fun l' => ⟨fun h => List.mem_singleton.2 (heq l' h), fun h => List.mem_singleton.1 h ▸ hin⟩)

/-- The live loop of the round that a poller's handle names is the one in its lane. -/
theorem Owned.id_eq_iff (hw : w.Owned) (hx : w.lane i = some x) {round : Nat}
    (hh : x.poller.handle = .held round) {l : Loop} (hl : l ∈ w.loops) :
    l.id = ⟨i, round⟩ ↔ l.id.poller = i := by
  constructor
  · exact fun h => congrArg LoopId.poller h
  · rintro rfl
    rw [← hw.round_eq hl (lane_eq_some hx).1 hh]

theorem eventsOf_cancelling {l : Loop} (h : l.id.poller = i) :
    eventsOf i (cancelling w.now l) = cancelling w.now l := by
  refine eventsOf_eq_self fun e he => ?_
  rw [mem_cancelling he]
  exact h

/-- All loops belong to the others where a poller does not poll. -/
theorem Owned.filter_of_not_polling (hw : w.Owned) {p : Poller}
    (hp : w.pollers[i]? = some p) (h : w.stateOf i p ≠ .polling) :
    w.loops.filter (·.id.poller ≠ i) = w.loops ∧ w.loops.filter (·.id.poller = i) = [] := by
  have hnone : ∀ l ∈ w.loops, l.id.poller ≠ i := fun _ hl => hw.not_live hp h hl
  exact ⟨List.filter_eq_self.2 fun l hl => decide_eq_true (hnone l hl),
    List.filter_eq_nil_iff.2 fun l hl => by simpa using hnone l hl⟩

/-- In an owned world a handle is taken from a poller with all its loops. -/
theorem Owned.release_eq (hw : w.Owned) {p : Poller} (hp : w.pollers[i]? = some p)
    (hg : p.handle ≠ .gone) (handle : Handle) :
    w.release i handle =
      ({ w with
          pollers := w.pollers.set i { p with handle := handle }
          loops := w.loops.filter (·.id.poller ≠ i) },
        (w.loops.filter (·.id.poller = i)).flatMap (cancelling w.now)) := by
  have hx := lane_of_poller hp
  simp only [World.release, hp]
  cases hh : p.handle with
  | gone => exact absurd hh hg
  | free =>
      obtain ⟨hall, hown⟩ := hw.filter_of_not_polling hp (by simp [stateOf, hh])
      simp only [hall, hown, List.flatMap_nil]
  | held round =>
      have hid := fun {l : Loop} (hl : l ∈ w.loops) => hw.id_eq_iff hx hh hl
      have hne : w.loops.filter (·.id ≠ ⟨i, round⟩) = w.loops.filter (·.id.poller ≠ i) :=
        List.filter_congr fun l hl => decide_eq_decide.2 (not_congr (hid hl))
      have heq : w.loops.filter (·.id = ⟨i, round⟩) = w.loops.filter (·.id.poller = i) :=
        List.filter_congr fun l hl => decide_eq_decide.2 (hid hl)
      simp only [hne, heq]

/-- To take its handle from a poller is to take it from its lane, and cancels the same fetch. -/
theorem Owned.lane_release_self (hw : w.Owned) (hx : w.lane i = some x) (handle : Handle) :
    (w.release i handle).1.lane i = some (x.release w.now handle).1 ∧
      eventsOf i (w.release i handle).2 = (x.release w.now handle).2 := by
  obtain ⟨hp, hf⟩ := lane_eq_some hx
  have hlt := (List.getElem?_eq_some_iff.1 hp).1
  by_cases hg : x.poller.handle = .gone
  · rw [World.release, hp, Lane.release, if_pos hg]
    simpa only [hg] using ⟨hx, rfl⟩
  · have hnone : (w.loops.filter (·.id.poller ≠ i)).find? (·.id.poller = i) = none := by
      refine List.find?_eq_none.2 fun l hl h => ?_
      exact of_decide_eq_true (List.mem_filter.1 hl).2 (of_decide_eq_true h)
    rw [hw.release_eq hp hg, Lane.release, if_neg hg, hw.filter_loops hx]
    simp only [lane, List.getElem?_set_self hlt, Option.map_some, hnone]
    refine ⟨trivial, ?_⟩
    cases hloop : x.loop with
    | none => rfl
    | some l => simpa using eventsOf_cancelling (mem_of_lane hx hloop).2

/-- To take its handle from another poller leaves a lane alone. -/
theorem lane_release_other {j : Nat} (h : j ≠ i) (handle : Handle) :
    (w.release j handle).1.lane i = w.lane i ∧ eventsOf i (w.release j handle).2 = [] := by
  rw [World.release]
  split
  · exact ⟨rfl, rfl⟩
  next p hp =>
    split
    · exact ⟨rfl, rfl⟩
    · simp [lane, List.getElem?_set_ne h]
    next round hh =>
      -- the loop that ends is of another poller
      refine ⟨?_, eventsOf_eq_nil fun e he => ?_⟩
      · have hold : (w.loops.filter (·.id ≠ ⟨j, round⟩)).find? (·.id.poller = i) =
            w.loops.find? (·.id.poller = i) := by
          rw [List.find?_filter]
          refine congrArg (List.find? · w.loops) (funext fun l => ?_)
          by_cases hi : l.id.poller = i
          · have hne : l.id ≠ ⟨j, round⟩ := fun e => h (by rw [← hi, e])
            simp [hi, hne]
          · simp [hi]
        simp only [lane, List.getElem?_set_ne h, hold]
      · obtain ⟨l, hl, he⟩ := List.mem_flatMap.1 he
        have hid : l.id = ⟨j, round⟩ := of_decide_eq_true (List.mem_filter.1 hl).2
        rw [mem_cancelling he, hid]
        exact h

/-- A reply to a poller joins the queue in its lane. -/
theorem lane_enqueue_self (hx : w.lane i = some x) (r : Reply) :
    (w.enqueue i r).lane i = some (x.enqueue r) := by
  obtain ⟨hp, hf⟩ := lane_eq_some hx
  simp [lane, World.enqueue, Lane.enqueue, hp, hf]

theorem lane_enqueue_other {j : Nat} (h : j ≠ i) (r : Reply) :
    (w.enqueue j r).lane i = w.lane i := by
  simp [lane, World.enqueue, h]

/-- An update stream that is asked leaves every lane alone. -/
theorem lane_takeUpdates (v : Nat) : (w.takeUpdates v).1.lane i = w.lane i := by
  rw [World.takeUpdates]
  split <;> rfl

/-- Milliseconds pass for a lane as they do for the world. -/
theorem Owned.lane_advance (hw : w.Owned) (hx : w.lane i = some x) (ms : Nat) :
    (World.advance ms (w, [])).1.lane i = some (x.advance ms w.now).1 ∧
      eventsOf i (World.advance ms (w, [])).2 = (x.advance ms w.now).2 := by
  induction ms generalizing w x with
  | zero => exact ⟨hx, rfl⟩
  | succ ms ih =>
      have hw' : ({ w with now := w.now + 1 } : World).Owned := ⟨hw.single, hw.held⟩
      obtain ⟨hlane, hevents⟩ : w.tick.1.lane i = some (x.run (w.now + 1)).1 ∧
        eventsOf i w.tick.2 = (x.run (w.now + 1)).2 := hw'.lane_run hx
      obtain ⟨hlane', hevents'⟩ := ih hw.tick hlane
      have hnow : w.tick.1.now = w.now + 1 := run_now _
      rw [hnow] at hlane' hevents'
      rw [advance_succ, eventsOf_append, hevents, hevents']
      exact ⟨hlane', rfl⟩

/-- **A call, seen from one poller, is a call on its lane.** -/
theorem Owned.lane_call (hw : w.Owned) (hx : w.lane i = some x) (s : Step) :
    (w.call s).world.lane i = some (x.call i w.now s).1 ∧
      eventsOf i (w.call s).events = (x.call i w.now s).2 := by
  cases s with
  | start j =>
      by_cases h : j = i
      · subst h
        simpa [World.call, Lane.call] using hw.lane_start_self hx
      · simpa [World.call, Lane.call, h] using (lane_start_other h).trans hx
  | stop j =>
      by_cases h : j = i
      · subst h
        simpa [World.call, Lane.call] using hw.lane_release_self hx .free
      · simpa [World.call, Lane.call, h, hx] using lane_release_other (w := w) h .free
  | drop j =>
      by_cases h : j = i
      · subst h
        simpa [World.call, Lane.call] using hw.lane_release_self hx .gone
      · simpa [World.call, Lane.call, h, hx] using lane_release_other (w := w) h .gone
  | look => exact ⟨hx, rfl⟩
  | reply j r =>
      by_cases h : j = i
      · subst h
        simpa [World.call, Lane.call] using lane_enqueue_self hx r
      · simpa [World.call, Lane.call, h] using (lane_enqueue_other h r).trans hx
  | advance ms => exact hw.lane_advance hx ms
  | updates v => exact ⟨(lane_takeUpdates v).trans hx, rfl⟩

/-- **A step, seen from one poller, is a step of its lane.** -/
theorem Owned.lane_step (hw : w.Owned) (hx : w.lane i = some x) (s : Step) :
    (w.step s).world.lane i = some (x.step i w.now s).1 ∧
      eventsOf i (w.step s).events = (x.step i w.now s).2 := by
  obtain ⟨hlane, hevents⟩ := hw.lane_call hx s
  obtain ⟨hlane', hevents'⟩ := (hw.call s).lane_run hlane
  rw [call_now] at hlane' hevents'
  refine ⟨hlane', ?_⟩
  simp only [World.step, eventsOf_append, hevents, hevents']
  rfl

end World

end ClusterWatch
