import ClusterWatch.Proofs.World.Stands

/-!
# Views — a view shows the last status that was accepted for it

A status is *accepted* for a view when a fetch of one of the view's pollers is settled with it and
the poller is still there.  `accepted` reads this off the replies taken, those aside whose own fetch
has dropped the poller; what was applied to views does not enter it.  That the poller was there
until then, and held the loop that took the reply, is `Shows.alive`.

* `views_step`: a step changes a view by the statuses applied in it, and by nothing else.
* `Owned.written_step`: the statuses applied in a step are the accepted ones.
* `view_is_last_accepted`: after any steps a view shows the last accepted status as a whole, or
  nothing if there was none; and a step marks it changed just when it accepts a status for it.
-/

namespace ClusterWatch

/-- The status that an event applied to the view `v`, and when. -/
def Event.written? (v : Nat) (e : Event) : Option (Nat × Status) :=
  match e.act with
  | .applied view s => if view = v then some (e.time, s) else none
  | .issued | .took _ | .cancelled => none

/-- The status that an event has accepted for the view `v`, and when; `given` are the intervals and
the views of the pollers. -/
def Event.accepted? (given : List (Nat × Nat)) (v : Nat) (e : Event) : Option (Nat × Status) :=
  match given[e.loop.poller]?, e.act with
  | some (_, view), .took r => if view = v then r.accepted?.map (e.time, ·) else none
  | _, _ => none

/-- The statuses applied to the view `v`, and when. -/
def written (v : Nat) (es : List Event) : List (Nat × Status) := es.filterMap (·.written? v)

/-- The statuses accepted for the view `v`, and when. -/
def accepted (given : List (Nat × Nat)) (v : Nat) (es : List Event) : List (Nat × Status) :=
  es.filterMap (·.accepted? given v)

/-- What is shown when the last status that was accepted is known. -/
def Snapshot.ofLast : Option (Nat × Status) → Snapshot
  | none => ⟨none, [], none⟩
  | some (t, s) => ⟨some s.master, s.agents, some (.ofMillis t)⟩

/-- A view after several statuses have been applied. -/
def View.write (view : View) (ws : List (Nat × Status)) : View :=
  ws.foldl (fun view w => view.apply w.1 w.2) view

namespace View

@[simp] theorem write_nil (view : View) : view.write [] = view := rfl

/-- Statuses are applied one after the other. -/
theorem write_append (view : View) (ws ws' : List (Nat × Status)) :
    view.write (ws ++ ws') = (view.write ws).write ws' := List.foldl_append

/-- Only the last status that was applied shows. -/
theorem write_snapshot (view : View) (ws : List (Nat × Status)) :
    (view.write ws).snapshot = (ws.getLast?.map fun w => .ofLast (some w)).getD view.snapshot := by
  induction ws generalizing view with
  | nil => rfl
  | cons w ws ih =>
      refine (ih _).trans ?_
      rw [List.getLast?_cons]
      cases ws.getLast? <;> rfl

/-- A view to which something was applied has it ready for its update stream. -/
theorem write_unseen (view : View) {ws : List (Nat × Status)} (h : ws ≠ []) :
    (view.write ws).unseen = true := by
  induction ws generalizing view with
  | nil => exact absurd rfl h
  | cons w ws ih =>
      cases ws with
      | nil => rfl
      | cons w' ws => exact ih _ (List.cons_ne_nil w' ws)

/-- What the update stream of a view has ready: what it shows, unless it has yielded that. -/
def ready (view : View) : List Snapshot := if view.unseen then [view.snapshot] else []

/-- A view behind what a step does before the loops take their turns. -/
def asked (v : Nat) (s : Step) (view : View) : View :=
  if s = .updates v then { view with unseen := false } else view

/-- To ask its update stream does not change what a view shows. -/
theorem asked_snapshot (v : Nat) (s : Step) (view : View) :
    (view.asked v s).snapshot = view.snapshot := by
  rw [asked]
  split <;> rfl

end View

theorem written_append (v : Nat) (es es' : List Event) :
    written v (es ++ es') = written v es ++ written v es' := List.filterMap_append

theorem accepted_append (given : List (Nat × Nat)) (v : Nat) (es es' : List Event) :
    accepted given v (es ++ es') = accepted given v es ++ accepted given v es' :=
  List.filterMap_append

/-- An event writes to a view just when it applies something to it. -/
theorem Event.writes_eq (v : Nat) (e : Event) : e.writes v = (e.written? v).isSome := by
  obtain ⟨t, id, _ | r | ⟨view, s⟩ | _⟩ := e
  · rfl
  · rfl
  · by_cases h : view = v <;> simp [Event.writes, Event.written?, h]
  · rfl

/-- A step has changed a view just when a status was applied to it. -/
theorem Stepped.changed_iff (s : Stepped) (v : Nat) :
    s.changed v = true ↔ written v s.events ≠ [] := by
  rw [Stepped.changed, List.any_eq_true, written, Ne, List.filterMap_eq_nil_iff]
  constructor
  · rintro ⟨e, he, hw⟩ hnone
    rw [Event.writes_eq, hnone e he] at hw
    cases hw
  · intro h
    by_contra hno
    refine h fun e he => ?_
    cases hw : e.written? v with
    | none => rfl
    | some w => exact absurd ⟨e, he, by rw [Event.writes_eq, hw]; rfl⟩ hno

namespace World

/-! ### What is applied is all that changes a view -/

variable {w : World}

/-- What acts do to a view is to apply what they apply to it. -/
theorem views_acts (now : Nat) (id : LoopId) (v : Nat) (acts : List Act) (views : List View) :
    (acts.foldl (applyAct now) views)[v]? =
      views[v]?.map (·.write (written v (acts.map (⟨now, id, ·⟩)))) := by
  induction acts generalizing views with
  | nil => simp [written]
  | cons a acts ih =>
      rw [List.foldl_cons, ih, List.map_cons]
      cases a with
      | applied view s =>
          simp only [applyAct, written, List.filterMap_cons, Event.written?,
            List.getElem?_modify]
          by_cases h : view = v
          · simp [h, Function.comp_def, View.write]
          · simp [h]
      | issued => rfl
      | took r => rfl
      | cancelled => rfl

/-- A view behind a turn. -/
theorem views_turn (w : World) (l : Loop) (v : Nat) :
    (w.turn l).1.views[v]? = w.views[v]?.map (·.write (written v (w.turn l).2)) := by
  rw [turn]
  split
  · simp [written]
  · exact views_acts _ _ _ _ _

theorem views_turns (w : World) (ls : List Loop) (v : Nat) :
    (w.turns ls).1.views[v]? = w.views[v]?.map (·.write (written v (w.turns ls).2)) := by
  induction ls generalizing w with
  | nil => simp [turns, written]
  | cons l ls ih =>
      rw [turns_cons, ih, views_turn, Option.map_map, written_append]
      simp only [Function.comp_def, View.write_append]

/-- A view behind some milliseconds. -/
theorem views_advance (ms : Nat) (w : World) (v : Nat) :
    (advance ms (w, [])).1.views[v]? =
      w.views[v]?.map (·.write (written v (advance ms (w, [])).2)) := by
  induction ms generalizing w with
  | zero => simp [advance, written]
  | succ ms ih =>
      have htick : w.tick.1.views[v]? = w.views[v]?.map (·.write (written v w.tick.2)) :=
        views_turns _ _ v
      rw [advance_succ, ih, htick, Option.map_map, written_append]
      simp only [Function.comp_def, View.write_append]

theorem views_start (w : World) (i : Nat) : (w.start i).views = w.views := by
  rw [start]
  split
  · rfl
  · split <;> rfl

/-- To take its handle from a poller changes no view, and applies nothing. -/
theorem views_release (w : World) (i : Nat) (h : Handle) :
    (w.release i h).1.views = w.views ∧
      ∀ e ∈ (w.release i h).2, e.act = .cancelled := by
  rw [release]
  split
  · exact ⟨rfl, fun _ he => absurd he List.not_mem_nil⟩
  · split
    · exact ⟨rfl, fun _ he => absurd he List.not_mem_nil⟩
    · exact ⟨rfl, fun _ he => absurd he List.not_mem_nil⟩
    · refine ⟨rfl, fun e he => ?_⟩
      obtain ⟨l, -, he⟩ := List.mem_flatMap.1 he
      rw [mem_cancelling he]

theorem written_cancelled {es : List Event} (h : ∀ e ∈ es, e.act = .cancelled) (v : Nat) :
    written v es = [] :=
  List.filterMap_eq_nil_iff.2 fun e he => by rw [Event.written?, h e he]

theorem accepted_cancelled {es : List Event} (h : ∀ e ∈ es, e.act = .cancelled)
    (given : List (Nat × Nat)) (v : Nat) : accepted given v es = [] :=
  List.filterMap_eq_nil_iff.2 fun e he => by
    rw [Event.accepted?, h e he]
    split <;> simp_all

/-- A view behind a call, before the loops take their turns. -/
theorem views_call (w : World) (s : Step) (v : Nat) :
    (w.call s).world.views[v]? =
      w.views[v]?.map fun view => (view.asked v s).write (written v (w.call s).events) := by
  have hrelease : ∀ i h, (w.release i h).1.views[v]? =
      w.views[v]?.map (·.write (written v (w.release i h).2)) := by
    intro i h
    obtain ⟨hviews, hevents⟩ := views_release w i h
    rw [hviews, written_cancelled hevents]
    simp
  cases s with
  | start i => simp [call, views_start, View.asked, written]
  | stop i => simpa [call, View.asked] using hrelease i .free
  | drop i => simpa [call, View.asked] using hrelease i .gone
  | look => simp [call, View.asked, written]
  | reply i r => simp [call, enqueue, View.asked, written]
  | advance ms => simpa [call, View.asked] using views_advance ms w v
  | updates u =>
      simp only [call, takeUpdates, View.asked, Step.updates.injEq]
      by_cases h : u = v
      · subst h
        cases hu : w.views[u]? with
        | none => simp [hu]
        | some view =>
            have hlt := (List.getElem?_eq_some_iff.1 hu).1
            simp [written, List.getElem?_set_self hlt]
      · cases hu : w.views[u]? with
        | none => simp [h, written]
        | some view => simp [h, written, List.getElem?_set_ne h]

/-- **A view behind a step** is the view with the statuses applied in the step. -/
theorem views_step (w : World) (s : Step) (v : Nat) :
    (w.step s).world.views[v]? =
      w.views[v]?.map fun view => (view.asked v s).write (written v (w.step s).events) := by
  have hrun : (w.call s).world.run.1.views[v]? =
      (w.call s).world.views[v]?.map (·.write (written v (w.call s).world.run.2)) :=
    views_turns _ _ v
  change (w.call s).world.run.1.views[v]? = w.views[v]?.map fun view =>
    (view.asked v s).write (written v ((w.call s).events ++ (w.call s).world.run.2))
  rw [hrun, views_call, Option.map_map, written_append]
  simp only [Function.comp_def, View.write_append]

/-- What an update stream yields that is asked: what its view has ready. -/
theorem yielded_updates (w : World) (v : Nat) :
    (w.step (.updates v)).yielded = (w.views[v]?.map View.ready).getD [] := by
  simp only [step, call, takeUpdates]
  cases w.views[v]? <;> rfl

/-- What a view shows behind several steps. -/
theorem views_after (w : World) (steps : List Step) (v : Nat) :
    (w.after steps).views[v]?.map (·.snapshot) =
      w.views[v]?.map fun view => (view.write (written v (w.log steps))).snapshot := by
  induction steps generalizing w with
  | nil => rfl
  | cons s steps ih =>
      refine (ih _).trans ?_
      rw [views_step, Option.map_map, log_cons, written_append]
      refine congrArg (w.views[v]?.map ·) (funext fun view => ?_)
      simp only [Function.comp_def, View.write_append]
      -- only the snapshot survives a step: its update stream may be asked in between
      rw [View.write_snapshot, View.write_snapshot _ (written v ((w.step s).world.log steps))]
      simp only [View.write_snapshot, View.asked_snapshot]

/-! ### What is applied is what was accepted -/

/-- **What a turn applies is what it accepts**: its poller is there while the loop goes on. -/
theorem Owned.written_turn (hw : w.Owned) {l : Loop} (hl : l ∈ w.loops) (v : Nat) :
    written v (w.turn l).2 = accepted w.setup v (w.turn l).2 := by
  obtain ⟨p, hp, hheld⟩ := hw.held l hl
  have happlied := (Poller.turn_settled w.now l.phase p).applied
    (by rw [hheld]; exact Handle.noConfusion)
  have hgiven : w.setup[l.id.poller]? = some (p.interval, p.view) := by
    rw [setup, List.getElem?_map, hp]
    rfl
  -- both are the same selection from what the acts applied and from what they accepted
  let pick : Nat × Status → Option (Nat × Status) := fun a =>
    if a.1 = v then some (w.now, a.2) else none
  have hwritten : ∀ a : Act, Event.written? v ⟨w.now, l.id, a⟩ = a.applied?.bind pick := by
    rintro (_ | _ | ⟨view, s⟩ | _) <;> rfl
  have haccepted : ∀ a : Act, Event.accepted? w.setup v ⟨w.now, l.id, a⟩ =
      (a.accepted? p.view).bind pick := by
    rintro (_ | r | ⟨view, s⟩ | _)
    · simp [Event.accepted?, Act.accepted?]
    · simp only [Event.accepted?, Act.accepted?, hgiven, pick]
      cases r.accepted? <;> by_cases h : p.view = v <;> simp [h]
    · simp [Event.accepted?, Act.accepted?]
    · simp [Event.accepted?, Act.accepted?]
  have hturn : (w.turn l).2 = (p.turn w.now l.phase).acts.map (⟨w.now, l.id, ·⟩) := by
    simp only [World.turn, hp]
  calc written v (w.turn l).2
      = ((p.turn w.now l.phase).acts.filterMap Act.applied?).filterMap pick := by
        rw [hturn, written, List.filterMap_map, List.filterMap_filterMap]
        exact congrArg (List.filterMap · _) (funext hwritten)
    _ = ((p.turn w.now l.phase).acts.filterMap (Act.accepted? p.view)).filterMap pick := by
        rw [happlied]
    _ = accepted w.setup v (w.turn l).2 := by
        rw [hturn, accepted, List.filterMap_map, List.filterMap_filterMap]
        exact congrArg (List.filterMap · _) (funext fun a => (haccepted a).symm)

theorem Owned.written_turns {ls : List Loop} (hw : w.Owned) (hls : w.Pending ls) (v : Nat) :
    written v (w.turns ls).2 = accepted w.setup v (w.turns ls).2 := by
  refine turns_induct (P := fun w ls =>
    written v (w.turns ls).2 = accepted w.setup v (w.turns ls).2)
    (fun _ _ => rfl) (fun w l ls hw hls ih => ?_) hw hls
  rw [setup_turn] at ih
  rw [turns_cons, written_append, accepted_append, ih,
    hw.written_turn (hls.live l List.mem_cons_self)]

theorem Owned.written_run (hw : w.Owned) (v : Nat) :
    written v w.run.2 = accepted w.setup v w.run.2 := hw.written_turns hw.pending_run v

/-- What is applied while time passes is what is accepted then. -/
theorem Owned.written_advance (hw : w.Owned) (ms v : Nat) :
    written v (World.advance ms (w, [])).2 = accepted w.setup v (World.advance ms (w, [])).2 := by
  induction ms generalizing w with
  | zero => rfl
  | succ ms ih =>
      have htick : written v w.tick.2 = accepted w.setup v w.tick.2 :=
        written_run (w := { w with now := w.now + 1 }) ⟨hw.single, hw.held⟩ v
      have hrest := ih hw.tick
      rw [show w.tick.1.setup = w.setup from setup_turns _ _] at hrest
      rw [advance_succ, written_append, accepted_append, htick, hrest]

theorem setup_call (w : World) (s : Step) : (w.call s).world.setup = w.setup :=
  (setup_turns _ _).symm.trans (setup_step w s)

/-- What a call applies is what it accepts. -/
theorem Owned.written_call (hw : w.Owned) (s : Step) (v : Nat) :
    written v (w.call s).events = accepted w.setup v (w.call s).events := by
  have hrelease : ∀ i h, written v (w.release i h).2 = accepted w.setup v (w.release i h).2 := by
    intro i h
    have hevents := (views_release w i h).2
    rw [written_cancelled hevents, accepted_cancelled hevents]
  cases s with
  | start i => rfl
  | stop i => exact hrelease i .free
  | drop i => exact hrelease i .gone
  | look => rfl
  | reply i r => rfl
  | advance ms => exact hw.written_advance ms v
  | updates u => rfl

/-- **What a step applies is what it accepts.** -/
theorem Owned.written_step (hw : w.Owned) (s : Step) (v : Nat) :
    written v (w.step s).events = accepted w.setup v (w.step s).events := by
  have hrun := (hw.call s).written_run v
  rw [setup_call] at hrun
  change written v ((w.call s).events ++ (w.call s).world.run.2) =
    accepted w.setup v ((w.call s).events ++ (w.call s).world.run.2)
  rw [written_append, accepted_append, hw.written_call s, hrun]

/-- What several steps apply is what they accept. -/
theorem Owned.written_log (hw : w.Owned) (steps : List Step) (v : Nat) :
    written v (w.log steps) = accepted w.setup v (w.log steps) := by
  induction steps generalizing w with
  | nil => rfl
  | cons s steps ih =>
      have hrest := ih (hw.step s)
      rw [setup_step] at hrest
      rw [log_cons, written_append, accepted_append, hw.written_step s, hrest]

/-! ### What is shown -/

/-- Each poller's view is there. -/
theorem view_lt_ofPollers {pollers : List (Nat × Nat)} {g : Nat × Nat} (hg : g ∈ pollers) :
    g.2 < (ofPollers pollers).views.length := by
  have hmono : ∀ (ps : List (Nat × Nat)) (n : Nat),
      n ≤ ps.foldl (fun n p => max n (p.2 + 1)) n := by
    intro ps
    induction ps with
    | nil => exact Nat.le_refl
    | cons p ps ih => exact fun n => Nat.le_trans (Nat.le_max_left _ _) (ih _)
  have hlt : ∀ (ps : List (Nat × Nat)) (n : Nat), g ∈ ps →
      g.2 < ps.foldl (fun n p => max n (p.2 + 1)) n := by
    intro ps
    induction ps with
    | nil => exact fun _ h => nomatch h
    | cons p ps ih =>
        intro n h
        rcases List.mem_cons.1 h with rfl | h
        · exact Nat.lt_of_lt_of_le (Nat.le_max_right n _) (hmono ps _)
        · exact ih _ h
  simpa [ofPollers] using hlt pollers 0 hg

/-- What a step `s` does to the view `v`, which was `old` before it. -/
structure Follows (given : List (Nat × Nat)) (v : Nat) (old : View) (s : Step) (stepped : Stepped)
    (new : View) : Prop where
  /-- The view behind the step. -/
  there : stepped.world.views[v]? = some new
  /-- It is marked changed just when the step accepts a status for it. -/
  marks : stepped.changed v = true ↔ accepted given v stepped.events ≠ []
  /-- Otherwise it is left as it was. -/
  keeps : accepted given v stepped.events = [] →
    new.snapshot = old.snapshot ∧ (s ≠ .updates v → new.unseen = old.unseen)
  /-- Its update stream has an accepted status ready. -/
  wakes : accepted given v stepped.events ≠ [] → new.unseen = true
  /-- Once loaded it stays so. -/
  stays : old.snapshot.isLoaded = true → new.snapshot.isLoaded = true

/-- What the view `v` shows in a world `w` behind the events `es`. -/
structure Shows (given : List (Nat × Nat)) (es : List Event) (v : Nat) (w : World) (view : View) :
    Prop where
  /-- The view. -/
  there : w.views[v]? = some view
  /-- It shows the last accepted status as a whole, or nothing. -/
  last : view.snapshot = .ofLast (accepted given v es).getLast?
  /-- It is loaded just when it has a master. -/
  loaded : view.snapshot.isLoaded = true ↔ view.snapshot.master.isSome = true
  /-- Unless it is loaded it has no agents. -/
  bare : view.snapshot.isLoaded = false → view.snapshot.agents = []
  /-- What any step does to it next. -/
  follows : ∀ s, ∃ new, Follows given v view s (w.step s) new
  /-- A status is accepted for it in a step only from a loop that its poller holds then, and that no
  reply before it in the step has ended. -/
  alive : ∀ s before e behind, (w.step s).events = before ++ e :: behind →
    (e.accepted? given v).isSome →
    w.Serves s e.loop ∧ ∀ e' ∈ before, e'.loop.poller = e.loop.poller → ¬ e'.act.Ends

/-- What is accepted is a reply that a loop of a poller of the view has taken. -/
theorem exists_took_of_accepted? {given : List (Nat × Nat)} {v : Nat} {e : Event}
    (h : (e.accepted? given v).isSome) :
    ∃ interval r, given[e.loop.poller]? = some (interval, v) ∧ e.act = .took r := by
  rw [Event.accepted?] at h
  split at h
  next interval view r hgiven hact =>
    split at h
    next hview => exact ⟨interval, r, hview ▸ hgiven, hact⟩
    next => cases h
  next => cases h

/-- **What is accepted is taken by a loop that its poller holds.** -/
theorem Owned.alive (hw : w.Owned) {v : Nat} {s : Step} {before behind : List Event} {e : Event}
    (hevents : (w.step s).events = before ++ e :: behind)
    (haccepted : (e.accepted? w.setup v).isSome) :
    w.Serves s e.loop ∧ ∀ e' ∈ before, e'.loop.poller = e.loop.poller → ¬ e'.act.Ends := by
  obtain ⟨interval, r, hgiven, htook⟩ := exists_took_of_accepted? haccepted
  rw [setup, List.getElem?_map] at hgiven
  obtain ⟨p, hp, -⟩ := Option.map_eq_some_iff.1 hgiven
  have hx := lane_of_poller hp
  exact ⟨hw.serves hx (by rw [hevents]; simp) htook, hw.not_ends_before hx hevents⟩

/-- What a step does to a view, read off what the step accepts for it. -/
theorem Owned.follows (hw : w.Owned) {v : Nat} {view : View} (hview : w.views[v]? = some view)
    (s : Step) :
    Follows w.setup v view s (w.step s)
      ((view.asked v s).write (accepted w.setup v (w.step s).events)) := by
  have hwritten := hw.written_step s v
  constructor
  case there =>
    rw [views_step, hview, hwritten]
    rfl
  case marks => rw [Stepped.changed_iff, hwritten]
  case keeps =>
    intro hnone
    rw [hnone, View.write_nil]
    refine ⟨View.asked_snapshot v s view, fun hs => ?_⟩
    rw [View.asked, if_neg hs]
  case wakes => exact View.write_unseen _
  case stays =>
    intro hloaded
    rw [View.write_snapshot, View.asked_snapshot]
    cases (accepted w.setup v (w.step s).events).getLast? with
    | none => exact hloaded
    | some a => rfl

/-- A view stays there through any steps, and shows what they have applied to it. -/
theorem view_after {v : Nat} (hv : v < w.views.length) (steps : List Step) :
    ∃ view, (w.after steps).views[v]? = some view ∧
      view.snapshot = (w.views[v].write (written v (w.log steps))).snapshot := by
  have hafter := views_after w steps v
  rw [List.getElem?_eq_getElem hv, Option.map_some] at hafter
  exact Option.map_eq_some_iff.1 hafter

/-- **A view shows the last status that was accepted for it, as a whole**, after any steps of any
pollers; and each poller's view is one of these. -/
theorem view_is_last_accepted (pollers : List (Nat × Nat)) (steps : List Step) :
    (∀ p ∈ pollers, p.2 < (ofPollers pollers).views.length) ∧
      ∀ v, v < (ofPollers pollers).views.length → ∃ view,
        Shows pollers ((ofPollers pollers).log steps) v ((ofPollers pollers).after steps) view := by
  refine ⟨fun p hp => view_lt_ofPollers hp, fun v hv => ?_⟩
  have hw : ((ofPollers pollers).after steps).Owned := Reachable.owned ⟨pollers, steps, rfl⟩
  have hgiven : ((ofPollers pollers).after steps).setup = pollers :=
    (setup_after _ steps).trans (setup_ofPollers pollers)
  have haccepted := (owned_ofPollers pollers).written_log steps v
  rw [setup_ofPollers] at haccepted
  obtain ⟨view, hview, hsnapshot⟩ := view_after hv steps
  have hfresh : (ofPollers pollers).views[v] = .fresh :=
    List.eq_of_mem_replicate (List.getElem_mem hv)
  have hlast : view.snapshot =
      .ofLast (accepted pollers v ((ofPollers pollers).log steps)).getLast? := by
    rw [hsnapshot, hfresh, haccepted, View.write_snapshot]
    cases (accepted pollers v ((ofPollers pollers).log steps)).getLast? <;> rfl
  refine ⟨view, hview, hlast, ?_, ?_, fun s => ⟨_, hgiven ▸ hw.follows hview s⟩,
    fun s before e behind hevents he => hw.alive hevents (hgiven.symm ▸ he)⟩
  · rw [hlast]
    cases (accepted pollers v ((ofPollers pollers).log steps)).getLast? with
    | none => exact Iff.rfl
    | some a => exact ⟨fun _ => rfl, fun _ => rfl⟩
  · rw [hlast]
    cases (accepted pollers v ((ofPollers pollers).log steps)).getLast? with
    | none => exact fun _ => rfl
    | some a => exact fun h => nomatch h

/-- A view that two pollers share, behind a status of the first, which is then stopped, and dropped
while another reply waits for it, and one of the second, whose fetch drops it. -/
theorem view_is_last_accepted_shared :
    ∃ pollers steps view, pollers = [(5, 0), (0, 0)] ∧
      steps = [.start 0, .reply 0 (.settles (.status ⟨⟨"a", 1, 2⟩, []⟩) false), .stop 0,
        .reply 0 (.settles (.status ⟨⟨"b", 3, 4⟩, []⟩) false), .drop 0, .start 0, .start 1,
        .reply 1 (.settles (.status ⟨⟨"c", 5, 6⟩, []⟩) true)] ∧
      0 < (ofPollers pollers).views.length ∧
      Shows pollers ((ofPollers pollers).log steps) 0 ((ofPollers pollers).after steps) view ∧
      view.snapshot = ⟨some ⟨"a", 1, 2⟩, [], some (.ofMillis 0)⟩ := by
  obtain ⟨view, hview⟩ := (view_is_last_accepted [(5, 0), (0, 0)]
    [.start 0, .reply 0 (.settles (.status ⟨⟨"a", 1, 2⟩, []⟩) false), .stop 0,
      .reply 0 (.settles (.status ⟨⟨"b", 3, 4⟩, []⟩) false), .drop 0, .start 0, .start 1,
      .reply 1 (.settles (.status ⟨⟨"c", 5, 6⟩, []⟩) true)]).2 0 (by decide)
  exact ⟨_, _, view, rfl, rfl, by decide, hview, hview.last.trans rfl⟩

end World

end ClusterWatch
