import ClusterWatch.Proofs.World.Views

/-!
# Updates — an update stream loses no final state and repeats none

The update stream of a view is asked now and then, by the steps `updates v` (*takes*).  What a view
has shown is `shownBy` of the statuses applied to it: nothing, and then each of them as a whole.

`Streamed ws ys view` says how a view stands once the statuses `ws` have been applied to it and its
stream has yielded `ys`: it shows the last of `shownBy ws`; what was yielded stands at places of
`shownBy ws` that strictly increase; and unless the stream has something ready, what it yielded last
is what the view shows.  A take keeps this (`Streamed.take`), and so does a status that is applied
(`Streamed.apply`); nothing else happens to a view in a step (`views_step`), so it holds along every
run (`streamed_after`).

`update_stream` says what follows for a take behind any steps of any pollers.  It is about versions
and not about values: a status equal to the one before is yielded again, and what applies nothing
(failures, panics, late replies, calls) brings nothing.
-/

namespace ClusterWatch

/-- What a view shows one after the other when the statuses `ws` are applied to it: the empty
snapshot, and then each status as a whole. -/
def shownBy (ws : List (Nat × Status)) : List Snapshot :=
  .empty :: ws.map fun w => .ofLast (some w)

@[simp] theorem length_shownBy (ws : List (Nat × Status)) :
    (shownBy ws).length = ws.length + 1 := by
  simp [shownBy]

theorem shownBy_concat (ws : List (Nat × Status)) (w : Nat × Status) :
    shownBy (ws ++ [w]) = shownBy ws ++ [.ofLast (some w)] := by
  simp [shownBy]

/-- How a view stands to which the statuses `ws` have been applied, and whose update stream has
yielded `ys`. -/
structure Streamed (ws : List (Nat × Status)) (ys : List Snapshot) (view : View) : Prop where
  /-- It shows what was applied last. -/
  current : (shownBy ws)[ws.length]? = some view.snapshot
  /-- What was yielded was shown before, and what is ready was not yielded. -/
  places : ∃ places : List Nat, places.Pairwise (· < ·) ∧
    ys.map some = places.map ((shownBy ws)[·]?) ∧
    ∀ n ∈ places, n < ws.length + if view.unseen then 0 else 1
  /-- Unless it has something ready, it has yielded what is shown. -/
  last : view.unseen = false → ys.getLast? = some view.snapshot

namespace Streamed

variable {ws : List (Nat × Status)} {ys : List Snapshot} {view : View}

theorem fresh : Streamed [] [] .fresh :=
  ⟨rfl, ⟨[], .nil, rfl, fun _ hn => nomatch hn⟩, fun h => nomatch h⟩

/-- A take yields what is ready. -/
theorem take (h : Streamed ws ys view) :
    Streamed ws (ys ++ view.ready) { view with unseen := false } := by
  cases hunseen : view.unseen with
  | false =>
      have hsame : view = { view with unseen := false } := by rw [← hunseen]
      rw [View.ready, hunseen, if_neg Bool.false_ne_true, List.append_nil, ← hsame]
      exact h
  | true =>
      -- what is shown has a place behind all that were yielded
      obtain ⟨places, hincreasing, hyielded, hbound⟩ := h.places
      rw [hunseen] at hbound
      rw [View.ready, hunseen, if_pos rfl]
      refine ⟨h.current, ⟨places ++ [ws.length], ?_, ?_, ?_⟩, fun _ => List.getLast?_concat⟩
      · refine List.pairwise_append.2 ⟨hincreasing, List.pairwise_singleton _ _, ?_⟩
        intro n hn m hm
        rw [List.mem_singleton.1 hm]
        exact hbound n hn
      · rw [List.map_append, List.map_append, hyielded, List.map_singleton, List.map_singleton,
          h.current]
      · intro n hn
        rcases List.mem_append.1 hn with hn | hn
        · exact Nat.lt_succ_of_lt (hbound n hn)
        · rw [List.mem_singleton.1 hn]
          exact Nat.lt_succ_self _

/-- A status that is applied becomes ready, and leaves everything before it in its place. -/
theorem apply (h : Streamed ws ys view) (w : Nat × Status) :
    Streamed (ws ++ [w]) ys (view.apply w.1 w.2) := by
  obtain ⟨places, hincreasing, hyielded, hbound⟩ := h.places
  have hlt : ∀ n ∈ places, n < (shownBy ws).length := by
    intro n hn
    have hn' := hbound n hn
    rw [length_shownBy]
    split at hn' <;> omega
  refine ⟨?_, ⟨places, hincreasing, ?_, ?_⟩, fun hready => nomatch hready⟩
  · rw [shownBy_concat, List.length_append, List.length_singleton, ← length_shownBy,
      List.getElem?_concat_length]
    rfl
  · rw [hyielded, shownBy_concat]
    exact List.map_congr_left fun n hn => (List.getElem?_append_left (hlt n hn)).symm
  · intro n hn
    have hn' := hlt n hn
    rw [length_shownBy] at hn'
    simpa [View.apply] using hn'

theorem write (h : Streamed ws ys view) (ws' : List (Nat × Status)) :
    Streamed (ws ++ ws') ys (view.write ws') := by
  induction ws' generalizing ws view with
  | nil =>
      rw [List.append_nil]
      exact h
  | cons w ws' ih =>
      rw [List.append_cons]
      exact ih (h.apply w)

/-- Behind a take nothing is left to yield. -/
theorem getLast?_take (h : Streamed ws ys view) :
    (ys ++ view.ready).getLast? = some view.snapshot := h.take.last rfl

end Streamed

/-- Once something is ready, it stays so until a take. -/
theorem View.write_unseen_of {view : View} (h : view.unseen = true) (ws : List (Nat × Status)) :
    (view.write ws).unseen = true := by
  cases ws with
  | nil => exact h
  | cons w ws => exact View.write_unseen view (List.cons_ne_nil w ws)

namespace World

/-- What the update stream of the view `v` yields over several steps. -/
def yields (v : Nat) : World → List Step → List Snapshot
  | _, [] => []
  | w, s :: rest =>
    (if s = .updates v then (w.step s).yielded else []) ++ yields v (w.step s).world rest

/-- What holds of a take of the update stream of the view `v`, which is `view`, behind the steps
`steps` from `start`; `given` are the intervals and the views of the pollers. -/
structure Takes (given : List (Nat × Nat)) (v : Nat) (start : World) (steps : List Step)
    (view : View) : Prop where
  /-- The view behind the steps. -/
  there : (start.after steps).views[v]? = some view
  /-- It shows what was applied last. -/
  current : (shownBy (written v (start.log steps))).getLast? = some view.snapshot
  /-- The take yields at most one snapshot. -/
  single : ((start.after steps).step (.updates v)).yielded.length ≤ 1
  /-- The first take yields what is shown. -/
  first : .updates v ∉ steps → ((start.after steps).step (.updates v)).yielded = [view.snapshot]
  /-- A later one yields what is shown if anything was applied since the take before it, and
  nothing otherwise. -/
  next : ∀ past between, steps = past ++ .updates v :: between → .updates v ∉ between →
    ((start.after steps).step (.updates v)).yielded =
      if written v ((start.after past).log (.updates v :: between)) = [] then []
      else [view.snapshot]
  /-- What is applied in any steps is what is accepted in them, and nothing else. -/
  applied : ∀ past between, steps = past ++ between →
    written v ((start.after past).log between) = accepted given v ((start.after past).log between)
  /-- Behind the take, the snapshot yielded last is the one that is shown. -/
  last : (start.yields v (steps ++ [.updates v])).getLast? = some view.snapshot
  /-- The snapshots yielded in all are some of those that were shown, each once and in their
  order. -/
  order : ∃ places : List Nat, places.Pairwise (· < ·) ∧
    (start.yields v (steps ++ [.updates v])).map some =
      places.map ((shownBy (written v (start.log (steps ++ [.updates v]))))[·]?)

variable {w : World} {v : Nat} {view : View} {ws : List (Nat × Status)} {ys : List Snapshot}

theorem yields_append (v : Nat) (w : World) (steps rest : List Step) :
    w.yields v (steps ++ rest) = w.yields v steps ++ (w.after steps).yields v rest := by
  induction steps generalizing w with
  | nil => rfl
  | cons s steps ih =>
      rw [List.cons_append, yields, yields, ih, List.append_assoc]
      rfl

/-- A take yields what its view has ready. -/
theorem yielded_take (hview : w.views[v]? = some view) :
    (w.step (.updates v)).yielded = view.ready := by
  rw [yielded_updates, hview]
  rfl

theorem yields_take (hview : w.views[v]? = some view) :
    w.yields v [.updates v] = view.ready := by
  rw [yields, if_pos rfl, yielded_take hview, yields, List.append_nil]

theorem streamed_step (hview : w.views[v]? = some view) (h : Streamed ws ys view) (s : Step) :
    ∃ view', (w.step s).world.views[v]? = some view' ∧
      Streamed (ws ++ written v (w.step s).events)
        (ys ++ if s = .updates v then (w.step s).yielded else []) view' := by
  refine ⟨_, by rw [views_step, hview]; rfl, Streamed.write ?_ _⟩
  by_cases hs : s = .updates v
  · rw [View.asked, if_pos hs, if_pos hs, hs, yielded_take hview]
    exact h.take
  · rw [View.asked, if_neg hs, if_neg hs, List.append_nil]
    exact h

/-- **How a view and its update stream stand behind any steps.** -/
theorem streamed_after (hview : w.views[v]? = some view) (h : Streamed ws ys view)
    (steps : List Step) :
    ∃ view', (w.after steps).views[v]? = some view' ∧
      Streamed (ws ++ written v (w.log steps)) (ys ++ w.yields v steps) view' := by
  induction steps generalizing w view ws ys with
  | nil => exact ⟨view, hview, by simpa [written, yields] using h⟩
  | cons s steps ih =>
      obtain ⟨view₁, hview₁, h₁⟩ := streamed_step hview h s
      obtain ⟨view', hview', h'⟩ := ih hview₁ h₁
      refine ⟨view', hview', ?_⟩
      rw [log_cons, written_append, yields, ← List.append_assoc, ← List.append_assoc]
      exact h'

/-- Between takes, what is applied is all that happens to a view. -/
theorem views_untaken (w : World) {steps : List Step} (h : .updates v ∉ steps) :
    (w.after steps).views[v]? = w.views[v]?.map (·.write (written v (w.log steps))) := by
  induction steps generalizing w with
  | nil => simp [after, written]
  | cons s steps ih =>
      obtain ⟨hs, hsteps⟩ := not_or.1 (mt List.mem_cons.2 h)
      have hasked : ∀ view : View, view.asked v s = view := fun view => if_neg (Ne.symm hs)
      rw [after, ih _ hsteps, views_step, Option.map_map, log_cons, written_append]
      simp only [Function.comp_def, hasked, View.write_append]

/-- The first take finds the view unseen. -/
theorem ready_first (hview : w.views[v]? = some view) (hunseen : view.unseen = true)
    {steps : List Step} (h : .updates v ∉ steps) {view' : View}
    (hview' : (w.after steps).views[v]? = some view') : view'.ready = [view'.snapshot] := by
  rw [views_untaken w h, hview, Option.map_some] at hview'
  rw [← Option.some.inj hview', View.ready, if_pos (View.write_unseen_of hunseen _)]

/-- A later take finds the view unseen just when something was applied since the one before. -/
theorem ready_next (hview : w.views[v]? = some view) {between : List Step}
    (h : .updates v ∉ between) {view' : View}
    (hview' : (w.after (.updates v :: between)).views[v]? = some view') :
    view'.ready =
      if written v (w.log (.updates v :: between)) = [] then [] else [view'.snapshot] := by
  have hwritten : (w.after (.updates v :: between)).views[v]? =
      some (({ view with unseen := false } : View).write
        (written v (w.log (.updates v :: between)))) := by
    have hasked : view.asked v (.updates v) = { view with unseen := false } := if_pos rfl
    rw [after, views_untaken _ h, views_step, hview, Option.map_some, Option.map_some, hasked,
      log_cons, written_append, View.write_append]
  obtain rfl := Option.some.inj (hwritten.symm.trans hview')
  split
  next hnone => rw [hnone, View.write_nil, View.ready, if_neg Bool.false_ne_true]
  next hsome => rw [View.ready, if_pos (View.write_unseen _ hsome)]

/-- **An update stream loses no final state and repeats none**, wherever its takes stand among any
steps of any pollers: a take yields what is shown if that has not been yielded, so that what was
yielded last is what is shown; and nothing that was yielded is yielded again. -/
theorem update_stream (pollers : List (Nat × Nat)) {v : Nat}
    (hv : v < (ofPollers pollers).views.length) (steps : List Step) :
    ∃ view, Takes pollers v (ofPollers pollers) steps view := by
  have hfresh : (ofPollers pollers).views[v]? = some .fresh := by
    rw [List.getElem?_eq_getElem hv]
    exact congrArg some (List.eq_of_mem_replicate (List.getElem_mem hv))
  obtain ⟨view, hview, hstreamed⟩ := streamed_after hfresh .fresh steps
  obtain ⟨view', -, hstreamed'⟩ := streamed_after hfresh .fresh (steps ++ [.updates v])
  have hyielded := yielded_take hview
  rw [List.nil_append, List.nil_append] at hstreamed hstreamed'
  refine ⟨view, ?_⟩
  constructor
  case there => exact hview
  case current =>
    rw [List.getLast?_eq_getElem?, length_shownBy]
    exact hstreamed.current
  case single =>
    rw [hyielded, View.ready]
    split
    · exact Nat.le_refl 1
    · exact Nat.zero_le 1
  case first => exact fun h => hyielded.trans (ready_first hfresh rfl h hview)
  case next =>
    rintro past between rfl hbetween
    obtain ⟨view₀, hview₀, -⟩ := streamed_after hfresh .fresh past
    rw [after_append] at hview
    exact hyielded.trans (ready_next hview₀ hbetween hview)
  case applied =>
    intro past between _
    have haccepted := ((owned_ofPollers pollers).after past).written_log between v
    rwa [setup_after, setup_ofPollers] at haccepted
  case last =>
    rw [yields_append, yields_take hview]
    exact hstreamed.getLast?_take
  case order =>
    obtain ⟨places, hincreasing, hplaces, -⟩ := hstreamed'.places
    exact ⟨places, hincreasing, hplaces⟩

/-- A take behind a status that comes twice, each time with a take behind it, a failure, and a stop:
what was yielded last is still what is shown, and the take yields nothing. -/
theorem update_stream_equal_twice :
    0 < (ofPollers [(0, 0)]).views.length ∧
      ∃ steps view, steps = [.updates 0, .start 0,
          .reply 0 (.settles (.status ⟨⟨"a", 1, 2⟩, []⟩) false), .updates 0,
          .reply 0 (.settles (.status ⟨⟨"a", 1, 2⟩, []⟩) false), .updates 0,
          .reply 0 (.settles .failure false), .stop 0] ∧
        Takes [(0, 0)] 0 (ofPollers [(0, 0)]) steps view ∧
        (((ofPollers [(0, 0)]).after steps).step (.updates 0)).yielded = [] ∧
        (ofPollers [(0, 0)]).yields 0 steps = [⟨none, [], none⟩,
          ⟨some ⟨"a", 1, 2⟩, [], some (.ofMillis 0)⟩,
          ⟨some ⟨"a", 1, 2⟩, [], some (.ofMillis 0)⟩] := by
  obtain ⟨view, hview⟩ := update_stream [(0, 0)] (v := 0) (by decide)
    [.updates 0, .start 0, .reply 0 (.settles (.status ⟨⟨"a", 1, 2⟩, []⟩) false), .updates 0,
      .reply 0 (.settles (.status ⟨⟨"a", 1, 2⟩, []⟩) false), .updates 0,
      .reply 0 (.settles .failure false), .stop 0]
  exact ⟨by decide, _, view, rfl, hview, rfl, rfl⟩

end World

end ClusterWatch
