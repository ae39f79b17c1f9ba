import ClusterWatch.Proofs.LockedView.Record
import ClusterWatch.Proofs.World.Views

/-!
# Stretches — what one loop does at a time, in moves

What a loop does in one turn of it in a world is told by its events, and can be done at the lock of
a view with nobody in between.  A `Stretch` is such a part of a run: only the loop and its cancel
move, and behind it the lock is free.  The fetches and the applies in it are those of the events
(`Tells`).

A loop that is `Ready` can do all that a reply makes of it (`Ready.exists_take`,
`Ready.exists_end`), so it can do all of a turn (`Ready.exists_turn`), by induction on the replies.
-/

namespace ClusterWatch

/-- Where a loop stands at a phase. -/
def Phase.stage : Phase → LoopStage
  | .due => .due
  | .waiting => .fetching
  | .sleeping _ => .sleeping

/-- Where a loop stands behind a turn. -/
def Turn.stage (t : Turn) : LoopStage := (t.phase.map Phase.stage).getD .ended

/-- Whether a loop begins a fetch with a move, or is told how a fetch has ended. -/
def LoopMove.isFetch : LoopMove → Bool
  | .look set => set
  | .settle _ | .panic => true
  | .enter | .load _ _ | .write _ _ | .leave _ _ | .wake | .abort => false

/-- Whether a move is one of a fetch. -/
def Move.isFetch : Move → Bool
  | .loop _ m => m.isFetch
  | .cancel _ _ | .read _ => false

/-- The move of a fetch that an act is. -/
def Act.move? : Act → Option LoopMove
  | .issued => some (.look true)
  | .took (.settles outcome _) => some (.settle outcome)
  | .took .panics => some .panic
  | .applied _ _ | .cancelled => none

/-- The move of a fetch for the view `k` that an event is; `given` are the intervals and the views
of the pollers. -/
def Event.move? (given : List (Nat × Nat)) (k : Nat) (e : Event) : Option Move :=
  if given[e.loop.poller]?.map Prod.snd = some k then e.act.move?.map (.loop e.loop) else none

/-- A status and the time at which it was applied. -/
def timed (w : Nat × Status) : Instant × Status := (.ofMillis w.1, w.2)

/-- Moves in which the fetches for the view `k` and the applies to it are those of some events. -/
structure Tells (given : List (Nat × Nat)) (k : Nat) (moves : List Move) (es : List Event) :
    Prop where
  fetches : moves.filter Move.isFetch = es.filterMap (·.move? given k)
  applies : applied moves = (written k es).map timed

section Tells

variable {given : List (Nat × Nat)} {k : Nat} {moves moves' : List Move} {es es' : List Event}

theorem Tells.nil : Tells given k [] [] := ⟨rfl, rfl⟩

theorem Tells.append (h : Tells given k moves es) (h' : Tells given k moves' es') :
    Tells given k (moves ++ moves') (es ++ es') where
  fetches := by rw [List.filter_append, List.filterMap_append, h.fetches, h'.fetches]
  applies := by rw [applied_append, written_append, List.map_append, h.applies, h'.applies]

/-- The moves of a cancel are told by events in which loops are cancelled, and nothing else. -/
theorem Tells.cancelled (c : CancelId) (ms : List CancelMove) (h : ∀ e ∈ es, e.act = .cancelled) :
    Tells given k (ms.map (.cancel c)) es where
  fetches := by
    have hnone : es.filterMap (·.move? given k) = [] :=
      List.filterMap_eq_nil_iff.2 fun e he => by
        rw [Event.move?, h e he]
        exact ite_self _
    rw [hnone, List.filter_eq_nil_iff]
    simp [Move.isFetch]
  applies := by
    have hnone : applied (ms.map (.cancel c)) = [] := by
      simp [applied, Move.applied?]
    rw [hnone, World.written_cancelled h, List.map_nil]

/-- Nothing is told of the view `k` by what pollers of other views do. -/
theorem Tells.elsewhere (h : ∀ e ∈ es, given[e.loop.poller]?.map Prod.snd ≠ some k)
    (hwritten : written k es = accepted given k es) : Tells given k [] es where
  fetches := (List.filterMap_eq_nil_iff.2 fun e he => if_neg (h e he)).symm
  applies := by
    have hnone : accepted given k es = [] := by
      refine List.filterMap_eq_nil_iff.2 fun e he => ?_
      have hview := h e he
      rw [Event.accepted?]
      split
      next ms view r hgiven hact =>
        rw [hgiven] at hview
        exact if_neg fun heq => hview (congrArg some heq)
      next => rfl
    rw [hwritten, hnone]
    rfl

/-- The moves of one loop, told by acts of it at a time. -/
theorem Tells.own {i : LoopId} {now : Nat} {ms : List LoopMove} {acts : List Act}
    (hgiven : given[i.poller]?.map Prod.snd = some k)
    (hfetches : ms.filter LoopMove.isFetch = acts.filterMap Act.move?)
    (happlies : applied (ms.map (.loop i)) =
      (written k (acts.map (⟨now, i, ·⟩))).map timed) :
    Tells given k (ms.map (.loop i)) (acts.map (⟨now, i, ·⟩)) where
  fetches := by
    have hacts : (acts.map (⟨now, i, ·⟩)).filterMap (Event.move? given k) =
        (acts.filterMap Act.move?).map (.loop i) := by
      rw [List.filterMap_map, List.map_filterMap]
      exact congrArg (List.filterMap · acts) (funext fun act => if_pos hgiven)
    rw [hacts, ← hfetches, List.filter_map]
    rfl
  applies := happlies

end Tells

namespace LockedView

variable {v v' u : LockedView} {i : LoopId} {given : List (Nat × Nat)} {k now : Nat}
  {es es' : List Event}

/-! ### Stretches of one loop -/

/-- A run in which only the loop `i` and its cancel move, and behind which the lock is free. -/
structure Stretch (given : List (Nat × Nat)) (k : Nat) (i : LoopId) (v : LockedView)
    (es : List Event) (v' : LockedView) : Prop where
  run : ∃ moves, v.run? moves = some v' ∧ Tells given k moves es
  free : v'.holder = none
  loops : ∀ j, j ≠ i → v'.loops j = v.loops j
  alive : ∀ j, j ≠ i → v'.alive j = v.alive j

theorem Stretch.nil (hfree : v.holder = none) : Stretch given k i v [] v :=
  ⟨⟨[], rfl, .nil⟩, hfree, fun _ _ => rfl, fun _ _ => rfl⟩

theorem Stretch.trans (h : Stretch given k i v es u) (h' : Stretch given k i u es' v') :
    Stretch given k i v (es ++ es') v' where
  run := by
    obtain ⟨moves, hrun, htells⟩ := h.run
    obtain ⟨moves', hrun', htells'⟩ := h'.run
    exact ⟨moves ++ moves', run?_append_eq_some_iff.2 ⟨u, hrun, hrun'⟩, htells.append htells'⟩
  free := h'.free
  loops j hj := (h'.loops j hj).trans (h.loops j hj)
  alive j hj := (h'.alive j hj).trans (h.alive j hj)

theorem Stretch.orderly (h : Stretch given k i v es v') (hv : v.Orderly) : v'.Orderly := by
  obtain ⟨moves, hrun, -⟩ := h.run
  exact hv.run hrun

/-- A loop's own moves leave the other loops and all flags as they were. -/
theorem run?_own {ms : List LoopMove} (h : v.run? (ms.map (.loop i)) = some v') :
    v'.alive = v.alive ∧ ∀ j, j ≠ i → v'.loops j = v.loops j := by
  induction ms generalizing v with
  | nil =>
      obtain rfl := Option.some.inj h
      exact ⟨rfl, fun _ _ => rfl⟩
  | cons m ms ih =>
      obtain ⟨u, hm, hu⟩ := run?_cons_eq_some_iff.1 h
      obtain ⟨halive, hloops⟩ := ih hu
      cases hm with
      | loop hp hst =>
          exact ⟨halive, fun j hj => (hloops j hj).trans (loops_afterLoop_of_ne hj)⟩

theorem stretch_own {ms : List LoopMove} (hrun : v.run? (ms.map (.loop i)) = some v')
    (hfree : v'.holder = none) (htells : Tells given k (ms.map (.loop i)) es) :
    Stretch given k i v es v' where
  run := ⟨_, hrun, htells⟩
  free := hfree
  loops := (run?_own hrun).2
  alive _ _ := congrFun (run?_own hrun).1 _

/-- The lock is free, and the loop `i` stands at `st` with its flag set. -/
structure Ready (v : LockedView) (i : LoopId) (st : LoopStage) : Prop where
  orderly : v.Orderly
  free : v.holder = none
  alive : v.alive i = true
  stage : v.loops i = st

/-- Moves of a ready loop, behind which it is ready again. -/
theorem Ready.exists_own {st st' : LoopStage} (hv : v.Ready i st) (acts : List Act)
    {ms : List LoopMove}
    (hrun : ∃ v', v.run? (ms.map (.loop i)) = some v' ∧ v'.holder = none ∧ v'.loops i = st')
    (htells : Tells given k (ms.map (.loop i)) (acts.map (⟨now, i, ·⟩))) :
    ∃ v', Stretch given k i v (acts.map (⟨now, i, ·⟩)) v' ∧ v'.Ready i st' := by
  obtain ⟨v', hrun, hfree, hst⟩ := hrun
  have halive : v'.alive i = true := by rw [(run?_own hrun).1, hv.alive]
  exact ⟨v', stretch_own hrun hfree htells, hv.orderly.run hrun, hfree, halive, hst⟩

/-- A cancel that nothing comes between. -/
theorem Ready.exists_cancel {st : LoopStage} (hv : v.Ready i st) (given : List (Nat × Nat))
    (k : Nat) (h : ∀ e ∈ es, e.act = .cancelled) :
    ∃ v', Stretch given k i v es v' ∧ v'.loops = v.loops ∧ v'.alive i = false ∧
      v'.aborted i = true := by
  have huncalled : v.cancels ⟨i, 0⟩ = .uncalled := by
    by_contra hcalled
    have hclear := hv.orderly.called _ hcalled
    rw [hv.alive] at hclear
    cases hclear
  have hrun : ∃ v', v.run? ([CancelMove.clear, .ask, .enter, .leave].map (.cancel ⟨i, 0⟩)) =
      some v' ∧ v'.holder = none ∧ v'.loops = v.loops ∧ v'.alive i = false ∧
        (∀ j, j ≠ i → v'.alive j = v.alive j) ∧ v'.aborted i = true := by
    simp +contextual [run?, move?, huncalled, hv.free, CancelStage.next?, afterCancel,
      CancelMove.grip, Grip.after]
  obtain ⟨v', hrun, hfree, hloops, hclear, halive, haborted⟩ := hrun
  refine ⟨v', ?_, hloops, hclear, haborted⟩
  exact ⟨⟨_, hrun, .cancelled _ _ h⟩, hfree, fun j _ => congrFun hloops j, halive⟩

/-! ### Replies -/

section Replies

variable {r : Reply} {p : Poller}

/-- A loop that is due, or wakes, begins a fetch. -/
theorem Ready.exists_issue (hgiven : given[i.poller]?.map Prod.snd = some k) (now : Nat)
    {phase : Phase} (hphase : phase ≠ .waiting) (hv : v.Ready i phase.stage) :
    ∃ v', Stretch given k i v ([Act.issued].map (⟨now, i, ·⟩)) v' ∧ v'.Ready i .fetching := by
  have hst := hv.stage
  cases phase with
  | waiting => exact absurd rfl hphase
  | due =>
      have hrun : ∃ v', v.run? ([LoopMove.look true].map (.loop i)) = some v' ∧
          v'.holder = none ∧ v'.loops i = .fetching := by
        simp [run?, move?, permits, hst, Phase.stage, hv.alive, hv.free, LoopStage.next?,
          afterLoop, LoopMove.grip, Grip.after]
      exact hv.exists_own [.issued] hrun (.own hgiven rfl rfl)
  | sleeping deadline =>
      have hrun : ∃ v', v.run? ([LoopMove.wake, .look true].map (.loop i)) = some v' ∧
          v'.holder = none ∧ v'.loops i = .fetching := by
        simp [run?, move?, permits, hst, Phase.stage, hv.alive, hv.free, LoopStage.next?,
          afterLoop, LoopMove.grip, Grip.after]
      exact hv.exists_own [.issued] hrun (.own hgiven rfl rfl)

/-- A loop that takes a reply which does not end it applies its status, if it brings one, and goes
to sleep. -/
theorem Ready.exists_take (hgiven : given[i.poller]?.map Prod.snd = some k) (hview : p.view = k)
    (hr : ¬ r.Ends) (hv : v.Ready i .fetching) :
    ∃ v', Stretch given k i v ((Act.took r :: p.applying r).map (⟨now, i, ·⟩)) v' ∧
      v'.Ready i .sleeping := by
  have hst := hv.stage
  subst hview
  cases r with
  | panics => exact absurd (.inl rfl) hr
  | settles outcome drops =>
      cases outcome with
      | status s =>
          let a : Instant × Status := (.ofMillis now, s)
          let ms := LoopMove.ofApply true a ++ [.leave true a]
          have hrun : ∃ v', v.run? (ms.map (.loop i)) = some v' ∧ v'.holder = none ∧
              v'.loops i = .sleeping := by
            simp [ms, LoopMove.ofApply, Snapshot.Part.all, run?, move?, permits, hst, hv.alive,
              hv.free, LoopStage.next?, afterLoop, LoopMove.grip, Grip.after]
          have happlied : written p.view [⟨now, i, .applied p.view s⟩] = [(now, s)] := by
            simp [written, Event.written?]
          exact hv.exists_own _ hrun (.own hgiven rfl (congrArg (List.map timed) happlied).symm)
      | failure =>
          have hrun : ∃ v', v.run? ([LoopMove.settle .failure].map (.loop i)) = some v' ∧
              v'.holder = none ∧ v'.loops i = .sleeping := by
            simp [run?, move?, permits, hst, hv.free, LoopStage.next?, afterLoop, LoopMove.grip,
              Grip.after]
          exact hv.exists_own _ hrun (.own hgiven rfl rfl)

/-- A loop that takes a reply which ends it is at its end.  If the fetch has dropped its own poller,
the loop finds its flag cleared and throws the status away, or it is aborted in its sleep. -/
theorem Ready.exists_end (hgiven : given[i.poller]?.map Prod.snd = some k) (hr : r.Ends)
    (hv : v.Ready i .fetching) :
    ∃ v', Stretch given k i v ([Act.took r].map (⟨now, i, ·⟩)) v' ∧ v'.loops i = .ended ∧
      (r.dropsPoller = false → v'.alive i = true) := by
  have hst := hv.stage
  cases r with
  | panics =>
      have hrun : ∃ v', v.run? ([LoopMove.panic].map (.loop i)) = some v' ∧ v'.holder = none ∧
          v'.loops i = .ended := by
        simp [run?, move?, permits, hst, hv.free, LoopStage.next?, afterLoop, LoopMove.grip,
          Grip.after]
      obtain ⟨v', h, hv'⟩ := hv.exists_own [.took .panics] hrun (.own hgiven rfl rfl)
      exact ⟨v', h, hv'.stage, fun _ => hv'.alive⟩
  | settles outcome drops =>
      obtain rfl : drops = true := hr.resolve_left Reply.noConfusion
      obtain ⟨u, hu, hloops, halive, haborted⟩ :=
        hv.exists_cancel given k fun _ he => absurd he List.not_mem_nil
      have hst' : u.loops i = .fetching := (congrFun hloops i).trans hst
      obtain ⟨ms, ⟨v', hrun, hfree, hend⟩, htells⟩ : ∃ ms : List LoopMove,
          (∃ v', u.run? (ms.map (.loop i)) = some v' ∧ v'.holder = none ∧ v'.loops i = .ended) ∧
            Tells given k (ms.map (.loop i))
              ([Act.took (.settles outcome true)].map (⟨now, i, ·⟩)) := by
        cases outcome with
        | status s =>
            let a : Instant × Status := (.ofMillis now, s)
            refine ⟨LoopMove.ofApply false a ++ [.leave false a], ?_, .own hgiven rfl rfl⟩
            simp [LoopMove.ofApply, run?, move?, permits, hst', halive, hu.free, LoopStage.next?,
              afterLoop, LoopMove.grip, Grip.after]
        | failure =>
            refine ⟨[.settle .failure, .abort], ?_, .own hgiven rfl rfl⟩
            simp [run?, move?, permits, hst', haborted, hu.free, LoopStage.next?, afterLoop,
              LoopMove.grip, Grip.after]
      exact ⟨v', hu.trans (stretch_own hrun hfree htells), hend, Bool.noConfusion⟩

end Replies

/-! ### Turns -/

/-- Where a view has the loop `i` behind a turn of it. -/
structure Rests (v : LockedView) (i : LoopId) (t : Turn) : Prop where
  stage : v.loops i = t.stage
  alive : t.poller.handle ≠ .gone → v.alive i = true

theorem Ready.exists_settle (hgiven : given[i.poller]?.map Prod.snd = some k) (now : Nat)
    (replies : List Reply) (p : Poller) (hview : p.view = k) (hheld : p.handle ≠ .gone)
    (hv : v.Ready i .fetching) :
    ∃ v', Stretch given k i v ((p.settle now replies).acts.map (⟨now, i, ·⟩)) v' ∧
      v'.Rests i (p.settle now replies) := by
  revert v
  fun_induction Poller.settle now replies p with
  | case1 p =>
      intro v hv
      exact ⟨v, .nil hv.free, hv.stage, fun _ => hv.alive⟩
  | case2 reply rest p q h =>
      intro v hv
      -- the reply ends the loop
      have hr := (Poller.ends_iff.1 h).resolve_right hheld
      obtain ⟨v', hv', hend, halive⟩ := hv.exists_end hgiven hr
      refine ⟨v', hv', hend, fun hq => halive ?_⟩
      refine Bool.eq_false_iff.2 fun hdrops => hq ?_
      simp [q, Poller.afterTaking, hdrops]
  | case3 reply rest p q h h0 t ih =>
      intro v hv
      -- with no interval the loop wakes at once, and the turn goes on
      have hr := (not_or.1 (mt Poller.ends_iff.2 h)).1
      have hq : q.handle = p.handle := Poller.afterTaking_handle_of_not_ends hr
      obtain ⟨u, hu, hready⟩ := hv.exists_take (p := q) hgiven hview hr
      have hasleep : (Phase.sleeping now) ≠ .waiting := Phase.noConfusion
      obtain ⟨u', hu', hready'⟩ := hready.exists_issue hgiven now hasleep
      obtain ⟨v', hv', hrests⟩ := ih hview (hq ▸ hheld) hready'
      have hall := hu.trans (hu'.trans hv')
      rw [← List.map_append, ← List.map_append] at hall
      exact ⟨v', hall, hrests.stage, hrests.alive⟩
  | case4 reply rest p q h h0 =>
      intro v hv
      have hr := (not_or.1 (mt Poller.ends_iff.2 h)).1
      obtain ⟨v', hv', hready⟩ := hv.exists_take (p := q) hgiven hview hr
      exact ⟨v', hv', hready.stage, fun _ => hready.alive⟩

theorem Ready.exists_turn (hgiven : given[i.poller]?.map Prod.snd = some k) (now : Nat)
    {phase : Phase} {p : Poller} (hview : p.view = k) (hheld : p.handle ≠ .gone)
    (hv : v.Ready i phase.stage) :
    ∃ v', Stretch given k i v ((p.turn now phase).acts.map (⟨now, i, ·⟩)) v' ∧
      v'.Rests i (p.turn now phase) := by
  have hissue : phase ≠ .waiting →
      ∃ v', Stretch given k i v ((p.issue now).acts.map (⟨now, i, ·⟩)) v' ∧
        v'.Rests i (p.issue now) := by
    intro hphase
    obtain ⟨u, hu, hready⟩ := hv.exists_issue hgiven now hphase
    obtain ⟨v', hv', hrests⟩ := hready.exists_settle hgiven now p.queue
      { p with fetches := p.fetches + 1 } hview hheld
    exact ⟨v', hu.trans hv', hrests.stage, hrests.alive⟩
  cases phase with
  | waiting => exact hv.exists_settle hgiven now p.queue p hview hheld
  | due => exact hissue Phase.noConfusion
  | sleeping deadline => exact hissue Phase.noConfusion

end LockedView

end ClusterWatch
