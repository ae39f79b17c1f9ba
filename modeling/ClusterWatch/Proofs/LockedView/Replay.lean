import ClusterWatch.Proofs.LockedView.Stretch
import ClusterWatch.Proofs.World.Loops

/-!
# Replay — what happens in a world can happen at the lock of a view

In `World` an apply is one act, and a stop or a drop one call.  Here all that happens in a world is
shown to be one of the orders in which loops and cancels can come to the lock of a view, so what
holds of all these orders holds in every world.  By `exists_run_of_log`, some run from a fresh view

* has the fetches for the view and the applies to it, in their order (`Tells`);
* ends where the same is shown;
* ends with the flag set, and the loop not at its end, just where a poller polls.

`Mirrors` says how a view has a poller and its loop.  It is kept by a turn, which is a `Stretch`, by
a start, which is no move at all, and by a stop or a drop, which is a cancel of the loop that the
poller holds.  So all steps of a world can be replayed (`Replayed`).
-/

namespace ClusterWatch

namespace LockedView

variable {v v' : LockedView} {k now : Nat} {given : List (Nat × Nat)} {es : List Event}

/-! ### Lanes -/

/-- A poller and its loop, as a view has them: the live loop stands where its phase says, the loop
that the poller holds has its flag set, those before it are at their end or have it cleared, and
those to come have not begun. -/
structure Mirrors (v : LockedView) (i : Nat) (x : Lane) : Prop where
  live : ∀ l, x.loop = some l → l.id.poller = i ∧ v.loops l.id = l.phase.stage
  held : ∀ round, x.poller.handle = .held round →
    round < x.poller.rounds ∧ v.alive ⟨i, round⟩ = true
  past : ∀ round, round < x.poller.rounds → (∀ l, x.loop = some l → l.id.round ≠ round) →
    v.loops ⟨i, round⟩ = .ended ∨ v.alive ⟨i, round⟩ = false
  ahead : ∀ round, x.poller.rounds ≤ round →
    v.loops ⟨i, round⟩ = .due ∧ v.alive ⟨i, round⟩ = true

section Mirrors

variable {j : Nat} {x : Lane}

/-- Nothing changes for a poller when only the loops of others do. -/
theorem Mirrors.congr (h : v.Mirrors j x)
    (hloops : ∀ round, v'.loops ⟨j, round⟩ = v.loops ⟨j, round⟩)
    (halive : ∀ round, v'.alive ⟨j, round⟩ = v.alive ⟨j, round⟩) : v'.Mirrors j x where
  live l hl := by
    obtain ⟨rfl, hst⟩ := h.live l hl
    exact ⟨rfl, (hloops l.id.round).trans hst⟩
  held round hround := by
    rw [halive]
    exact h.held round hround
  past round := by
    rw [hloops, halive]
    exact h.past round
  ahead round := by
    rw [hloops, halive]
    exact h.ahead round

/-- A stretch that replays the turn of a loop leaves a view that has its lane. -/
theorem Mirrors.turn {l : Loop} (h : v.Mirrors l.id.poller x)
    (hheld : x.poller.handle = .held l.id.round) (hl : x.loop = some l)
    (hv' : Stretch given k l.id v es v') (hrests : v'.Rests l.id (x.poller.turn now l.phase)) :
    v'.Mirrors l.id.poller (x.turn now).1 := by
  have ht := Poller.turn_settled now l.phase x.poller
  have hlane : (x.turn now).1 = ⟨(x.poller.turn now l.phase).poller,
      (x.poller.turn now l.phase).phase.map (⟨l.id, ·⟩)⟩ := by
    rw [Lane.turn, hl]
  have hlt := (h.held l.id.round hheld).1
  rw [hlane]
  constructor
  case live =>
    intro l' hl'
    obtain ⟨phase, hphase, rfl⟩ := Option.map_eq_some_iff.1 hl'
    refine ⟨rfl, hrests.stage.trans ?_⟩
    rw [Turn.stage, hphase]
    rfl
  case held =>
    intro round hround
    have hne : (x.poller.turn now l.phase).poller.handle ≠ .gone := by
      rw [hround]
      exact Handle.noConfusion
    have hsame := (Poller.handle_turn now l.phase x.poller).resolve_right hne
    obtain rfl : round = l.id.round :=
      Handle.held.inj (hround.symm.trans (hsame.trans hheld))
    exact ⟨ht.rounds ▸ hlt, hrests.alive hne⟩
  case past =>
    intro round hround hnot
    by_cases hr : round = l.id.round
    · subst hr
      refine .inl (hrests.stage.trans ?_)
      cases hphase : (x.poller.turn now l.phase).phase with
      | none => rw [Turn.stage, hphase]; rfl
      | some phase => exact absurd rfl (hnot ⟨l.id, phase⟩ (by rw [hphase]; rfl))
    · have hne : (⟨l.id.poller, round⟩ : LoopId) ≠ l.id := fun e => hr (congrArg LoopId.round e)
      rw [hv'.loops _ hne, hv'.alive _ hne]
      refine h.past round (ht.rounds ▸ hround) fun l' hl' e => hr ?_
      rw [← e, Option.some.inj (hl'.symm.trans hl)]
  case ahead =>
    intro round hround
    have hle : x.poller.rounds ≤ round := ht.rounds ▸ hround
    have hne : (⟨l.id.poller, round⟩ : LoopId) ≠ l.id := fun e => by
      rw [← e] at hlt
      exact absurd hlt (Nat.not_lt.2 hle)
    rw [hv'.loops _ hne, hv'.alive _ hne]
    exact h.ahead round hle

/-- A start needs no move: the loop that it begins is one that has not begun. -/
theorem Mirrors.start (h : v.Mirrors j x) : v.Mirrors j (x.start j) := by
  rw [Lane.start]
  split
  · exact h
  next hidle =>
    have hnone : x.loop = none := Option.not_isSome_iff_eq_none.1 fun hs => hidle (.inl hs)
    obtain ⟨hdue, halive⟩ := h.ahead x.poller.rounds (Nat.le_refl _)
    constructor
    case live =>
      rintro l ⟨⟩
      exact ⟨rfl, hdue⟩
    case held =>
      rintro round ⟨⟩
      exact ⟨Nat.lt_succ_self _, halive⟩
    case past =>
      intro round hround hnot
      have hne : x.poller.rounds ≠ round := hnot _ rfl
      refine h.past round (Nat.lt_of_le_of_ne (Nat.le_of_lt_succ hround) hne.symm) fun l hl => ?_
      rw [hnone] at hl
      cases hl
    case ahead => exact fun round hround => h.ahead round (Nat.le_of_succ_le hround)

/-- A poller whose handle is taken, with the flag of the loop that it held cleared. -/
theorem Mirrors.release (h : v.Mirrors j x) {handle : Handle} (hhandle : ∀ r, handle ≠ .held r)
    (hlive : ∀ l, x.loop = some l → x.poller.handle = .held l.id.round)
    (hloops : v'.loops = v.loops)
    (hclear : ∀ round, x.poller.handle = .held round → v'.alive ⟨j, round⟩ = false)
    (hkeep : ∀ round, x.poller.handle ≠ .held round → v'.alive ⟨j, round⟩ = v.alive ⟨j, round⟩) :
    v'.Mirrors j ⟨{ x.poller with handle := handle }, none⟩ where
  live l hl := nomatch hl
  held round hround := absurd hround (hhandle round)
  past round hround _ := by
    by_cases hheld : x.poller.handle = .held round
    · exact .inr (hclear round hheld)
    · rw [hloops, hkeep round hheld]
      exact h.past round hround fun l hl e => hheld (e ▸ hlive l hl)
  ahead round hround := by
    have hne : x.poller.handle ≠ .held round := fun hheld =>
      absurd (h.held round hheld).1 (Nat.not_lt.2 hround)
    rw [hloops, hkeep round hne]
    exact h.ahead round hround

end Mirrors

/-! ### Worlds -/

/-- A view with nobody inside its lock, which has each of its pollers as it is in a world. -/
structure Reflects (v : LockedView) (k : Nat) (w : World) : Prop where
  orderly : v.Orderly
  free : v.holder = none
  lanes : ∀ i x, w.lane i = some x → x.poller.view = k → v.Mirrors i x

/-- From wherever it reflects the world `w`, the view `k` can come by moves that the events tell to
where it reflects the world `w'`. -/
def Replayed (k : Nat) (w : World) (es : List Event) (w' : World) : Prop :=
  ∀ v : LockedView, v.Reflects k w →
    ∃ moves v', v.run? moves = some v' ∧ Tells w.setup k moves es ∧ v'.Reflects k w'

section Worlds

variable {w w' u : World} {i : Nat} {x y : Lane} {es' : List Event}

theorem Replayed.refl (k : Nat) (w : World) : Replayed k w [] w :=
  fun v hv => ⟨[], v, rfl, .nil, hv⟩

/-- What is replayed in two stretches is replayed as a whole. -/
theorem Replayed.trans (h : Replayed k w es u) (hsetup : u.setup = w.setup)
    (h' : Replayed k u es' w') : Replayed k w (es ++ es') w' := by
  intro v hv
  obtain ⟨moves, v₁, hrun, htells, hv₁⟩ := h v hv
  obtain ⟨moves', v₂, hrun', htells', hv₂⟩ := h' v₁ hv₁
  rw [hsetup] at htells'
  exact ⟨moves ++ moves', v₂, run?_append_eq_some_iff.2 ⟨v₁, hrun, hrun'⟩,
    htells.append htells', hv₂⟩

/-- What one poller does needs to be followed for that poller alone. -/
theorem Reflects.change (hv : v.Reflects k w) (hx : w.lane i = some x) (hy : w'.lane i = some y)
    (hother : ∀ j, j ≠ i → w'.lane j = w.lane j) (hview : y.poller.view = x.poller.view)
    (horderly : v'.Orderly) (hfree : v'.holder = none)
    (hown : x.poller.view = k → v.Mirrors i x → v'.Mirrors i y)
    (hloops : ∀ j : LoopId, j.poller ≠ i → v'.loops j = v.loops j ∧ v'.alive j = v.alive j) :
    v'.Reflects k w' := by
  refine ⟨horderly, hfree, fun j z hz hzview => ?_⟩
  by_cases hj : j = i
  · subst hj
    obtain rfl := Option.some.inj (hy.symm.trans hz)
    have hxview := hview.symm.trans hzview
    exact hown hxview (hv.lanes j x hx hxview)
  · rw [hother j hj] at hz
    exact (hv.lanes j z hz hzview).congr (fun round => (hloops ⟨j, round⟩ hj).1)
      fun round => (hloops ⟨j, round⟩ hj).2

/-- A turn is replayed by a stretch of its loop. -/
theorem replayed_turn (hw : w.Owned) {l : Loop} (hl : l ∈ w.loops) (k : Nat) :
    Replayed k w (w.turn l).2 (w.turn l).1 := by
  intro v hv
  obtain ⟨p, hp, hheld⟩ := hw.held l hl
  obtain ⟨x, hx, rfl⟩ : ∃ x, w.lane l.id.poller = some x ∧ x.poller = p :=
    ⟨_, World.lane_of_poller hp, rfl⟩
  have hloop := hw.lane_loop hl hx
  have hlane := (hw.lane_turn_self hl hx).1
  have hes : (w.turn l).2 = (x.poller.turn w.now l.phase).acts.map (⟨w.now, l.id, ·⟩) := by
    simp only [World.turn, hp]
  have hother : ∀ j, j ≠ l.id.poller → (w.turn l).1.lane j = w.lane j :=
    fun j hj => (World.lane_turn_other hj.symm).1
  have hsame : (x.turn w.now).1.poller.view = x.poller.view := by
    rw [Lane.turn, hloop]
    exact (Poller.turn_settled w.now l.phase x.poller).view
  have hgiven : w.setup[l.id.poller]?.map Prod.snd = some x.poller.view := by
    rw [World.setup, List.getElem?_map, hp]
    rfl
  by_cases hview : x.poller.view = k
  · have hm := hv.lanes _ x hx hview
    have hready : v.Ready l.id l.phase.stage :=
      ⟨hv.orderly, hv.free, (hm.held _ hheld).2, (hm.live l hloop).2⟩
    have hgone : x.poller.handle ≠ .gone := by
      rw [hheld]
      exact Handle.noConfusion
    obtain ⟨v', hv', hrests⟩ := hready.exists_turn (hview ▸ hgiven) w.now hview hgone
    obtain ⟨moves, hrun, htells⟩ := hv'.run
    refine ⟨moves, v', hrun, hes ▸ htells, hv.change hx hlane hother hsame
      (hv'.orderly hv.orderly) hv'.free (fun _ h => h.turn hheld hloop hv' hrests) fun j hj => ?_⟩
    have hne : j ≠ l.id := fun e => hj (congrArg LoopId.poller e)
    exact ⟨hv'.loops j hne, hv'.alive j hne⟩
  · refine ⟨[], v, rfl, .elsewhere (fun e he => ?_) (hw.written_turn hl k),
      hv.change hx hlane hother hsame hv.orderly hv.free (fun h => absurd h hview)
        fun _ _ => ⟨rfl, rfl⟩⟩
    rw [hes] at he
    obtain ⟨act, -, rfl⟩ := List.mem_map.1 he
    rw [hgiven]
    exact fun e => hview (Option.some.inj e)

/-- The turns of a run are replayed one after the other. -/
theorem replayed_run (hw : w.Owned) (k : Nat) : Replayed k w w.run.2 w.run.1 := by
  refine World.Owned.turns_induct (P := fun w ls => Replayed k w (w.turns ls).2 (w.turns ls).1)
    (fun w _ => .refl k w) (fun w l ls hw hls ih => ?_) hw hw.pending_run
  exact (replayed_turn hw (hls.live l List.mem_cons_self) k).trans (World.setup_turn w l) ih

theorem replayed_advance (hw : w.Owned) (ms k : Nat) :
    Replayed k w (World.advance ms (w, [])).2 (World.advance ms (w, [])).1 := by
  induction ms generalizing w with
  | zero => exact .refl k w
  | succ ms ih =>
      have htick : Replayed k w w.tick.2 w.tick.1 := fun v hv =>
        replayed_run (w := { w with now := w.now + 1 }) ⟨hw.single, hw.held⟩ k v
          ⟨hv.orderly, hv.free, hv.lanes⟩
      rw [World.advance_succ]
      exact htick.trans (World.setup_turns _ _) (ih hw.tick)

/-- A start is replayed by no move. -/
theorem replayed_start (hw : w.Owned) (i k : Nat) : Replayed k w [] (w.start i) := by
  intro v hv
  cases hx : w.lane i with
  | none =>
      have hsame : w.start i = w := by
        rw [World.start, Option.map_eq_none_iff.1 hx]
      rw [hsame]
      exact Replayed.refl k w v hv
  | some x =>
      have hview : (x.start i).poller.view = x.poller.view := by
        rw [Lane.start]
        split <;> rfl
      exact ⟨[], v, rfl, .nil, hv.change hx (hw.lane_start_self hx)
        (fun j hj => World.lane_start_other hj.symm) hview hv.orderly hv.free (fun _ h => h.start)
        fun _ _ => ⟨rfl, rfl⟩⟩

theorem replayed_enqueue (w : World) (i : Nat) (r : Reply) (k : Nat) :
    Replayed k w [] (w.enqueue i r) := by
  intro v hv
  cases hx : w.lane i with
  | none =>
      have hsame : w.enqueue i r = w := by
        rw [World.enqueue, List.modify_eq_self]
        exact List.getElem?_eq_none_iff.1 (Option.map_eq_none_iff.1 hx)
      rw [hsame]
      exact Replayed.refl k w v hv
  | some x =>
      exact ⟨[], v, rfl, .nil, hv.change hx (World.lane_enqueue_self hx r)
        (fun j hj => World.lane_enqueue_other hj.symm r) rfl hv.orderly hv.free
        (fun _ h => ⟨h.live, h.held, h.past, h.ahead⟩) fun _ _ => ⟨rfl, rfl⟩⟩

/-- To take its handle from a poller is replayed by a cancel of the loop that it held. -/
theorem replayed_release (hw : w.Owned) (i : Nat) {handle : Handle}
    (hhandle : ∀ r, handle ≠ .held r) (k : Nat) :
    Replayed k w (w.release i handle).2 (w.release i handle).1 := by
  intro v hv
  have hcancelled := (World.views_release w i handle).2
  have hother : ∀ j, j ≠ i → (w.release i handle).1.lane j = w.lane j :=
    fun j hj => (World.lane_release_other hj.symm handle).1
  cases hx : w.lane i with
  | none =>
      have hsame : w.release i handle = (w, []) := by
        rw [World.release, Option.map_eq_none_iff.1 hx]
      rw [hsame]
      exact Replayed.refl k w v hv
  | some x =>
      have hlane := (hw.lane_release_self hx handle).1
      have hsame : (x.release w.now handle).1.poller.view = x.poller.view := by
        rw [Lane.release]
        split <;> rfl
      have hlive : ∀ l, x.loop = some l → x.poller.handle = .held l.id.round :=
        fun l hl => hw.handle_of_loop hx hl
      by_cases hheld : x.poller.view = k ∧ ∃ round, x.poller.handle = .held round
      · -- the loop that the poller holds is cancelled
        obtain ⟨hview, round, hheld⟩ := hheld
        have hready : v.Ready ⟨i, round⟩ (v.loops ⟨i, round⟩) :=
          ⟨hv.orderly, hv.free, ((hv.lanes i x hx hview).held round hheld).2, rfl⟩
        obtain ⟨v', hv', hloops, hclear, -⟩ :=
          hready.exists_cancel w.setup k hcancelled
        obtain ⟨moves, hrun, htells⟩ := hv'.run
        refine ⟨moves, v', hrun, htells, hv.change hx hlane hother hsame
          (hv'.orderly hv.orderly) hv'.free (fun _ h => ?_) fun j hj => ?_⟩
        · have hgone : x.poller.handle ≠ .gone := by
            rw [hheld]
            exact Handle.noConfusion
          rw [Lane.release, if_neg hgone]
          refine h.release hhandle hlive hloops (fun r hr => ?_) fun r hr => ?_
          · rw [hheld] at hr
            exact Handle.held.inj hr ▸ hclear
          · refine hv'.alive ⟨i, r⟩ fun e => hr (hheld.trans ?_)
            exact congrArg Handle.held (congrArg LoopId.round e).symm
        · exact ⟨congrFun hloops j, hv'.alive j fun e => hj (congrArg LoopId.poller e)⟩
      · -- the poller holds nothing, or writes to another view
        refine ⟨[], v, rfl, .cancelled ⟨⟨0, 0⟩, 0⟩ [] hcancelled, hv.change hx hlane hother hsame
          hv.orderly hv.free (fun hview h => ?_) fun _ _ => ⟨rfl, rfl⟩⟩
        rw [Lane.release]
        split
        · exact h
        · exact h.release hhandle hlive rfl (fun r hr => absurd ⟨hview, r, hr⟩ hheld)
            fun _ _ => rfl

theorem replayed_call (hw : w.Owned) (s : Step) (k : Nat) :
    Replayed k w (w.call s).events (w.call s).world := by
  cases s with
  | start i => exact replayed_start hw i k
  | stop i => exact replayed_release hw i (fun _ => Handle.noConfusion) k
  | drop i => exact replayed_release hw i (fun _ => Handle.noConfusion) k
  | look => exact .refl k w
  | reply i r => exact replayed_enqueue w i r k
  | advance ms => exact replayed_advance hw ms k
  | updates view =>
      intro v hv
      refine ⟨[], v, rfl, .nil, hv.orderly, hv.free, fun i x hx => hv.lanes i x ?_⟩
      exact (World.lane_takeUpdates view).symm.trans hx

/-- **Every step of a world is replayed.** -/
theorem replayed_step (hw : w.Owned) (s : Step) (k : Nat) :
    Replayed k w (w.step s).events (w.step s).world :=
  (replayed_call hw s k).trans (World.setup_call w s) (replayed_run (hw.call s) k)

/-- **All steps of a world are replayed.** -/
theorem replayed_log (hw : w.Owned) (steps : List Step) (k : Nat) :
    Replayed k w (w.log steps) (w.after steps) := by
  induction steps generalizing w with
  | nil => exact .refl k w
  | cons s steps ih => exact (replayed_step hw s k).trans (World.setup_step w s) (ih (hw.step s))

theorem reflects_ofPollers (pollers : List (Nat × Nat)) (k : Nat) :
    fresh.Reflects k (World.ofPollers pollers) := by
  refine ⟨orderly_fresh, rfl, fun i x hx _ => ?_⟩
  have hi : i < pollers.length := by
    simpa [World.ofPollers] using (List.getElem?_eq_some_iff.1 (World.lane_eq_some hx).1).1
  obtain rfl := Option.some.inj ((World.lane_ofPollers hi).symm.trans hx)
  constructor
  case live => rintro l ⟨⟩
  case held => rintro round ⟨⟩
  case past => exact fun round hround => absurd hround (Nat.not_lt_zero round)
  case ahead => exact fun _ _ => ⟨rfl, rfl⟩

/-- A poller polls where the loop that it holds has its flag set and is not at its end. -/
theorem Reflects.polling_iff (hv : v.Reflects k w) (hw : w.Owned) {p : Poller}
    (hp : w.pollers[i]? = some p) (hview : p.view = k) :
    w.stateOf i p = .polling ↔ ∃ round, p.handle = .held round ∧
      v.alive ⟨i, round⟩ = true ∧ v.loops ⟨i, round⟩ ≠ .ended := by
  obtain ⟨x, hx, rfl⟩ : ∃ x, w.lane i = some x ∧ x.poller = p :=
    ⟨_, World.lane_of_poller hp, rfl⟩
  have h := hv.lanes i x hx hview
  rw [hw.polling_iff hx]
  constructor
  · intro hsome
    obtain ⟨l, hl⟩ := Option.isSome_iff_exists.1 hsome
    have hheld := hw.handle_of_loop hx hl
    obtain ⟨rfl, hst⟩ := h.live l hl
    refine ⟨l.id.round, hheld, (h.held _ hheld).2, ?_⟩
    rw [hst]
    cases l.phase <;> exact LoopStage.noConfusion
  · rintro ⟨round, hheld, halive, hend⟩
    refine Option.isSome_iff_ne_none.2 fun hnone => ?_
    obtain hended | hclear := h.past round (h.held round hheld).1 fun l hl => by
      rw [hnone] at hl
      cases hl
    · exact hend hended
    · rw [halive] at hclear
      cases hclear

/-- What is shown while nobody is inside the lock is what a view shows to which the same statuses
were applied in single acts. -/
theorem Recorded.shown_eq_write {past : List Move} (hv : v.Recorded past) (hfree : v.holder = none)
    {ws : List (Nat × Status)} (hws : applied past = ws.map timed) :
    v.shown = (View.fresh.write ws).snapshot := by
  rw [hv.shown_of_free hfree, hws, View.write_snapshot, Snapshot.lastOf, List.getLast?_map]
  cases ws.getLast? <;> rfl

/-- **What happens in a world can happen at the lock of a view**: behind any steps, the view `k` has
come by moves of some run, with the same fetches and applies, to where it shows the same, and to
where the loops of just the pollers that poll go on. -/
theorem exists_run_of_log (pollers : List (Nat × Nat)) (steps : List Step) (k : Nat) :
    ∃ moves v, fresh.run? moves = some v ∧
      Tells pollers k moves ((World.ofPollers pollers).log steps) ∧
      (∀ view, ((World.ofPollers pollers).after steps).views[k]? = some view →
        v.shown = view.snapshot) ∧
      ∀ i p, ((World.ofPollers pollers).after steps).pollers[i]? = some p → p.view = k →
        (((World.ofPollers pollers).after steps).stateOf i p = .polling ↔
          ∃ round, p.handle = .held round ∧
            v.alive ⟨i, round⟩ = true ∧ v.loops ⟨i, round⟩ ≠ .ended) := by
  have hw := World.owned_ofPollers pollers
  obtain ⟨moves, v, hrun, htells, hv⟩ :=
    replayed_log hw steps k fresh (reflects_ofPollers pollers k)
  rw [World.setup_ofPollers] at htells
  refine ⟨moves, v, hrun, htells, fun view hview => ?_,
    fun i p hp hk => hv.polling_iff (hw.after steps) hp hk⟩
  have hafter := World.views_after (World.ofPollers pollers) steps k
  rw [hview, Option.map_some] at hafter
  obtain ⟨first, hfirst, hsnapshot⟩ := Option.map_eq_some_iff.1 hafter.symm
  have hfresh : first = .fresh := List.eq_of_mem_replicate (List.mem_of_getElem? hfirst)
  rw [(recorded_of_run hrun).shown_eq_write hv.free htells.applies, ← hsnapshot, hfresh]

end Worlds

end LockedView

end ClusterWatch
