import ClusterWatch.Proofs.Poller.Turn
import ClusterWatch.Proofs.World.Run
import Mathlib.Data.List.Nodup

/-!
# Ownership — each poller has at most one live loop, the one that its handle names

`World.Owned w` says that no two live loops of `w` belong to one poller, and that the handle of a
poller names the round of its live loop.  It is the invariant everything else about loops rests on:
a call or a turn for one poller then finds that poller's loop and no other.

`Owned` holds at the start, is kept by every call and every turn, and so holds of every reachable
world (`Reachable.owned`).  The turns of a run are those of different pollers' loops (`Pending`), so
each is the turn of a live loop in an owned world (`Owned.turns_induct`).  The cases that matter are
`start`, which begins a loop only when the handle names none that is alive, and a turn in which a
loop ends.
-/

namespace ClusterWatch.World

/-- No two live loops belong to one poller, and each is the one its poller's handle names. -/
structure Owned (w : World) : Prop where
  single : (w.loops.map (·.id.poller)).Nodup
  held : ∀ l ∈ w.loops, ∃ p, w.pollers[l.id.poller]? = some p ∧ p.handle = .held l.id.round

namespace Owned

variable {w : World}

/-- A poller has no two live loops. -/
theorem eq_of_poller (hw : w.Owned) {l l' : Loop} (hl : l ∈ w.loops) (hl' : l' ∈ w.loops)
    (h : l.id.poller = l'.id.poller) : l = l' :=
  List.inj_on_of_nodup_map hw.single hl hl' h

/-- The live loop of a poller is of the round that it holds. -/
theorem round_eq (hw : w.Owned) {l : Loop} (hl : l ∈ w.loops) {p : Poller} {round : Nat}
    (hp : w.pollers[l.id.poller]? = some p) (hh : p.handle = .held round) : l.id.round = round := by
  obtain ⟨q, hq, hheld⟩ := hw.held l hl
  obtain rfl : p = q := Option.some.inj (hp.symm.trans hq)
  exact (Handle.held.inj (hh.symm.trans hheld)).symm

/-- The loops but one are those of the other pollers. -/
theorem filter_ne (hw : w.Owned) {l : Loop} (hl : l ∈ w.loops) :
    w.loops.filter (·.id ≠ l.id) = w.loops.filter (·.id.poller ≠ l.id.poller) := by
  refine List.filter_congr fun l' hl' => decide_eq_decide.2 (not_congr ⟨fun h => by rw [h], ?_⟩)
  exact fun h => congrArg Loop.id (hw.eq_of_poller hl' hl h)

/-! ### Turns -/

/-- A turn leaves its poller with the loop that it held, or with none. -/
theorem turn (hw : w.Owned) {l : Loop} (hl : l ∈ w.loops) : (w.turn l).1.Owned := by
  obtain ⟨p, hp, hheld⟩ := hw.held l hl
  have ht := Poller.turn_settled w.now l.phase p
  -- behind the turn, the other loops belong to other pollers
  have hother : ∀ l' ∈ w.loops.filter (·.id ≠ l.id), l'.id.poller ≠ l.id.poller := by
    intro l' hl'
    rw [hw.filter_ne hl] at hl'
    exact of_decide_eq_true (List.mem_filter.1 hl').2
  simp only [World.turn, hp]
  constructor
  · rw [List.map_append]
    refine List.nodup_append'.2 ⟨?_, ?_, ?_⟩
    · exact hw.single.sublist ((List.filter_sublist).map _)
    · cases (p.turn w.now l.phase).phase <;> simp
    · intro i hi hi'
      obtain ⟨l', hl', rfl⟩ := List.mem_map.1 hi
      obtain ⟨_, hnew, h⟩ := List.mem_map.1 hi'
      obtain ⟨ph, -, rfl⟩ := List.mem_map.1 hnew
      exact hother l' hl' h.symm
  · intro l' hl'
    rcases List.mem_append.1 hl' with hold | hnew
    · rw [List.getElem?_set_ne (hother l' hold).symm]
      exact hw.held l' (List.mem_filter.1 hold).1
    · obtain ⟨ph, hph, rfl⟩ := List.mem_map.1 hnew
      have hlt := (List.getElem?_eq_some_iff.1 hp).1
      refine ⟨_, List.getElem?_set_self hlt, ?_⟩
      exact (ht.phase ph (by simpa using hph)).1.trans hheld

/-- A turn of one loop leaves the others where they are. -/
theorem mem_loops_turn {l l' : Loop} (hl : l' ∈ w.loops) (h : l'.id ≠ l.id) :
    l' ∈ (w.turn l).1.loops := by
  rw [World.turn]
  split
  · exact hl
  · exact List.mem_append_left _ (List.mem_filter.2 ⟨hl, decide_eq_true h⟩)

end Owned

/-- Live loops of different pollers, which are to take their turns one after the other. -/
structure Pending (w : World) (ls : List Loop) : Prop where
  live : ∀ l ∈ ls, l ∈ w.loops
  single : (ls.map (·.id.poller)).Nodup

/-- A turn leaves the loops behind it to take theirs. -/
theorem Pending.tail {w : World} {l : Loop} {ls : List Loop} (h : w.Pending (l :: ls)) :
    (w.turn l).1.Pending ls := by
  obtain ⟨hnot, hsingle⟩ := List.nodup_cons.1 h.single
  refine ⟨fun l' hl' => ?_, hsingle⟩
  refine Owned.mem_loops_turn (h.live l' (List.mem_cons_of_mem l hl')) fun hid => hnot ?_
  exact List.mem_map.2 ⟨l', hl', congrArg LoopId.poller hid⟩

namespace Owned

variable {w : World}

/-- The loops that have something to do can take their turns one after the other. -/
theorem pending_run (hw : w.Owned) : w.Pending (w.loops.filter w.isRunnable) :=
  ⟨fun _ hl => (List.mem_filter.1 hl).1, hw.single.sublist ((List.filter_sublist).map _)⟩

/-- What holds of turns holds of them one by one: each is the turn of a live loop in an owned
world, with the others behind it. -/
theorem turns_induct {P : World → List Loop → Prop} (nil : ∀ w, w.Owned → P w [])
    (cons : ∀ w l ls, w.Owned → w.Pending (l :: ls) → P (w.turn l).1 ls → P w (l :: ls))
    (hw : w.Owned) {ls : List Loop} (hls : w.Pending ls) : P w ls := by
  induction ls generalizing w with
  | nil => exact nil w hw
  | cons l ls ih =>
      exact cons w l ls hw hls (ih (hw.turn (hls.live l List.mem_cons_self)) hls.tail)

theorem turns (hw : w.Owned) {ls : List Loop} (hls : w.Pending ls) : (w.turns ls).1.Owned :=
  turns_induct (P := fun w ls => (w.turns ls).1.Owned) (fun _ hw => hw) (fun _ _ _ _ _ h => h) hw
    hls

theorem run (hw : w.Owned) : w.run.1.Owned := hw.turns hw.pending_run

/-! ### Calls -/

/-- A poller that does not poll has no live loop. -/
theorem not_live (hw : w.Owned) {i : Nat} {p : Poller} (hp : w.pollers[i]? = some p)
    (h : w.stateOf i p ≠ .polling) {l : Loop} (hl : l ∈ w.loops) : l.id.poller ≠ i := by
  rintro rfl
  obtain ⟨q, hq, hheld⟩ := hw.held l hl
  obtain rfl : p = q := Option.some.inj (hp.symm.trans hq)
  have hlive : w.isLive ⟨l.id.poller, l.id.round⟩ = true :=
    List.any_eq_true.2 ⟨l, hl, decide_eq_true rfl⟩
  simp [stateOf, hheld, hlive] at h

/-- What a change of a poller's record needs to be harmless to its live loop. -/
theorem set (hw : w.Owned) {i : Nat} {p q : Poller} (hp : w.pollers[i]? = some p)
    {loops : List Loop} (hsub : loops.Sublist w.loops)
    (hq : ∀ l ∈ loops, l.id.poller = i → q.handle = p.handle) (now : Nat) (views : List View) :
    Owned ⟨now, w.pollers.set i q, loops, views⟩ := by
  refine ⟨hw.single.sublist (hsub.map _), fun l hl => ?_⟩
  obtain ⟨p', hp', hheld⟩ := hw.held l (hsub.subset hl)
  by_cases h : l.id.poller = i
  · subst h
    obtain rfl : p = p' := Option.some.inj (hp.symm.trans hp')
    exact ⟨q, List.getElem?_set_self (List.getElem?_eq_some_iff.1 hp).1, (hq l hl rfl).trans hheld⟩
  · exact ⟨p', by rwa [List.getElem?_set_ne (Ne.symm h)], hheld⟩

/-- A start begins a loop only where its poller has none. -/
theorem start (hw : w.Owned) (i : Nat) : (w.start i).Owned := by
  rw [World.start]
  split
  · exact hw
  next p hp =>
    split
    next hs =>
      have hfree : ∀ l ∈ w.loops, l.id.poller ≠ i := fun l hl =>
        hw.not_live hp (by rw [hs]; exact PollerState.noConfusion) hl
      constructor
      · rw [List.map_append]
        refine List.nodup_append'.2 ⟨hw.single, List.nodup_singleton _, ?_⟩
        intro j hj hj'
        obtain ⟨l, hl, rfl⟩ := List.mem_map.1 hj
        exact hfree l hl (List.mem_singleton.1 hj')
      · intro l hl
        rcases List.mem_append.1 hl with hl | hl
        · obtain ⟨q, hq, hheld⟩ := hw.held l hl
          exact ⟨q, by rwa [List.getElem?_set_ne (hfree l hl).symm], hheld⟩
        · obtain rfl := List.mem_singleton.1 hl
          exact ⟨_, List.getElem?_set_self (List.getElem?_eq_some_iff.1 hp).1, rfl⟩
    all_goals exact hw

/-- To take its handle from a poller ends the loop that it names. -/
theorem release (hw : w.Owned) (i : Nat) (h : Handle) : (w.release i h).1.Owned := by
  rw [World.release]
  split
  · exact hw
  next p hp =>
    split
    · exact hw
    next hfree =>
      refine hw.set hp (List.Sublist.refl _) (fun l hl hi => ?_) _ _
      subst hi
      obtain ⟨q, hq, hheld⟩ := hw.held l hl
      obtain rfl : p = q := Option.some.inj (hp.symm.trans hq)
      rw [hfree] at hheld
      cases hheld
    next round hheld =>
      -- a loop of this poller would be the one that its handle names, which is gone
      refine hw.set hp List.filter_sublist (fun l hl hi => ?_) _ _
      obtain ⟨hmem, hne⟩ := List.mem_filter.1 hl
      subst hi
      obtain rfl := hw.round_eq hmem hp hheld
      exact absurd rfl (of_decide_eq_true hne)

theorem enqueue (hw : w.Owned) (i : Nat) (r : Reply) : (w.enqueue i r).Owned := by
  refine ⟨hw.single, fun l hl => ?_⟩
  obtain ⟨p, hp, hheld⟩ := hw.held l hl
  simp only [World.enqueue, List.getElem?_modify, hp]
  split
  · exact ⟨_, rfl, hheld⟩
  · exact ⟨_, rfl, hheld⟩

theorem takeUpdates (hw : w.Owned) (v : Nat) : (w.takeUpdates v).1.Owned := by
  rw [World.takeUpdates]
  split
  · exact hw
  · exact ⟨hw.single, hw.held⟩

theorem tick (hw : w.Owned) : w.tick.1.Owned :=
  run (w := { w with now := w.now + 1 }) ⟨hw.single, hw.held⟩

/-- However much time passes, a world stays owned. -/
theorem advance (hw : w.Owned) (ms : Nat) : (World.advance ms (w, [])).1.Owned := by
  induction ms generalizing w with
  | zero => exact hw
  | succ ms ih =>
      rw [advance_succ]
      exact ih hw.tick

/-- A call keeps a world owned. -/
theorem call (hw : w.Owned) (s : Step) : (w.call s).world.Owned := by
  cases s with
  | start i => exact hw.start i
  | stop i => exact hw.release i .free
  | drop i => exact hw.release i .gone
  | look => exact hw
  | reply i r => exact hw.enqueue i r
  | advance ms => exact hw.advance ms
  | updates v => exact hw.takeUpdates v

/-- **A step keeps a world owned.** -/
theorem step (hw : w.Owned) (s : Step) : (w.step s).world.Owned := (hw.call s).run

theorem after (hw : w.Owned) (steps : List Step) : (w.after steps).Owned := by
  induction steps generalizing w with
  | nil => exact hw
  | cons s steps ih => exact ih (hw.step s)

end Owned

theorem owned_ofPollers (pollers : List (Nat × Nat)) : (ofPollers pollers).Owned :=
  ⟨List.nodup_nil, fun _ hl => absurd hl List.not_mem_nil⟩

/-- **Every reachable world is owned.** -/
theorem Reachable.owned {w : World} (h : w.Reachable) : w.Owned := by
  obtain ⟨pollers, steps, rfl⟩ := h
  exact (owned_ofPollers pollers).after steps

end ClusterWatch.World
