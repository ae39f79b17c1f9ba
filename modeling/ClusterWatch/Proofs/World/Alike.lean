import ClusterWatch.Proofs.World.Lane
import Mathlib.Data.List.Forall2

/-!
# Alike — worlds that go on in the same way

Two worlds are *alike* (`World.Alike ahead w w'`) when what they do from now on is the same: their
clocks and views are equal, the same pollers have live loops at the same phases, in the same order,
and each poller has the same interval, view and replies in both, where its counter of fetches is
`ahead i` higher in `w` for the poller at place `i`.  Rounds do not enter it: how often a poller was
started, and whether it still holds a loop that has died, is forgotten.

Alike worlds stay alike in lockstep, with the same acts: for a poller's turn (`Poller.Like.turn`),
for the turns of a run (`Alike.run`), for a call and for a step (`Alike.step`).  Rounds are read
when a loop is looked up by its name; in an owned world this is to look it up by its poller
(`Owned.filter_ne`, `Owned.release_eq`), so both worlds have to be owned.
-/

namespace ClusterWatch

/-! ### Pollers -/

/-- What makes two pollers go on in the same way; `p` has issued `ahead` fetches more. -/
structure Poller.Like (ahead : Nat) (p q : Poller) : Prop where
  interval : p.interval = q.interval
  view : p.view = q.view
  gone : p.handle = .gone ↔ q.handle = .gone
  fetches : p.fetches = q.fetches + ahead
  queue : p.queue = q.queue

/-- Turns that leave the same phase behind the same acts. -/
structure Turn.Like (ahead : Nat) (t u : Turn) : Prop where
  poller : t.poller.Like ahead u.poller
  phase : t.phase = u.phase
  acts : t.acts = u.acts

namespace Poller

variable {ahead : Nat} {p q : Poller}

theorem Like.refl (p : Poller) : p.Like 0 p := ⟨rfl, rfl, Iff.rfl, rfl, rfl⟩

/-- A fetch that both issue leaves the one as far ahead as it was. -/
theorem Like.issued (h : p.Like ahead q) :
    Like ahead { p with fetches := p.fetches + 1 } { q with fetches := q.fetches + 1 } :=
  { h with fetches := by rw [h.fetches]; exact Nat.add_right_comm _ _ _ }

/-- Like pollers stay so when they take the same reply. -/
theorem Like.afterTaking (h : p.Like ahead q) (reply : Reply) (rest : List Reply) :
    (p.afterTaking reply rest).Like ahead (q.afterTaking reply rest) :=
  { h with
    gone := by
      simp only [Poller.afterTaking]
      split
      · exact Iff.rfl
      · exact h.gone
    queue := rfl }

/-- Like pollers apply the same of a reply. -/
theorem Like.applying (h : p.Like ahead q) (reply : Reply) :
    p.applying reply = q.applying reply := by
  rcases reply with ⟨s | _, _⟩ | _
  · simp only [Poller.applying, h.view]
  · rfl
  · rfl

/-- Like pollers settle the same replies in the same way. -/
theorem Like.settle (now : Nat) {replies replies' : List Reply} (hreplies : replies = replies')
    (h : p.Like ahead q) : (p.settle now replies).Like ahead (q.settle now replies') := by
  subst hreplies
  induction replies generalizing p q with
  | nil => exact ⟨{ h with queue := rfl }, rfl, rfl⟩
  | cons reply rest ih =>
      have htaken := h.afterTaking reply rest
      have hinterval := htaken.interval
      simp only [Poller.settle]
      by_cases hend : reply = .panics ∨ (p.afterTaking reply rest).handle = .gone
      · rw [if_pos hend, if_pos (hend.imp_right htaken.gone.1)]
        exact ⟨htaken, rfl, rfl⟩
      · rw [if_neg hend, if_neg (mt (Or.imp_right htaken.gone.2) hend), htaken.applying]
        by_cases h0 : (p.afterTaking reply rest).interval = 0
        · rw [if_pos h0, if_pos (hinterval ▸ h0)]
          have hnext := ih htaken.issued
          exact ⟨hnext.poller, hnext.phase, by simp only [hnext.acts]⟩
        · rw [if_neg h0, if_neg (hinterval ▸ h0)]
          exact ⟨htaken, by rw [hinterval], rfl⟩

theorem Like.issue (now : Nat) (h : p.Like ahead q) : (p.issue now).Like ahead (q.issue now) := by
  have ht := h.issued.settle now h.queue
  exact ⟨ht.poller, ht.phase, congrArg (Act.issued :: ·) ht.acts⟩

/-- **Like pollers take like turns.** -/
theorem Like.turn (now : Nat) (phase : Phase) (h : p.Like ahead q) :
    (p.turn now phase).Like ahead (q.turn now phase) := by
  cases phase with
  | due => exact h.issue now
  | waiting => exact h.settle now h.queue
  | sleeping d => exact h.issue now

/-- Like pollers have something to do at the same phases. -/
theorem Like.isRunnable (now : Nat) (phase : Phase) (h : p.Like ahead q) :
    p.isRunnable now phase = q.isRunnable now phase := by
  cases phase with
  | due => rfl
  | waiting => simp only [Poller.isRunnable, h.queue]
  | sleeping d => rfl

end Poller

/-! ### Worlds -/

/-- Loops of the poller at one place that are at one phase. -/
structure Loop.Like (l l' : Loop) : Prop where
  poller : l.id.poller = l'.id.poller
  phase : l.phase = l'.phase

namespace World

/-- What makes two worlds go on in the same way; `ahead i` is how many fetches more the poller at
place `i` has issued in `w`. -/
structure Alike (ahead : Nat → Nat) (w w' : World) : Prop where
  now : w.now = w'.now
  pollers : ∀ i : Nat, Option.Rel (Poller.Like (ahead i)) w.pollers[i]? w'.pollers[i]?
  loops : List.Forall₂ Loop.Like w.loops w'.loops
  views : w.views = w'.views

namespace Alike

variable {ahead : Nat → Nat} {w w' : World}

/-! ### Parts -/

/-- The pollers at one place are alike. -/
theorem poller (h : Alike ahead w w') {i : Nat} {p q : Poller} (hp : w.pollers[i]? = some p)
    (hq : w'.pollers[i]? = some q) : p.Like (ahead i) q := by
  have hi := h.pollers i
  rw [hp, hq] at hi
  cases hi
  assumption

/-- The poller at place `i` is there in both worlds, or in neither. -/
theorem poller_cases (h : Alike ahead w w') (i : Nat) :
    (w.pollers[i]? = none ∧ w'.pollers[i]? = none) ∨
      ∃ p q, w.pollers[i]? = some p ∧ w'.pollers[i]? = some q ∧ p.Like (ahead i) q := by
  have hi := h.pollers i
  rcases hp : w.pollers[i]? with _ | p <;> rcases hq : w'.pollers[i]? with _ | q <;>
    rw [hp, hq] at hi <;> cases hi
  · exact .inl ⟨rfl, rfl⟩
  · exact .inr ⟨p, q, rfl, rfl, by assumption⟩

/-- Pollers stay alike, place by place, when like ones are put in at one place. -/
theorem pollers_set (h : Alike ahead w w') {i : Nat} {p q : Poller} (hlike : p.Like (ahead i) q)
    (j : Nat) :
    Option.Rel (Poller.Like (ahead j)) (w.pollers.set i p)[j]? (w'.pollers.set i q)[j]? := by
  by_cases hj : i = j
  · subst hj
    simp only [List.getElem?_set_self']
    rcases h.poller_cases i with ⟨hp, hq⟩ | ⟨_, _, hp, hq, -⟩
    · rw [hp, hq]
      exact .none
    · rw [hp, hq]
      exact .some hlike
  · rw [List.getElem?_set_ne hj, List.getElem?_set_ne hj]
    exact h.pollers j

/-- The live loops of alike worlds are those of the same pollers, in the same order. -/
theorem loops_poller (h : Alike ahead w w') :
    w.loops.map (·.id.poller) = w'.loops.map (·.id.poller) :=
  List.forall₂_eq_eq_eq ▸ List.rel_map (fun _ _ hl => hl.poller) h.loops

/-- The loops that like tests keep are alike, one by one. -/
theorem loops_filter (h : Alike ahead w w') {keep keep' : Loop → Bool}
    (hkeep : ∀ l l', l.Like l' → keep l = keep' l') :
    List.Forall₂ Loop.Like (w.loops.filter keep) (w'.loops.filter keep') :=
  List.rel_filter (fun l l' hl => Bool.eq_iff_iff.1 (hkeep l l' hl)) h.loops

/-- Alike worlds show the same state of a poller. -/
theorem stateOf (h : Alike ahead w w') (hw : w.Owned) (hw' : w'.Owned) {i : Nat} {p q : Poller}
    (hp : w.pollers[i]? = some p) (hq : w'.pollers[i]? = some q) :
    w.stateOf i p = w'.stateOf i q := by
  have hlive : (w.loops.find? (·.id.poller = i)).isSome =
      (w'.loops.find? (·.id.poller = i)).isSome := by
    rw [Bool.eq_iff_iff, List.find?_isSome, List.find?_isSome]
    have hany := congrArg (i ∈ ·) h.loops_poller
    simpa using hany
  have hx := hw.stateOf_lane (lane_of_poller hp)
  have hy := hw'.stateOf_lane (lane_of_poller hq)
  simp only at hx hy
  simp only [hx, hy, hlive, (h.poller hp hq).gone]

/-- The pollers of alike worlds are in the same states. -/
theorem states (h : Alike ahead w w') (hw : w.Owned) (hw' : w'.Owned) : w.states = w'.states := by
  refine List.ext_getElem? fun i => ?_
  simp only [World.states, List.getElem?_mapIdx]
  rcases h.poller_cases i with ⟨hp, hq⟩ | ⟨p, q, hp, hq, -⟩
  · rw [hp, hq]
    rfl
  · rw [hp, hq, Option.map_some, Option.map_some, h.stateOf hw hw' hp hq]

/-! ### Turns -/

/-- **Turns of like loops leave alike worlds alike, with the same acts.** -/
theorem turn (h : Alike ahead w w') (hw : w.Owned) (hw' : w'.Owned) {l l' : Loop}
    (hl : l ∈ w.loops) (hl' : l' ∈ w'.loops) (hlike : l.Like l') :
    Alike ahead (w.turn l).1 (w'.turn l').1 ∧
      (w.turn l).2.map (·.act) = (w'.turn l').2.map (·.act) := by
  obtain ⟨p, hp, -⟩ := hw.held l hl
  obtain ⟨q, hq, -⟩ := hw'.held l' hl'
  have hpq : p.Like (ahead l.id.poller) q := h.poller hp (hlike.poller ▸ hq)
  have ht := hpq.turn w.now l.phase
  simp only [World.turn, hp, hq]
  rw [hw.filter_ne hl, hw'.filter_ne hl', ← hlike.poller, ← hlike.phase, ← h.now]
  refine ⟨⟨rfl, h.pollers_set ht.poller, ?_, by rw [ht.acts, h.views]⟩, ?_⟩
  · refine List.rel_append (h.loops_filter fun a b hab => by rw [hab.poller]) ?_
    rw [← ht.phase]
    cases (p.turn w.now l.phase).phase with
    | none => exact .nil
    | some ph => exact .cons ⟨hlike.poller, rfl⟩ .nil
  · simp only [List.map_map, Function.comp_def, ht.acts]

/-- Turns of like loops, one after the other, leave alike worlds alike. -/
theorem turns {ls ls' : List Loop} (h : Alike ahead w w') (hw : w.Owned) (hw' : w'.Owned)
    (hls : w.Pending ls) (hls' : w'.Pending ls') (hlike : List.Forall₂ Loop.Like ls ls') :
    Alike ahead (w.turns ls).1 (w'.turns ls').1 ∧
      (w.turns ls).2.map (·.act) = (w'.turns ls').2.map (·.act) := by
  induction hlike generalizing w w' with
  | nil => exact ⟨h, rfl⟩
  | cons hl _ ih =>
      have hmem := hls.live _ List.mem_cons_self
      have hmem' := hls'.live _ List.mem_cons_self
      obtain ⟨hturn, hacts⟩ := h.turn hw hw' hmem hmem' hl
      obtain ⟨hrest, hacts'⟩ := ih hturn (hw.turn hmem) (hw'.turn hmem') hls.tail hls'.tail
      refine ⟨hrest, ?_⟩
      rw [turns_cons, turns_cons, List.map_append, List.map_append, hacts, hacts']

theorem isRunnable (h : Alike ahead w w') {l l' : Loop} (hlike : l.Like l') :
    w.isRunnable l = w'.isRunnable l' := by
  simp only [World.isRunnable, ← hlike.poller, ← hlike.phase, ← h.now]
  rcases h.poller_cases l.id.poller with ⟨hp, hq⟩ | ⟨p, q, hp, hq, hpq⟩
  · rw [hp, hq]
  · rw [hp, hq]
    exact hpq.isRunnable w.now l.phase

/-- **Alike worlds stay alike in the turns of all loops that have something to do.** -/
theorem run (h : Alike ahead w w') (hw : w.Owned) (hw' : w'.Owned) :
    Alike ahead w.run.1 w'.run.1 ∧ w.run.2.map (·.act) = w'.run.2.map (·.act) :=
  h.turns hw hw' hw.pending_run hw'.pending_run (h.loops_filter fun _ _ => h.isRunnable)

/-! ### Calls -/

/-- A start begins a loop in both of two alike worlds, or in neither. -/
theorem start (h : Alike ahead w w') (hw : w.Owned) (hw' : w'.Owned) (i : Nat) :
    Alike ahead (w.start i) (w'.start i) := by
  rcases h.poller_cases i with ⟨hp, hq⟩ | ⟨p, q, hp, hq, hpq⟩
  · simpa only [World.start, hp, hq] using h
  · simp only [World.start, hp, hq, ← h.stateOf hw hw' hp hq]
    split
    · have hheld : Poller.Like (ahead i) { p with handle := .held p.rounds, rounds := p.rounds + 1 }
          { q with handle := .held q.rounds, rounds := q.rounds + 1 } :=
        { hpq with gone := ⟨Handle.noConfusion, Handle.noConfusion⟩ }
      exact ⟨h.now, h.pollers_set hheld,
        List.rel_append h.loops (.cons ⟨rfl, rfl⟩ .nil), h.views⟩
    · exact h
    · exact h

/-- The end of like loops cancels the fetch of both or of neither. -/
theorem cancelling_act {l l' : Loop} (now now' : Nat) (hlike : l.Like l') :
    (World.cancelling now l).map (·.act) = (World.cancelling now' l').map (·.act) := by
  simp only [World.cancelling, ← hlike.phase]
  split <;> rfl

/-- A handle that is taken from a poller in alike worlds ends like loops. -/
theorem release (h : Alike ahead w w') (hw : w.Owned) (hw' : w'.Owned) (i : Nat)
    (handle : Handle) :
    Alike ahead (w.release i handle).1 (w'.release i handle).1 ∧
      (w.release i handle).2.map (·.act) = (w'.release i handle).2.map (·.act) := by
  rcases h.poller_cases i with ⟨hp, hq⟩ | ⟨p, q, hp, hq, hpq⟩
  · simpa only [World.release, hp, hq] using ⟨h, trivial⟩
  · by_cases hg : p.handle = .gone
    · simpa only [World.release, hp, hq, hg, hpq.gone.1 hg] using ⟨h, trivial⟩
    · rw [hw.release_eq hp hg, hw'.release_eq hq (mt hpq.gone.2 hg)]
      have hleft : Poller.Like (ahead i) { p with handle := handle } { q with handle := handle } :=
        { hpq with gone := Iff.rfl }
      refine ⟨⟨h.now, h.pollers_set hleft, ?_, h.views⟩, ?_⟩
      · exact h.loops_filter fun l l' hl => by rw [hl.poller]
      · rw [List.map_flatMap, List.map_flatMap, ← List.forall₂_eq_eq_eq]
        refine List.rel_flatMap (h.loops_filter fun l l' hl => by rw [hl.poller]) fun l l' hl => ?_
        rw [List.forall₂_eq_eq_eq]
        exact cancelling_act _ _ hl

/-- A reply joins like queues. -/
theorem enqueue (h : Alike ahead w w') (i : Nat) (r : Reply) :
    Alike ahead (w.enqueue i r) (w'.enqueue i r) := by
  refine ⟨h.now, fun j => ?_, h.loops, h.views⟩
  simp only [World.enqueue, List.getElem?_modify]
  rcases h.poller_cases j with ⟨hp, hq⟩ | ⟨p, q, hp, hq, hpq⟩
  · rw [hp, hq]
    exact .none
  · rw [hp, hq]
    refine .some ?_
    split
    · exact { hpq with queue := congrArg (· ++ [r]) hpq.queue }
    · exact hpq

/-- The update streams of alike worlds have the same ready. -/
theorem takeUpdates (h : Alike ahead w w') (v : Nat) :
    Alike ahead (w.takeUpdates v).1 (w'.takeUpdates v).1 ∧
      (w.takeUpdates v).2 = (w'.takeUpdates v).2 := by
  simp only [World.takeUpdates, ← h.views]
  split
  · exact ⟨h, rfl⟩
  · exact ⟨⟨h.now, h.pollers, h.loops, rfl⟩, rfl⟩

theorem tick (h : Alike ahead w w') (hw : w.Owned) (hw' : w'.Owned) :
    Alike ahead w.tick.1 w'.tick.1 ∧ w.tick.2.map (·.act) = w'.tick.2.map (·.act) := by
  have hlater : Alike ahead { w with now := w.now + 1 } { w' with now := w'.now + 1 } :=
    ⟨congrArg (· + 1) h.now, h.pollers, h.loops, h.views⟩
  exact hlater.run ⟨hw.single, hw.held⟩ ⟨hw'.single, hw'.held⟩

/-- Alike worlds stay alike while time passes. -/
theorem advance (h : Alike ahead w w') (hw : w.Owned) (hw' : w'.Owned) (ms : Nat) :
    Alike ahead (World.advance ms (w, [])).1 (World.advance ms (w', [])).1 ∧
      (World.advance ms (w, [])).2.map (·.act) = (World.advance ms (w', [])).2.map (·.act) := by
  induction ms generalizing w w' with
  | zero => exact ⟨h, rfl⟩
  | succ ms ih =>
      obtain ⟨htick, hacts⟩ := h.tick hw hw'
      obtain ⟨hrest, hacts'⟩ := ih htick hw.tick hw'.tick
      rw [advance_succ, advance_succ, List.map_append, List.map_append, hacts, hacts']
      exact ⟨hrest, rfl⟩

end Alike

/-- What two steps have in common that do the same to alike worlds. -/
structure SameStep (ahead : Nat → Nat) (s s' : Stepped) : Prop where
  world : Alike ahead s.world s'.world
  acts : s.events.map (·.act) = s'.events.map (·.act)
  yielded : s.yielded = s'.yielded

namespace Alike

variable {ahead : Nat → Nat} {w w' : World}

/-- **A call leaves alike worlds alike, with the same acts.** -/
theorem call (h : Alike ahead w w') (hw : w.Owned) (hw' : w'.Owned) (s : Step) :
    SameStep ahead (w.call s) (w'.call s) := by
  cases s with
  | start i => exact ⟨h.start hw hw' i, rfl, rfl⟩
  | stop i =>
      obtain ⟨hworld, hacts⟩ := h.release hw hw' i .free
      exact ⟨hworld, hacts, rfl⟩
  | drop i =>
      obtain ⟨hworld, hacts⟩ := h.release hw hw' i .gone
      exact ⟨hworld, hacts, rfl⟩
  | look => exact ⟨h, rfl, rfl⟩
  | reply i r => exact ⟨h.enqueue i r, rfl, rfl⟩
  | advance ms =>
      obtain ⟨hworld, hacts⟩ := h.advance hw hw' ms
      exact ⟨hworld, hacts, rfl⟩
  | updates v =>
      obtain ⟨hworld, htaken⟩ := h.takeUpdates v
      exact ⟨hworld, rfl, htaken⟩

/-- **Alike worlds take the same steps.** -/
theorem step (h : Alike ahead w w') (hw : w.Owned) (hw' : w'.Owned) (s : Step) :
    SameStep ahead (w.step s) (w'.step s) := by
  have hcall := h.call hw hw' s
  obtain ⟨hworld, hacts⟩ := hcall.world.run (hw.call s) (hw'.call s)
  refine ⟨hworld, ?_, hcall.yielded⟩
  rw [World.step, World.step, List.map_append, List.map_append, hcall.acts, hacts]

end Alike

end World

end ClusterWatch
