import ClusterWatch.LockedView

/-!
# Moves — what can happen at a locked view, and in what order

`LoopStage.Next` and `CancelStage.Next` list the moves of a loop and of a cancel, each with where it
begins and ends, and `LockedView.Moves` says what a move does to the view.  They are what
`LockedView.move?` computes (`move?_eq_some_iff`), so a proof about a move has a case for each of
them.

A run is a list of moves that can happen one after the other.  `run?_induct` is the induction that
all facts about runs are shown by: what holds of a view and the moves behind it, and is kept by each
move, holds behind every run.  `run?_split` gives the two views around a move in the middle of a
run.
-/

namespace ClusterWatch

/-- What a loop can do, from where to where. -/
inductive LoopStage.Next : LoopStage → LoopMove → LoopStage → Prop
  | begins : Next .due (.look true) .fetching
  | gone : Next .due (.look false) .ended
  | fetched (s : Status) : Next .fetching (.settle (.status s)) (.arriving s)
  | failed : Next .fetching (.settle .failure) .sleeping
  | panicked : Next .fetching .panic .ended
  | entered (s : Status) : Next (.arriving s) .enter (.inside s)
  | found (s : Status) (now : Instant) : Next (.inside s) (.load true now) (.writing (now, s) 0)
  | missed (s : Status) (now : Instant) : Next (.inside s) (.load false now) (.refused (now, s))
  | wrote (a : Instant × Status) {parts : Nat} {part : Snapshot.Part}
      (h : Snapshot.Part.all[parts]? = some part) :
      Next (.writing a parts) (.write part a) (.writing a (parts + 1))
  | applied (a : Instant × Status) :
      Next (.writing a Snapshot.Part.all.length) (.leave true a) .sleeping
  | refused (a : Instant × Status) : Next (.refused a) (.leave false a) .ended
  | woke : Next .sleeping .wake .due
  | abortedFetch : Next .fetching .abort .ended
  | abortedSleep : Next .sleeping .abort .ended

/-- What a cancel can do, from where to where. -/
inductive CancelStage.Next : CancelStage → CancelMove → CancelStage → Prop
  | cleared : Next .uncalled .clear .cleared
  | asked : Next .cleared .ask .asked
  | entered : Next .asked .enter .inside
  | returned : Next .inside .leave .returned

/-- What is computed for a loop is what its rules allow. -/
theorem LoopStage.next?_eq_some_iff {st st' : LoopStage} {m : LoopMove} :
    st.next? m = some st' ↔ st.Next m st' := by
  constructor
  · fun_cases LoopStage.next? st m
    case case1 set =>
      cases set with
      | true => rintro ⟨⟩; exact .begins
      | false => rintro ⟨⟩; exact .gone
    case case2 s => rintro ⟨⟩; exact .fetched s
    case case3 => rintro ⟨⟩; exact .failed
    case case4 => rintro ⟨⟩; exact .panicked
    case case5 s => rintro ⟨⟩; exact .entered s
    case case6 s set now =>
      cases set with
      | true => rintro ⟨⟩; exact .found s now
      | false => rintro ⟨⟩; exact .missed s now
    case case7 a parts part b h => obtain ⟨hpart, rfl⟩ := h; rintro ⟨⟩; exact .wrote a hpart
    case case9 a parts b h => obtain ⟨rfl, rfl⟩ := h; rintro ⟨⟩; exact .applied a
    case case11 a => rintro ⟨⟩; exact .refused a
    case case13 => rintro ⟨⟩; exact .woke
    case case14 => rintro ⟨⟩; exact .abortedFetch
    case case15 => rintro ⟨⟩; exact .abortedSleep
    all_goals rintro ⟨⟩
  · intro h
    cases h with
    | wrote a h => exact if_pos ⟨h, rfl⟩
    | applied a => exact if_pos ⟨rfl, rfl⟩
    | refused a => exact if_pos rfl
    | _ => rfl

theorem CancelStage.next?_eq_some_iff {st st' : CancelStage} {m : CancelMove} :
    st.next? m = some st' ↔ st.Next m st' := by
  constructor
  · fun_cases CancelStage.next? st m
    case case1 => rintro ⟨⟩; exact .cleared
    case case2 => rintro ⟨⟩; exact .asked
    case case3 => rintro ⟨⟩; exact .entered
    case case4 => rintro ⟨⟩; exact .returned
    case case5 => rintro ⟨⟩
  · intro h
    cases h <;> rfl

namespace LockedView

variable {v v' : LockedView} {m : Move} {moves moves' : List Move}

/-- What a move does to a view. -/
inductive Moves (v : LockedView) : Move → LockedView → Prop
  | loop {i : LoopId} {m : LoopMove} {st : LoopStage} (hp : v.permits i m = true)
      (hst : (v.loops i).Next m st) : Moves v (.loop i m) (v.afterLoop i m st)
  | cancel {c : CancelId} {m : CancelMove} {st : CancelStage}
      (hfree : m = .enter → v.holder = none) (hst : (v.cancels c).Next m st) :
      Moves v (.cancel c m) (v.afterCancel c m st)
  | read (hfree : v.holder = none) : Moves v (.read v.shown) v

/-- **A move can be made just when the rules allow it.** -/
theorem move?_eq_some_iff : v.move? m = some v' ↔ v.Moves m v' := by
  constructor
  · intro h
    cases m with
    | loop i m =>
        obtain ⟨hp, h⟩ := Option.ite_none_right_eq_some.1 h
        obtain ⟨st, hst, rfl⟩ := Option.map_eq_some_iff.1 h
        exact .loop hp (LoopStage.next?_eq_some_iff.1 hst)
    | cancel c m =>
        obtain ⟨hfree, h⟩ := Option.ite_none_right_eq_some.1 h
        obtain ⟨st, hst, rfl⟩ := Option.map_eq_some_iff.1 h
        exact .cancel hfree (CancelStage.next?_eq_some_iff.1 hst)
    | read x =>
        obtain ⟨⟨hfree, rfl⟩, ⟨⟩⟩ := Option.ite_none_right_eq_some.1 h
        exact .read hfree
  · intro h
    cases h with
    | loop hp hst =>
        exact (if_pos hp).trans (congrArg _ (LoopStage.next?_eq_some_iff.2 hst))
    | cancel hfree hst =>
        exact (if_pos hfree).trans (congrArg _ (CancelStage.next?_eq_some_iff.2 hst))
    | read hfree => exact if_pos ⟨hfree, rfl⟩

/-! ### Runs -/

/-- A run is a move and then the rest. -/
theorem run?_cons_eq_some_iff :
    v.run? (m :: moves) = some v' ↔ ∃ u, v.Moves m u ∧ u.run? moves = some v' := by
  simp [run?, Option.bind_eq_some_iff, move?_eq_some_iff]

theorem run?_append (v : LockedView) (moves moves' : List Move) :
    v.run? (moves ++ moves') = (v.run? moves).bind (·.run? moves') := by
  induction moves generalizing v with
  | nil => rfl
  | cons m moves ih => simp only [List.cons_append, run?, Option.bind_assoc, ih]

/-- A run can be cut anywhere. -/
theorem run?_append_eq_some_iff :
    v.run? (moves ++ moves') = some v' ↔
      ∃ u, v.run? moves = some u ∧ u.run? moves' = some v' := by
  rw [run?_append, Option.bind_eq_some_iff]

/-- The views before and after a move in the middle of a run. -/
theorem run?_split (h : v.run? (moves ++ m :: moves') = some v') :
    ∃ u u', v.run? moves = some u ∧ u.Moves m u' ∧ u'.run? moves' = some v' := by
  obtain ⟨u, hu, h⟩ := run?_append_eq_some_iff.1 h
  obtain ⟨u', hm, h⟩ := run?_cons_eq_some_iff.1 h
  exact ⟨u, u', hu, hm, h⟩

/-- What each move keeps holds behind every run; `P v past` is about a view and the moves behind
it. -/
theorem run?_induct {P : LockedView → List Move → Prop}
    (hstep : ∀ {v past m v'}, P v past → v.Moves m v' → P v' (past ++ [m])) (past : List Move)
    (hv : P v past) (hrun : v.run? moves = some v') : P v' (past ++ moves) := by
  induction moves generalizing v past with
  | nil =>
      obtain rfl := Option.some.inj hrun
      rwa [List.append_nil]
  | cons m moves ih =>
      obtain ⟨u, hm, hrun⟩ := run?_cons_eq_some_iff.1 hrun
      rw [← List.singleton_append, ← List.append_assoc]
      exact ih _ (hstep hv hm) hrun

/-- What each move keeps of a view, whatever the moves behind it, every run keeps. -/
theorem run?_keeps {P : LockedView → Prop} (hstep : ∀ {v m v'}, P v → v.Moves m v' → P v')
    (hv : P v) (hrun : v.run? moves = some v') : P v' :=
  run?_induct (P := fun v _ => P v) (fun hv hm => hstep hv hm) [] hv hrun

end LockedView

end ClusterWatch
