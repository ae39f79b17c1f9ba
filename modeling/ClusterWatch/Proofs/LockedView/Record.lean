import ClusterWatch.Proofs.LockedView.Exclusion
import Mathlib.Data.List.Basic

/-!
# Record — what the moves behind a view say about it

The moves of a run carry what was seen in them, so they tell where each thread stands and what is
shown.  `LockedView.Recorded v past` says so of a view `v` behind the moves `past`:

* a loop that is in an apply has made the moves of that apply last, beginning with the fetch that
  brought the status (`LoopStage.trail`);
* the flag of a loop is set unless a cancel of the loop has cleared it;
* while no loop is writing, what is shown is the last status that was applied, with its time, as a
  whole;
* while a loop is writing, what is shown lacks just the parts that the loop has still to write.

Only a write changes what is shown, and only one loop can be writing, so the third clause is lost
and regained between the moves of one apply.  `recorded_of_run` carries the four to all runs.
-/

namespace ClusterWatch

/-- The moves of a loop from the end of its fetch until it leaves the lock; `set` is its flag as it
was loaded. -/
def LoopMove.ofApply (set : Bool) (a : Instant × Status) : List LoopMove :=
  .settle (.status a.2) :: .enter :: .load set a.1 ::
    if set then Snapshot.Part.all.map (.write · a) else []

/-- The moves of the apply that a loop is in. -/
def LoopStage.trail : LoopStage → List LoopMove
  | .arriving s => [.settle (.status s)]
  | .inside s => [.settle (.status s), .enter]
  | .writing a parts => .settle (.status a.2) :: .enter :: .load true a.1 ::
      (Snapshot.Part.all.take parts).map (.write · a)
  | .refused a => [.settle (.status a.2), .enter, .load false a.1]
  | .due | .fetching | .sleeping | .ended => []

/-- What a move of the loop `i` is to the loop. -/
def Move.of? (i : LoopId) : Move → Option LoopMove
  | .loop j m => if j = i then some m else none
  | .cancel _ _ | .read _ => none

/-- The status that a move has applied, and its time. -/
def Move.applied? : Move → Option (Instant × Status)
  | .loop _ (.leave true a) => some a
  | .loop _ _ | .cancel _ _ | .read _ => none

/-- The moves of the loop `i`. -/
def movesOf (i : LoopId) (moves : List Move) : List LoopMove := moves.filterMap (·.of? i)

/-- The statuses that were applied, and their times. -/
def applied (moves : List Move) : List (Instant × Status) := moves.filterMap Move.applied?

/-- What is shown behind several applies. -/
def Snapshot.lastOf (as : List (Instant × Status)) : Snapshot :=
  (as.getLast?.map Snapshot.ofTimed).getD .empty

theorem applied_append (moves moves' : List Move) :
    applied (moves ++ moves') = applied moves ++ applied moves' := List.filterMap_append

theorem movesOf_concat_self (i : LoopId) (past : List Move) (m : LoopMove) :
    movesOf i (past ++ [.loop i m]) = movesOf i past ++ [m] := by
  simp [movesOf, Move.of?]

theorem movesOf_concat_of_none {i : LoopId} {m : Move} (past : List Move) (h : m.of? i = none) :
    movesOf i (past ++ [m]) = movesOf i past := by
  simp [movesOf, h]

theorem applied_concat_of_none {m : Move} (past : List Move) (h : m.applied? = none) :
    applied (past ++ [m]) = applied past := by
  simp [applied, h]

theorem lastOf_concat (as : List (Instant × Status)) (a : Instant × Status) :
    Snapshot.lastOf (as ++ [a]) = .ofTimed a := by
  simp [Snapshot.lastOf]

/-- Nothing was applied, or some move was the last to apply a status. -/
theorem applied_cases (moves : List Move) :
    applied moves = [] ∨ ∃ past i a rest,
      moves = past ++ .loop i (.leave true a) :: rest ∧ applied rest = [] := by
  induction moves with
  | nil => exact .inl rfl
  | cons m moves ih =>
      obtain hnone | ⟨past, i, a, rest, rfl, hrest⟩ := ih
      · cases hm : m.applied? with
        | none => exact .inl ((List.filterMap_cons_none hm).trans hnone)
        | some a =>
            refine .inr ⟨[], ?_⟩
            unfold Move.applied? at hm
            split at hm
            · exact ⟨_, _, moves, rfl, hnone⟩
            all_goals cases hm
      · exact .inr ⟨m :: past, i, a, rest, rfl, hrest⟩

/-- Writing all parts replaces what was shown. -/
theorem foldl_write_all (x y : Snapshot) :
    Snapshot.Part.all.foldl (Snapshot.Part.write x) y = x := rfl

theorem drop_parts {parts : Nat} {part : Snapshot.Part}
    (h : Snapshot.Part.all[parts]? = some part) :
    Snapshot.Part.all.drop parts = part :: Snapshot.Part.all.drop (parts + 1) := by
  obtain ⟨hlt, rfl⟩ := List.getElem?_eq_some_iff.1 h
  exact List.drop_eq_getElem_cons hlt

namespace LoopStage.Next

variable {st st' : LoopStage} {m : LoopMove}

/-- A move continues the apply that the loop is in, or ends it. -/
theorem trail_suffix (h : Next st m st') : st'.trail <:+ st.trail ++ [m] := by
  cases h with
  | @wrote a parts part h =>
      have htrail : trail (.writing a (parts + 1)) =
          trail (.writing a parts) ++ [.write part a] := by
        simp [trail, List.take_add_one, h]
      exact htrail ▸ List.suffix_rfl
  | fetched s => exact List.suffix_rfl
  | entered s => exact List.suffix_rfl
  | found s now => exact List.suffix_rfl
  | missed s now => exact List.suffix_rfl
  | _ => exact List.nil_suffix

/-- A loop leaves the lock at the end of an apply, and is told what it had found. -/
theorem trail_of_leave {r : Bool} {a : Instant × Status} (h : Next st (.leave r a) st') :
    st.trail = LoopMove.ofApply r a := by
  cases h with
  | applied a => rfl
  | refused a => rfl

end LoopStage.Next

namespace LockedView

variable {v v' : LockedView} {m : Move} {past moves : List Move} {i j : LoopId}

/-- What is shown behind the moves `past`: the last status that was applied, but for the parts that
a loop that is writing has still to write. -/
structure Shows (v : LockedView) (past : List Move) : Prop where
  whole : (∀ i, (v.loops i).isWriting = false) → v.shown = .lastOf (applied past)
  writing : ∀ i a parts, v.loops i = .writing a parts →
    (Snapshot.Part.all.drop parts).foldl (Snapshot.Part.write (.ofTimed a)) v.shown = .ofTimed a

/-- What the moves `past` say about the view behind them. -/
structure Recorded (v : LockedView) (past : List Move) : Prop where
  orderly : v.Orderly
  trail : ∀ i, (v.loops i).trail <:+ movesOf i past
  alive : ∀ i, v.alive i = true ↔ ∀ n, .cancel ⟨i, n⟩ .clear ∉ past
  shows : v.Shows past

/-- No two loops are inside the lock at once. -/
theorem Orderly.eq_of_inside (hv : v.Orderly) (hi : (v.loops i).isInside = true)
    (hj : (v.loops j).isInside = true) : i = j := by
  have h := ((hv.loop i).1 hi).symm.trans ((hv.loop j).1 hj)
  simpa using h

/-! ### What is shown -/

section Shows

variable {l : LoopMove} {st : LoopStage} {a : Instant × Status}

/-- A move that is no loop's leaves what is shown as it was. -/
theorem Shows.still (hv : v.Shows past) (hshown : v'.shown = v.shown) (hloops : v'.loops = v.loops)
    (happlied : m.applied? = none) : v'.Shows (past ++ [m]) where
  whole := by
    rw [hshown, hloops, applied_concat_of_none past happlied]
    exact hv.whole
  writing := by
    rw [hshown, hloops]
    exact hv.writing

/-- While one loop is writing no other is. -/
theorem Orderly.not_writing (hv : v.Orderly) (hi : (v.loops i).isWriting = true) (hji : j ≠ i)
    {parts : Nat} : v.loops j ≠ .writing a parts := by
  intro hj
  have hinside : (v.loops j).isInside = true := by rw [hj]; rfl
  exact hji (hv.eq_of_inside hinside (LoopStage.isInside_of_isWriting hi))

/-- Not all loops are quiet behind a move that leaves its own one writing. -/
theorem not_quiet_afterLoop (hst : st.isWriting = true) :
    ¬ ∀ j, ((v.afterLoop i l st).loops j).isWriting = false := by
  intro hnone
  have hi := hnone i
  rw [loops_afterLoop_self, hst] at hi
  cases hi

/-- A loop that neither is writing nor begins to leaves what is shown as it was. -/
theorem Shows.afterLoop_quiet (hv : v.Shows past) (hbefore : (v.loops i).isWriting = false)
    (hafter : st.isWriting = false) (hshows : l.shows v.shown = v.shown)
    (happlied : (Move.loop i l).applied? = none) :
    (v.afterLoop i l st).Shows (past ++ [.loop i l]) where
  whole hnone := by
    refine hshows.trans ?_
    rw [applied_concat_of_none past happlied]
    refine hv.whole fun j => ?_
    by_cases hj : j = i
    · exact hj ▸ hbefore
    · exact loops_afterLoop_of_ne hj ▸ hnone j
  writing j a parts hj := by
    obtain ⟨rfl, rfl⟩ | ⟨-, hj⟩ := loops_afterLoop_cases hj
    · cases hafter
    · have hrest := hv.writing j a parts hj
      rwa [← hshows] at hrest

/-- A move of a loop keeps what is shown in step with the record. -/
theorem Shows.afterLoop (hv : v.Shows past) (ho : v.Orderly) (hst : (v.loops i).Next l st) :
    (v.afterLoop i l st).Shows (past ++ [.loop i l]) := by
  generalize hi : v.loops i = st₀ at hst
  cases hst with
  | found s now =>
      refine ⟨fun hnone => absurd hnone (not_quiet_afterLoop rfl), fun j a parts hj => ?_⟩
      obtain ⟨rfl, ⟨⟩⟩ | ⟨-, hj⟩ := loops_afterLoop_cases hj
      · exact foldl_write_all _ _
      · exact hv.writing j a parts hj
  | wrote a h =>
      have hwriting : (v.loops i).isWriting = true := by rw [hi]; rfl
      refine ⟨fun hnone => absurd hnone (not_quiet_afterLoop rfl), fun j b parts hj => ?_⟩
      obtain ⟨rfl, ⟨⟩⟩ | ⟨hji, hj⟩ := loops_afterLoop_cases hj
      · have hrest := hv.writing j a _ hi
        rw [drop_parts h] at hrest
        exact hrest
      · exact absurd hj (ho.not_writing hwriting hji)
  | applied a =>
      have hwriting : (v.loops i).isWriting = true := by rw [hi]; rfl
      refine ⟨fun _ => ?_, fun j b parts hj => ?_⟩
      · have hshown := hv.writing i a _ hi
        rw [List.drop_length] at hshown
        rw [applied_append]
        exact hshown.trans (lastOf_concat _ a).symm
      · obtain ⟨rfl, ⟨⟩⟩ | ⟨hji, hj⟩ := loops_afterLoop_cases hj
        exact absurd hj (ho.not_writing hwriting hji)
  | _ => exact hv.afterLoop_quiet (by rw [hi]; rfl) rfl rfl rfl

end Shows

/-! ### Runs -/

theorem recorded_fresh : fresh.Recorded [] where
  orderly := orderly_fresh
  trail _ := List.nil_suffix
  alive _ := iff_of_true rfl fun _ => List.not_mem_nil
  shows := ⟨fun _ => rfl, fun _ _ _ h => nomatch h⟩

/-- A move keeps the record of what was done. -/
theorem Recorded.move (hv : v.Recorded past) (h : v.Moves m v') : v'.Recorded (past ++ [m]) := by
  have ho := hv.orderly.move h
  cases h with
  | @loop i l st hp hst =>
      refine ⟨ho, fun j => ?_, fun j => ?_, hv.shows.afterLoop hv.orderly hst⟩
      · by_cases hj : j = i
        · subst hj
          rw [loops_afterLoop_self, movesOf_concat_self]
          exact hst.trail_suffix.trans
            ((List.suffix_append_inj_of_length_eq rfl).2 ⟨hv.trail j, rfl⟩)
        · have hnone : (Move.loop i l).of? j = none := if_neg (Ne.symm hj)
          rw [loops_afterLoop_of_ne hj, movesOf_concat_of_none past hnone]
          exact hv.trail j
      · refine (hv.alive j).trans ?_
        simp
  | @cancel c k st hfree hst =>
      refine ⟨ho, fun j => ?_, fun j => ?_, ?_⟩
      · rw [movesOf_concat_of_none past rfl]
        exact hv.trail j
      · rw [alive_afterCancel, hv.alive j]
        simp only [List.mem_append, List.mem_singleton, not_or, forall_and]
        refine and_congr_right fun _ => ⟨?_, ?_⟩
        · rintro hnot n ⟨⟩
          exact hnot ⟨rfl, rfl⟩
        · rintro hnot ⟨rfl, rfl⟩
          exact hnot c.call rfl
      · exact hv.shows.still rfl rfl rfl
  | read hfree =>
      refine ⟨ho, fun j => ?_, fun j => ?_, ?_⟩
      · rw [movesOf_concat_of_none past rfl]
        exact hv.trail j
      · refine (hv.alive j).trans ?_
        simp
      · exact hv.shows.still rfl rfl rfl

/-- **Every run is on record.** -/
theorem recorded_of_run (h : fresh.run? moves = some v) : v.Recorded moves :=
  run?_induct (fun hv hm => hv.move hm) [] recorded_fresh h

/-- While nobody is inside the lock, the last status that was applied is shown as a whole. -/
theorem Recorded.shown_of_free (hv : v.Recorded past) (hfree : v.holder = none) :
    v.shown = .lastOf (applied past) := by
  refine hv.shows.whole fun i => Bool.eq_false_iff.2 fun hwriting => ?_
  exact Bool.eq_false_iff.1 (hv.orderly.not_inside hfree i)
    (LoopStage.isInside_of_isWriting hwriting)

end LockedView

end ClusterWatch
