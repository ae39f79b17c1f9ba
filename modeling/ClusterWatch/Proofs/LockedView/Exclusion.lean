import ClusterWatch.Proofs.LockedView.Moves

/-!
# Exclusion — who is inside the lock, and who can no longer write

`LockedView.Orderly` is the invariant behind the teardown of a loop.  It says of every view that a
run leads to:

* just the thread that the lock names stands inside it, so no two stand there at once;
* a loop whose cancel has begun has its flag cleared, and only such a loop is to be aborted;
* a loop that throws a status away has its flag cleared;
* a loop one of whose cancels has entered the lock is not writing.

The last clause is what a cancel enters the lock for.  When the cancel enters, nobody is inside, so
the loop is not writing; from then on the loop can only begin to write by finding its flag set,
which the cancel had cleared before.
-/

namespace ClusterWatch

/-- Whether a loop stands inside the lock. -/
def LoopStage.isInside : LoopStage → Bool
  | .inside _ | .writing _ _ | .refused _ => true
  | .due | .fetching | .arriving _ | .sleeping | .ended => false

/-- Whether a loop has found its flag set and has not left the lock since. -/
def LoopStage.isWriting : LoopStage → Bool
  | .writing _ _ => true
  | .due | .fetching | .arriving _ | .inside _ | .refused _ | .sleeping | .ended => false

/-- Whether a cancel stands inside the lock. -/
def CancelStage.isInside : CancelStage → Bool
  | .inside => true
  | .uncalled | .cleared | .asked | .returned => false

/-- Whether a cancel has entered the lock. -/
def CancelStage.hasEntered : CancelStage → Bool
  | .inside | .returned => true
  | .uncalled | .cleared | .asked => false

/-- Whether a thread stands inside the lock after a move, if `b` says whether it did before. -/
def Grip.inside (b : Bool) : Grip → Bool
  | .enters => true
  | .leaves => false
  | .keeps => b

namespace Grip

variable {t u : Thread} {holder : Option Thread} {g : Grip} {b : Bool}

/-- The lock names the thread that moves just when the thread stands inside. -/
theorem after_self (h : b = true ↔ holder = some t) :
    g.inside b = true ↔ g.after t holder = some t := by
  cases g with
  | enters => exact iff_of_true rfl rfl
  | leaves => exact iff_of_false Bool.false_ne_true (nomatch ·)
  | keeps => exact h

/-- A move changes nothing about another thread's being inside, if a thread enters only when nobody
is inside and leaves only when it is there itself. -/
theorem after_other (henters : g = .enters → holder = none)
    (hleaves : g = .leaves → holder = some t) (hne : u ≠ t) :
    g.after t holder = some u ↔ holder = some u := by
  cases g with
  | enters => simp [after, henters rfl, hne.symm]
  | leaves => simp [after, hleaves rfl, hne.symm]
  | keeps => exact Iff.rfl

end Grip

namespace LoopStage.Next

variable {st st' : LoopStage} {m : LoopMove}

/-- A move takes a loop into the lock, or out of it, as its grip says. -/
theorem inside (h : Next st m st') : st'.isInside = m.grip.inside st.isInside := by
  cases h <;> rfl

/-- A loop leaves the lock from inside it. -/
theorem inside_of_leaves (h : Next st m st') (hm : m.grip = .leaves) : st.isInside = true := by
  cases h with
  | applied a => rfl
  | refused a => rfl
  | _ => cases hm

theorem enter_of_enters (h : Next st m st') (hm : m.grip = .enters) : m = .enter := by
  cases h with
  | entered s => rfl
  | _ => cases hm

/-- A loop is writing only if it was, or has just found its flag set. -/
theorem writing (h : Next st m st') (hst : st'.isWriting = true) :
    st.isWriting = true ∨ ∃ now, m = .load true now := by
  cases h with
  | found s now => exact .inr ⟨now, rfl⟩
  | wrote a h => exact .inl rfl
  | _ => cases hst

/-- A loop throws a status away only if it has just found its flag cleared. -/
theorem throws {a : Instant × Status} (h : Next st m (.refused a)) : m = .load false a.1 := by
  cases h with
  | missed s now => rfl

/-- A loop writes no more parts than a snapshot has. -/
theorem parts_le (h : Next st m st')
    (hst : ∀ a parts, st = .writing a parts → parts ≤ Snapshot.Part.all.length) :
    ∀ a parts, st' = .writing a parts → parts ≤ Snapshot.Part.all.length := by
  rintro a parts rfl
  cases h with
  | found s now => exact Nat.zero_le _
  | wrote a h => exact (List.getElem?_eq_some_iff.1 h).1

end LoopStage.Next

/-- A loop writes inside the lock. -/
theorem LoopStage.isInside_of_isWriting {st : LoopStage} (h : st.isWriting = true) :
    st.isInside = true := by
  cases st with
  | writing a parts => rfl
  | _ => cases h

namespace CancelStage.Next

variable {st st' : CancelStage} {m : CancelMove}

/-- A move takes a cancel into the lock, or out of it, as its grip says. -/
theorem inside (h : Next st m st') : st'.isInside = m.grip.inside st.isInside := by
  cases h <;> rfl

/-- A cancel leaves the lock from inside it. -/
theorem inside_of_leaves (h : Next st m st') (hm : m.grip = .leaves) : st.isInside = true := by
  cases h with
  | returned => rfl
  | _ => cases hm

theorem enter_of_enters (h : Next st m st') (hm : m.grip = .enters) : m = .enter := by
  cases h with
  | entered => rfl
  | _ => cases hm

/-- A cancel clears the flag with its first move. -/
theorem called (h : Next st m st') : m = .clear ∨ st ≠ .uncalled := by
  cases h with
  | cleared => exact .inl rfl
  | _ => exact .inr (nomatch ·)

/-- A cancel that has entered the lock had done so before, or has just done so. -/
theorem entered_before (h : Next st m st') (hst : st'.hasEntered = true) :
    st.hasEntered = true ∨ m = .enter := by
  cases h with
  | entered => exact .inr rfl
  | returned => exact .inl rfl
  | _ => cases hst

end CancelStage.Next

/-- A cancel that has entered the lock was called. -/
theorem CancelStage.called_of_hasEntered {st : CancelStage} (h : st.hasEntered = true) :
    st ≠ .uncalled := by
  rintro rfl
  cases h

namespace LockedView

variable {v v' : LockedView} {m : Move} {moves : List Move}

/-- Only the thread that the lock names stands inside it; a cancelled loop has its flag cleared, and
it is not writing once its cancel has entered the lock. -/
structure Orderly (v : LockedView) : Prop where
  loop : ∀ i, (v.loops i).isInside = true ↔ v.holder = some (.loop i)
  cancel : ∀ c, (v.cancels c).isInside = true ↔ v.holder = some (.cancel c)
  called : ∀ c, v.cancels c ≠ .uncalled → v.alive c.loop = false
  aborted : ∀ i, v.aborted i = true → v.alive i = false
  thrown : ∀ i a, v.loops i = .refused a → v.alive i = false
  parts : ∀ i a parts, v.loops i = .writing a parts → parts ≤ Snapshot.Part.all.length
  barred : ∀ c, (v.cancels c).hasEntered = true → (v.loops c.loop).isWriting = false

theorem orderly_fresh : fresh.Orderly where
  loop _ := iff_of_false Bool.false_ne_true (nomatch ·)
  cancel _ := iff_of_false Bool.false_ne_true (nomatch ·)
  called _ h := absurd rfl h
  aborted _ h := nomatch h
  thrown _ _ h := nomatch h
  parts _ _ _ h := nomatch h
  barred _ h := nomatch h

/-! ### Moves of loops -/

section Loop

variable {i j : LoopId} {l : LoopMove} {st : LoopStage}

theorem loops_afterLoop_self (v : LockedView) (i : LoopId) (l : LoopMove) (st : LoopStage) :
    (v.afterLoop i l st).loops i = st := if_pos rfl

theorem loops_afterLoop_of_ne (h : j ≠ i) : (v.afterLoop i l st).loops j = v.loops j := if_neg h

/-- Where a loop stands after a move, it stood before, unless the move was its own. -/
theorem loops_afterLoop_cases {st' : LoopStage} (h : (v.afterLoop i l st).loops j = st') :
    j = i ∧ st = st' ∨ j ≠ i ∧ v.loops j = st' := by
  by_cases hj : j = i
  · subst hj
    exact .inl ⟨rfl, (loops_afterLoop_self v j l st).symm.trans h⟩
  · exact .inr ⟨hj, (loops_afterLoop_of_ne hj).symm.trans h⟩

/-- A loop enters the lock only while nobody is inside. -/
theorem holder_of_enters (hp : v.permits i l = true) (hst : (v.loops i).Next l st)
    (hl : l.grip = .enters) : v.holder = none := by
  rw [hst.enter_of_enters hl] at hp
  exact of_decide_eq_true hp

/-- A loop finds its flag as it is. -/
theorem alive_of_load {set : Bool} {now : Instant} (hp : v.permits i (.load set now) = true) :
    v.alive i = set := of_decide_eq_true hp

namespace Orderly

/-- The lock names the loop that leaves it. -/
theorem holder_of_leaves (hv : v.Orderly) (hst : (v.loops i).Next l st) (hl : l.grip = .leaves) :
    v.holder = some (.loop i) := (hv.loop i).1 (hst.inside_of_leaves hl)

/-- A move of a loop changes nothing about another thread's being inside. -/
theorem afterLoop_other (hv : v.Orderly) (hp : v.permits i l = true) (hst : (v.loops i).Next l st)
    (t : Thread) (hne : t ≠ .loop i) :
    (v.afterLoop i l st).holder = some t ↔ v.holder = some t :=
  Grip.after_other (holder_of_enters hp hst) (hv.holder_of_leaves hst) hne

/-- A loop does not find its flag set once a cancel of it has been called. -/
theorem not_found (hv : v.Orderly) {c : CancelId} {now : Instant} (hc : v.cancels c ≠ .uncalled) :
    v.permits c.loop (.load true now) ≠ true := by
  intro hp
  have hclear := hv.called c hc
  rw [alive_of_load hp] at hclear
  cases hclear

/-- A move of a loop keeps a view orderly. -/
theorem afterLoop (hv : v.Orderly) (hp : v.permits i l = true) (hst : (v.loops i).Next l st) :
    (v.afterLoop i l st).Orderly where
  loop j := by
    by_cases hj : j = i
    · subst hj
      rw [loops_afterLoop_self, hst.inside]
      exact Grip.after_self (hv.loop j)
    · rw [loops_afterLoop_of_ne hj, hv.loop j]
      exact (hv.afterLoop_other hp hst (.loop j) (by simpa using hj)).symm
  cancel c := (hv.cancel c).trans (hv.afterLoop_other hp hst (.cancel c) (nomatch ·)).symm
  called := hv.called
  aborted := hv.aborted
  thrown j a h := by
    obtain ⟨rfl, rfl⟩ | ⟨-, h⟩ := loops_afterLoop_cases h
    · obtain rfl := hst.throws
      have halive : v.alive j = false := alive_of_load hp
      exact halive
    · exact hv.thrown j a h
  parts j a parts h := by
    obtain ⟨rfl, hafter⟩ | ⟨-, hbefore⟩ := loops_afterLoop_cases h
    · exact hst.parts_le (hv.parts j) a parts hafter
    · exact hv.parts j a parts hbefore
  barred c hc := by
    by_cases hj : c.loop = i
    · subst hj
      rw [loops_afterLoop_self]
      refine Bool.eq_false_iff.2 fun hwriting => ?_
      obtain hbefore | ⟨now, rfl⟩ := hst.writing hwriting
      · exact Bool.eq_false_iff.1 (hv.barred c hc) hbefore
      · exact hv.not_found (CancelStage.called_of_hasEntered hc) hp
    · rw [loops_afterLoop_of_ne hj]
      exact hv.barred c hc

end Orderly

end Loop

/-! ### Moves of cancels -/

section Cancel

variable {c d : CancelId} {i : LoopId} {k : CancelMove} {st : CancelStage}

theorem cancels_afterCancel_self (v : LockedView) (c : CancelId) (k : CancelMove)
    (st : CancelStage) : (v.afterCancel c k st).cancels c = st := if_pos rfl

theorem cancels_afterCancel_of_ne (h : d ≠ c) :
    (v.afterCancel c k st).cancels d = v.cancels d := if_neg h

/-- A cancel clears the flag of its own loop and sets none. -/
theorem alive_afterCancel (v : LockedView) (c : CancelId) (k : CancelMove) (st : CancelStage)
    (i : LoopId) :
    (v.afterCancel c k st).alive i = true ↔ v.alive i = true ∧ ¬ (k = .clear ∧ i = c.loop) := by
  simp only [afterCancel]
  split
  next h => simp [h]
  next h => simp [h]

/-- A flag that is cleared stays so. -/
theorem not_alive_afterCancel (h : v.alive i = false) :
    (v.afterCancel c k st).alive i = false :=
  Bool.eq_false_iff.2 fun halive =>
    Bool.eq_false_iff.1 h ((alive_afterCancel v c k st i).1 halive).1

namespace Orderly

/-- While the lock names nobody, no loop is inside. -/
theorem not_inside (hv : v.Orderly) (hfree : v.holder = none) (i : LoopId) :
    (v.loops i).isInside = false := by
  refine Bool.eq_false_iff.2 fun hinside => ?_
  have hholder := (hv.loop i).1 hinside
  rw [hfree] at hholder
  cases hholder

/-- A move of a cancel changes nothing about another thread's being inside. -/
theorem afterCancel_other (hv : v.Orderly) (hfree : k = .enter → v.holder = none)
    (hst : (v.cancels c).Next k st) (t : Thread) (hne : t ≠ .cancel c) :
    (v.afterCancel c k st).holder = some t ↔ v.holder = some t :=
  Grip.after_other (fun h => hfree (hst.enter_of_enters h))
    (fun h => (hv.cancel c).1 (hst.inside_of_leaves h)) hne

/-- A move of a cancel keeps a view orderly. -/
theorem afterCancel (hv : v.Orderly) (hfree : k = .enter → v.holder = none)
    (hst : (v.cancels c).Next k st) : (v.afterCancel c k st).Orderly where
  loop i := (hv.loop i).trans (hv.afterCancel_other hfree hst (.loop i) (nomatch ·)).symm
  cancel d := by
    by_cases hd : d = c
    · subst hd
      rw [cancels_afterCancel_self, hst.inside]
      exact Grip.after_self (hv.cancel d)
    · rw [cancels_afterCancel_of_ne hd, hv.cancel d]
      exact (hv.afterCancel_other hfree hst (.cancel d) (by simpa using hd)).symm
  called d hd := by
    by_cases hdc : d = c
    · subst hdc
      obtain rfl | hcalled := hst.called
      · exact if_pos ⟨rfl, rfl⟩
      · exact not_alive_afterCancel (hv.called d hcalled)
    · rw [cancels_afterCancel_of_ne hdc] at hd
      exact not_alive_afterCancel (hv.called d hd)
  aborted i hi := by
    simp only [LockedView.afterCancel] at hi
    split at hi
    next h =>
      -- a cancel asks for the abort only behind clearing the flag
      obtain ⟨rfl, rfl⟩ := h
      exact not_alive_afterCancel (hv.called c (hst.called.resolve_left (nomatch ·)))
    next h => exact not_alive_afterCancel (hv.aborted i hi)
  thrown i a h := not_alive_afterCancel (hv.thrown i a h)
  parts := hv.parts
  barred d hd := by
    by_cases hdc : d = c
    · subst hdc
      rw [cancels_afterCancel_self] at hd
      obtain hentered | rfl := hst.entered_before hd
      · exact hv.barred d hentered
      · exact Bool.eq_false_iff.2 fun hwriting =>
          Bool.eq_false_iff.1 (hv.not_inside (hfree rfl) d.loop)
            (LoopStage.isInside_of_isWriting hwriting)
    · rw [cancels_afterCancel_of_ne hdc] at hd
      exact hv.barred d hd

end Orderly

end Cancel

/-! ### Runs -/

/-- **A move keeps a view orderly.** -/
theorem Orderly.move (hv : v.Orderly) (h : v.Moves m v') : v'.Orderly := by
  cases h with
  | loop hp hst => exact hv.afterLoop hp hst
  | cancel hfree hst => exact hv.afterCancel hfree hst
  | read hfree => exact hv

theorem Orderly.run (hv : v.Orderly) (h : v.run? moves = some v') : v'.Orderly :=
  run?_keeps (fun hv hm => hv.move hm) hv h

/-- **Every run leads to an orderly view.** -/
theorem orderly_of_run (h : fresh.run? moves = some v) : v.Orderly := orderly_fresh.run h

end LockedView

end ClusterWatch
