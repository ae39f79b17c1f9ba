import ClusterWatch.Proofs.LockedView.Record

/-!
# Progress — nobody is kept out of the lock

Whoever is inside the lock can leave it by its own moves (`Orderly.exists_frees`): a cancel with its
last move, a loop once it has loaded its flag and, if it found it set, written the parts that are
left.  So a loop that is in an apply can finish it, needing no move of any thread but its own and of
the one that is inside (`Orderly.exists_returns`), and its flag decides what it is told.
-/

namespace ClusterWatch

/-- Whether a move is one of the thread `t`. -/
def Move.isBy (t : Thread) : Move → Bool
  | .loop i _ => t = .loop i
  | .cancel c _ => t = .cancel c
  | .read _ => false

/-- The status of the apply that a loop is in. -/
def LoopStage.applying? : LoopStage → Option Status
  | .arriving s | .inside s => some s
  | .writing a _ | .refused a => some a.2
  | .due | .fetching | .sleeping | .ended => none

/-- What a loop will be told at the end of the apply that it is in, if `alive` is its flag. -/
def LoopStage.outcome (alive : Bool) : LoopStage → Bool
  | .writing _ _ => true
  | .refused _ => false
  | .due | .fetching | .arriving _ | .inside _ | .sleeping | .ended => alive

theorem CancelStage.eq_inside {st : CancelStage} (h : st.isInside = true) : st = .inside := by
  cases st with
  | inside => rfl
  | _ => cases h

namespace LockedView

variable {v v' : LockedView} {i j : LoopId} {m : Move} {moves : List Move} {l : LoopMove}
  {st : LoopStage} {a : Instant × Status} {set : Bool}

/-- Moves of the thread inside the lock, if there is one, by which it leaves the lock. -/
structure Frees (v : LockedView) (moves : List Move) (v' : LockedView) : Prop where
  run : v.run? moves = some v'
  own : ∀ m ∈ moves, ∃ t, v.holder = some t ∧ m.isBy t = true
  free : v'.holder = none
  alive : v'.alive = v.alive
  loops : ∀ j, v.holder ≠ some (.loop j) → v'.loops j = v.loops j

/-- Moves by which the loop `i` leaves the lock at the end of an apply, told `set`; they are its own
and those of the thread inside the lock. -/
structure Returns (v : LockedView) (i : LoopId) (set : Bool) (a : Instant × Status)
    (moves : List Move) (v' : LockedView) : Prop where
  /-- The moves can happen. -/
  run : v.run? moves = some v'
  /-- No thread makes one but the loop and whoever is inside the lock. -/
  own : ∀ m ∈ moves, m.isBy (.loop i) = true ∨ ∃ t, v.holder = some t ∧ m.isBy t = true
  /-- With the last of them the apply returns. -/
  last : moves.getLast? = some (.loop i (.leave set a))

theorem run?_cons (h : v.Moves m v') : v.run? (m :: moves) = v'.run? moves := by
  rw [run?, move?_eq_some_iff.2 h, Option.bind_some]

theorem isBy_loop (i : LoopId) (l : LoopMove) : (Move.loop i l).isBy (.loop i) = true :=
  decide_eq_true rfl

theorem getLast?_cons_of {m m' : Move} (h : moves.getLast? = some m') :
    (m :: moves).getLast? = some m' := by
  rw [List.getLast?_cons, h, Option.getD_some]

/-! ### Leaving the lock -/

/-- The last move of a loop inside the lock frees the lock. -/
theorem frees_leave (hi : v.holder = some (.loop i)) (hst : (v.loops i).Next (.leave set a) st) :
    v.Frees [.loop i (.leave set a)] (v.afterLoop i (.leave set a) st) where
  run := run?_cons (.loop rfl hst)
  own m hm := by
    rw [List.mem_singleton.1 hm]
    exact ⟨_, hi, isBy_loop i _⟩
  free := rfl
  alive := rfl
  loops j hj := loops_afterLoop_of_ne (by rintro rfl; exact hj hi)

/-- A move that a loop makes inside the lock can go before those that free it. -/
theorem Frees.cons (hi : v.holder = some (.loop i)) (hp : v.permits i l = true)
    (hst : (v.loops i).Next l st) (hl : l.grip = .keeps)
    (h : (v.afterLoop i l st).Frees moves v') : v.Frees (.loop i l :: moves) v' := by
  have hholder : (v.afterLoop i l st).holder = v.holder := by
    simp only [afterLoop, hl, Grip.after]
  constructor
  case run => exact (run?_cons (.loop hp hst)).trans h.run
  case own =>
    intro m hm
    obtain rfl | hm := List.mem_cons.1 hm
    · exact ⟨_, hi, isBy_loop i l⟩
    · exact hholder ▸ h.own m hm
  case free => exact h.free
  case alive => exact h.alive
  case loops =>
    intro j hj
    rw [h.loops j (hholder ▸ hj), loops_afterLoop_of_ne (by rintro rfl; exact hj hi)]

namespace Orderly

/-- A loop that is writing can write the `left` parts that are left, and leave. -/
theorem exists_frees_writing (hv : v.Orderly) {parts left : Nat}
    (hst : v.loops i = .writing a parts) (hleft : Snapshot.Part.all.length = parts + left) :
    ∃ moves v', v.Frees moves v' ∧ moves.getLast? = some (.loop i (.leave true a)) := by
  induction left generalizing v parts with
  | zero =>
      obtain rfl : parts = Snapshot.Part.all.length := hleft.symm
      have hi : v.holder = some (.loop i) := (hv.loop i).1 (by rw [hst]; rfl)
      have hnext : (v.loops i).Next (.leave true a) .sleeping := by
        rw [hst]
        exact .applied a
      exact ⟨_, _, frees_leave hi hnext, rfl⟩
  | succ left ih =>
      have hi : v.holder = some (.loop i) := (hv.loop i).1 (by rw [hst]; rfl)
      have hlt : parts < Snapshot.Part.all.length := by omega
      have hnext :
          (v.loops i).Next (.write Snapshot.Part.all[parts] a) (.writing a (parts + 1)) := by
        rw [hst]
        exact .wrote a (List.getElem?_eq_getElem hlt)
      obtain ⟨moves, v', h, hlast⟩ :=
        ih (hv.afterLoop rfl hnext) (loops_afterLoop_self ..) (by omega)
      exact ⟨_, v', h.cons hi rfl hnext rfl, getLast?_cons_of hlast⟩

/-- A loop inside the lock can leave it, and is told what its flag decides. -/
theorem exists_frees_inside (hv : v.Orderly) (hi : (v.loops i).isInside = true) :
    ∃ a moves v', (v.loops i).applying? = some a.2 ∧ v.Frees moves v' ∧
      moves.getLast? = some (.loop i (.leave ((v.loops i).outcome (v.alive i)) a)) := by
  have hholder := (hv.loop i).1 hi
  cases hst : v.loops i with
  | writing a parts =>
      have hle := hv.parts i a parts hst
      obtain ⟨moves, v', h, hlast⟩ :=
        hv.exists_frees_writing hst (Nat.add_sub_of_le hle).symm
      exact ⟨a, moves, v', rfl, h, hlast⟩
  | refused a =>
      have hnext : (v.loops i).Next (.leave false a) .ended := by
        rw [hst]
        exact .refused a
      exact ⟨a, _, _, rfl, frees_leave hholder hnext, rfl⟩
  | inside s =>
      let now : Instant := .ofMillis 0
      cases halive : v.alive i with
      | true =>
          have hp : v.permits i (.load true now) = true := decide_eq_true halive
          have hnext : (v.loops i).Next (.load true now) (.writing (now, s) 0) := by
            rw [hst]
            exact .found s now
          obtain ⟨moves, v', h, hlast⟩ := (hv.afterLoop hp hnext).exists_frees_writing
            (loops_afterLoop_self ..) (Nat.zero_add _).symm
          exact ⟨(now, s), _, v', rfl, h.cons hholder hp hnext rfl, getLast?_cons_of hlast⟩
      | false =>
          have hp : v.permits i (.load false now) = true := decide_eq_true halive
          have hnext : (v.loops i).Next (.load false now) (.refused (now, s)) := by
            rw [hst]
            exact .missed s now
          have hrest : ((v.afterLoop i (.load false now) (.refused (now, s))).loops i).Next
              (.leave false (now, s)) .ended := by
            rw [loops_afterLoop_self]
            exact .refused (now, s)
          have hinside : (v.afterLoop i (.load false now) (.refused (now, s))).holder =
              some (.loop i) := hholder
          exact ⟨(now, s), _, _, rfl, (frees_leave hinside hrest).cons hholder hp hnext rfl, rfl⟩
  | _ =>
      rw [hst] at hi
      cases hi

/-- The thread inside the lock can leave it by its own moves. -/
theorem exists_frees (hv : v.Orderly) : ∃ moves v', v.Frees moves v' := by
  cases hholder : v.holder with
  | none =>
      exact ⟨[], v, rfl, fun _ h => absurd h List.not_mem_nil, hholder, rfl, fun _ _ => rfl⟩
  | some t =>
      cases t with
      | loop i =>
          obtain ⟨_, moves, v', -, h, -⟩ := hv.exists_frees_inside ((hv.loop i).2 hholder)
          exact ⟨moves, v', h⟩
      | cancel c =>
          have hnext : (v.cancels c).Next .leave .returned := by
            rw [CancelStage.eq_inside ((hv.cancel c).2 hholder)]
            exact .returned
          refine ⟨[.cancel c .leave], _, run?_cons (.cancel (nomatch ·) hnext), fun m hm => ?_, rfl,
            by simp [LockedView.afterCancel], fun _ _ => rfl⟩
          rw [List.mem_singleton.1 hm]
          exact ⟨_, hholder, decide_eq_true rfl⟩

/-- A loop that is in an apply can finish it, and is told what its flag decides. -/
theorem exists_returns (hv : v.Orderly) {s : Status} (hs : (v.loops i).applying? = some s) :
    ∃ now moves v', v.Returns i ((v.loops i).outcome (v.alive i)) (now, s) moves v' := by
  cases hi : (v.loops i).isInside with
  | true =>
      obtain ⟨a, moves, v', ha, h, hlast⟩ := hv.exists_frees_inside hi
      obtain rfl := Option.some.inj (ha.symm.trans hs)
      exact ⟨a.1, moves, v', h.run, fun m hm => .inr (h.own m hm), hlast⟩
  | false =>
      have hst : v.loops i = .arriving s := by
        cases hst : v.loops i with
        | arriving s' =>
            rw [hst] at hs
            rw [Option.some.inj hs]
        | _ => simp [hst, LoopStage.applying?, LoopStage.isInside] at hs hi
      have hnot : v.holder ≠ some (.loop i) := by
        rw [Ne, ← hv.loop i, hi]
        exact Bool.false_ne_true
      -- whoever is inside leaves, then the loop goes in and through
      obtain ⟨first, u, hu⟩ := hv.exists_frees
      have hst' : u.loops i = .arriving s := (hu.loops i hnot).trans hst
      have hp : u.permits i .enter = true := decide_eq_true hu.free
      have hnext : (u.loops i).Next .enter (.inside s) := by
        rw [hst']
        exact .entered s
      have hu' := (hv.run hu.run).afterLoop hp hnext
      have hself := loops_afterLoop_self u i .enter (.inside s)
      obtain ⟨a, rest, v', ha, h, hlast⟩ := hu'.exists_frees_inside (by rw [hself]; rfl)
      rw [hself] at ha hlast
      obtain rfl := Option.some.inj ha
      refine ⟨a.1, first ++ .loop i .enter :: rest, v', ?_, fun m hm => ?_, ?_⟩
      · rw [run?_append, hu.run, Option.bind_some, run?_cons (.loop hp hnext)]
        exact h.run
      · obtain hm | hm := List.mem_append.1 hm
        · exact .inr (hu.own m hm)
        · obtain rfl | hm := List.mem_cons.1 hm
          · exact .inl (isBy_loop i .enter)
          · obtain ⟨t, ht, hby⟩ := h.own m hm
            obtain rfl : Thread.loop i = t := Option.some.inj ht
            exact .inl hby
      · rw [List.getLast?_append, getLast?_cons_of hlast, hst]
        exact congrArg (fun alive => some (Move.loop i (.leave alive a))) (congrFun hu.alive i)

end Orderly

end LockedView

end ClusterWatch
