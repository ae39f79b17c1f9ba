import ClusterWatch.Proofs.LockedView.Progress

/-!
# Barrier — a cancel that has returned bars its loop, and no other

A loop may have found its flag set just before a cancel clears it.  It is then inside the lock, and
the cancel, which enters the lock before it returns, waits for it to leave.  So behind the return of
a cancel its loop writes nothing, whatever the order of the moves (`Orderly.bars`).

* `Barred`: behind the return of a cancel its loop writes no part, every apply of the loop is
  refused, and an apply that it is still in can return.
* `Spared`: a loop whose flag is set has had each of its applies applied, and can finish the one
  that it is in, in which it is told that the status was applied, and the status is shown.
* `Untouched`: a move of a cancel changes neither what is shown, nor where a loop stands, nor the
  flag of another loop.
* `ShowsOne`: a reader sees an empty snapshot before the first apply, and otherwise the status and
  the time of one apply, the last that was applied before the read.

`cancel_bars_its_loop_alone` puts these together for every run.
-/

namespace ClusterWatch

namespace LoopStage

variable {st st' : LoopStage} {a : Instant × Status}

/-- Only a loop that has found its flag set writes. -/
theorem Next.isWriting_of_write {part : Snapshot.Part} (h : Next st (.write part a) st') :
    st.isWriting = true := by
  cases h with
  | wrote a h => rfl

/-- Only a loop that has found its flag set leaves with its status applied. -/
theorem Next.isWriting_of_leave (h : Next st (.leave true a) st') : st.isWriting = true := by
  cases h with
  | applied a => rfl

/-- Only a loop that throws its status away leaves with it refused. -/
theorem Next.eq_refused (h : Next st (.leave false a) st') : st = .refused a := by
  cases h with
  | refused a => rfl

theorem outcome_of_not_writing (h : st.isWriting = false) : st.outcome false = false := by
  cases st with
  | writing a parts => cases h
  | _ => rfl

theorem outcome_of_not_refused (h : ∀ a, st ≠ .refused a) : st.outcome true = true := by
  cases st with
  | refused a => exact absurd rfl (h a)
  | _ => rfl

end LoopStage

/-- A cancel that leaves the lock has returned. -/
theorem CancelStage.Next.eq_returned {st st' : CancelStage} (h : Next st .leave st') :
    st' = .returned := by
  cases h with
  | returned => rfl

namespace LockedView

/-- What is left to the loop `i` in the moves `rest` behind the return of one of its cancels; `v` is
the view behind them. -/
structure Barred (i : LoopId) (rest : List Move) (v : LockedView) : Prop where
  /-- It writes no part of what is shown. -/
  unwritten : ∀ part a, .loop i (.write part a) ∉ rest
  /-- Its applies return, and say that nothing was applied. -/
  refused : ∀ set a, .loop i (.leave set a) ∈ rest → set = false
  /-- If it is in an apply, it can finish it. -/
  returns : ∀ s, (v.loops i).applying? = some s →
    ∃ now moves v', v.Returns i false (now, s) moves v'

/-- What has become of the applies of the loop `i`, the flag of which is set behind `moves`. -/
structure Spared (moves : List Move) (i : LoopId) (v : LockedView) : Prop where
  /-- Each of them was applied. -/
  applied : ∀ set a, .loop i (.leave set a) ∈ moves → set = true
  /-- The loop was not aborted. -/
  unaborted : .loop i .abort ∉ moves
  /-- If it is in an apply, it can finish it, and the status is applied and shown. -/
  returns : ∀ s, (v.loops i).applying? = some s →
    ∃ now moves v', v.Returns i true (now, s) moves v' ∧ v'.shown = .ofStatus s now

/-- What a move of a cancel of the loop `i` leaves as it was. -/
structure Untouched (i : LoopId) (v v' : LockedView) : Prop where
  /-- What is shown. -/
  shown : v'.shown = v.shown
  /-- Where each loop stands. -/
  loops : v'.loops = v.loops
  /-- The flags of the other loops. -/
  alive : ∀ j, j ≠ i → v'.alive j = v.alive j
  /-- Which of the other loops are to be aborted. -/
  aborted : ∀ j, j ≠ i → v'.aborted j = v.aborted j

/-- What a reader sees behind the moves `past`: nothing, if no status has been applied, or else the
status and the time of the last apply by which one was. -/
inductive ShowsOne : List Move → Snapshot → Prop
  | nothing {past : List Move} (h : applied past = []) : ShowsOne past .empty
  | one {before rest : List Move} {i : LoopId} {s : Status} {now : Instant}
      (hown : LoopMove.ofApply true (now, s) <:+ movesOf i before) (hrest : applied rest = []) :
      ShowsOne (before ++ .loop i (.leave true (now, s)) :: rest) (.ofStatus s now)

variable {v v' u : LockedView} {m : Move} {past moves : List Move} {i j : LoopId} {c : CancelId}
  {l : LoopMove} {k : CancelMove} {a : Instant × Status} {set : Bool}

/-! ### What stays -/

/-- A cancel that has returned stays so. -/
theorem returned_run (hc : v.cancels c = .returned) (h : v.run? moves = some v') :
    v'.cancels c = .returned := by
  refine run?_keeps (P := fun v => v.cancels c = .returned) (fun hc hm => ?_) hc h
  cases hm with
  | @cancel d k st hfree hst =>
      by_cases hd : c = d
      · subst hd
        rw [hc] at hst
        cases hst
      · rwa [cancels_afterCancel_of_ne hd]
  | _ => exact hc

/-- A flag that has been cleared is not set again. -/
theorem not_alive_run (hi : v.alive i = false) (h : v.run? moves = some v') :
    v'.alive i = false := by
  refine run?_keeps (P := fun v => v.alive i = false) (fun hi hm => ?_) hi h
  cases hm with
  | cancel hfree hst => exact not_alive_afterCancel hi
  | _ => exact hi

theorem next_of_moves (h : v.Moves (.loop i l) v') : ∃ st, (v.loops i).Next l st := by
  cases h with
  | loop hp hst => exact ⟨_, hst⟩

/-- A loop moves only where the view permits it. -/
theorem permits_of_moves (h : v.Moves (.loop i l) v') : v.permits i l = true := by
  cases h with
  | loop hp hst => exact hp

theorem cancels_of_leave (h : v.Moves (.cancel c .leave) v') : v'.cancels c = .returned := by
  cases h with
  | cancel hfree hst =>
      rw [cancels_afterCancel_self]
      exact hst.eq_returned

/-! ### The loop of a cancel that has returned -/

/-- The loop of a cancel that has returned is told of no apply that it was applied, and writes
nothing. -/
theorem Orderly.bars (hv : v.Orderly) (hc : v.cancels c = .returned)
    (h : v.Moves (.loop c.loop l) v') :
    (∀ part a, l ≠ .write part a) ∧ ∀ a, l ≠ .leave true a := by
  have hnot : ¬ (v.loops c.loop).isWriting = true :=
    Bool.eq_false_iff.1 (hv.barred c (by rw [hc]; rfl))
  obtain ⟨st, hst⟩ := next_of_moves h
  constructor
  · rintro part a rfl
    exact hnot hst.isWriting_of_write
  · rintro a rfl
    exact hnot hst.isWriting_of_leave

/-- **Behind the return of a cancel its loop is barred**, whatever moves come. -/
theorem Orderly.barred_run (hv : v.Orderly) (hc : v.cancels c = .returned)
    (hrun : v.run? moves = some v') : Barred c.loop moves v' := by
  have hbars : ∀ l, .loop c.loop l ∈ moves →
      (∀ part a, l ≠ .write part a) ∧ ∀ a, l ≠ .leave true a := by
    intro l hl
    obtain ⟨before, behind, rfl⟩ := List.append_of_mem hl
    obtain ⟨u, u', hu, hm, -⟩ := run?_split hrun
    exact (hv.run hu).bars (returned_run hc hu) hm
  constructor
  case unwritten => exact fun part a hm => (hbars _ hm).1 part a rfl
  case refused =>
    intro set a hm
    cases set with
    | false => rfl
    | true => exact absurd rfl ((hbars _ hm).2 a)
  case returns =>
    intro s hs
    have hv' := hv.run hrun
    have hc' := returned_run hc hrun
    have hclear : v'.alive c.loop = false := hv'.called c (by rw [hc']; exact (nomatch ·))
    have hnot := hv'.barred c (by rw [hc']; rfl)
    have hreturns := hv'.exists_returns hs
    rwa [hclear, LoopStage.outcome_of_not_writing hnot] at hreturns

/-! ### The other loops -/

/-- A status that was applied is shown when its loop leaves the lock. -/
theorem shown_of_leave (hrun : fresh.run? moves = some v)
    (hlast : moves.getLast? = some (.loop i (.leave true a))) : v.shown = .ofTimed a := by
  obtain ⟨before, rfl⟩ := List.getLast?_eq_some_iff.1 hlast
  obtain ⟨u, u', -, hm, hu'⟩ := run?_split hrun
  obtain rfl := Option.some.inj hu'
  have hfree : u'.holder = none := by
    cases hm with
    | loop hp hst => rfl
  rw [(recorded_of_run hrun).shown_of_free hfree, applied_append]
  exact lastOf_concat _ a

/-- **A loop whose flag is set is spared**, whatever moves have come. -/
theorem spared_of_run (hrun : fresh.run? moves = some v) (hi : v.alive i = true) :
    Spared moves i v := by
  have hset : ∀ {u : LockedView} {rest}, u.run? rest = some v → u.alive i ≠ false := by
    intro u rest hrest hclear
    rw [not_alive_run hclear hrest] at hi
    cases hi
  constructor
  case applied =>
    intro set a hm
    obtain ⟨before, behind, rfl⟩ := List.append_of_mem hm
    obtain ⟨u, u', hu, hm, hrest⟩ := run?_split hrun
    obtain ⟨st, hst⟩ := next_of_moves hm
    cases set with
    | true => rfl
    | false =>
        have hclear := (orderly_of_run hu).thrown i a hst.eq_refused
        exact absurd hclear (hset ((run?_cons hm).trans hrest))
  case unaborted =>
    intro hm
    obtain ⟨before, behind, rfl⟩ := List.append_of_mem hm
    obtain ⟨u, u', hu, hm, hrest⟩ := run?_split hrun
    have hclear := (orderly_of_run hu).aborted i (permits_of_moves hm)
    exact hset ((run?_cons hm).trans hrest) hclear
  case returns =>
    intro s hs
    have hv := orderly_of_run hrun
    obtain ⟨now, rest, v', h⟩ := hv.exists_returns hs
    have hnot : ∀ a, v.loops i ≠ .refused a := fun a ha => by
      rw [hv.thrown i a ha] at hi
      cases hi
    rw [hi, LoopStage.outcome_of_not_refused hnot] at h
    have hall : fresh.run? (moves ++ rest) = some v' :=
      run?_append_eq_some_iff.2 ⟨v, hrun, h.run⟩
    have hlast : (moves ++ rest).getLast? = some (.loop i (.leave true (now, s))) := by
      rw [List.getLast?_append, h.last, Option.some_or]
    exact ⟨now, rest, v', h, shown_of_leave hall hlast⟩

/-- **A move of a cancel leaves everything else untouched.** -/
theorem untouched_of_move (h : v.Moves (.cancel c k) v') : Untouched c.loop v v' := by
  cases h with
  | cancel hfree hst =>
      exact ⟨rfl, rfl, fun j hj => if_neg fun h => hj h.2, fun j hj => if_neg fun h => hj h.2⟩

/-! ### Applies and reads -/

/-- In front of its leaving the lock, a loop has made the moves of one apply. -/
theorem ofApply_suffix {before behind : List Move}
    (hrun : fresh.run? (before ++ .loop i (.leave set a) :: behind) = some v) :
    LoopMove.ofApply set a <:+ movesOf i before := by
  obtain ⟨u, u', hu, hm, -⟩ := run?_split hrun
  obtain ⟨st, hst⟩ := next_of_moves hm
  exact hst.trail_of_leave ▸ (recorded_of_run hu).trail i

/-- While nobody is inside the lock, one apply is shown as a whole. -/
theorem showsOne_of_free (hrun : fresh.run? past = some v) (hfree : v.holder = none) :
    ShowsOne past v.shown := by
  rw [(recorded_of_run hrun).shown_of_free hfree]
  obtain hnone | ⟨before, i, a, rest, rfl, hrest⟩ := applied_cases past
  · rw [hnone]
    exact .nothing hnone
  · have hlast : applied (before ++ .loop i (.leave true a) :: rest) = applied before ++ [a] := by
      rw [applied_append]
      exact congrArg (applied before ++ a :: ·) hrest
    rw [hlast, lastOf_concat]
    exact .one (ofApply_suffix hrun) hrest

/-! ### All runs -/

/-- **A cancel that has returned bars its loop, and no other**: in whatever order any number of
loops, cancels and readers make their moves, a loop writes nothing behind the return of a cancel of
it and its applies are refused; a cancel touches nothing of another loop, and a loop whose flag is
set has its statuses applied; each apply does as it found the flag; and a reader sees what one apply
has written. -/
theorem cancel_bars_its_loop_alone (hrun : fresh.run? moves = some v) :
    (∀ past c rest, moves = past ++ .cancel c .leave :: rest → Barred c.loop rest v) ∧
    (∀ c k v', v.move? (.cancel c k) = some v' → Untouched c.loop v v') ∧
    (∀ i, (v.alive i = true ↔ ∀ n, .cancel ⟨i, n⟩ .clear ∉ moves) ∧
      (v.alive i = true → Spared moves i v)) ∧
    (∀ past i set a rest, moves = past ++ .loop i (.leave set a) :: rest →
      LoopMove.ofApply set a <:+ movesOf i past) ∧
    (∀ past x rest, moves = past ++ .read x :: rest → ShowsOne past x) := by
  refine ⟨?_, ?_, ?_, ?_, ?_⟩
  · rintro past c rest rfl
    obtain ⟨u, u', hu, hm, hrest⟩ := run?_split hrun
    exact ((orderly_of_run hu).move hm).barred_run (cancels_of_leave hm) hrest
  · exact fun c k v' h => untouched_of_move (move?_eq_some_iff.1 h)
  · exact fun i => ⟨(recorded_of_run hrun).alive i, spared_of_run hrun⟩
  · rintro past i set a rest rfl
    exact ofApply_suffix hrun
  · rintro past x rest rfl
    obtain ⟨u, u', hu, hm, -⟩ := run?_split hrun
    cases hm with
    | read hfree => exact showsOne_of_free hu hfree

/-- Two loops with a status each: a cancel clears the flag of the first between its load and its
writes, and a cancel of a third returns while that loop is in front of the lock. -/
def race : List Move :=
  let first : Instant × Status := (.ofMillis 7, ⟨⟨"a", 1, 2⟩, []⟩)
  let second : Instant × Status := (.ofMillis 9, ⟨⟨"b", 3, 4⟩, []⟩)
  [.loop ⟨0, 0⟩ (.look true), .loop ⟨0, 0⟩ (.settle (.status first.2)), .loop ⟨0, 0⟩ .enter,
    .loop ⟨0, 0⟩ (.load true first.1), .cancel ⟨⟨0, 0⟩, 0⟩ .clear, .cancel ⟨⟨0, 0⟩, 0⟩ .ask,
    .loop ⟨1, 0⟩ (.look true), .loop ⟨1, 0⟩ (.settle (.status second.2)),
    .loop ⟨0, 0⟩ (.write .master first), .loop ⟨2, 0⟩ (.look true),
    .loop ⟨0, 0⟩ (.write .agents first), .loop ⟨0, 0⟩ (.write .updatedAt first),
    .loop ⟨0, 0⟩ (.leave true first), .cancel ⟨⟨0, 0⟩, 0⟩ .enter, .cancel ⟨⟨0, 0⟩, 0⟩ .leave,
    .read (.ofTimed first), .loop ⟨2, 0⟩ (.settle (.status first.2)),
    .cancel ⟨⟨2, 0⟩, 0⟩ .clear, .cancel ⟨⟨2, 0⟩, 0⟩ .ask, .cancel ⟨⟨2, 0⟩, 0⟩ .enter,
    .cancel ⟨⟨2, 0⟩, 0⟩ .leave, .loop ⟨2, 0⟩ .enter, .loop ⟨2, 0⟩ (.load false second.1),
    .loop ⟨2, 0⟩ (.leave false (second.1, first.2)), .loop ⟨1, 0⟩ .enter,
    .loop ⟨1, 0⟩ (.load true second.1), .loop ⟨1, 0⟩ (.write .master second),
    .loop ⟨1, 0⟩ (.write .agents second), .loop ⟨1, 0⟩ (.write .updatedAt second),
    .loop ⟨1, 0⟩ (.leave true second), .read (.ofTimed second)]

theorem cancel_bars_its_loop_alone_race :
    ∃ v, fresh.run? race = some v ∧
      race = race.take 14 ++ .cancel ⟨⟨0, 0⟩, 0⟩ .leave :: race.drop 15 ∧
      Barred ⟨0, 0⟩ (race.drop 15) v ∧
      race = race.take 20 ++ .cancel ⟨⟨2, 0⟩, 0⟩ .leave :: race.drop 21 ∧
      Barred ⟨2, 0⟩ (race.drop 21) v ∧
      v.alive ⟨1, 0⟩ = true ∧ Spared race ⟨1, 0⟩ v ∧
      ShowsOne (race.take 15) (.ofTimed (.ofMillis 7, ⟨⟨"a", 1, 2⟩, []⟩)) := by
  have hrun : (fresh.run? race).isSome = true := by decide
  obtain ⟨v, hv⟩ := Option.isSome_iff_exists.1 hrun
  obtain ⟨hbarred, -, hspared, -, hread⟩ := cancel_bars_its_loop_alone hv
  have halive : v.alive ⟨1, 0⟩ = true := (hspared ⟨1, 0⟩).1.2 fun n => by
    simp [race]
  exact ⟨v, hv, rfl, hbarred (race.take 14) ⟨⟨0, 0⟩, 0⟩ _ rfl, rfl,
    hbarred (race.take 20) ⟨⟨2, 0⟩, 0⟩ _ rfl, halive, (hspared ⟨1, 0⟩).2 halive,
    hread (race.take 15) _ _ rfl⟩

end LockedView

end ClusterWatch
