import ClusterWatch.Proofs.Poller.Turn
import ClusterWatch.World

/-!
# Stages — when a loop issues its fetches

For the times of its fetches only some of a loop's acts count (`Act.isFetch`): that it issues a
fetch, and that the fetch takes its reply or is cancelled.  Between two of them a loop is at a
`Stage`: its next fetch is due at a known time, or a fetch waits, or it has ended.  `Stage.Next`
says which of the acts can come at a stage, and when:

* a fetch that is due is issued at the time it is due, neither sooner nor later;
* nothing but its reply or its cancellation comes after a fetch that waits;
* when a reply that does not end the loop is taken at `t`, the next fetch is due at `t + delay`.

A `Stage.Run` strings them together, and what a run says about the times of its fetches is shown
for runs alone (`Run.after_took`, `Run.window`).  That what a turn does is such a run is shown from
the definition of `Poller.settle`, by induction on the replies (`Poller.turn_continues`).
-/

namespace ClusterWatch

/-- Whether an act is that a fetch is issued, takes its reply or is cancelled. -/
def Act.isFetch : Act → Bool
  | .issued | .took _ | .cancelled => true
  | .applied _ _ => false

/-- What became of the fetches of a loop. -/
def fetchesOf (id : LoopId) (es : List Event) : List Event :=
  es.filter fun e => e.loop = id ∧ e.act.isFetch

/-- When fetches were issued. -/
def issueTimes (es : List Event) : List Nat := (es.filter (·.act.isIssue)).map (·.time)

/-- Where a loop is between two of its fetches: the next is due at a time, or one has waited since a
time, or there will be no more. -/
inductive Stage
  | due (time : Nat)
  | waiting (since : Nat)
  | ended
  deriving DecidableEq, Repr

@[simp] theorem fetchesOf_nil (id : LoopId) : fetchesOf id [] = [] := rfl

@[simp] theorem fetchesOf_append (id : LoopId) (es es' : List Event) :
    fetchesOf id (es ++ es') = fetchesOf id es ++ fetchesOf id es' := List.filter_append es es'

theorem fetchesOf_eq_nil {id : LoopId} {es : List Event} (h : ∀ e ∈ es, e.loop ≠ id) :
    fetchesOf id es = [] :=
  List.filter_eq_nil_iff.2 fun e he => by simp [h e he]

/-- The acts of one loop at one time. -/
theorem fetchesOf_map (now : Nat) (id : LoopId) (acts : List Act) :
    fetchesOf id (acts.map (⟨now, id, ·⟩)) = (acts.filter Act.isFetch).map (⟨now, id, ·⟩) := by
  simp [fetchesOf, List.filter_map, Function.comp_def]

namespace Stage

/-- What can come next of a loop's fetches, and when. -/
inductive Next (delay : Nat) : Stage → Event → Stage → Prop
  | issued (t : Nat) (id : LoopId) : Next delay (.due t) ⟨t, id, .issued⟩ (.waiting t)
  | took {since t : Nat} {id : LoopId} {r : Reply} (h : since ≤ t) (hr : ¬ r.Ends) :
      Next delay (.waiting since) ⟨t, id, .took r⟩ (.due (t + delay))
  | died {since t : Nat} {id : LoopId} {r : Reply} (h : since ≤ t) (hr : r.Ends) :
      Next delay (.waiting since) ⟨t, id, .took r⟩ .ended
  | cancelled {since t : Nat} {id : LoopId} (h : since ≤ t) :
      Next delay (.waiting since) ⟨t, id, .cancelled⟩ .ended

/-- What can come of a loop's fetches, from one stage to another. -/
inductive Run (delay : Nat) : Stage → List Event → Stage → Prop
  | nil (st : Stage) : Run delay st [] st
  | cons {st st' st'' : Stage} {e : Event} {es : List Event} (h : Next delay st e st')
      (t : Run delay st' es st'') : Run delay st (e :: es) st''

namespace Run

variable {delay : Nat} {st st' st'' : Stage} {es es' : List Event}

theorem append (h : Run delay st es st') (h' : Run delay st' es' st'') :
    Run delay st (es ++ es') st'' := by
  induction h with
  | nil => exact h'
  | cons hn _ ih => exact .cons hn (ih h')

theorem split (h : Run delay st (es ++ es') st'') :
    ∃ st', Run delay st es st' ∧ Run delay st' es' st'' := by
  induction es generalizing st with
  | nil => exact ⟨st, .nil st, h⟩
  | cons e es ih =>
      cases h with
      | cons hn ht =>
          obtain ⟨st', h, h'⟩ := ih ht
          exact ⟨st', .cons hn h, h'⟩

/-- Nothing comes of a loop that has ended. -/
theorem of_ended (h : Run delay .ended es st) : es = [] ∧ st = .ended := by
  cases h with
  | nil => exact ⟨rfl, rfl⟩
  | cons hn _ => cases hn

/-- A fetch that is due is the next to come, at its time. -/
theorem of_due {t : Nat} (h : Run delay (.due t) es st) :
    (es = [] ∧ st = .due t) ∨
      ∃ id rest, es = ⟨t, id, .issued⟩ :: rest ∧ Run delay (.waiting t) rest st := by
  cases h with
  | nil => exact .inl ⟨rfl, rfl⟩
  | cons hn ht =>
      cases hn with
      | issued t id => exact .inr ⟨id, _, rfl, ht⟩

/-- What comes behind a fetch that is issued. -/
theorem after_issued {before behind : List Event} {e : Event} (he : e.act = .issued)
    (h : Run delay st (before ++ e :: behind) st'') :
    Run delay (.waiting e.time) behind st'' := by
  obtain ⟨st', -, h⟩ := h.split
  cases h with
  | cons hn ht =>
      cases hn with
      | issued t id => exact ht
      | took => cases he
      | died => cases he
      | cancelled => cases he

/-- What comes behind a reply that does not end the loop. -/
theorem after_took {before behind : List Event} {e : Event} {r : Reply} (he : e.act = .took r)
    (hr : ¬ r.Ends) (h : Run delay st (before ++ e :: behind) st'') :
    Run delay (.due (e.time + delay)) behind st'' := by
  obtain ⟨st', -, h⟩ := h.split
  cases h with
  | cons hn ht =>
      cases hn with
      | issued => cases he
      | took _ _ => exact ht
      | died _ hr' =>
          obtain rfl := Act.took.inj he
          exact absurd hr' hr
      | cancelled => cases he

/-- What comes behind a fetch that is cancelled, or whose reply ends the loop. -/
theorem after_end {before behind : List Event} {e : Event} (he : e.act = .cancelled ∨ e.act.Ends)
    (h : Run delay st (before ++ e :: behind) st'') : behind = [] := by
  obtain ⟨st', -, h⟩ := h.split
  cases h with
  | cons hn ht =>
      cases hn with
      | issued => rcases he with he | he <;> cases he
      | took _ hr => rcases he with he | he; cases he; exact absurd he hr
      | died => exact ht.of_ended.1
      | cancelled => exact ht.of_ended.1

/-- Until a fetch that waits has taken its reply or been cancelled, nothing comes. -/
theorem of_waiting {since : Nat} (h : Run delay (.waiting since) es st) :
    (es = [] ∧ st = .waiting since) ∨
      ∃ e rest, es = e :: rest ∧ since ≤ e.time ∧
        ((∃ r, e.act = .took r) ∨ e.act = .cancelled) := by
  cases h with
  | nil => exact .inl ⟨rfl, rfl⟩
  | cons hn ht =>
      cases hn with
      | took h _ => exact .inr ⟨_, _, rfl, h, .inl ⟨_, rfl⟩⟩
      | died h _ => exact .inr ⟨_, _, rfl, h, .inl ⟨_, rfl⟩⟩
      | cancelled h => exact .inr ⟨_, _, rfl, h, .inr rfl⟩

end Run

/-- When the next fetch can be issued at the soonest. -/
def soonest (delay : Nat) : Stage → Nat
  | .due t => t
  | .waiting since => since + delay
  | .ended => 0

/-- The fetches of a run are a delay apart. -/
theorem Run.spaced {delay : Nat} {st st' : Stage} {es : List Event} (h : Run delay st es st') :
    (issueTimes es).Pairwise (fun t t' => t + delay ≤ t') ∧
      ∀ t ∈ issueTimes es, st.soonest delay ≤ t := by
  induction h with
  | nil => exact ⟨.nil, fun _ ht => nomatch ht⟩
  | cons hn ht ih =>
      obtain ⟨hpairs, hfirst⟩ := ih
      cases hn with
      | issued t id =>
          refine ⟨List.pairwise_cons.2 ⟨hfirst, hpairs⟩, fun t' ht' => ?_⟩
          rcases List.mem_cons.1 ht' with rfl | ht'
          · exact Nat.le_refl _
          · exact Nat.le_trans (Nat.le_add_right _ _) (hfirst t' ht')
      | took h hr =>
          refine ⟨hpairs, fun t' ht' => Nat.le_trans ?_ (hfirst t' ht')⟩
          exact Nat.add_le_add_right h delay
      | died h hr =>
          obtain ⟨rfl, rfl⟩ := ht.of_ended
          exact ⟨.nil, fun _ ht => nomatch ht⟩
      | cancelled h =>
          obtain ⟨rfl, rfl⟩ := ht.of_ended
          exact ⟨.nil, fun _ ht => nomatch ht⟩

/-- Times in a window that are a delay apart do not reach further than the window and a delay. -/
theorem length_mul_le_of_spaced {delay first last : Nat} {ts : List Nat}
    (h : ts.Pairwise fun t t' => t + delay ≤ t') (hin : ∀ t ∈ ts, first ≤ t ∧ t ≤ last)
    (hle : first ≤ last + delay) : first + ts.length * delay ≤ last + delay := by
  induction ts generalizing first with
  | nil => simpa using hle
  | cons t ts ih =>
      obtain ⟨hfirst, hrest⟩ := List.pairwise_cons.1 h
      obtain ⟨hge, hlast⟩ := hin t List.mem_cons_self
      have hlater : t + delay + ts.length * delay ≤ last + delay :=
        ih hrest (fun t' ht' => ⟨hfirst t' ht', (hin t' (List.mem_cons_of_mem t ht')).2⟩) (by omega)
      rw [List.length_cons, Nat.succ_mul]
      omega

/-- In a window of time there is one fetch, and one more for each delay that fits into it. -/
theorem Run.window {delay : Nat} (hdelay : 0 < delay) {st st' : Stage} {es : List Event}
    (h : Run delay st es st') (first length : Nat) :
    (issueTimes es).countP (fun t => first ≤ t ∧ t ≤ first + length) ≤ 1 + length / delay := by
  rw [List.countP_eq_length_filter]
  have hspaced := h.spaced.1.filter fun t => decide (first ≤ t ∧ t ≤ first + length)
  have hle := length_mul_le_of_spaced hspaced (fun t ht => by
    simpa using (List.mem_filter.1 ht).2) (by omega)
  rw [Nat.add_comm 1, ← Nat.add_div_right length hdelay, Nat.le_div_iff_mul_le hdelay]
  omega

end Stage

open Stage (Run)

/-! ### Turns -/

/-- The stages at which a loop can be by its phase. -/
inductive Phase.Fits (now : Nat) : Phase → Stage → Prop
  | due : Fits now .due (.due now)
  | waiting {since : Nat} (h : since ≤ now) : Fits now .waiting (.waiting since)
  | sleeping {deadline : Nat} (h : now ≤ deadline) : Fits now (.sleeping deadline) (.due deadline)

/-- Whether a turn leaves its loop at a stage. -/
def Turn.Leaves (now : Nat) (t : Turn) (st : Stage) : Prop :=
  match t.phase with
  | none => st = .ended
  | some phase => phase.Fits now st

/-- Whether what a turn does about the fetches of its loop goes on from a stage. -/
def Turn.Continues (now : Nat) (id : LoopId) (delay : Nat) (st : Stage) (t : Turn) : Prop :=
  ∃ st', Run delay st (fetchesOf id (t.acts.map (⟨now, id, ·⟩))) st' ∧ t.Leaves now st'

namespace Poller

theorem filter_isFetch_applying (p : Poller) (reply : Reply) :
    (p.applying reply).filter Act.isFetch = [] := by
  refine List.filter_eq_nil_iff.2 fun a ha => ?_
  obtain ⟨s, rfl⟩ := mem_applying ha
  exact Bool.false_ne_true

/-- A fetch that waits takes the replies that are there, each followed by a fetch with no delay. -/
theorem settle_continues {since now : Nat} (hsince : since ≤ now) (replies : List Reply)
    {p : Poller} (hg : p.handle ≠ .gone) (id : LoopId) :
    (p.settle now replies).Continues now id p.interval (.waiting since) := by
  induction replies generalizing p since with
  | nil => exact ⟨_, .nil _, .waiting hsince⟩
  | cons reply rest ih =>
      rw [settle]
      by_cases hend : reply = .panics ∨ (p.afterTaking reply rest).handle = .gone
      · have hr : reply.Ends := (ends_iff.1 hend).resolve_right hg
        rw [if_pos hend, Turn.Continues, fetchesOf_map]
        exact ⟨.ended, .cons (.died hsince hr) (.nil _), rfl⟩
      · obtain ⟨hr, -⟩ := not_or.1 (mt ends_iff.2 hend)
        have hheld : (p.afterTaking reply rest).handle = p.handle :=
          afterTaking_handle_of_not_ends hr
        rw [if_neg hend]
        by_cases h0 : (p.afterTaking reply rest).interval = 0
        · -- with no delay the next fetch is due at once
          obtain ⟨st, hrun, hleaves⟩ := ih
            (p := { p.afterTaking reply rest with fetches := (p.afterTaking reply rest).fetches + 1 })
            (Nat.le_refl now) (hheld ▸ hg)
          have hinterval : p.interval = 0 := h0
          rw [if_pos h0]
          refine ⟨st, ?_, hleaves⟩
          rw [fetchesOf_map] at hrun ⊢
          simp only [List.cons_append, List.filter_cons, List.filter_append,
            filter_isFetch_applying, Act.isFetch, if_true, List.nil_append, List.map_cons]
          refine .cons (.took hsince hr) ?_
          rw [hinterval]
          exact .cons (.issued now id) (hinterval ▸ hrun)
        · rw [if_neg h0, Turn.Continues, fetchesOf_map]
          refine ⟨.due (now + p.interval), ?_, .sleeping (Nat.le_add_right _ _)⟩
          simp only [List.filter_cons, filter_isFetch_applying, Act.isFetch, if_true, List.map_cons,
            List.map_nil]
          exact .cons (.took hsince hr) (.nil _)

theorem issue_continues (now : Nat) {p : Poller} (hg : p.handle ≠ .gone) (id : LoopId) :
    (p.issue now).Continues now id p.interval (.due now) := by
  obtain ⟨st, hrun, hleaves⟩ := settle_continues (p := { p with fetches := p.fetches + 1 })
    (Nat.le_refl now) p.queue hg id
  refine ⟨st, ?_, hleaves⟩
  rw [fetchesOf_map] at hrun ⊢
  exact .cons (.issued now id) hrun

/-- **A turn of a loop that has something to do goes on from the stage of the loop.** -/
theorem turn_continues {now : Nat} {phase : Phase} {st : Stage} (hfit : phase.Fits now st)
    {p : Poller} (hg : p.handle ≠ .gone) (hrun : p.isRunnable now phase = true) (id : LoopId) :
    (p.turn now phase).Continues now id p.interval st := by
  cases hfit with
  | due => exact issue_continues now hg id
  | waiting hsince => exact settle_continues hsince p.queue hg id
  | sleeping h =>
      -- it wakes at its deadline and not after it
      obtain rfl := Nat.le_antisymm h (of_decide_eq_true hrun)
      exact issue_continues now hg id

end Poller

end ClusterWatch
