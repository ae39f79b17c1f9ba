import ClusterWatch.Proofs.World.Lane

/-!
# Account — what a lane takes, issues and leaves

What holds of a lane through every step.

* `Lane.step_accounts`: the replies taken are the oldest of those that waited or came, in their
  order; the counter of fetches counts those issued; and each fetch has taken a reply, has been
  cancelled, or is in flight.
* `Lane.step_atRest`: behind a step a live loop waits with nothing to take, or sleeps until a later
  moment, at most an interval away.
* `Lane.step_final`: a reply that ends the loop is the last thing the poller's loops do in a step.
* `Lane.step_dead`: without a live loop, nothing but a start makes a poller do anything.

Each is shown for a turn, from what `Settled` says of it, then for the turns of some milliseconds by
induction, and for a step.
-/

namespace ClusterWatch

/-- The replies that events take, in their order. -/
def taken (es : List Event) : List Reply := es.filterMap (·.act.reply?)

/-- The number of fetches that events issue. -/
def issued (es : List Event) : Nat := es.countP (·.act.isIssue)

/-- The number of fetches that events cancel. -/
def cancelled (es : List Event) : Nat := es.countP (·.act = .cancelled)

/-- The reply that a step puts behind those of the poller at place `i`. -/
def Step.repliesTo (i : Nat) : Step → List Reply
  | .reply j r => if j = i then [r] else []
  | .start _ | .stop _ | .drop _ | .look | .advance _ | .updates _ => []

/-- Whether a step takes its handle from the poller at place `i`. -/
def Step.Releases (i : Nat) : Step → Prop
  | .stop j | .drop j => j = i
  | .start _ | .look | .reply _ _ | .advance _ | .updates _ => False

instance (i : Nat) (s : Step) : Decidable (s.Releases i) := by
  cases s <;> unfold Step.Releases <;> infer_instance

/-- A step that takes a handle starts nothing, brings no reply and takes no time. -/
theorem Step.Releases.spec {i : Nat} {s : Step} (h : s.Releases i) :
    s ≠ .start i ∧ s.repliesTo i = [] ∧ s.duration = 0 := by
  cases s with
  | stop j => exact ⟨Step.noConfusion, rfl, rfl⟩
  | drop j => exact ⟨Step.noConfusion, rfl, rfl⟩
  | start j => exact h.elim
  | look => exact h.elim
  | reply j r => exact h.elim
  | advance ms => exact h.elim
  | updates v => exact h.elim

namespace Lane

/-- What a call can be for the lane of the poller at place `i`. -/
theorem call_cases {i now : Nat} {x : Lane} {motive : Step → Lane × List Event → Prop}
    (idle : ∀ s, s ≠ .start i → ¬ s.Releases i → s.repliesTo i = [] → s.duration = 0 →
      motive s (x, []))
    (start : motive (.start i) (x.start i, []))
    (release : ∀ s handle, s.Releases i → motive s (x.release now handle))
    (enqueue : ∀ r, motive (.reply i r) (x.enqueue r, []))
    (advance : ∀ ms, motive (.advance ms) (x.advance ms now)) (s : Step) :
    motive s (x.call i now s) := by
  cases s with
  | start j =>
      by_cases h : j = i
      · subst h
        simpa [call] using start
      · simpa [call, h] using idle (.start j) (by simpa using h) id rfl rfl
  | stop j =>
      by_cases h : j = i
      · simpa [call, h] using release (.stop j) .free h
      · simpa [call, h] using idle (.stop j) Step.noConfusion h rfl rfl
  | drop j =>
      by_cases h : j = i
      · simpa [call, h] using release (.drop j) .gone h
      · simpa [call, h] using idle (.drop j) Step.noConfusion h rfl rfl
  | look => exact idle .look Step.noConfusion id rfl rfl
  | reply j r =>
      by_cases h : j = i
      · subst h
        simpa [call] using enqueue r
      · simpa [call, h] using idle (.reply j r) Step.noConfusion id (if_neg h) rfl
  | advance ms => exact advance ms
  | updates v => exact idle (.updates v) Step.noConfusion id rfl rfl

/-- The fetch that is in flight, as a number. -/
def inFlight (x : Lane) : Nat := (x.loop.map (·.phase.inFlight)).getD 0

/-- A lane has at most one fetch in flight. -/
theorem inFlight_le_one (x : Lane) : x.inFlight ≤ 1 := by
  rw [inFlight]
  rcases x.loop with _ | ⟨_, _ | _ | _⟩ <;> simp [Phase.inFlight]

/-- How the lane `y` and the events `es` come from the lane `x` and the replies that were appended
to its queue. -/
structure Accounts (x : Lane) (appended : List Reply) (es : List Event) (y : Lane) : Prop where
  interval : y.poller.interval = x.poller.interval
  view : y.poller.view = x.poller.view
  queue : x.poller.queue ++ appended = taken es ++ y.poller.queue
  fetches : y.poller.fetches = x.poller.fetches + issued es
  balance : issued es + x.inFlight = (taken es).length + cancelled es + y.inFlight

namespace Accounts

variable {x y z : Lane}

theorem refl (x : Lane) : Accounts x [] [] x :=
  ⟨rfl, rfl, List.append_nil _, rfl, rfl⟩

/-- The accounts of a stretch and of the next add up. -/
theorem trans {a a' : List Reply} {es es' : List Event} (h : Accounts x a es y)
    (h' : Accounts y a' es' z) : Accounts x (a ++ a') (es ++ es') z where
  interval := h'.interval.trans h.interval
  view := h'.view.trans h.view
  queue := by
    rw [← List.append_assoc, h.queue, List.append_assoc, h'.queue, ← List.append_assoc]
    simp only [taken, List.filterMap_append]
  fetches := by
    rw [h'.fetches, h.fetches, Nat.add_assoc]
    simp only [issued, List.countP_append]
  balance := by
    have := h.balance
    have := h'.balance
    simp only [taken, issued, cancelled, List.filterMap_append, List.countP_append,
      List.length_append] at *
    omega

end Accounts

/-! ### Turns -/

/-- A turn cancels nothing. -/
theorem turn_cancelled (now : Nat) (x : Lane) : cancelled (x.turn now).2 = 0 := by
  rw [turn]
  split
  · rfl
  next l hl =>
    refine List.countP_eq_zero.2 fun e he hcancelled => ?_
    obtain ⟨a, ha, rfl⟩ := List.mem_map.1 he
    have : a = .cancelled := of_decide_eq_true hcancelled
    exact (Poller.turn_settled now l.phase x.poller).cancelled (this ▸ ha)

/-- The account of a turn. -/
theorem turn_accounts (now : Nat) (x : Lane) : Accounts x [] (x.turn now).2 (x.turn now).1 := by
  rw [turn]
  split
  · exact .refl x
  next l hl =>
    have h := Poller.turn_settled now l.phase x.poller
    have hcancelled := turn_cancelled now x
    simp only [turn, hl, cancelled, List.countP_map, Function.comp_def] at hcancelled
    constructor
    · exact h.interval
    · exact h.view
    · simpa [taken, List.filterMap_map, Function.comp_def] using h.replies
    · simpa [issued, List.countP_map, Function.comp_def] using h.fetches
    · have := h.balance
      simp only [taken, issued, cancelled, inFlight, List.filterMap_map, List.countP_map,
        Function.comp_def, hl, Option.map_map, hcancelled]
      simpa [Turn.inFlight, Function.comp_def] using this

theorem run_accounts (now : Nat) (x : Lane) : Accounts x [] (x.run now).2 (x.run now).1 := by
  rw [run]
  split
  · exact turn_accounts now x
  · exact .refl x

/-- The account of some milliseconds. -/
theorem advance_accounts (ms now : Nat) (x : Lane) :
    Accounts x [] (x.advance ms now).2 (x.advance ms now).1 := by
  induction ms generalizing now x with
  | zero => exact .refl x
  | succ ms ih => exact (run_accounts (now + 1) x).trans (ih (now + 1) (x.run (now + 1)).1)

/-- The end of a loop cancels the fetch in flight, if there is one, and that is all. -/
theorem cancelling_account (now : Nat) (l : Loop) :
    taken (World.cancelling now l) = [] ∧ issued (World.cancelling now l) = 0 ∧
      cancelled (World.cancelling now l) = l.phase.inFlight := by
  rw [World.cancelling]
  cases l.phase <;> exact ⟨rfl, rfl, rfl⟩

/-- A start neither takes nor issues anything. -/
theorem start_accounts (i : Nat) (x : Lane) : Accounts x [] [] (x.start i) := by
  rw [start]
  split
  · exact .refl x
  next h =>
    -- a loop begins only where none is live, so no fetch in flight is lost
    have hloop : x.loop = none := by
      cases hloop : x.loop with
      | none => rfl
      | some l => exact absurd (.inl (by rw [hloop]; rfl)) h
    constructor
    · rfl
    · rfl
    · exact List.append_nil _
    · rfl
    · rw [inFlight, hloop]
      rfl

/-- To take its handle from a poller settles the account of the fetch in flight. -/
theorem release_accounts (now : Nat) (handle : Handle) (x : Lane) :
    Accounts x [] (x.release now handle).2 (x.release now handle).1 := by
  rw [release]
  split
  · exact .refl x
  · cases hloop : x.loop with
    | none =>
        exact ⟨rfl, rfl, List.append_nil _, rfl, by rw [inFlight, hloop]; rfl⟩
    | some l =>
        obtain ⟨htaken, hissued, hcancelled⟩ := cancelling_account now l
        rw [Option.toList_some, List.flatMap_singleton]
        constructor
        · rfl
        · rfl
        · rw [htaken]
          exact List.append_nil _
        · rw [hissued]
          rfl
        · rw [htaken, hissued, hcancelled, inFlight, hloop]
          simp [inFlight]

theorem enqueue_accounts (r : Reply) (x : Lane) : Accounts x [r] [] (x.enqueue r) :=
  ⟨rfl, rfl, rfl, rfl, by simp [issued, taken, cancelled]; rfl⟩

/-- The account of a call. -/
theorem call_accounts (i now : Nat) (x : Lane) (s : Step) :
    Accounts x (s.repliesTo i) (x.call i now s).2 (x.call i now s).1 := by
  refine call_cases (motive := fun s c => Accounts x (s.repliesTo i) c.2 c.1) ?_ ?_ ?_ ?_ ?_ s
  · intro s _ _ hs _
    rw [hs]
    exact .refl x
  · exact start_accounts i x
  · intro s handle hs
    rw [hs.spec.2.1]
    exact release_accounts now handle x
  · intro r
    rw [Step.repliesTo, if_pos rfl]
    exact enqueue_accounts r x
  · exact fun ms => advance_accounts ms now x

/-- **The account of a step.** -/
theorem step_accounts (i now : Nat) (x : Lane) (s : Step) :
    Accounts x (s.repliesTo i) (x.step i now s).2 (x.step i now s).1 := by
  rw [← List.append_nil (s.repliesTo i)]
  exact (call_accounts i now x s).trans (run_accounts _ _)

/-! ### Cancelled fetches -/

theorem run_cancelled (now : Nat) (x : Lane) : cancelled (x.run now).2 = 0 := by
  rw [run]
  split
  · exact turn_cancelled now x
  · rfl

theorem advance_cancelled (ms now : Nat) (x : Lane) : cancelled (x.advance ms now).2 = 0 := by
  induction ms generalizing now x with
  | zero => rfl
  | succ ms ih =>
      rw [advance_succ, cancelled, List.countP_append]
      exact Nat.add_eq_zero_iff.2 ⟨run_cancelled _ x, ih _ _⟩

/-- A step cancels the fetch in flight when it takes the handle from the poller, and no other. -/
theorem step_cancelled {i now : Nat} {x : Lane}
    (hx : x.loop.isSome → x.poller.handle ≠ .gone) (s : Step) :
    cancelled (x.step i now s).2 = if s.Releases i then x.inFlight else 0 := by
  rw [step_eq, cancelled, List.countP_append, ← cancelled, ← cancelled, run_cancelled,
    Nat.add_zero]
  refine call_cases
    (motive := fun s c => cancelled c.2 = if s.Releases i then x.inFlight else 0) ?_ ?_ ?_ ?_ ?_ s
  · exact fun s _ hs _ _ => (if_neg hs).symm
  · rfl
  · intro s handle hs
    rw [if_pos hs, inFlight]
    rw [release]
    cases hloop : x.loop with
    | none => split <;> rfl
    | some l =>
        rw [if_neg (hx (by rw [hloop]; rfl)), Option.toList_some, List.flatMap_singleton]
        exact (cancelling_account now l).2.2
  · exact fun _ => rfl
  · exact fun ms => advance_cancelled ms now x

/-! ### Rest -/

/-- A live loop waits with nothing to take, or sleeps until a later moment, at most an interval
away. -/
def AtRest (now : Nat) (x : Lane) : Prop :=
  ∀ l, x.loop = some l → l.phase = .waiting ∧ x.poller.queue = [] ∨
    ∃ deadline, l.phase = .sleeping deadline ∧ now < deadline ∧
      deadline ≤ now + x.poller.interval

/-- A live loop that sleeps does so for at most an interval. -/
def Bounded (now : Nat) (x : Lane) : Prop :=
  ∀ l deadline, x.loop = some l → l.phase = .sleeping deadline →
    deadline ≤ now + x.poller.interval

/-- At rest no loop has a fetch to issue. -/
theorem AtRest.not_due {now : Nat} {x : Lane} (h : x.AtRest now) {id : LoopId} :
    x.loop ≠ some ⟨id, .due⟩ := by
  intro hl
  rcases h _ hl with ⟨hphase, -⟩ | ⟨d, hphase, -⟩ <;> cases hphase

/-- At rest a loop has nothing to do. -/
theorem AtRest.not_runnable {now : Nat} {x : Lane} (h : x.AtRest now) {l : Loop}
    (hl : x.loop = some l) : x.poller.isRunnable now l.phase = false := by
  rcases h l hl with ⟨hwait, hqueue⟩ | ⟨d, hsleep, hlt, -⟩
  · simp [Poller.isRunnable, hwait, hqueue]
  · simp [Poller.isRunnable, hsleep, hlt]

/-- A lane at rest sleeps for at most an interval, also as seen later. -/
theorem AtRest.bounded {now : Nat} {x : Lane} (h : x.AtRest now) (later : Nat) :
    x.Bounded (now + later) := by
  intro l deadline hl hphase
  rcases h l hl with ⟨hwait, -⟩ | ⟨d, hd, -, hle⟩
  · cases hphase.symm.trans hwait
  · cases hphase.symm.trans hd
    omega

/-- The turn that is due brings a lane to rest. -/
theorem run_atRest {now : Nat} {x : Lane} (h : x.Bounded now) : (x.run now).1.AtRest now := by
  rw [run]
  split
  · rw [turn]
    split
    next hloop =>
      intro l hl
      cases hl.symm.trans hloop
    next l hloop =>
      intro l' hl'
      have ht := Poller.turn_settled now l.phase x.poller
      obtain ⟨ph, hph, rfl⟩ := Option.map_eq_some_iff.1 hl'
      obtain ⟨-, hwait | ⟨hsleep, hpos⟩⟩ := ht.phase ph hph
      · exact .inl hwait
      · refine .inr ⟨_, hsleep, Nat.lt_add_of_pos_right hpos, ?_⟩
        exact Nat.le_of_eq (congrArg (now + ·) ht.interval.symm)
  next hr =>
    -- nothing to do: a sleeper's deadline is still to come
    intro l (hl : x.loop = some l)
    cases hphase : l.phase with
    | due => simp [isRunnable, hl, hphase, Poller.isRunnable] at hr
    | waiting =>
        refine .inl ⟨rfl, ?_⟩
        simpa [isRunnable, hl, hphase, Poller.isRunnable] using hr
    | sleeping d =>
        refine .inr ⟨d, rfl, ?_, h l d hl hphase⟩
        simpa [isRunnable, hl, hphase, Poller.isRunnable] using hr

/-- A lane at rest comes to rest again behind each millisecond. -/
theorem advance_atRest {now : Nat} {x : Lane} (h : x.AtRest now) (ms : Nat) :
    (x.advance ms now).1.AtRest (now + ms) := by
  induction ms generalizing now x with
  | zero => exact h
  | succ ms ih =>
      rw [advance_succ, Nat.add_comm ms 1, ← Nat.add_assoc]
      exact ih (run_atRest (h.bounded 1))

/-- A call on a lane at rest makes no sleep longer than an interval. -/
theorem call_bounded {now : Nat} {x : Lane} (h : x.AtRest now) (i : Nat) (s : Step) :
    (x.call i now s).1.Bounded (now + s.duration) := by
  have hx : x.Bounded now := h.bounded 0
  refine call_cases (motive := fun s c => c.1.Bounded (now + s.duration)) ?_ ?_ ?_ ?_ ?_ s
  · intro s _ _ _ hs
    rw [hs]
    exact hx
  · rw [start]
    split
    · exact hx
    · rintro l d ⟨⟩ ⟨⟩
  · intro s handle hs
    rw [hs.spec.2.2]
    rw [release]
    split
    · exact hx
    · rintro l d ⟨⟩
  · exact fun _ => hx
  · exact fun ms => (advance_atRest h ms).bounded 0

/-- **Behind a step a lane is at rest.** -/
theorem step_atRest {now : Nat} {x : Lane} (h : x.AtRest now) (i : Nat) (s : Step) :
    (x.step i now s).1.AtRest (now + s.duration) :=
  run_atRest (call_bounded h i s)

/-! ### Ends -/

theorem run_dead {x : Lane} (h : x.loop = none) (now : Nat) : x.run now = (x, []) := by
  simp [run, isRunnable, h]

/-- Without a live loop nothing comes of time that passes. -/
theorem advance_dead {x : Lane} (h : x.loop = none) (ms now : Nat) :
    x.advance ms now = (x, []) := by
  induction ms generalizing now with
  | zero => rfl
  | succ ms ih => simp only [advance, run_dead h, ih, List.append_nil]

/-- **Without a live loop, nothing but a start makes a poller do anything.** -/
theorem step_dead {x : Lane} (h : x.loop = none) {i : Nat} (now : Nat) {s : Step}
    (hs : s ≠ .start i) : (x.step i now s).2 = [] ∧ (x.step i now s).1.loop = none := by
  have hcall : (x.call i now s).2 = [] ∧ (x.call i now s).1.loop = none := by
    refine call_cases (motive := fun s c => s ≠ .start i → c.2 = [] ∧ c.1.loop = none)
      ?_ ?_ ?_ ?_ ?_ s hs
    · exact fun _ _ _ _ _ _ => ⟨rfl, h⟩
    · exact fun hs => absurd rfl hs
    · intro s handle _ _
      rw [release]
      split
      · exact ⟨rfl, h⟩
      · exact ⟨by rw [h]; rfl, rfl⟩
    · exact fun _ _ => ⟨rfl, h⟩
    · intro ms _
      rw [advance_dead h]
      exact ⟨rfl, h⟩
  obtain ⟨hes, hloop⟩ := hcall
  simp only [step_eq, run_dead hloop, hes, hloop, List.append_nil, and_self]

/-- A reply that ends the loop is the last of the events, and leaves no live loop. -/
structure Final (es : List Event) (y : Lane) : Prop where
  last : es.Pairwise fun e _ => ¬ e.act.Ends
  dead : ∀ e ∈ es, e.act.Ends → y.loop = none

theorem Final.nil (y : Lane) : Final [] y := ⟨.nil, fun _ he => absurd he List.not_mem_nil⟩

/-- Events that end nothing, and then those of a lane that does nothing once it is dead. -/
theorem Final.append {es es' : List Event} {y z : Lane} (h : Final es y) (h' : Final es' z)
    (hdead : y.loop = none → es' = [] ∧ z = y) : Final (es ++ es') z := by
  constructor
  · refine List.pairwise_append.2 ⟨h.last, h'.last, fun e he e' he' hends => ?_⟩
    rw [(hdead (h.dead e he hends)).1] at he'
    cases he'
  · intro e he hends
    rcases List.mem_append.1 he with he | he
    · have hy := h.dead e he hends
      rw [(hdead hy).2, hy]
    · exact h'.dead e he hends

/-- A reply that ends the loop ends its turn. -/
theorem run_final (now : Nat) (x : Lane) : Final (x.run now).2 (x.run now).1 := by
  rw [run]
  split
  · rw [turn]
    split
    · exact .nil x
    next l hl =>
      have h := Poller.turn_settled now l.phase x.poller
      refine ⟨List.pairwise_map.2 h.last, fun e he hends => ?_⟩
      obtain ⟨a, ha, rfl⟩ := List.mem_map.1 he
      simp [h.ends a ha hends]
  · exact .nil x

theorem advance_final (ms now : Nat) (x : Lane) :
    Final (x.advance ms now).2 (x.advance ms now).1 := by
  induction ms generalizing now x with
  | zero => exact .nil x
  | succ ms ih =>
      rw [advance_succ]
      refine (run_final (now + 1) x).append (ih (now + 1) (x.run (now + 1)).1) fun hdead => ?_
      rw [advance_dead hdead]
      exact ⟨rfl, rfl⟩

/-- All that comes of a handle that is taken is that a fetch is cancelled. -/
theorem release_cancelled (now : Nat) (handle : Handle) (x : Lane) :
    ∀ e ∈ (x.release now handle).2, e.act = .cancelled := by
  rw [release]
  split
  · exact fun _ he => absurd he List.not_mem_nil
  · intro e he
    obtain ⟨l, -, he⟩ := List.mem_flatMap.1 he
    rw [World.mem_cancelling he]

/-- A step that takes its handle from the poller ends the loop, and all it does is to cancel the
fetch. -/
theorem step_release {x : Lane} (hx : x.loop.isSome → x.poller.handle ≠ .gone) {i : Nat} {s : Step}
    (hs : s.Releases i) (now : Nat) :
    (x.step i now s).1.loop = none ∧ ∀ e ∈ (x.step i now s).2, e.act = .cancelled := by
  have hcall : (x.call i now s).1.loop = none ∧ ∀ e ∈ (x.call i now s).2, e.act = .cancelled := by
    refine call_cases (motive := fun s c => s.Releases i →
      c.1.loop = none ∧ ∀ e ∈ c.2, e.act = .cancelled) ?_ ?_ ?_ ?_ ?_ s hs
    · exact fun _ _ hs _ _ h => absurd h hs
    · exact False.elim
    · intro s handle _ _
      refine ⟨?_, release_cancelled now handle x⟩
      rw [release]
      split
      next hgone =>
        cases hloop : x.loop with
        | none => rfl
        | some l => exact absurd hgone (hx (by rw [hloop]; rfl))
      next => rfl
    · exact fun _ => False.elim
    · exact fun _ => False.elim
  obtain ⟨hloop, hevents⟩ := hcall
  rw [step_eq, run_dead hloop, List.append_nil]
  exact ⟨hloop, hevents⟩

theorem release_final (now : Nat) (handle : Handle) (x : Lane) :
    Final (x.release now handle).2 (x.release now handle).1 := by
  have hends : ∀ e ∈ (x.release now handle).2, ¬ e.act.Ends := by
    intro e he
    rw [release_cancelled now handle x e he]
    exact not_false
  exact ⟨List.pairwise_of_forall_mem_list fun e he _ _ => hends e he,
    fun e he h => absurd h (hends e he)⟩

/-- **A reply that ends the loop is the last thing in a step.** -/
theorem step_final (i now : Nat) (x : Lane) (s : Step) :
    Final (x.step i now s).2 (x.step i now s).1 := by
  have hcall : Final (x.call i now s).2 (x.call i now s).1 := by
    refine call_cases (motive := fun _ c => Final c.2 c.1) ?_ ?_ ?_ ?_ ?_ s
    · exact fun _ _ _ _ _ => .nil x
    · exact .nil _
    · exact fun _ handle _ => release_final now handle x
    · exact fun _ => .nil _
    · exact fun ms => advance_final ms now x
  rw [step_eq]
  refine hcall.append (run_final _ _) fun hdead => ?_
  rw [run_dead hdead]
  exact ⟨rfl, rfl⟩

end Lane

end ClusterWatch
