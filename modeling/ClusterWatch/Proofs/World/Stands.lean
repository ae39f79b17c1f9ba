import ClusterWatch.Proofs.Poller.Stage
import ClusterWatch.Proofs.World.Account

/-!
# Stands — a loop in its lane, from stage to stage

A loop is `Unborn` until a start of its poller begins it (`Lane.Begins`); then it stands at a
`Stage` (`Lane.Stands`), live or `Past`.

* `Lane.step_unborn` and `Lane.step_past`: nothing comes of a loop that is not live.
* `Lane.step_begins`: the step that starts a loop issues its first fetch.
* `Lane.step_stands`: a step leads a loop from its stage to the next by a `Stage.Run`.  The one
  exception is a loop that sleeps and is torn down, of which no event tells (`Torn`).
* `Lane.step_sleeping`: nothing else than that and its deadline ends the sleep of a loop.
* `World.Owned.serves`: the loop that takes a reply is the one that its poller holds.

What a deadline needs to be met is that time passes in steps of one millisecond and that a lane is
at rest behind each: no sleeper is then past its deadline (`Stands.later`).
-/

namespace ClusterWatch

open Stage (Run)

/-- The fetches of a loop are among the events of its poller. -/
theorem fetchesOf_eventsOf (id : LoopId) (es : List Event) :
    fetchesOf id (eventsOf id.poller es) = fetchesOf id es := by
  rw [fetchesOf, fetchesOf, eventsOf, List.filter_filter]
  refine List.filter_congr fun e _ => ?_
  by_cases h : e.loop = id
  · simp [h]
  · simp [h]

namespace Lane

/-- Whether a loop is not the live one. -/
def Without (id : LoopId) (x : Lane) : Prop := ∀ l, x.loop = some l → l.id ≠ id

/-- A live loop of a poller that is still there, at a phase. -/
structure Carries (id : LoopId) (phase : Phase) (x : Lane) : Prop where
  loop : x.loop = some ⟨id, phase⟩
  held : x.poller.handle ≠ .gone
  counted : id.round < x.poller.rounds

/-- Whether a loop is over. -/
structure Past (id : LoopId) (x : Lane) : Prop where
  without : x.Without id
  counted : id.round < x.poller.rounds

/-- Whether a loop has not been started. -/
structure Unborn (id : LoopId) (x : Lane) : Prop where
  without : x.Without id
  counted : x.poller.rounds ≤ id.round

/-- The stages of a loop that has been started. -/
inductive Stands (now : Nat) (id : LoopId) (x : Lane) : Stage → Prop
  | live {phase : Phase} {st : Stage} (h : x.Carries id phase) (hfit : phase.Fits now st) :
      Stands now id x st
  | finished (h : x.Past id) : Stands now id x .ended

/-- Whether a step starts a loop. -/
def Begins (i : Nat) (s : Step) (x : Lane) : Prop :=
  s = .start i ∧ x.loop = none ∧ x.poller.handle ≠ .gone

variable {x : Lane} {i now : Nat} {id : LoopId}

/-! ### Rounds -/

/-- A turn starts no loop. -/
theorem run_rounds (now : Nat) (x : Lane) : (x.run now).1.poller.rounds = x.poller.rounds := by
  rw [run]
  split
  · rw [turn]
    split
    · rfl
    next l hl => exact (Poller.turn_settled now l.phase x.poller).rounds
  · rfl

theorem advance_rounds (ms now : Nat) (x : Lane) :
    (x.advance ms now).1.poller.rounds = x.poller.rounds := by
  induction ms generalizing now x with
  | zero => rfl
  | succ ms ih => exact (ih _ _).trans (run_rounds _ x)

theorem start_of_not_begins (h : ¬ x.Begins i (.start i)) : x.start i = x := by
  refine if_pos ?_
  by_cases hloop : x.loop = none
  · exact .inr (by_contra fun hg => h ⟨rfl, hloop, hg⟩)
  · exact .inl (Option.isSome_iff_ne_none.2 hloop)

/-- A start that begins a loop gives it the next round. -/
theorem start_of_begins (h : x.Begins i (.start i)) :
    x.start i =
      ⟨{ x.poller with handle := .held x.poller.rounds, rounds := x.poller.rounds + 1 },
        some ⟨⟨i, x.poller.rounds⟩, .due⟩⟩ := by
  obtain ⟨-, hloop, hg⟩ := h
  exact if_neg (by simp [hloop, hg])

/-- Only a start that begins a loop is counted. -/
theorem step_rounds (i now : Nat) (x : Lane) (s : Step) :
    (x.Begins i s ∧ (x.step i now s).1.poller.rounds = x.poller.rounds + 1) ∨
      (¬ x.Begins i s ∧ (x.step i now s).1.poller.rounds = x.poller.rounds) := by
  rw [step_eq]
  simp only [run_rounds]
  refine call_cases (motive := fun s c =>
    (x.Begins i s ∧ c.1.poller.rounds = x.poller.rounds + 1) ∨
      (¬ x.Begins i s ∧ c.1.poller.rounds = x.poller.rounds)) ?_ ?_ ?_ ?_ ?_ s
  · exact fun s hs _ _ _ => .inr ⟨fun h => hs h.1, rfl⟩
  · by_cases h : x.Begins i (.start i)
    · exact .inl ⟨h, by rw [start_of_begins h]⟩
    · exact .inr ⟨h, by rw [start_of_not_begins h]⟩
  · intro s handle hs
    refine .inr ⟨fun h => hs.spec.1 h.1, ?_⟩
    rw [release]
    split <;> rfl
  · exact fun r => .inr ⟨fun h => (by cases h.1), rfl⟩
  · exact fun ms => .inr ⟨fun h => (by cases h.1), advance_rounds ms now x⟩

/-! ### A loop that is not live -/

theorem run_without (h : x.Without id) (now : Nat) :
    (x.run now).1.Without id ∧ fetchesOf id (x.run now).2 = [] := by
  rw [run]
  split
  · rw [turn]
    split
    · exact ⟨h, rfl⟩
    next l hl =>
      refine ⟨fun l' hl' => ?_, fetchesOf_eq_nil fun e he => ?_⟩
      · obtain ⟨_, -, rfl⟩ := Option.map_eq_some_iff.1 hl'
        exact h l hl
      · obtain ⟨_, -, rfl⟩ := List.mem_map.1 he
        exact h l hl
  · exact ⟨h, rfl⟩

theorem advance_without (h : x.Without id) (ms now : Nat) :
    (x.advance ms now).1.Without id ∧ fetchesOf id (x.advance ms now).2 = [] := by
  induction ms generalizing now x with
  | zero => exact ⟨h, rfl⟩
  | succ ms ih =>
      obtain ⟨hrun, hnone⟩ := run_without h (now + 1)
      obtain ⟨hrest, hnone'⟩ := ih hrun (now + 1)
      rw [advance_succ, fetchesOf_append, hnone, hnone']
      exact ⟨hrest, rfl⟩

/-- A step does nothing about a loop that is not live, unless it starts that loop. -/
theorem step_without (h : x.Without id) {s : Step}
    (hnew : x.Begins i s → id ≠ ⟨i, x.poller.rounds⟩) (now : Nat) :
    (x.step i now s).1.Without id ∧ fetchesOf id (x.step i now s).2 = [] := by
  have hcall : (x.call i now s).1.Without id ∧ fetchesOf id (x.call i now s).2 = [] := by
    refine call_cases (motive := fun s c =>
      (x.Begins i s → id ≠ ⟨i, x.poller.rounds⟩) → c.1.Without id ∧ fetchesOf id c.2 = [])
      ?_ ?_ ?_ ?_ ?_ s hnew
    · exact fun _ _ _ _ _ _ => ⟨h, rfl⟩
    · intro hnew
      by_cases hb : x.Begins i (.start i)
      · rw [start_of_begins hb]
        refine ⟨?_, rfl⟩
        rintro l ⟨⟩
        exact (hnew hb).symm
      · rw [start_of_not_begins hb]
        exact ⟨h, rfl⟩
    · intro s handle _ _
      rw [release]
      split
      · exact ⟨h, rfl⟩
      · refine ⟨fun l hl => (by cases hl), fetchesOf_eq_nil fun e he => ?_⟩
        obtain ⟨l, hl, he⟩ := List.mem_flatMap.1 he
        rw [World.mem_cancelling he]
        exact h l (by simpa using hl)
    · exact fun r _ => ⟨h, rfl⟩
    · exact fun ms _ => advance_without h ms now
  obtain ⟨hwithout, hnone⟩ := hcall
  obtain ⟨hwithout', hnone'⟩ := run_without hwithout (now + s.duration)
  rw [step_eq, fetchesOf_append, hnone, hnone']
  exact ⟨hwithout', rfl⟩

/-- A loop that is over stays so. -/
theorem step_past (h : x.Past id) (i now : Nat) (s : Step) :
    (x.step i now s).1.Past id ∧ fetchesOf id (x.step i now s).2 = [] := by
  have hnew : id ≠ ⟨i, x.poller.rounds⟩ := fun he => by
    have := h.counted
    rw [he] at this
    exact Nat.lt_irrefl _ this
  obtain ⟨hwithout, hnone⟩ := step_without h.without (i := i) (s := s) (fun _ => hnew) now
  refine ⟨⟨hwithout, ?_⟩, hnone⟩
  have := h.counted
  rcases step_rounds i now x s with ⟨-, hr⟩ | ⟨-, hr⟩ <;> omega

/-- A loop stays unborn unless a step starts it. -/
theorem step_unborn (h : x.Unborn id) {s : Step}
    (hnew : x.Begins i s → id.round ≠ x.poller.rounds) (now : Nat) :
    (x.step i now s).1.Unborn id ∧ fetchesOf id (x.step i now s).2 = [] := by
  obtain ⟨hwithout, hnone⟩ :=
    step_without h.without (fun hb he => hnew hb (congrArg LoopId.round he)) now
  refine ⟨⟨hwithout, ?_⟩, hnone⟩
  have := h.counted
  rcases step_rounds i now x s with ⟨hb, hr⟩ | ⟨-, hr⟩
  · have := hnew hb
    omega
  · omega

/-! ### A live loop -/

/-- At rest, a fetch that is due lies ahead. -/
theorem Stands.ahead {t : Nat} (h : x.Stands now id (.due t)) (hrest : x.AtRest now) :
    x.Carries id (.sleeping t) ∧ now < t := by
  cases h with
  | live hx hfit =>
      cases hfit with
      | due => exact absurd hx.loop hrest.not_due
      | sleeping =>
          rcases hrest _ hx.loop with ⟨h, -⟩ | ⟨d, h, hlt, -⟩
          · cases h
          · cases h
            exact ⟨hx, hlt⟩

/-- A moment later nothing is missed. -/
theorem Stands.later {st : Stage} (h : x.Stands now id st) (hrest : x.AtRest now) :
    x.Stands (now + 1) id st := by
  cases h with
  | finished h => exact .finished h
  | live hx hfit =>
      cases hfit with
      | due => exact absurd hx.loop hrest.not_due
      | waiting h => exact .live hx (.waiting (Nat.le_succ_of_le h))
      | sleeping h =>
          obtain ⟨hx, hlt⟩ := (Stands.live hx (.sleeping h)).ahead hrest
          exact .live hx (.sleeping hlt)

/-- The turn that is due leads a loop on from its stage. -/
theorem run_stands {st : Stage} (h : x.Stands now id st) :
    ∃ st', Run x.poller.interval st (fetchesOf id (x.run now).2) st' ∧
      (x.run now).1.Stands now id st' := by
  cases h with
  | finished h =>
      obtain ⟨hwithout, hnone⟩ := run_without h.without now
      rw [hnone]
      exact ⟨.ended, .nil _, .finished ⟨hwithout, (run_rounds now x).symm ▸ h.counted⟩⟩
  | @live phase _ hx hfit =>
      by_cases hr : x.isRunnable now = true
      · have hrun : x.poller.isRunnable now phase = true := by
          simpa only [isRunnable, hx.loop] using hr
        obtain ⟨st', hfetches, hleaves⟩ := Poller.turn_continues hfit hx.held hrun id
        have ht := Poller.turn_settled now phase x.poller
        have hcounted : id.round < (x.poller.turn now phase).poller.rounds :=
          ht.rounds.symm ▸ hx.counted
        rw [run, if_pos hr]
        simp only [turn, hx.loop]
        refine ⟨st', hfetches, ?_⟩
        cases hphase : (x.poller.turn now phase).phase with
        | none =>
            simp only [Turn.Leaves, hphase] at hleaves
            subst hleaves
            exact .finished ⟨fun _ hl => (by cases hl), hcounted⟩
        | some phase' =>
            simp only [Turn.Leaves, hphase] at hleaves
            refine .live ⟨rfl, ?_, hcounted⟩ hleaves
            exact (ht.phase phase' hphase).1.symm ▸ hx.held
      · rw [run, if_neg hr]
        exact ⟨st, .nil _, .live hx hfit⟩

/-- Milliseconds lead a loop on from its stage. -/
theorem advance_stands {st : Stage} (h : x.Stands now id st) (hrest : x.AtRest now) (ms : Nat) :
    ∃ st', Run x.poller.interval st (fetchesOf id (x.advance ms now).2) st' ∧
      (x.advance ms now).1.Stands (now + ms) id st' := by
  induction ms generalizing x now st with
  | zero => exact ⟨st, .nil _, h⟩
  | succ ms ih =>
      obtain ⟨st', hfirst, hstands⟩ := run_stands (h.later hrest)
      have hrest' := run_atRest (hrest.bounded 1)
      obtain ⟨st'', hthen, hstands'⟩ := ih hstands hrest'
      rw [(run_accounts (now + 1) x).interval] at hthen
      rw [advance_succ, fetchesOf_append, Nat.add_comm ms 1, ← Nat.add_assoc]
      exact ⟨st'', hfirst.append hthen, hstands'⟩

/-- What is left, `c`, of a loop that sleeps and is torn down by a step. -/
structure Torn (i now : Nat) (id : LoopId) (x : Lane) (s : Step) (st : Stage)
    (c : Lane × List Event) : Prop where
  releases : s.Releases i
  slept : ∃ t, st = .due t ∧ x.Carries id (.sleeping t) ∧ now < t
  silent : fetchesOf id c.2 = []
  past : c.1.Past id

theorem release_stands {st : Stage} {phase : Phase} (hx : x.Carries id phase)
    (hfit : phase.Fits now st) (hrest : x.AtRest now) (handle : Handle) {s : Step}
    (hs : s.Releases i) :
    (∃ st', Run x.poller.interval st (fetchesOf id (x.release now handle).2) st' ∧
        (x.release now handle).1.Stands now id st') ∨
      x.Torn i now id s st (x.release now handle) := by
  have hpast : (x.release now handle).1.Past id := by
    rw [release, if_neg hx.held]
    exact ⟨fun _ hl => (by cases hl), hx.counted⟩
  have hevents : (x.release now handle).2 = World.cancelling now ⟨id, phase⟩ := by
    rw [release, if_neg hx.held, hx.loop, Option.toList_some, List.flatMap_singleton]
  cases hfit with
  | due => exact absurd hx.loop hrest.not_due
  | waiting hsince =>
      have hcancel : fetchesOf id (World.cancelling now ⟨id, .waiting⟩) =
          [⟨now, id, .cancelled⟩] := by
        simp [World.cancelling, fetchesOf, Act.isFetch]
      refine .inl ⟨.ended, ?_, .finished hpast⟩
      rw [hevents, hcancel]
      exact .cons (.cancelled hsince) (.nil _)
  | sleeping h =>
      obtain ⟨-, hlt⟩ := (Stands.live hx (.sleeping h)).ahead hrest
      exact .inr ⟨hs, ⟨_, rfl, hx, hlt⟩, by rw [hevents]; rfl, hpast⟩

/-- A call leads a live loop on from its stage, or tears it down in its sleep. -/
theorem call_stands {st : Stage} {phase : Phase} (hx : x.Carries id phase)
    (hfit : phase.Fits now st) (hrest : x.AtRest now) (i : Nat) (s : Step) :
    (∃ st', Run x.poller.interval st (fetchesOf id (x.call i now s).2) st' ∧
        (x.call i now s).1.Stands (now + s.duration) id st') ∨
      x.Torn i now id s st (x.call i now s) := by
  have hsame : ∃ st', Run x.poller.interval st (fetchesOf id []) st' ∧ x.Stands now id st' :=
    ⟨st, .nil _, .live hx hfit⟩
  refine call_cases (motive := fun s c =>
    (∃ st', Run x.poller.interval st (fetchesOf id c.2) st' ∧
      c.1.Stands (now + s.duration) id st') ∨ x.Torn i now id s st c) ?_ ?_ ?_ ?_ ?_ s
  · intro s _ _ _ hs
    rw [hs]
    exact .inl hsame
  · -- a start finds the loop live and leaves it alone
    have hnot : ¬ x.Begins i (.start i) := fun hb => nomatch hx.loop.symm.trans hb.2.1
    rw [start_of_not_begins hnot]
    exact .inl hsame
  · intro s handle hs
    rw [hs.spec.2.2]
    exact release_stands hx hfit hrest handle hs
  · exact fun r => .inl ⟨st, .nil _, .live ⟨hx.loop, hx.held, hx.counted⟩ hfit⟩
  · exact fun ms => .inl (advance_stands (.live hx hfit) hrest ms)

/-- **A step leads a loop from its stage to the next**, unless it tears the loop down in its
sleep. -/
theorem step_stands {st : Stage} (h : x.Stands now id st) (hrest : x.AtRest now) (i : Nat)
    (s : Step) :
    (∃ st', Run x.poller.interval st (fetchesOf id (x.step i now s).2) st' ∧
        (x.step i now s).1.Stands (now + s.duration) id st') ∨
      x.Torn i now id s st (x.step i now s) := by
  cases h with
  | finished h =>
      obtain ⟨hpast, hnone⟩ := step_past h i now s
      rw [hnone]
      exact .inl ⟨.ended, .nil _, .finished hpast⟩
  | live hx hfit =>
      rw [step_eq, fetchesOf_append]
      rcases call_stands hx hfit hrest i s with ⟨st', hfirst, hstands⟩ | htorn
      · obtain ⟨st'', hthen, hstands'⟩ := run_stands hstands
        rw [(call_accounts i now x s).interval] at hthen
        exact .inl ⟨st'', hfirst.append hthen, hstands'⟩
      · obtain ⟨hwithout, hnone⟩ := run_without htorn.past.without (now + s.duration)
        have hrounds := run_rounds (now + s.duration) (x.call i now s).1
        refine .inr ⟨htorn.releases, htorn.slept, ?_, hwithout, hrounds ▸ htorn.past.counted⟩
        rw [fetchesOf_append, htorn.silent, hnone]
        rfl

/-- **The step that starts a loop issues its first fetch.** -/
theorem step_begins (h : x.Begins i (.start i)) (now : Nat) :
    ∃ rest st, fetchesOf ⟨i, x.poller.rounds⟩ (x.step i now (.start i)).2 =
        ⟨now, ⟨i, x.poller.rounds⟩, .issued⟩ :: rest ∧
      Run x.poller.interval (.waiting now) rest st ∧
      (x.step i now (.start i)).1.Stands now ⟨i, x.poller.rounds⟩ st := by
  have hcall : x.call i now (.start i) = (x.start i, []) := by simp [call]
  have hcarries : (x.start i).Carries ⟨i, x.poller.rounds⟩ .due := by
    rw [start_of_begins h]
    exact ⟨rfl, Handle.noConfusion, Nat.lt_succ_self _⟩
  have hbounded : (x.start i).Bounded now := by
    intro l d hl hphase
    rw [hcarries.loop] at hl
    cases hl
    cases hphase
  have hdue : (x.start i).Stands now ⟨i, x.poller.rounds⟩ (.due now) := .live hcarries .due
  obtain ⟨st, hrun, hstands⟩ := run_stands hdue
  have hinterval : (x.start i).poller.interval = x.poller.interval := (start_accounts i x).interval
  have hrest := run_atRest hbounded
  rw [step_eq, hcall]
  rcases hrun.of_due with ⟨-, rfl⟩ | ⟨id', rest, hes, hrest'⟩
  · -- at rest nothing is due at once
    exact absurd (hstands.ahead hrest).2 (Nat.lt_irrefl now)
  · have hid : id' = ⟨i, x.poller.rounds⟩ := by
      have hmem : (⟨now, id', .issued⟩ : Event) ∈
          fetchesOf ⟨i, x.poller.rounds⟩ ((x.start i).run now).2 := hes ▸ List.mem_cons_self
      exact (by simpa using (List.mem_filter.1 hmem).2 : _ ∧ _).1
    subst hid
    exact ⟨rest, st, hes, hinterval ▸ hrest', hstands⟩

theorem run_sleeping {deadline : Nat} (h : x.loop = some ⟨id, .sleeping deadline⟩)
    (hlt : now < deadline) : x.run now = (x, []) := by
  rw [run, if_neg]
  simpa [isRunnable, h, Poller.isRunnable] using hlt

theorem advance_sleeping {deadline : Nat} (h : x.loop = some ⟨id, .sleeping deadline⟩) {ms : Nat}
    (hlt : now + ms < deadline) : x.advance ms now = (x, []) := by
  induction ms generalizing now with
  | zero => rfl
  | succ ms ih =>
      rw [advance_succ, run_sleeping h (by omega), ih (by omega)]
      rfl

/-- A loop that sleeps goes on sleeping until its deadline, whatever comes before, unless it is torn
down. -/
theorem step_sleeping {deadline : Nat} (h : x.loop = some ⟨id, .sleeping deadline⟩) {s : Step}
    (hs : ¬ s.Releases i) (hlt : now + s.duration < deadline) :
    (x.step i now s).1.loop = x.loop ∧ (x.step i now s).2 = [] := by
  have hcall : (x.call i now s).1.loop = x.loop ∧ (x.call i now s).2 = [] := by
    refine call_cases (motive := fun s c =>
      ¬ s.Releases i → now + s.duration < deadline → c.1.loop = x.loop ∧ c.2 = [])
      ?_ ?_ ?_ ?_ ?_ s hs hlt
    · exact fun _ _ _ _ _ _ _ => ⟨rfl, rfl⟩
    · intro _ _
      have hnot : ¬ x.Begins i (.start i) := fun hb => nomatch h.symm.trans hb.2.1
      rw [start_of_not_begins hnot]
      exact ⟨rfl, rfl⟩
    · exact fun s handle hrel hnot => absurd hrel hnot
    · exact fun r _ _ => ⟨rfl, rfl⟩
    · intro ms _ (hlt : now + ms < deadline)
      rw [advance_sleeping h hlt]
      exact ⟨rfl, rfl⟩
  obtain ⟨hloop, hnone⟩ := hcall
  rw [step_eq, run_sleeping (hloop.trans h) hlt, hnone]
  exact ⟨hloop, rfl⟩

end Lane

/-! ### Whose loop takes its turn -/

namespace World

/-- Whether a start of its poller begins a loop. -/
def Begins (w : World) (id : LoopId) : Prop :=
  ∃ p, w.pollers[id.poller]? = some p ∧ w.stateOf id.poller p = .idle ∧ p.rounds = id.round

/-- Whether a loop is its poller's when the loops take their turns in a step `s`: it was alive, its
poller held it, and the step does not take it away; or the step begins it. -/
inductive Serves (w : World) (s : Step) (id : LoopId) : Prop
  | held {l : Loop} {p : Poller} (hl : l ∈ w.loops) (hid : l.id = id)
      (hp : w.pollers[id.poller]? = some p) (hheld : p.handle = .held id.round)
      (hs : ¬ s.Releases id.poller) : Serves w s id
  | begun (hs : s = .start id.poller) (hbegins : w.Begins id) : Serves w s id

variable {w : World} {id : LoopId} {x : Lane}

/-- A start begins a loop in a world just when it does so in its lane. -/
theorem Owned.begins_iff (hw : w.Owned) (hx : w.lane id.poller = some x) :
    w.Begins id ↔ x.Begins id.poller (.start id.poller) ∧ x.poller.rounds = id.round := by
  have hp := (lane_eq_some hx).1
  have hidle : w.stateOf id.poller x.poller = .idle ↔
      x.loop = none ∧ x.poller.handle ≠ .gone := by
    rw [hw.stateOf_lane hx]
    cases x.loop with
    | some l => simp
    | none => by_cases hg : x.poller.handle = .gone <;> simp [hg]
  constructor
  · rintro ⟨p, hp', hs, hrounds⟩
    obtain rfl : p = x.poller := Option.some.inj (hp'.symm.trans hp)
    exact ⟨⟨rfl, hidle.1 hs⟩, hrounds⟩
  · rintro ⟨⟨-, hs⟩, hrounds⟩
    exact ⟨x.poller, hp, hidle.2 hs, hrounds⟩

/-- **A reply is taken by a loop that is its poller's.** -/
theorem Owned.serves (hw : w.Owned) {e : Event} (hx : w.lane e.loop.poller = some x) {s : Step}
    (he : e ∈ (w.step s).events) {r : Reply} (htook : e.act = .took r) : w.Serves s e.loop := by
  have hown : e ∈ (x.step e.loop.poller w.now s).2 := by
    rw [← (hw.lane_step hx s).2]
    exact List.mem_filter.2 ⟨he, decide_eq_true rfl⟩
  have hfetch : fetchesOf e.loop (x.step e.loop.poller w.now s).2 ≠ [] :=
    List.ne_nil_of_mem (List.mem_filter.2 ⟨hown, by simp [htook, Act.isFetch]⟩)
  by_cases hnew : x.Begins e.loop.poller s ∧ e.loop = ⟨e.loop.poller, x.poller.rounds⟩
  · obtain ⟨hbegins, hid⟩ := hnew
    obtain rfl := hbegins.1
    exact .begun rfl ((hw.begins_iff hx).2 ⟨hbegins, (congrArg LoopId.round hid).symm⟩)
  · -- the step does not begin the loop, so it was live before it
    obtain ⟨l, hl, hid⟩ : ∃ l, x.loop = some l ∧ l.id = e.loop := by
      by_contra hnone
      refine hfetch (Lane.step_without (fun l hl hid => hnone ⟨l, hl, hid⟩) ?_ w.now).2
      exact fun hbegins hid => hnew ⟨hbegins, hid⟩
    refine .held (mem_of_lane hx hl).1 hid (lane_eq_some hx).1 (hid ▸ hw.handle_of_loop hx hl) ?_
    intro hs
    cases htook.symm.trans ((Lane.step_release (hw.not_gone hx) hs w.now).2 e hown)

/-- Until then nothing of the poller in that step has ended a loop. -/
theorem Owned.not_ends_before (hw : w.Owned) {e : Event} (hx : w.lane e.loop.poller = some x)
    {s : Step} {before behind : List Event} (hevents : (w.step s).events = before ++ e :: behind) :
    ∀ e' ∈ before, e'.loop.poller = e.loop.poller → ¬ e'.act.Ends := by
  have hlast := (Lane.step_final e.loop.poller w.now x s).last
  rw [← (hw.lane_step hx s).2, hevents, eventsOf_append] at hlast
  intro e' he' hi
  refine (List.pairwise_append.1 hlast).2.2 e' ?_ e ?_
  · exact List.mem_filter.2 ⟨he', decide_eq_true hi⟩
  · exact List.mem_filter.2 ⟨List.mem_cons_self, decide_eq_true rfl⟩

end World

end ClusterWatch
