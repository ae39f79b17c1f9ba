import ClusterWatch.Proofs.World.Loops
import ClusterWatch.Proofs.World.Stands
import ClusterWatch.Session

/-!
# Timetable — fixed delay

A loop issues its first fetch in the step that starts it, and each later one at exactly its
poller's interval after the fetch before was settled, whether with a status or a failure.
`Timetable` says so for the fetches of one loop in a run of all pollers: what can come after each of
its fetches, what can keep it from coming, and, as what follows for a window of time, how many
fetches can be issued in it.

* `Owned.after_stands` carries `Lane.step_stands` along the steps of a run: the fetches of a loop
  are a `Stage.Run`, and the stage it comes to is where the loop stands, unless it was torn down in
  its sleep (`Reaches`).
* `Owned.after_unborn` finds the start with which a loop begins.
* `fixed_delay` reads the timetable off both, and with the interval of a watch, which is never
  nothing, that no two fetches of its loop are issued at one time.
-/

namespace ClusterWatch.World

open Stage (Run)

/-- Whether a loop sleeps until a later moment. -/
def Sleeps (w : World) (id : LoopId) (deadline : Nat) : Prop :=
  w.now < deadline ∧ ⟨id, .sleeping deadline⟩ ∈ w.loops

/-- Whether a loop was torn down in some steps by a stop or a drop of its poller, while it slept
until a deadline that was still to come. -/
def TornDown (w : World) (steps : List Step) (id : LoopId) (deadline : Nat) : Prop :=
  ∃ past s later, steps = past ++ s :: later ∧ s.Releases id.poller ∧
    (w.after past).Sleeps id deadline

/-- When the loop `id` of a poller with the interval `delay` issues its fetches in the steps `steps`
from `start`. -/
structure Timetable (start : World) (steps : List Step) (delay : Nat) (id : LoopId) : Prop where
  /-- What becomes of its fetches begins with one that is issued in the very step that starts it,
  and at the time of that step. -/
  begins : ∀ e rest, fetchesOf id (start.log steps) = e :: rest →
    ∃ past later, steps = past ++ .start id.poller :: later ∧ (start.after past).Begins id ∧
      e ∈ ((start.after past).step (.start id.poller)).events ∧
      e = ⟨(start.after past).now, id, .issued⟩
  /-- Each start that begins it issues a fetch in that step. -/
  started : ∀ past later, steps = past ++ .start id.poller :: later →
    (start.after past).Begins id →
    ∃ rest, fetchesOf id ((start.after past).step (.start id.poller)).events =
      ⟨(start.after past).now, id, .issued⟩ :: rest
  /-- While a fetch waits nothing comes, until it takes its reply or is cancelled. -/
  waits : ∀ before e behind, fetchesOf id (start.log steps) = before ++ e :: behind →
    e.act = .issued →
    (behind = [] ∧ ⟨id, .waiting⟩ ∈ (start.after steps).loops) ∨
      ∃ f rest, behind = f :: rest ∧ e.time ≤ f.time ∧
        ((∃ r, f.act = .took r) ∨ f.act = .cancelled)
  /-- When a fetch is settled and its loop goes on, the next to come is the next fetch, exactly the
  delay later; unless the run ends while the loop sleeps until then, or it is torn down before. -/
  next : ∀ before e behind r, fetchesOf id (start.log steps) = before ++ e :: behind →
    e.act = .took r → ¬ r.Ends →
    (∃ rest, behind = ⟨e.time + delay, id, .issued⟩ :: rest) ∨
      behind = [] ∧ ((start.after steps).Sleeps id (e.time + delay) ∨
        start.TornDown steps id (e.time + delay))
  /-- With no delay the next fetch comes in the same step. -/
  atOnce : delay = 0 → ∀ past s later before e behind r, steps = past ++ s :: later →
    fetchesOf id ((start.after past).step s).events = before ++ e :: behind →
    e.act = .took r → ¬ r.Ends → ∃ rest, behind = ⟨e.time, id, .issued⟩ :: rest
  /-- Behind a fetch that is cancelled, or whose reply ends the loop, nothing comes. -/
  ends : ∀ before e behind, fetchesOf id (start.log steps) = before ++ e :: behind →
    e.act = .cancelled ∨ e.act.Ends → behind = []
  /-- No step moves the deadline of a loop that sleeps: neither a start nor a reply, nor whatever
  happens to other pollers. -/
  keeps : ∀ past s later deadline, steps = past ++ s :: later →
    (start.after past).Sleeps id deadline → ¬ s.Releases id.poller →
    (start.after past).now + s.duration < deadline →
    ((start.after past).step s).world.Sleeps id deadline
  /-- In a window of time there is one fetch, and one more for each delay that fits into it. -/
  window : 0 < delay → ∀ first length,
    (issueTimes (fetchesOf id (start.log steps))).countP
      (fun t => first ≤ t ∧ t ≤ first + length) ≤ 1 + length / delay

variable {w : World} {id : LoopId} {x : Lane}

theorem mem_fetchesOf {es : List Event} {e : Event} (h : e ∈ fetchesOf id es) :
    e ∈ es ∧ e.loop = id := by
  obtain ⟨hmem, hp⟩ := List.mem_filter.1 h
  exact ⟨hmem, (of_decide_eq_true hp).1⟩

/-! ### Along a run -/

theorem TornDown.append {past later : List Step} {deadline : Nat}
    (h : (w.after past).TornDown later id deadline) : w.TornDown (past ++ later) id deadline := by
  obtain ⟨past', s, later', rfl, hs, hsleeps⟩ := h
  exact ⟨past ++ past', s, later', (List.append_assoc _ _ _).symm, hs,
    (after_append w past past').symm ▸ hsleeps⟩

/-- What a stage says of a loop behind some steps: it stands there, or it was torn down in its
sleep. -/
inductive Reaches (w : World) (steps : List Step) (id : LoopId) : Stage → Prop
  | stands {y : Lane} {st : Stage} (hy : (w.after steps).lane id.poller = some y)
      (hrest : y.AtRest (w.after steps).now) (h : y.Stands (w.after steps).now id st) :
      Reaches w steps id st
  | torn {t : Nat} (h : w.TornDown steps id t) : Reaches w steps id (.due t)

theorem Reaches.append (past : List Step) {later : List Step} {st : Stage}
    (h : (w.after past).Reaches later id st) : w.Reaches (past ++ later) id st := by
  cases h with
  | stands hy hrest h =>
      rw [← after_append] at hy hrest h
      exact .stands hy hrest h
  | torn h => exact .torn h.append

theorem sleeps_of_carries {deadline : Nat} (hx : w.lane id.poller = some x)
    (h : x.Carries id (.sleeping deadline)) (hlt : w.now < deadline) : w.Sleeps id deadline :=
  ⟨hlt, (mem_of_lane hx h.loop).1⟩

/-- A fetch that is due, and does not come, is one for which its loop sleeps or has slept. -/
theorem Reaches.of_due {steps : List Step} {t : Nat} (h : w.Reaches steps id (.due t)) :
    (w.after steps).Sleeps id t ∨ w.TornDown steps id t := by
  cases h with
  | stands hy hrest h =>
      obtain ⟨hcarries, hlt⟩ := h.ahead hrest
      exact .inl (sleeps_of_carries hy hcarries hlt)
  | torn h => exact .inr h

theorem Reaches.of_waiting {steps : List Step} {since : Nat}
    (h : w.Reaches steps id (.waiting since)) : ⟨id, .waiting⟩ ∈ (w.after steps).loops := by
  cases h with
  | stands hy hrest h =>
      cases h with
      | live hcarries hfit =>
          cases hfit
          exact (mem_of_lane hy hcarries.loop).1

theorem Owned.fetchesOf_step (hw : w.Owned) (hx : w.lane id.poller = some x) (s : Step) :
    fetchesOf id (w.step s).events = fetchesOf id (x.step id.poller w.now s).2 := by
  rw [← (hw.lane_step hx s).2, fetchesOf_eventsOf]

/-- **The fetches of a loop from a stage on**, and the stage that the loop comes to. -/
theorem Owned.after_stands (hw : w.Owned) (hx : w.lane id.poller = some x)
    (hrest : x.AtRest w.now) {st : Stage} (h : x.Stands w.now id st) (steps : List Step) :
    ∃ st', Run x.poller.interval st (fetchesOf id (w.log steps)) st' ∧
      w.Reaches steps id st' := by
  induction steps generalizing w x st with
  | nil => exact ⟨st, .nil st, .stands hx hrest h⟩
  | cons s steps ih =>
      have hlane := (hw.lane_step hx s).1
      have hrest' := Lane.step_atRest hrest id.poller s
      rw [← step_now] at hrest'
      have hinterval := (Lane.step_accounts id.poller w.now x s).interval
      rw [log_cons, fetchesOf_append, hw.fetchesOf_step hx s]
      rcases Lane.step_stands h hrest id.poller s with ⟨st', hfirst, hstands⟩ | htorn
      · rw [← step_now] at hstands
        obtain ⟨st'', hthen, hreaches⟩ := ih (hw.step s) hlane hrest' hstands
        rw [hinterval] at hthen
        exact ⟨st'', hfirst.append hthen, hreaches.append [s]⟩
      · -- the loop is over, so nothing is left to come
        obtain ⟨t, rfl, hcarries, hlt⟩ := htorn.slept
        obtain ⟨st', hthen, -⟩ := ih (hw.step s) hlane hrest' (.finished htorn.past)
        rw [htorn.silent, hthen.of_ended.1]
        exact ⟨.due t, .nil _, .torn ⟨[], s, steps, rfl, htorn.releases,
          sleeps_of_carries hx hcarries hlt⟩⟩

/-- **A loop begins with a start**; until then there is nothing of it. -/
theorem Owned.after_unborn (hw : w.Owned) (hx : w.lane id.poller = some x)
    (h : x.Unborn id) (steps : List Step) :
    fetchesOf id (w.log steps) = [] ∨
      ∃ past later, steps = past ++ .start id.poller :: later ∧ (w.after past).Begins id ∧
        fetchesOf id (w.log past) = [] := by
  induction steps generalizing w x with
  | nil => exact .inl rfl
  | cons s steps ih =>
      by_cases hb : x.Begins id.poller s ∧ id.round = x.poller.rounds
      · obtain ⟨hbegins, hround⟩ := hb
        obtain rfl := hbegins.1
        exact .inr ⟨[], steps, rfl, (hw.begins_iff hx).2 ⟨hbegins, hround.symm⟩, rfl⟩
      · obtain ⟨hunborn, hnone⟩ := Lane.step_unborn h (fun hs hr => hb ⟨hs, hr⟩) w.now
        rw [← hw.fetchesOf_step hx s] at hnone
        rw [log_cons, fetchesOf_append, hnone, List.nil_append]
        rcases ih (hw.step s) (hw.lane_step hx s).1 hunborn with hrest | ⟨past, later, rfl, hb, hn⟩
        · exact .inl hrest
        · refine .inr ⟨s :: past, later, rfl, hb, ?_⟩
          rw [log_cons, fetchesOf_append, hnone, List.nil_append, hn]

/-- A loop from the step that starts it. -/
theorem Owned.after_start (hw : w.Owned) (hx : w.lane id.poller = some x)
    (hb : w.Begins id) :
    ∃ rest st, fetchesOf id (w.step (.start id.poller)).events = ⟨w.now, id, .issued⟩ :: rest ∧
      Run x.poller.interval (.waiting w.now) rest st ∧
      (x.step id.poller w.now (.start id.poller)).1.Stands w.now id st := by
  obtain ⟨hbegins, hround⟩ := (hw.begins_iff hx).1 hb
  have hid : (⟨id.poller, x.poller.rounds⟩ : LoopId) = id := by rw [hround]
  rw [hw.fetchesOf_step hx]
  have hstep := Lane.step_begins hbegins w.now
  rwa [hid] at hstep

/-- A step that does not tear a loop down, and ends before its deadline, lets it sleep. -/
theorem Owned.sleeps_step (hw : w.Owned) (hx : w.lane id.poller = some x) {s : Step}
    {deadline : Nat} (hsleeps : w.Sleeps id deadline)
    (hs : ¬ s.Releases id.poller) (hlt : w.now + s.duration < deadline) :
    (w.step s).world.Sleeps id deadline := by
  have hloop := hw.lane_loop hsleeps.2 hx
  have hstep := (Lane.step_sleeping hloop hs hlt).1.trans hloop
  exact ⟨by rwa [step_now], (mem_of_lane (hw.lane_step hx s).1 hstep).1⟩

/-! ### The timetable -/

section

variable (hw : w.Owned) (hx : w.lane id.poller = some x) (hrest : x.AtRest w.now)
include hw hx hrest

/-- **All that becomes of the fetches of a loop in some steps**, from the start with which it
begins. -/
theorem Owned.fetches_after (h : x.Unborn id) (steps : List Step) :
    fetchesOf id (w.log steps) = [] ∨ ∃ past later rest st,
      steps = past ++ .start id.poller :: later ∧ (w.after past).Begins id ∧
      fetchesOf id (w.log steps) = ⟨(w.after past).now, id, .issued⟩ :: rest ∧
      ⟨(w.after past).now, id, .issued⟩ ∈ ((w.after past).step (.start id.poller)).events ∧
      Run x.poller.interval (.waiting (w.after past).now) rest st ∧ w.Reaches steps id st := by
  refine (hw.after_unborn hx h steps).imp_right ?_
  rintro ⟨past, later, rfl, hb, hnone⟩
  obtain ⟨y, hy, haccounts, hrest'⟩ := hw.lane_after hx hrest past
  have hw' := hw.after past
  obtain ⟨rest, st, hfirst, hrun, hstands⟩ := hw'.after_start hy hb
  -- the steps behind the start go on from the stage it leaves
  let s : Step := .start id.poller
  have hnow : ((w.after past).step s).world.now = (w.after past).now := step_now _ _
  have hrest'' : (y.step id.poller (w.after past).now s).1.AtRest
      ((w.after past).step s).world.now := by
    rw [step_now]
    exact Lane.step_atRest hrest' id.poller s
  have hstands' : (y.step id.poller (w.after past).now s).1.Stands
      ((w.after past).step s).world.now id st := by
    rwa [hnow]
  obtain ⟨st', hthen, hreaches⟩ :=
    (hw'.step s).after_stands (hw'.lane_step hy s).1 hrest'' hstands' later
  have hinterval : y.poller.interval = x.poller.interval := haccounts.interval
  rw [(Lane.step_accounts id.poller (w.after past).now y s).interval, hinterval] at hthen
  rw [hinterval] at hrun
  have hmem : (⟨(w.after past).now, id, .issued⟩ : Event) ∈
      fetchesOf id ((w.after past).step s).events := hfirst ▸ List.mem_cons_self
  refine ⟨past, later, _, st', rfl, hb, ?_, (mem_fetchesOf hmem).1, hrun.append hthen,
    (hreaches.append [s]).append past⟩
  rw [log_append, fetchesOf_append, hnone, log_cons, fetchesOf_append, hfirst]
  rfl

/-- The fetches of a loop, as a run that begins with one that is due. -/
theorem Owned.fetches_run (h : x.Unborn id) (steps : List Step)
    (hsome : fetchesOf id (w.log steps) ≠ []) :
    ∃ t st, Run x.poller.interval (.due t) (fetchesOf id (w.log steps)) st ∧
      w.Reaches steps id st := by
  obtain hnone | ⟨past, later, rest, st, -, -, hes, -, hrun, hreaches⟩ :=
    hw.fetches_after hx hrest h steps
  · exact absurd hnone hsome
  · rw [hes]
    exact ⟨_, st, .cons (.issued _ id) hrun, hreaches⟩

/-- What comes when a fetch is settled and its loop goes on. -/
theorem Owned.next_fetch (h : x.Unborn id) {steps : List Step} {before behind : List Event}
    {e : Event} {r : Reply} (hes : fetchesOf id (w.log steps) = before ++ e :: behind)
    (he : e.act = .took r) (hr : ¬ r.Ends) :
    (∃ rest, behind = ⟨e.time + x.poller.interval, id, .issued⟩ :: rest) ∨
      behind = [] ∧ ((w.after steps).Sleeps id (e.time + x.poller.interval) ∨
        w.TornDown steps id (e.time + x.poller.interval)) := by
  obtain ⟨t, st, hrun, hreaches⟩ := hw.fetches_run hx hrest h steps (by simp [hes])
  have hmem : ∀ f ∈ behind, f.loop = id := by
    intro f hf
    have hin : f ∈ fetchesOf id (w.log steps) := by simp [hes, hf]
    exact (mem_fetchesOf hin).2
  rw [hes] at hrun
  rcases (hrun.after_took he hr).of_due with ⟨rfl, rfl⟩ | ⟨id', rest, rfl, -⟩
  · exact .inr ⟨rfl, hreaches.of_due⟩
  · obtain rfl : id' = id := hmem _ List.mem_cons_self
    exact .inl ⟨rest, rfl⟩

/-- With no interval a loop does not sleep. -/
theorem Owned.not_sleeps (h0 : x.poller.interval = 0) (steps : List Step) (deadline : Nat) :
    ¬ (w.after steps).Sleeps id deadline := by
  rintro ⟨hlt, hmem⟩
  obtain ⟨y, hy, haccounts, hrest'⟩ := hw.lane_after hx hrest steps
  have hinterval : y.poller.interval = 0 := haccounts.interval.trans h0
  have hloop := (hw.after steps).lane_loop hmem hy
  rcases hrest' _ hloop with ⟨hphase, -⟩ | ⟨d, hphase, -, hle⟩
  · cases hphase
  · cases hphase
    omega

theorem Owned.timetable (h : x.Unborn id) (steps : List Step) :
    Timetable w steps x.poller.interval id := by
  constructor
  case begins =>
    intro e rest hes
    obtain hnone | ⟨past, later, _, st, hsteps, hb, hes', hmem, -⟩ :=
      hw.fetches_after hx hrest h steps
    · cases hes.symm.trans hnone
    · obtain ⟨rfl, -⟩ := List.cons.inj (hes.symm.trans hes')
      exact ⟨past, later, hsteps, hb, hmem, rfl⟩
  case started =>
    intro past later _ hb
    obtain ⟨y, hy, -⟩ := hw.lane_after hx hrest past
    obtain ⟨rest, -, hfirst, -⟩ := (hw.after past).after_start hy hb
    exact ⟨rest, hfirst⟩
  case waits =>
    intro before e behind hes he
    obtain ⟨t, st, hrun, hreaches⟩ := hw.fetches_run hx hrest h steps (by simp [hes])
    rw [hes] at hrun
    rcases (hrun.after_issued he).of_waiting with ⟨rfl, rfl⟩ | hcomes
    · exact .inl ⟨rfl, hreaches.of_waiting⟩
    · exact .inr hcomes
  case next => exact fun before e behind r hes he hr => hw.next_fetch hx hrest h hes he hr
  case atOnce =>
    intro h0 past s later before e behind r hsteps hes he hr
    -- the same steps without those behind `s`: a loop that does not sleep has gone on by then
    have hlog : fetchesOf id (w.log (past ++ [s])) =
        (fetchesOf id (w.log past) ++ before) ++ e :: behind := by
      rw [log_append, log_cons, log_nil, List.append_nil, fetchesOf_append, hes, List.append_assoc]
    have hnever := hw.not_sleeps hx hrest h0
    rcases hw.next_fetch hx hrest h hlog he hr with hnext | ⟨-, hsleeps | ⟨_, _, _, -, -, hslept⟩⟩
    · rwa [h0] at hnext
    · exact absurd hsleeps (hnever _ _)
    · exact absurd hslept (hnever _ _)
  case ends =>
    intro before e behind hes he
    obtain ⟨t, st, hrun, -⟩ := hw.fetches_run hx hrest h steps (by simp [hes])
    rw [hes] at hrun
    exact hrun.after_end he
  case keeps =>
    intro past s later deadline _ hsleeps hs hlt
    obtain ⟨y, hy, -⟩ := hw.lane_after hx hrest past
    exact (hw.after past).sleeps_step hy hsleeps hs hlt
  case window =>
    intro hdelay first length
    by_cases hes : fetchesOf id (w.log steps) = []
    · rw [hes]
      exact Nat.zero_le _
    · obtain ⟨t, st, hrun, -⟩ := hw.fetches_run hx hrest h steps hes
      exact hrun.window hdelay first length

end

/-- Each loop of pollers that have not been started. -/
theorem timetable_ofPollers {pollers : List (Nat × Nat)} {delay view : Nat}
    (hgiven : pollers[id.poller]? = some (delay, view)) (steps : List Step) :
    Timetable (ofPollers pollers) steps delay id := by
  obtain ⟨hi, hpoller⟩ := List.getElem?_eq_some_iff.1 hgiven
  have hx := lane_ofPollers hi
  rw [hpoller] at hx
  exact (owned_ofPollers pollers).timetable hx (fun _ hl => nomatch hl)
    ⟨fun _ hl => (nomatch hl), Nat.zero_le _⟩ steps

/-- With a delay no two fetches are issued at one time. -/
theorem Timetable.nodup {start : World} {steps : List Step} {delay : Nat}
    (h : Timetable start steps delay id) (hdelay : 0 < delay) :
    (issueTimes (fetchesOf id (start.log steps))).Nodup := by
  refine List.nodup_iff_count_le_one.2 fun t => ?_
  have hwindow := h.window hdelay t 0
  rw [Nat.zero_div] at hwindow
  refine Nat.le_trans (List.countP_mono_left fun t' _ ht' => ?_) hwindow
  obtain rfl : t' = t := by simpa using ht'
  simp

/-- **Fixed delay.**  After any steps of any pollers, the fetches of each loop keep to the timetable
of its poller's interval; and as the interval of a watch is at least a millisecond, no two fetches
of its loop are issued at one time. -/
theorem fixed_delay (pollers : List (Nat × Nat)) (steps : List Step) :
    (∀ id delay view, pollers[id.poller]? = some (delay, view) →
      Timetable (ofPollers pollers) steps delay id) ∧
    ∀ interval round, 1 ≤ watchInterval interval ∧
      (issueTimes (fetchesOf ⟨0, round⟩ ((Session.watchWorld interval).log steps))).Nodup := by
  refine ⟨fun id delay view hgiven => timetable_ofPollers hgiven steps, fun interval round => ?_⟩
  have hpos : 1 ≤ watchInterval interval := Nat.le_max_right interval 1
  have hwatch : Timetable (Session.watchWorld interval) steps (watchInterval interval) ⟨0, round⟩ :=
    timetable_ofPollers rfl steps
  exact ⟨hpos, hwatch.nodup hpos⟩

/-- A fetch that fails at once, one whose reply comes late, and a start in between that finds the
loop asleep. -/
theorem fixed_delay_late :
    [(5, 0)][0]? = some (5, 0) ∧
      Timetable (ofPollers [(5, 0)])
        [.start 0, .reply 0 (.settles .failure false), .advance 3, .start 0, .advance 4,
          .reply 0 (.settles (.status ⟨⟨"a", 1, 2⟩, []⟩) false), .advance 5] 5 ⟨0, 0⟩ ∧
      issueTimes (fetchesOf ⟨0, 0⟩ ((ofPollers [(5, 0)]).log
        [.start 0, .reply 0 (.settles .failure false), .advance 3, .start 0, .advance 4,
          .reply 0 (.settles (.status ⟨⟨"a", 1, 2⟩, []⟩) false), .advance 5])) = [0, 5, 12] :=
  ⟨rfl, (fixed_delay [(5, 0)] _).1 ⟨0, 0⟩ 5 0 rfl, rfl⟩

end ClusterWatch.World
