import ClusterWatch.Proofs.World.Loops
import ClusterWatch.Proofs.World.Views
import ClusterWatch.Session

/-!
# Watching — one poller that goes on polling

The world of a watch has one poller, which is started once and never stopped while the watch goes
on, so all there is to say of it is what its loop is at and what its view shows (`watching`).

`Watches delay answered view w` says that `w` is such a world at rest, in which `answered` fetches
have been answered: the loop waits in the next fetch, or sleeps until it is due.  Time
(`Watches.passes`), an answer to the fetch that waits (`Watches.answers`) and a take of the update
stream (`Watches.takes`) lead from one such world to another, whatever the answer is; and behind the
delay a fetch waits again (`Watches.waits_again`).
-/

namespace ClusterWatch

open Session (replyOf)

/-- A view behind the answer to a fetch. -/
def View.receive (view : View) (now : Nat) : Except SourceError Status → View
  | .ok s => view.apply now s
  | .error _ => view

namespace World

/-- The world of one poller with a live loop and nothing else. -/
def watching (delay now fetches : Nat) (phase : Phase) (view : View) : World where
  now := now
  pollers := [⟨delay, 0, .held 0, 1, fetches, []⟩]
  loops := [⟨⟨0, 0⟩, phase⟩]
  views := [view]

/-- A world of one poller that has had `answered` of its fetches answered, and is at rest. -/
inductive Watches (delay answered : Nat) (view : View) : World → Prop
  | waiting (now : Nat) :
      Watches delay answered view (watching delay now (answered + 1) .waiting view)
  | sleeping {now deadline : Nat} (hlt : now < deadline) (hle : deadline ≤ now + delay) :
      Watches delay answered view (watching delay now answered (.sleeping deadline) view)

variable {delay answered now fetches deadline : Nat} {view : View} {w : World}

/-! ### Time -/

theorem run_waiting :
    (watching delay now fetches .waiting view).run =
      (watching delay now fetches .waiting view, []) :=
  rfl

theorem run_sleeping (h : now < deadline) :
    (watching delay now fetches (.sleeping deadline) view).run =
      (watching delay now fetches (.sleeping deadline) view, []) := by
  have hnot : (watching delay now fetches (.sleeping deadline) view).isRunnable
      ⟨⟨0, 0⟩, .sleeping deadline⟩ = false := decide_eq_false (Nat.not_le.2 h)
  have hnone : (watching delay now fetches (.sleeping deadline) view).loops.filter
      (watching delay now fetches (.sleeping deadline) view).isRunnable = [] :=
    List.filter_eq_nil_iff.2 fun l hl => by
      rw [List.mem_singleton.1 hl, hnot]
      exact Bool.false_ne_true
  rw [run, hnone]
  rfl

/-- A fetch that is due is issued, and waits. -/
theorem run_due :
    (watching delay now fetches (.sleeping now) view).run.1 =
      watching delay now (fetches + 1) .waiting view := by
  have hdue : (watching delay now fetches (.sleeping now) view).isRunnable
      ⟨⟨0, 0⟩, .sleeping now⟩ = true := decide_eq_true (Nat.le_refl now)
  have hall : (watching delay now fetches (.sleeping now) view).loops.filter
      (watching delay now fetches (.sleeping now) view).isRunnable =
        [⟨⟨0, 0⟩, .sleeping now⟩] :=
    List.filter_eq_self.2 fun l hl => by rw [List.mem_singleton.1 hl, hdue]
  rw [run, hall]
  rfl

theorem advance_waiting (ms : Nat) :
    (advance ms (watching delay now fetches .waiting view, [])).1 =
      watching delay (now + ms) fetches .waiting view := by
  induction ms generalizing now with
  | zero => rfl
  | succ ms ih =>
      rw [advance_succ, show (watching delay now fetches .waiting view).tick.1 =
        watching delay (now + 1) fetches .waiting view from rfl, ih, Nat.add_right_comm]
      rfl

/-- A loop sleeps until its fetch is due, and then waits for the answer. -/
theorem advance_sleeping (ms : Nat) (h : now < deadline) :
    (advance ms (watching delay now fetches (.sleeping deadline) view, [])).1 =
      if now + ms < deadline then watching delay (now + ms) fetches (.sleeping deadline) view
      else watching delay (now + ms) (fetches + 1) .waiting view := by
  induction ms generalizing now with
  | zero => exact (if_pos h).symm
  | succ ms ih =>
      have htick : (watching delay now fetches (.sleeping deadline) view).tick =
          (watching delay (now + 1) fetches (.sleeping deadline) view).run := rfl
      have hnow : now + 1 + ms = now + (ms + 1) := by omega
      rw [advance_succ, htick]
      rcases Nat.lt_or_eq_of_le (Nat.succ_le_of_lt h) with hlt | rfl
      · rw [run_sleeping hlt, ih hlt, hnow]
      · rw [run_due, advance_waiting, hnow, if_neg (by omega)]

/-! ### Steps of a watch -/

namespace Watches

theorem start (delay began : Nat) :
    Watches delay 0 .fresh
      (({ ofPollers [(delay, 0)] with now := began } : World).step (.start 0)).world :=
  .waiting began

theorem passes (h : Watches delay answered view w) (ms : Nat) :
    Watches delay answered view (w.step (.advance ms)).world := by
  have hstep : (w.step (.advance ms)).world = (World.advance ms (w, [])).1.run.1 := rfl
  rw [hstep]
  cases h with
  | waiting now =>
      rw [advance_waiting, run_waiting]
      exact .waiting _
  | @sleeping now deadline hlt hle =>
      rw [advance_sleeping ms hlt]
      split
      next hmore =>
        rw [run_sleeping hmore]
        exact .sleeping hmore (by omega)
      next => exact .waiting _

/-- When the delay has passed a fetch waits, all along or since the loop has woken. -/
theorem waits_again (h : Watches delay answered view w) (ms : Nat) (hms : delay ≤ ms) :
    (w.step (.advance ms)).world.inFlight 0 = 1 := by
  have hstep : (w.step (.advance ms)).world = (World.advance ms (w, [])).1.run.1 := rfl
  rw [hstep]
  cases h with
  | waiting now =>
      rw [advance_waiting]
      rfl
  | @sleeping now deadline hlt hle =>
      rw [advance_sleeping ms hlt, if_neg (by omega)]
      rfl

/-- A take yields what the view has ready, and leaves the loop where it is. -/
theorem takes (h : Watches delay answered view w) :
    Watches delay answered { view with unseen := false } (w.step (.updates 0)).world ∧
      (w.step (.updates 0)).yielded = view.ready ∧
      (w.step (.updates 0)).world.inFlight 0 = w.inFlight 0 := by
  cases h with
  | waiting now => exact ⟨.waiting now, rfl, rfl⟩
  | @sleeping now deadline hlt hle =>
      have hstep : ((watching delay now answered (.sleeping deadline) view).step
          (.updates 0)).world = (watching delay now answered (.sleeping deadline)
            { view with unseen := false }).run.1 := rfl
      rw [hstep, run_sleeping hlt]
      exact ⟨.sleeping hlt hle, rfl, rfl⟩

/-- An answer to the fetch that waits is settled at once, and the loop goes to sleep, whatever the
answer is. -/
theorem answers (h : Watches delay answered view w) (hdelay : 0 < delay)
    (hwaits : w.inFlight 0 = 1) (fetched : Except SourceError Status) :
    Watches delay (answered + 1) (view.receive w.now fetched)
      (w.step (.reply 0 (replyOf fetched))).world := by
  cases h with
  | waiting now =>
      have hne : delay ≠ 0 := Nat.ne_of_gt hdelay
      have hstep : ((watching delay now (answered + 1) .waiting view).step
          (.reply 0 (replyOf fetched))).world = watching delay now (answered + 1)
            (.sleeping (now + delay)) (view.receive now fetched) := by
        cases fetched <;>
          simp [step, call, enqueue, World.run, turns, turn, watching, isRunnable,
            Poller.isRunnable, Poller.turn, Poller.settle, Poller.afterTaking, Poller.applying,
            applyAct, replyOf, Reply.dropsPoller, View.receive, hne]
      rw [hstep]
      exact .sleeping (Nat.lt_add_of_pos_right hdelay) (Nat.le_refl _)
  | sleeping hlt hle => cases hwaits

/-- The one view of a watch. -/
theorem views_eq (h : Watches delay answered view w) : w.views = [view] := by
  cases h <;> rfl

/-- It polls, and has issued a fetch for each answer, and the one in flight. -/
theorem polls (h : Watches delay answered view w) :
    ∃ p, w.pollers = [p] ∧ w.stateOf 0 p = .polling ∧ p.fetches = answered + w.inFlight 0 := by
  cases h with
  | waiting now => exact ⟨_, rfl, rfl, rfl⟩
  | sleeping hlt hle => exact ⟨_, rfl, rfl, rfl⟩

end Watches

end World

end ClusterWatch
