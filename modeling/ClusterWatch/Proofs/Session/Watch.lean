import ClusterWatch.Proofs.Source.Delivery
import ClusterWatch.Proofs.World.Watching

/-!
# Watch — what is printed is the history of the successful answers

A watch goes from moment to moment: time passes, a delivery is served to the fetch that waits, or
the update stream is asked (`Moment`).  How these follow on each other is open, but for one thing:
each status that was applied is taken from the stream before the next delivery is served, and before
the watch is interrupted (`Attends`).

* `Awaits` says how the view and what was printed stand to the answers so far: all successful ones
  have been told, but perhaps for the last, which the view then has ready.  A moment keeps this
  (`Stands.step`), so a run does (`stands_after`), and at its end all are told (`told_of_attends`).
* `printed_eq_frames` and `join_documents` read the output off what was told.

`watch_prints_history` puts these together for all runs, and finds the run of `watch` among them.
-/

namespace ClusterWatch.Session

open World (Watches)

/-- What happens next to a watch. -/
inductive Moment
  | passes (ms : Nat)
  | served (delivery : Delivery)
  | taken
  deriving DecidableEq, Repr

/-- A moment as a step of the world. -/
def Moment.step [Client] (source : SourceConfig) : Moment → Step
  | passes ms => .advance ms
  | served delivery => .reply 0 (replyOf (source.fetch delivery))
  | taken => .updates 0

/-- Whether a delivery is served. -/
def Moment.isServed : Moment → Bool
  | served _ => true
  | passes _ | taken => false

/-- The steps of a watch: its start, some moments, and the interruption that ends it. -/
def watched [Client] (source : SourceConfig) (moments : List Moment) : List Step :=
  .start 0 :: (moments.map (·.step source) ++ [.stop 0])

/-- The world that a watch begins with at a time. -/
def watchFrom (interval began : Nat) : World := { watchWorld interval with now := began }

/-- The world of a watch behind some moments. -/
def behind [Client] (source : SourceConfig) (interval began : Nat) (moments : List Moment) :
    World :=
  (watchFrom interval began).after (.start 0 :: moments.map (·.step source))

/-- What a watch prints until it is interrupted. -/
def output [Client] (source : SourceConfig) (interval began : Nat) (raw : Bool)
    (moments : List Moment) : String :=
  printed raw ((watchFrom interval began).history (watched source moments))

/-- Whether each status that was applied has been taken. -/
def Caught (w : World) : Prop :=
  ∀ view ∈ w.views[0]?, view.snapshot.isLoaded = true → view.unseen = false

instance (w : World) : Decidable (Caught w) :=
  inferInstanceAs (Decidable (∀ view ∈ w.views[0]?, _))

/-- Whether in a run of some moments from a world each delivery is served to a fetch that waits, and
each status that was applied is taken before that, and before the end. -/
def Attends [Client] (source : SourceConfig) : World → List Moment → Prop
  | w, [] => Caught w
  | w, m :: rest =>
    (m.isServed = true → w.inFlight 0 = 1 ∧ Caught w) ∧
      Attends source (w.step (m.step source)).world rest

instance decidableAttends [Client] (source : SourceConfig) :
    ∀ w moments, Decidable (Attends source w moments)
  | w, [] => inferInstanceAs (Decidable (Caught w))
  | w, m :: rest =>
    have := decidableAttends source (w.step (m.step source)).world rest
    inferInstanceAs (Decidable ((m.isServed = true → w.inFlight 0 = 1 ∧ Caught w) ∧ _))

/-- The deliveries of some moments, and when they are served. -/
def arrivals : Nat → List Moment → List (Nat × Delivery)
  | _, [] => []
  | now, .passes ms :: rest => arrivals (now + ms) rest
  | now, .served d :: rest => (now, d) :: arrivals now rest
  | now, .taken :: rest => arrivals now rest

/-- The statuses that a source makes of deliveries, and when these were served. -/
def successes [Client] (source : SourceConfig) (arrived : List (Nat × Delivery)) :
    List (Nat × Status) :=
  arrived.filterMap fun a => (source.fetch a.2).toOption.map (a.1, ·)

/-- The snapshots that the steps of a world yield, and when. -/
def frames (history : List Stepped) : List (Snapshot × Nat) :=
  history.flatMap fun s => s.yielded.map (·, s.world.now)

/-- Whether a frame shows a status as a whole, at the time of its arrival or later. -/
def Shows (frame : Snapshot × Nat) (success : Nat × Status) : Prop :=
  frame.1 = .ofStatus success.2 (.ofMillis success.1) ∧ success.1 ≤ frame.2

/-- Whether frames show statuses one by one, behind at most one frame of nothing. -/
def Told (shown : List (Snapshot × Nat)) (told : List (Nat × Status)) : Prop :=
  ∃ lead shows, shown = lead ++ shows ∧ lead.length ≤ 1 ∧ (∀ f ∈ lead, f.1 = .empty) ∧
    List.Forall₂ Shows shows told

/-- How the view of a watch stands to the frames so far and to the statuses that have arrived:
nothing has come of the view, or it has been told all of them, or it has the last one ready. -/
inductive Awaits (now : Nat) : List (Snapshot × Nat) → View → List (Nat × Status) → Prop
  | nothing : Awaits now [] .fresh []
  | caught {shown : List (Snapshot × Nat)} {view : View} {arrived : List (Nat × Status)}
      (hseen : view.unseen = false) (h : Told shown arrived) : Awaits now shown view arrived
  | ready {shown : List (Snapshot × Nat)} {view : View} {arrived : List (Nat × Status)}
      {success : Nat × Status} (hshows : Shows (view.snapshot, now) success)
      (hunseen : view.unseen = true) (h : Told shown arrived) :
      Awaits now shown view (arrived ++ [success])

variable {source : SourceConfig} {interval now : Nat} {shown : List (Snapshot × Nat)} {view : View}
  {arrived : List (Nat × Status)} {moments : List Moment} {w : World}

/-! ### One moment -/

theorem Shows.isLoaded {frame : Snapshot × Nat} {success : Nat × Status} (h : Shows frame success) :
    frame.1.isLoaded = true := by
  rw [h.1]
  rfl

theorem Told.nil : Told [] [] := ⟨[], [], rfl, Nat.zero_le 1, fun _ h => (nomatch h), .nil⟩

theorem Told.concat {frame : Snapshot × Nat} {success : Nat × Status} (h : Told shown arrived)
    (hshows : Shows frame success) : Told (shown ++ [frame]) (arrived ++ [success]) := by
  obtain ⟨lead, shows, rfl, hlength, hempty, hall⟩ := h
  refine ⟨lead, shows ++ [frame], List.append_assoc _ _ _, hlength, hempty, ?_⟩
  exact List.rel_append hall (.cons hshows .nil)

/-- As time passes the view stands as it did. -/
theorem Awaits.later (h : Awaits now shown view arrived) (ms : Nat) :
    Awaits (now + ms) shown view arrived := by
  cases h with
  | nothing => exact .nothing
  | caught hseen h => exact .caught hseen h
  | ready hshows hunseen h =>
      exact .ready ⟨hshows.1, Nat.le_add_right_of_le hshows.2⟩ hunseen h

/-- A take tells what is ready. -/
theorem Awaits.takes (h : Awaits now shown view arrived) :
    Awaits now (shown ++ view.ready.map (·, now)) { view with unseen := false } arrived := by
  cases h with
  | nothing =>
      refine .caught rfl ⟨[(.empty, now)], [], rfl, Nat.le_refl 1, fun f hf => ?_, .nil⟩
      rw [List.mem_singleton.1 hf]
  | caught hseen h =>
      rw [View.ready, hseen, if_neg Bool.false_ne_true, List.map_nil, List.append_nil]
      exact .caught rfl h
  | ready hshows hunseen h =>
      rw [View.ready, hunseen, if_pos rfl]
      exact .caught rfl (h.concat hshows)

/-- An answer is ready if it is a success, and leaves all as it was if it is none; but nothing may
be lost by it, so what was ready before has to be taken. -/
theorem Awaits.answers (h : Awaits now shown view arrived)
    (hcaught : view.snapshot.isLoaded = true → view.unseen = false)
    (fetched : Except SourceError Status) :
    Awaits now shown (view.receive now fetched)
      (arrived ++ (fetched.toOption.map (now, ·)).toList) := by
  cases fetched with
  | error e =>
      rw [show (Except.error e : Except SourceError Status).toOption = none from rfl,
        Option.map_none, Option.toList_none, List.append_nil]
      exact h
  | ok s =>
      have hshows : Shows ((view.apply now s).snapshot, now) (now, s) := ⟨rfl, Nat.le_refl now⟩
      cases h with
      | nothing => exact .ready hshows rfl .nil
      | caught hseen h => exact .ready hshows rfl h
      | ready hlast hunseen h =>
          -- what is ready would have been taken
          cases hunseen.symm.trans (hcaught hlast.isLoaded)

/-- Once everything has been taken, everything has been told. -/
theorem Awaits.told (h : Awaits now shown view arrived)
    (hcaught : view.snapshot.isLoaded = true → view.unseen = false) : Told shown arrived := by
  cases h with
  | nothing => exact .nil
  | caught hseen h => exact h
  | ready hlast hunseen h => cases hunseen.symm.trans (hcaught hlast.isLoaded)

/-- A watch at rest in a world `w`: how many deliveries were answered, the frames so far and the
statuses that have arrived. -/
def Stands (delay answered : Nat) (shown : List (Snapshot × Nat)) (arrived : List (Nat × Status))
    (w : World) : Prop :=
  ∃ view, Watches delay answered view w ∧ Awaits w.now shown view arrived

namespace Stands

variable {delay answered : Nat}

/-- Time that passes shows nothing and brings nothing. -/
theorem passes (h : Stands delay answered shown arrived w) (ms : Nat) :
    Stands delay answered shown arrived (w.step (.advance ms)).world := by
  obtain ⟨view, hw, h⟩ := h
  refine ⟨view, hw.passes ms, ?_⟩
  rw [World.step_now]
  exact h.later ms

/-- What the update stream yields is what is shown next. -/
theorem takes (h : Stands delay answered shown arrived w) :
    Stands delay answered (shown ++ (w.step (.updates 0)).yielded.map (·, w.now)) arrived
      (w.step (.updates 0)).world := by
  obtain ⟨view, hw, h⟩ := h
  obtain ⟨htakes, hyielded, -⟩ := hw.takes
  refine ⟨{ view with unseen := false }, htakes, ?_⟩
  rw [World.step_now, hyielded]
  exact h.takes

theorem caught_iff {view : View} (hw : Watches delay answered view w) :
    Caught w ↔ (view.snapshot.isLoaded = true → view.unseen = false) := by
  rw [Caught, hw.views_eq]
  exact ⟨fun h => h view rfl, fun h view' hview => by
    obtain rfl : view = view' := Option.some.inj hview
    exact h⟩

/-- A delivery is one arrival more, if its fetch gives a status. -/
theorem answers (h : Stands delay answered shown arrived w) (hdelay : 0 < delay)
    (hwaits : w.inFlight 0 = 1) (hcaught : Caught w) (fetched : Except SourceError Status) :
    Stands delay (answered + 1) shown (arrived ++ (fetched.toOption.map (w.now, ·)).toList)
      (w.step (.reply 0 (replyOf fetched))).world := by
  obtain ⟨view, hw, h⟩ := h
  refine ⟨view.receive w.now fetched, hw.answers hdelay hwaits fetched, ?_⟩
  rw [World.step_now]
  exact h.answers ((caught_iff hw).1 hcaught) fetched

/-- What has been shown tells what has arrived, once the stream has been asked. -/
theorem told (h : Stands delay answered shown arrived w) (hcaught : Caught w) :
    Told shown arrived := by
  obtain ⟨view, hw, h⟩ := h
  exact h.told ((caught_iff hw).1 hcaught)

end Stands

/-! ### A run -/

theorem frames_cons (s : Stepped) (history : List Stepped) :
    frames (s :: history) = s.yielded.map (·, s.world.now) ++ frames history := rfl

variable [Client]

/-- The deliveries of a run are those of its first moment and those behind it. -/
theorem arrivals_cons (source : SourceConfig) (w : World) (m : Moment) (rest : List Moment) :
    arrivals w.now (m :: rest) =
      arrivals w.now [m] ++ arrivals (w.step (m.step source)).world.now rest := by
  rw [World.step_now]
  cases m <;> rfl

/-- A moment of a watch adds its delivery to what has arrived, and what it yields to the frames. -/
theorem Stands.step {delay answered : Nat} (hdelay : 0 < delay)
    (h : Stands delay answered shown arrived w) {m : Moment}
    (hserve : m.isServed = true → w.inFlight 0 = 1 ∧ Caught w) :
    Stands delay (answered + (arrivals w.now [m]).length)
      (shown ++ frames [w.step (m.step source)])
      (arrived ++ successes source (arrivals w.now [m])) (w.step (m.step source)).world := by
  cases m with
  | passes ms =>
      have hframes : frames [w.step (.advance ms)] = [] := rfl
      simpa [Moment.step, hframes, arrivals, successes] using h.passes ms
  | served d =>
      obtain ⟨hwaits, hcaught⟩ := hserve rfl
      have hframes : frames [w.step (.reply 0 (replyOf (source.fetch d)))] = [] := rfl
      have hsuccess : successes source (arrivals w.now [.served d]) =
          ((source.fetch d).toOption.map (w.now, ·)).toList := by
        rw [arrivals, successes, List.filterMap_cons]
        cases (source.fetch d).toOption <;> rfl
      rw [Moment.step, hframes, hsuccess, List.append_nil]
      exact h.answers hdelay hwaits hcaught (source.fetch d)
  | taken =>
      have hframes : frames [w.step (.updates 0)] =
          (w.step (.updates 0)).yielded.map (·, w.now) := by
        rw [frames_cons, World.step_now]
        exact List.append_nil _
      rw [Moment.step, hframes]
      simpa [arrivals, successes] using h.takes

/-- **Whatever is served, the watch goes on**: behind any of the moments of a run it is at rest,
with the deliveries so far and the frames so far, and attends to the others. -/
theorem stands_after {delay answered : Nat} (hdelay : 0 < delay)
    (h : Stands delay answered shown arrived w) {past later : List Moment}
    (hattends : Attends source w (past ++ later)) :
    Stands delay (answered + (arrivals w.now past).length)
        (shown ++ frames (w.history (past.map (·.step source))))
        (arrived ++ successes source (arrivals w.now past))
        (w.after (past.map (·.step source))) ∧
      Attends source (w.after (past.map (·.step source))) later := by
  induction past generalizing w answered shown arrived with
  | nil =>
      refine ⟨?_, hattends⟩
      simpa [World.history, World.after, frames, successes, arrivals] using h
  | cons m rest ih =>
      obtain ⟨hserve, hrest⟩ := hattends
      have hsuccesses : successes source (arrivals w.now (m :: rest)) =
          successes source (arrivals w.now [m]) ++
            successes source (arrivals (w.step (m.step source)).world.now rest) := by
        rw [arrivals_cons source]
        exact List.filterMap_append
      have hframes : frames (w.history ((m :: rest).map (·.step source))) =
          frames [w.step (m.step source)] ++
            frames ((w.step (m.step source)).world.history (rest.map (·.step source))) := by
        rw [List.map_cons, World.history, frames_cons, frames_cons]
        exact congrArg (· ++ _) (List.append_nil _).symm
      rw [hsuccesses, hframes, arrivals_cons source, List.length_append, ← Nat.add_assoc,
        ← List.append_assoc, ← List.append_assoc]
      exact ih (h.step hdelay hserve) hrest

/-- **What a run tells** are the statuses of the deliveries that are served in it. -/
theorem told_of_attends {delay answered : Nat} (hdelay : 0 < delay)
    (h : Stands delay answered shown arrived w) (hattends : Attends source w moments) :
    Told (shown ++ frames (w.history (moments.map (·.step source))))
      (arrived ++ successes source (arrivals w.now moments)) := by
  obtain ⟨hstands, hcaught⟩ := stands_after hdelay h ((List.append_nil moments).symm ▸ hattends)
  exact hstands.told hcaught

/-! ### What is printed -/

omit [Client] in
/-- What a watch prints of a history. -/
theorem printed_eq_frames (raw : Bool) (history : List Stepped) :
    printed raw history =
      String.join ((frames history).map fun f => frame raw f.1 (.ofMillis f.2)) := by
  rw [printed, frames, List.map_flatMap]
  simp only [List.map_map, Function.comp_def]

omit [Client] in
/-- As documents, what was told is printed and nothing else. -/
theorem join_documents {told : List (Nat × Status)} (h : Told shown told) :
    String.join (shown.map fun f => frame true f.1 (.ofMillis f.2)) =
      String.join (told.map fun s =>
        String.ofList ((Snapshot.ofStatus s.2 (.ofMillis s.1)).raw ++ ['\n'])) := by
  obtain ⟨lead, shows, rfl, -, hempty, hall⟩ := h
  have hlead : lead.map (fun f => frame true f.1 (.ofMillis f.2)) = lead.map fun _ => "" :=
    List.map_congr_left fun f hf => by
      rw [hempty f hf]
      rfl
  have hshows : shows.map (fun f => frame true f.1 (.ofMillis f.2)) = told.map fun s =>
      String.ofList ((Snapshot.ofStatus s.2 (.ofMillis s.1)).raw ++ ['\n']) := by
    induction hall with
    | nil => rfl
    | cons hfirst _ ih => rw [List.map_cons, List.map_cons, ih, hfirst.1]; rfl
  have hnothing : ∀ fs : List (Snapshot × Nat), String.join (fs.map fun _ => "") = "" := by
    intro fs
    induction fs with
    | nil => rfl
    | cons f fs ih => rw [List.map_cons, String.join_cons, ih, String.empty_append]
  rw [List.map_append, String.join_append, hlead, hshows, hnothing, String.empty_append]

/-- The start and the interruption of a watch yield nothing. -/
theorem frames_watched (source : SourceConfig) (interval began : Nat) (moments : List Moment) :
    frames ((watchFrom interval began).history (watched source moments)) =
      frames ((behind source interval began []).history (moments.map (·.step source))) := by
  rw [watched, World.history, World.history_append, frames_cons, frames, List.flatMap_append]
  exact List.append_nil _

/-! ### All runs -/

/-- What a watch makes of the deliveries of some moments. -/
structure Tells (source : SourceConfig) (interval began : Nat) (moments : List Moment) : Prop where
  /-- As documents, it prints one for each success, in their order, and nothing else. -/
  documents : output source interval began true moments =
    String.join ((successes source (arrivals began moments)).map fun s =>
      String.ofList ((Snapshot.ofStatus s.2 (.ofMillis s.1)).raw ++ ['\n']))
  /-- As tables, it prints one for each success, in their order, each on a cleared screen, behind at
  most one that shows nothing. -/
  tables : ∃ lead shows, lead.length ≤ 1 ∧ (∀ f ∈ lead, f.1 = .empty) ∧
    List.Forall₂ Shows shows (successes source (arrivals began moments)) ∧
    output source interval began false moments =
      String.join ((lead ++ shows).map fun f => clearScreen ++ f.1.render (.ofMillis f.2))
  /-- Behind any of the moments it polls, each delivery has answered one of its fetches, and once
  its interval has passed it has one waiting. -/
  goesOn : ∀ past later, moments = past ++ later → ∃ p,
    (behind source interval began past).pollers = [p] ∧
    (behind source interval began past).stateOf 0 p = .polling ∧
    p.fetches = (arrivals began past).length + (behind source interval began past).inFlight 0 ∧
    (behind source interval began (past ++ [.passes (watchInterval interval)])).inFlight 0 = 1

theorem stands_start (source : SourceConfig) (interval began : Nat) :
    Stands (watchInterval interval) 0 [] [] (behind source interval began []) :=
  ⟨.fresh, Watches.start (watchInterval interval) began, .nothing⟩

omit [Client] in
theorem watchInterval_pos (interval : Nat) : 0 < watchInterval interval :=
  Nat.le_max_right interval 1

/-- **A run that attends to its stream tells what arrived.** -/
theorem tells_of_attends {began : Nat}
    (h : Attends source (behind source interval began []) moments) :
    Tells source interval began moments := by
  have hbegan : (behind source interval began []).now = began := World.step_now _ _
  have hstart := stands_start source interval began
  have htold := told_of_attends (watchInterval_pos interval) hstart h
  rw [hbegan, ← frames_watched] at htold
  constructor
  case documents => exact (printed_eq_frames true _).trans (join_documents htold)
  case tables =>
    obtain ⟨lead, shows, hframes, hlength, hempty, hall⟩ := htold
    refine ⟨lead, shows, hlength, hempty, hall, ?_⟩
    rw [output, printed_eq_frames, show frames _ = lead ++ shows from hframes]
    rfl
  case goesOn =>
    rintro past later rfl
    obtain ⟨⟨view, hw, -⟩, -⟩ := stands_after (watchInterval_pos interval) hstart h
    rw [hbegan, Nat.zero_add] at hw
    obtain ⟨p, hp, hpolling, hfetches⟩ := hw.polls
    refine ⟨p, hp, hpolling, hfetches, ?_⟩
    rw [behind, List.map_append, ← List.cons_append, World.after_append]
    exact hw.waits_again _ (Nat.le_refl _)

/-! ### The run of one delivery after the other -/

/-- The moments of a watch whose deliveries come an interval apart and are taken at once. -/
def regular (interval : Nat) : List Delivery → List Moment
  | [] => []
  | [d] => [.served d, .taken]
  | d :: rest => [.served d, .taken, .passes (watchInterval interval)] ++ regular interval rest

/-- The steps of a watch are those of regular moments. -/
theorem exchanges_eq_regular (source : SourceConfig) (interval : Nat) (deliveries : List Delivery) :
    exchanges interval (deliveries.map source.fetch) =
      (regular interval deliveries).map (·.step source) := by
  induction deliveries with
  | nil => rfl
  | cons d rest ih =>
      cases rest with
      | nil => rfl
      | cons d' rest =>
          rw [regular, List.map_append, ← ih]
          · rfl
          · exact fun h => nomatch h

omit [Client] in
theorem arrivals_regular (interval : Nat) (deliveries : List Delivery) (now : Nat) :
    (arrivals now (regular interval deliveries)).map (·.2) = deliveries := by
  induction deliveries generalizing now with
  | nil => rfl
  | cons d rest ih =>
      cases rest with
      | nil => rfl
      | cons d' rest =>
          rw [regular]
          · exact congrArg (d :: ·) (ih _)
          · exact fun h => nomatch h

/-- A watch attends to its stream. -/
theorem attends_regular {delay answered : Nat} (hdelay : delay = watchInterval interval)
    {view : View} (hw : Watches delay answered view w) (hwaits : w.inFlight 0 = 1)
    (hseen : view.snapshot.isLoaded = true → view.unseen = false) (deliveries : List Delivery) :
    Attends source w (regular interval deliveries) := by
  have hcaught : Caught w := (Stands.caught_iff hw).2 hseen
  induction deliveries generalizing w answered view with
  | nil => exact hcaught
  | cons d rest ih =>
      have hanswers := hw.answers (hdelay ▸ watchInterval_pos interval) hwaits (source.fetch d)
      have htakes := hanswers.takes.1
      cases rest with
      | nil =>
          exact ⟨fun _ => ⟨hwaits, hcaught⟩, fun h => (nomatch h),
            (Stands.caught_iff htakes).2 fun _ => rfl⟩
      | cons d' rest =>
          rw [regular]
          · have hagain := htakes.waits_again (watchInterval interval) (Nat.le_of_eq hdelay)
            exact ⟨fun _ => ⟨hwaits, hcaught⟩, fun h => (nomatch h), fun h => (nomatch h),
              ih (htakes.passes _) hagain (fun _ => rfl)
                ((Stands.caught_iff (htakes.passes _)).2 fun _ => rfl)⟩
          · exact fun h => nomatch h

/-- `watch` is one of these runs. -/
theorem exists_attends_watch (source : SourceConfig) (interval : Nat) (deliveries : List Delivery) :
    ∃ moments, Attends source (behind source interval 0 []) moments ∧
      (arrivals 0 moments).map (·.2) = deliveries ∧
      ∀ raw, watch source interval raw deliveries = ⟨0, output source interval 0 raw moments, none⟩ := by
  refine ⟨.taken :: regular interval deliveries, ⟨fun h => (nomatch h), ?_⟩,
    arrivals_regular interval deliveries 0, fun raw => ?_⟩
  · obtain ⟨htakes, -, hflight⟩ := (Watches.start (watchInterval interval) 0).takes
    exact attends_regular rfl htakes hflight (fun _ => rfl) deliveries
  · have hsteps : watchSteps source interval deliveries =
        .start 0 :: (Moment.taken :: regular interval deliveries).map (·.step source) := by
      rw [watchSteps, exchanges_eq_regular]
      rfl
    have hframes := frames_watched source interval 0 (.taken :: regular interval deliveries)
    rw [output, printed_eq_frames, hframes, watch, hsteps]
    rw [printed_eq_frames, World.history, frames_cons]
    rfl

/-- **What a watch prints is the history of the successful answers.**  However the deliveries to its
requests follow on each other, if each status is taken before the next delivery is served, a watch
prints the statuses of those deliveries that carry one, in their order, and nothing of any other;
and it goes on polling whatever is delivered.  `watch` is one of these runs. -/
theorem watch_prints_history (source : SourceConfig) (interval : Nat) :
    (∀ d s, (source.fetch d).toOption = some s ↔
      source.request?.isSome ∧ d.Carries source.format s) ∧
    (∀ began moments, Attends source (behind source interval began []) moments →
      Tells source interval began moments) ∧
    ∀ deliveries, ∃ moments, Tells source interval 0 moments ∧
      (arrivals 0 moments).map (·.2) = deliveries ∧
      ∀ raw, watch source interval raw deliveries =
        ⟨0, output source interval 0 raw moments, none⟩ := by
  refine ⟨fun d s => ?_, fun began moments h => tells_of_attends h, fun deliveries => ?_⟩
  · rw [← SourceConfig.fetch_eq_ok_iff]
    cases source.fetch d with
    | ok s' => exact ⟨fun h => congrArg _ (Option.some.inj h), fun h => congrArg _ (Except.ok.inj h)⟩
    | error e => exact ⟨fun h => (nomatch h), fun h => (nomatch h)⟩
  · obtain ⟨moments, hattends, hdeliveries, hwatch⟩ :=
      exists_attends_watch source interval deliveries
    exact ⟨moments, tells_of_attends hattends, hdeliveries, hwatch⟩

omit [Client] in
/-- A failure, then a status that stands unread while time passes, a connection that is closed, and
the same status again. -/
theorem watch_prints_history_outage :
    ∃ (client : Client) (source : SourceConfig) (closed : Failure) (answer : Delivery)
      (moments : List Moment), client = .standard ∧
      source = { SourceConfig.ofUrl "http://h" with format := .json } ∧
      closed = ⟨"connection closed before message completed", []⟩ ∧
      answer = Delivery.answered 200 (Text.utf8 "[[\"m\",1,0],[]]".toList) none ∧
      moments = [.passes 2, .served (.answered 503 [] (some closed)), .passes 5, .served answer,
        .passes 3, .taken, .passes 2, .served (.unanswered closed), .passes 5, .served answer,
        .taken, .taken] ∧
      Attends source (behind source 5 1000 []) moments ∧ Tells source 5 1000 moments ∧
      successes source (arrivals 1000 moments) =
        [(1007, ⟨⟨"m", 1, 0⟩, []⟩), (1017, ⟨⟨"m", 1, 0⟩, []⟩)] := by
  let : Client := .standard
  have hattends : Attends { SourceConfig.ofUrl "http://h" with format := .json }
      (behind { SourceConfig.ofUrl "http://h" with format := .json } 5 1000 [])
      [.passes 2,
        .served (.answered 503 [] (some ⟨"connection closed before message completed", []⟩)),
        .passes 5, .served (.answered 200 (Text.utf8 "[[\"m\",1,0],[]]".toList) none), .passes 3,
        .taken, .passes 2, .served (.unanswered ⟨"connection closed before message completed", []⟩),
        .passes 5, .served (.answered 200 (Text.utf8 "[[\"m\",1,0],[]]".toList) none), .taken,
        .taken] := by
    decide +kernel
  exact ⟨.standard, _, _, _, _, rfl, rfl, rfl, rfl, rfl, hattends,
    (watch_prints_history _ 5).2.1 1000 _ hattends, by decide +kernel⟩

end ClusterWatch.Session
