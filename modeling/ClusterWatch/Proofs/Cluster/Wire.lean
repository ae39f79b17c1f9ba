import ClusterWatch.Proofs.Json.Shape
import ClusterWatch.Proofs.Text.Blank
import ClusterWatch.Source

/-!
# Wire — a body is decoded just when it writes a status

`Status.Written st s` says that the text `s` writes the status `st`, in the sense of its shape: each
record of it, wherever it stands, as an object or as a row.  `decodeBody_json_iff_written` says that
a body is decoded to `st` just when it writes `st` once the blanks at its ends are trimmed; any
other body is refused.

The reader of the shape takes the texts that write a status (`Shape.reads`); what is added here is
that nothing stands around them, since a trimmed text has no blanks at its ends.
-/

namespace ClusterWatch
open Json

/-! ### Values of the shape -/

/-- The value of its form that denotes a resource. -/
def Resource.toValue (r : Resource) : Resource.shape.Value := (r.cpus, r.memory, r.space, ())

/-- The value of its form that denotes a master. -/
def Master.toValue (m : Master) : Master.shape.Value := (m.host, m.agents, m.graphs, ())

/-- The value of its form that denotes an agent. -/
def Agent.toValue (a : Agent) : Agent.shape.Value :=
  (a.host, a.resource.toValue, a.released.toValue, a.tasks, ())

/-- The value of its form that denotes a status. -/
def Status.toValue (s : Status) : Status.shape.Value :=
  (s.master.toValue, s.agents.map Agent.toValue, ())

theorem Agent.map_toValue_ofValue (vs : List Agent.shape.Value) :
    (vs.map Agent.ofValue).map Agent.toValue = vs := by
  rw [List.map_map]
  exact List.map_id vs

theorem Agent.map_ofValue_toValue (as : List Agent) :
    (as.map Agent.toValue).map Agent.ofValue = as := by
  rw [List.map_map]
  exact List.map_id as

/-- What was read of a status is not lost in it. -/
theorem Status.toValue_ofValue (v : Status.shape.Value) : (Status.ofValue v).toValue = v := by
  obtain ⟨master, agents, ⟨⟩⟩ := v
  exact congrArg (fun as => (master, as, ())) (Agent.map_toValue_ofValue agents)

/-- A status can be made again of the values of its fields. -/
theorem Status.ofValue_toValue (s : Status) : Status.ofValue s.toValue = s := by
  obtain ⟨master, agents⟩ := s
  exact congrArg (Status.mk master) (Agent.map_ofValue_toValue agents)

/-- The text `s` writes the status `st`. -/
def Status.Written (st : Status) (s : List Char) : Prop := Status.shape.Writes st.toValue s

/-! ### Trimmed texts -/

/-- What is blank between the tokens of a document is blank in a text. -/
theorem isBlank_of_isSpace {c : Char} (h : isSpace c = true) : Text.isBlank c = true := by
  simp only [isSpace, Bool.or_eq_true, decide_eq_true_eq] at h
  rcases h with ((rfl | rfl) | rfl) | rfl <;> decide

/-- Blanks at the ends of a trimmed text are none. -/
theorem blanks_of_trim {body b w r : List Char} (h : Text.trim body = b ++ (w ++ r))
    (hb : IsBlanks b) (hr : IsBlanks r) : Text.trim body = w := by
  have hbnil : b = [] := by
    cases b with
    | nil => rfl
    | cons c b =>
        have hc := Text.head?_trim (s := body) (c := c) (by rw [h]; rfl)
        rw [isBlank_of_isSpace (hb c List.mem_cons_self)] at hc
        cases hc
  have hrnil : r = [] := by
    rcases List.eq_nil_or_concat r with hr' | ⟨r', c, rfl⟩
    · exact hr'
    · have hc := Text.getLast?_trim (s := body) (c := c) (by rw [h]; simp)
      rw [isBlank_of_isSpace (hr c (by simp))] at hc
      cases hc
  rw [h, hbnil, hrnil, List.nil_append, List.append_nil]

/-! ### Decoding -/

/-- A body is read as a status just when it is written as one between blanks. -/
theorem Status.read_trim_eq_ok_iff {body : List Char} {st : Status} :
    Status.read (Text.trim body) = .ok st ↔ Status.Written st (Text.trim body) := by
  have hreads := Shape.reads Status.shape
  constructor
  · intro h
    simp only [Status.read] at h
    split at h
    · cases h
    next v r hrun =>
      split at h
      next hr =>
        cases h
        obtain ⟨b, w, htrim, hb, hw⟩ := hreads.sound hrun
        rw [blanks_of_trim htrim hb (skipSpace_eq_nil_iff.1 hr), Status.Written,
          Status.toValue_ofValue]
        exact hw
      next => cases h
  · intro h
    have hrun := hreads.complete .nil h .nil
    rw [List.nil_append, List.append_nil] at hrun
    rw [Status.read, hrun]
    exact congrArg Except.ok (Status.ofValue_toValue st)

/-- **A body is decoded to a status just when it writes that status**, blanks at its ends aside, and
is refused when it writes none. -/
theorem decodeBody_json_iff_written (body : List Char) :
    (∀ st, decodeBody .json body = .ok st ↔ Status.Written st (Text.trim body)) ∧
      ((∃ st, Status.Written st (Text.trim body)) ∨
        ∃ problem, decodeBody .json body = .error problem) := by
  have hdecode : ∀ st, decodeBody .json body = .ok st ↔ Status.Written st (Text.trim body) := by
    intro st
    rw [← Status.read_trim_eq_ok_iff]
    simp only [decodeBody, Status.decode]
    cases Status.read (Text.trim body) with
    | error e => simp
    | ok st' => simp
  refine ⟨hdecode, ?_⟩
  cases h : decodeBody .json body with
  | error problem => exact .inr ⟨problem, rfl⟩
  | ok st => exact .inl ⟨st, (hdecode st).1 h⟩

end ClusterWatch
