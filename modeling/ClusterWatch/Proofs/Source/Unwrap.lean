import ClusterWatch.Proofs.Cluster.Wire

/-!
# Unwrapping — a wrapped body is no JSON

`IsCall callback inner s` says that the text `s` calls `callback` on `inner`.  `unwrap` takes from a
trimmed body the inner text of a call, and nothing from any other body (`unwrap_eq_some_iff`).

A call ends in a bracket, a semicolon or a blank, and a text that writes a status ends in the
bracket of its record, so no text is both (`IsCall.not_written`): not even when the callback is a
part of the JSON itself.  Hence a body has one reading (`decodeBody_one_reading`).
-/

namespace ClusterWatch
open Json Text

/-! ### Calls -/

/-- `IsCall callback inner s`: the text `s` is the call of `callback` on `inner`, perhaps with a
semicolon behind it, and with blanks before the opening bracket, before the semicolon and at the
end. -/
def IsCall (callback inner s : List Char) : Prop :=
  ∃ gap behind mark last, Blanks gap ∧ Blanks behind ∧ (mark = [] ∨ mark = [';']) ∧ Blanks last ∧
    s = callback ++ (gap ++ '(' :: (inner ++ ')' :: (behind ++ (mark ++ last))))

/-- A semicolon at the end is taken off, and nothing else. -/
theorem exists_before?_semicolon (s : List Char) :
    ∃ mark, (mark = [] ∨ mark = [';']) ∧ s = (before? ';' s).getD s ++ mark := by
  cases h : before? ';' s with
  | none => exact ⟨[], .inl rfl, (List.append_nil s).symm⟩
  | some t => exact ⟨[';'], .inr rfl, before?_eq_some_iff.1 h⟩

/-- A text that ends in its closing bracket is trimmed. -/
theorem trimEnd_closing (inner : List Char) {b : List Char} (hb : Blanks b) :
    trimEnd (inner ++ ')' :: b) = inner ++ [')'] := by
  rw [List.append_cons]
  refine trimEnd_append hb fun c hc => ?_
  obtain rfl : ')' = c := by simpa using hc
  rfl

/-- What stands behind the inner text of a call. -/
theorem before?_closing_iff {s inner : List Char} :
    before? ')' (trimEnd ((before? ';' (trimEnd s)).getD (trimEnd s))) = some inner ↔
      ∃ behind mark last, Blanks behind ∧ (mark = [] ∨ mark = [';']) ∧ Blanks last ∧
        s = inner ++ ')' :: (behind ++ (mark ++ last)) := by
  constructor
  · intro h
    obtain ⟨last, hlast, hs⟩ := exists_trimEnd s
    obtain ⟨mark, hmark, ht⟩ := exists_before?_semicolon (trimEnd s)
    obtain ⟨behind, hbehind, hu⟩ := exists_trimEnd ((before? ';' (trimEnd s)).getD (trimEnd s))
    rw [before?_eq_some_iff.1 h] at hu
    refine ⟨behind, mark, last, hbehind, hmark, hlast, ?_⟩
    rw [hs, ht, hu]
    simp
  · rintro ⟨behind, mark, last, hbehind, rfl | rfl, hlast, rfl⟩
    · -- no semicolon: all blanks are at the end
      have hblanks : Blanks (behind ++ ([] ++ last)) := List.forall_mem_append.2 ⟨hbehind, hlast⟩
      have hnone : before? ';' (inner ++ [')']) = none := by simp [before?]
      rw [trimEnd_closing inner hblanks, hnone, Option.getD_none, trimEnd_closing inner .nil]
      exact before?_eq_some_iff.2 rfl
    · -- a semicolon: the blanks before it are at the end once it is taken off
      have hs : trimEnd ((inner ++ ')' :: behind) ++ [';'] ++ last) =
          (inner ++ ')' :: behind) ++ [';'] :=
        trimEnd_append hlast fun c hc => by
          rw [List.getLast?_concat] at hc
          obtain rfl : ';' = c := Option.some.inj hc
          rfl
      have hsome : before? ';' ((inner ++ ')' :: behind) ++ [';']) =
          some (inner ++ ')' :: behind) := before?_eq_some_iff.2 rfl
      have happend : inner ++ ')' :: (behind ++ ([';'] ++ last)) =
          (inner ++ ')' :: behind) ++ [';'] ++ last := by simp
      rw [happend, hs, hsome, Option.getD_some, trimEnd_closing inner hbehind]
      exact before?_eq_some_iff.2 rfl

/-- **Unwrapping takes calls apart**, and gives nothing for any other body. -/
theorem unwrap_eq_some_iff {callback body inner : List Char} :
    unwrap callback body = some inner ↔ IsCall callback inner (trim body) := by
  constructor
  · intro h
    simp only [unwrap] at h
    split at h
    · cases h
    next s hcallback =>
      split at h
      · cases h
      next t hopening =>
        obtain ⟨gap, hgap, hs⟩ := exists_trimStart s
        obtain ⟨behind, mark, last, hbehind, hmark, hlast, ht⟩ := before?_closing_iff.1 h
        refine ⟨gap, behind, mark, last, hgap, hbehind, hmark, hlast, ?_⟩
        rw [after?_eq_some_iff.1 hcallback, hs, after?_eq_some_iff.1 hopening, ht]
        rfl
  · rintro ⟨gap, behind, mark, last, hgap, hbehind, hmark, hlast, h⟩
    have hstart : ∀ r, trimStart (gap ++ '(' :: r) = '(' :: r := fun r =>
      trimStart_append hgap fun c hc => by
        obtain rfl : '(' = c := Option.some.inj hc
        rfl
    simp only [unwrap, after?_eq_some_iff.2 h, hstart,
      after?_eq_some_iff.2 (List.singleton_append).symm]
    exact before?_closing_iff.2 ⟨behind, mark, last, hbehind, hmark, hlast, rfl⟩

/-! ### Calls are no JSON -/

/-- A call ends in a bracket, a semicolon or a blank. -/
theorem IsCall.getLast? {callback inner s : List Char} (h : IsCall callback inner s) :
    ∃ c, s.getLast? = some c ∧ (c = ')' ∨ c = ';' ∨ isBlank c = true) := by
  obtain ⟨gap, behind, mark, last, -, hbehind, hmark, hlast, rfl⟩ := h
  have hne : ')' :: (behind ++ (mark ++ last)) ≠ [] := List.cons_ne_nil _ _
  refine ⟨(')' :: (behind ++ (mark ++ last))).getLast hne, ?_, ?_⟩
  · have happend : callback ++ (gap ++ '(' :: (inner ++ ')' :: (behind ++ (mark ++ last)))) =
        (callback ++ (gap ++ '(' :: inner)) ++ ')' :: (behind ++ (mark ++ last)) := by simp
    rw [happend, List.getLast?_append_of_ne_nil _ hne, List.getLast?_eq_some_getLast hne]
  · have hall : ∀ c ∈ ')' :: (behind ++ (mark ++ last)), c = ')' ∨ c = ';' ∨ isBlank c = true := by
      rw [List.forall_mem_cons, List.forall_mem_append, List.forall_mem_append]
      refine ⟨.inl rfl, fun c hc => .inr (.inr (hbehind c hc)), fun c hc => .inr (.inl ?_),
        fun c hc => .inr (.inr (hlast c hc))⟩
      rcases hmark with rfl | rfl
      · cases hc
      · exact List.mem_singleton.1 hc
    exact hall _ (List.getLast_mem hne)

/-- A call does not end as a container does. -/
theorem IsCall.getLast?_ne {callback inner s : List Char} (h : IsCall callback inner s)
    (k : Container) : s.getLast? ≠ some k.closing := by
  intro hk
  obtain ⟨c, hc, hends⟩ := h.getLast?
  obtain rfl : c = k.closing := Option.some.inj (hc.symm.trans hk)
  cases k <;> revert hends <;> decide

/-- A text that writes a record ends in the bracket of a container. -/
theorem Json.Shape.Writes.getLast? {name : String} {fields : Fields} {vs : fields.Values}
    {s : List Char} (h : (Shape.record name fields).Writes vs s) :
    ∃ c : Container, s.getLast? = some c.closing := by
  rcases h with ⟨items, ⟨inside, -, rfl⟩, -⟩ | ⟨items, ⟨inside, -, rfl⟩, -⟩
  · exact ⟨.list, by rw [← List.cons_append, List.getLast?_concat]⟩
  · exact ⟨.object, by rw [← List.cons_append, List.getLast?_concat]⟩

/-- No text is both a call and a status. -/
theorem IsCall.not_written {callback inner s : List Char} (h : IsCall callback inner s)
    (st : Status) : ¬ st.Written s := by
  intro hwritten
  obtain ⟨k, hk⟩ := Json.Shape.Writes.getLast? hwritten
  exact h.getLast?_ne k hk

/-! ### One reading -/

/-- What a body holds when it is no call. -/
theorem decodeBody_jsonp_of_none {callback : String} {body : List Char}
    (h : unwrap callback.toList body = none) :
    decodeBody (.jsonp callback) body = decodeBody .json body := by
  simp only [decodeBody, h, Option.getD_none]

/-- What a call holds. -/
theorem decodeBody_jsonp_of_some {callback : String} {body inner : List Char}
    (h : unwrap callback.toList body = some inner) :
    decodeBody (.jsonp callback) body = decodeBody .json inner := by
  simp only [decodeBody, h, Option.getD_some]

/-- A text that writes no status is refused. -/
theorem exists_problem_of_not_written {body : List Char}
    (h : ∀ st, ¬ Status.Written st (trim body)) :
    ∃ problem, decodeBody .json body = .error problem := by
  simp only [decodeBody, Status.decode]
  cases hread : Status.read (trim body) with
  | error fault => exact ⟨_, rfl⟩
  | ok st => exact absurd (Status.read_trim_eq_ok_iff.1 hread) (h st)

/-- **A body has one reading.**  What is decoded as it stands is decoded to the same status when a
callback is expected, whatever it is.  A body that is a call is refused as it stands, and is decoded
to what its inner text is decoded to, with the same problem at the same place if there is one; any
other body is decoded as it stands, problems included. -/
theorem decodeBody_one_reading (callback : String) (body : List Char) :
    (∀ st, decodeBody .json body = .ok st → decodeBody (.jsonp callback) body = .ok st) ∧
      (∀ inner, unwrap callback.toList body = some inner →
        (∃ problem, decodeBody .json body = .error problem) ∧
          decodeBody (.jsonp callback) body = decodeBody .json inner) ∧
      (unwrap callback.toList body = none →
        decodeBody (.jsonp callback) body = decodeBody .json body) := by
  have hcall : ∀ inner, unwrap callback.toList body = some inner →
      ∃ problem, decodeBody .json body = .error problem := fun inner hinner =>
    exists_problem_of_not_written (unwrap_eq_some_iff.1 hinner).not_written
  refine ⟨fun st hst => ?_, fun inner hinner => ⟨hcall inner hinner, ?_⟩, decodeBody_jsonp_of_none⟩
  · cases hinner : unwrap callback.toList body with
    | none => rw [decodeBody_jsonp_of_none hinner, hst]
    | some inner =>
        obtain ⟨problem, hproblem⟩ := hcall inner hinner
        cases hst.symm.trans hproblem
  · exact decodeBody_jsonp_of_some hinner

/-- A callback that is the first character of the JSON; a call with blanks and a semicolon; and a
call that is not closed. -/
theorem decodeBody_one_reading_brace :
    (∃ body st, body = "\x7b\"agents\":[],\"master\":[\"m\",1,0]\x7d".toList ∧
      st = ⟨⟨"m", 1, 0⟩, []⟩ ∧ decodeBody .json body = .ok st ∧
      decodeBody (.jsonp "\x7b") body = .ok st) ∧
    (∃ body inner, body = " cb ([[\"m()\",1,0],[]]) ;".toList ∧
      inner = "[[\"m()\",1,0],[]]".toList ∧ unwrap "cb".toList body = some inner ∧
      (∃ problem, decodeBody .json body = .error problem) ∧
      decodeBody (.jsonp "cb") body = decodeBody .json inner) ∧
    unwrap "cb".toList "cb([".toList = none ∧
      decodeBody (.jsonp "cb") "cb([".toList = decodeBody .json "cb([".toList := by
  refine ⟨⟨_, _, rfl, rfl, ?_⟩, ⟨_, _, rfl, rfl, ?_⟩, ?_⟩
  · have hread : decodeBody .json "\x7b\"agents\":[],\"master\":[\"m\",1,0]\x7d".toList =
        .ok ⟨⟨"m", 1, 0⟩, []⟩ := by decide +kernel
    exact ⟨hread, (decodeBody_one_reading "\x7b" _).1 _ hread⟩
  · have hcall : unwrap "cb".toList " cb ([[\"m()\",1,0],[]]) ;".toList =
        some "[[\"m()\",1,0],[]]".toList := by decide
    exact ⟨hcall, (decodeBody_one_reading "cb" _).2.1 _ hcall⟩
  · have hnone : unwrap "cb".toList "cb([".toList = none := by decide
    exact ⟨hnone, (decodeBody_one_reading "cb" _).2.2 hnone⟩

end ClusterWatch
