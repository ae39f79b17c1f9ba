import ClusterWatch.Proofs.Source.Handshake

/-!
# Calls — unwrapping recognises exactly the calls of a callback

`Wraps callback inner body` is the grammar of a wrapped body: blanks, and then a call of `callback`
on `inner` (`IsCall`).  `unwrap` trims a body before it looks for the callback, so a body may lose
the blanks that a callback begins with; for any other callback nothing of the grammar is lost by
trimming (`unwrap_eq_some_iff_wraps`).

* `unwrap_unclosed`: a call that is not closed is none.
* `IsCall.of_semicolon`: before the one semicolon that is taken off there stands none.
* `unwrap_recognises_calls` puts these together with what is known of callbacks that begin with a
  blank (`unwrap_blank`).
-/

namespace ClusterWatch
open Text

/-- `Wraps callback inner body`: the body is a call of `callback` on `inner`, perhaps with blanks
before it. -/
def Wraps (callback inner body : List Char) : Prop :=
  ∃ before call, Blanks before ∧ IsCall callback inner call ∧ body = before ++ call

variable {callback inner : List Char}

/-! ### Trimming a call -/

/-- A call with more blanks at its end is a call. -/
theorem IsCall.append_blanks {s b : List Char} (h : IsCall callback inner s) (hb : Blanks b) :
    IsCall callback inner (s ++ b) := by
  obtain ⟨gap, behind, mark, last, hgap, hbehind, hmark, hlast, rfl⟩ := h
  refine ⟨gap, behind, mark, last ++ b, hgap, hbehind, hmark,
    List.forall_mem_append.2 ⟨hlast, hb⟩, ?_⟩
  simp

/-- A text that ends in a semicolon ends in no blank. -/
theorem getLast?_semicolon (front : List Char) :
    ∀ c, (front ++ [';']).getLast? = some c → isBlank c = false := by
  intro c hc
  rw [List.getLast?_concat] at hc
  obtain rfl : ';' = c := Option.some.inj hc
  rfl

/-- A call without the blanks at its end is a call. -/
theorem IsCall.trimEnd {s : List Char} (h : IsCall callback inner s) :
    IsCall callback inner (trimEnd s) := by
  obtain ⟨gap, behind, mark, last, hgap, hbehind, rfl | rfl, hlast, rfl⟩ := h
  · -- no semicolon: the call ends in its bracket
    have happend : callback ++ (gap ++ '(' :: (inner ++ ')' :: (behind ++ ([] ++ last)))) =
        (callback ++ (gap ++ '(' :: inner)) ++ ')' :: (behind ++ last) := by simp
    rw [happend, trimEnd_closing _ (List.forall_mem_append.2 ⟨hbehind, hlast⟩)]
    exact ⟨gap, [], [], [], hgap, .nil, .inl rfl, .nil, by simp⟩
  · have happend : callback ++ (gap ++ '(' :: (inner ++ ')' :: (behind ++ ([';'] ++ last)))) =
        (callback ++ (gap ++ '(' :: (inner ++ ')' :: behind)) ++ [';']) ++ last := by simp
    rw [happend, trimEnd_append hlast (getLast?_semicolon _)]
    exact ⟨gap, behind, [';'], [], hgap, hbehind, .inr rfl, .nil, by simp⟩

/-- A call without the blanks before it, unless the callback begins with blanks itself. -/
theorem IsCall.trimStart {before s : List Char}
    (hname : ∀ c, callback.head? = some c → isBlank c = false) (hbefore : Blanks before)
    (h : IsCall callback inner s) : IsCall callback inner (trimStart (before ++ s)) := by
  cases callback with
  | nil =>
      obtain ⟨gap, behind, mark, last, hgap, hbehind, hmark, hlast, rfl⟩ := h
      have happend : before ++ ([] ++ (gap ++ '(' :: (inner ++ ')' :: (behind ++ (mark ++ last))))) =
          (before ++ gap) ++ '(' :: (inner ++ ')' :: (behind ++ (mark ++ last))) := by simp
      rw [happend, trimStart_append (List.forall_mem_append.2 ⟨hbefore, hgap⟩) fun c hc => ?_]
      · exact ⟨[], behind, mark, last, .nil, hbehind, hmark, hlast, rfl⟩
      · obtain rfl : '(' = c := Option.some.inj hc
        rfl
  | cons d name =>
      rw [trimStart_append hbefore fun c hc => ?_]
      · exact h
      · obtain ⟨gap, behind, mark, last, -, -, -, -, rfl⟩ := h
        exact hname c hc

/-- **Unwrapping recognises the calls of a callback that does not begin with a blank**, and gives
their inner texts. -/
theorem unwrap_eq_some_iff_wraps (hname : ∀ c, callback.head? = some c → isBlank c = false)
    {body : List Char} : unwrap callback body = some inner ↔ Wraps callback inner body := by
  rw [unwrap_eq_some_iff]
  constructor
  · intro h
    obtain ⟨before, hbefore, hbody⟩ := exists_trimStart body
    obtain ⟨last, hlast, hend⟩ := exists_trimEnd (Text.trimStart body)
    refine ⟨before, Text.trimStart body, hbefore, ?_, hbody⟩
    rw [hend]
    exact h.append_blanks hlast
  · rintro ⟨before, call, hbefore, hcall, rfl⟩
    exact (hcall.trimStart hname hbefore).trimEnd

/-! ### What is no call -/

/-- Behind blanks and a character that is none, a text has one reading. -/
theorem blanks_append_cons_inj {b s r : List Char} {x y : Char} (hb : Blanks b)
    (hy : isBlank y = false) (h : b ++ x :: s = y :: r) : b = [] ∧ x = y ∧ s = r := by
  cases b with
  | nil =>
      obtain ⟨rfl, rfl⟩ := List.cons.inj h
      exact ⟨rfl, rfl, rfl⟩
  | cons z b =>
      obtain ⟨rfl, -⟩ := List.cons.inj h
      cases hy.symm.trans (hb z List.mem_cons_self)

/-- Behind its callback a call goes on with its inner text. -/
theorem Wraps.opening {rest : List Char}
    (hname : ∀ c, callback.head? = some c → isBlank c = false)
    (h : Wraps callback inner (callback ++ '(' :: rest)) : ∃ tail, rest = inner ++ ')' :: tail := by
  obtain ⟨before, call, hbefore, ⟨gap, behind, mark, last, hgap, -, -, -, rfl⟩, h⟩ := h
  refine ⟨behind ++ (mark ++ last), ?_⟩
  cases callback with
  | nil =>
      rw [List.nil_append, List.nil_append, ← List.append_assoc] at h
      exact (blanks_append_cons_inj (List.forall_mem_append.2 ⟨hbefore, hgap⟩) rfl h.symm).2.2.symm
  | cons c name =>
      obtain ⟨-, -, h⟩ := blanks_append_cons_inj hbefore (hname c rfl) h.symm
      exact (blanks_append_cons_inj hgap rfl (List.append_cancel_left h)).2.2.symm

/-- A call that is not closed is none. -/
theorem unwrap_unclosed (hname : ∀ c, callback.head? = some c → isBlank c = false)
    {rest : List Char} (h : ')' ∉ rest) : unwrap callback (callback ++ '(' :: rest) = none := by
  refine Option.eq_none_iff_forall_ne_some.2 fun inner hinner => h ?_
  obtain ⟨tail, rfl⟩ := Wraps.opening hname ((unwrap_eq_some_iff_wraps hname).1 hinner)
  exact List.mem_append_right inner List.mem_cons_self

/-- A text that ends in a bracket and blanks does not end in a semicolon. -/
theorem getLast?_closing_ne (front : List Char) {b : List Char} (hb : Blanks b) :
    (front ++ ')' :: b).getLast? ≠ some ';' := by
  rw [List.getLast?_append_of_ne_nil _ (List.cons_ne_nil _ _)]
  intro h
  rcases List.mem_cons.1 (List.mem_of_getLast? h) with hbracket | hblank
  · cases hbracket
  · cases hb ';' hblank

/-- What stands before the semicolon at the end of a call does not end in another. -/
theorem IsCall.of_semicolon {s : List Char} (h : IsCall callback inner (s ++ [';'])) :
    s.getLast? ≠ some ';' := by
  obtain ⟨gap, behind, mark, last, -, hbehind, rfl | rfl, hlast, h⟩ := h
  · have happend : callback ++ (gap ++ '(' :: (inner ++ ')' :: (behind ++ ([] ++ last)))) =
        (callback ++ (gap ++ '(' :: inner)) ++ ')' :: (behind ++ last) := by simp
    have hne := getLast?_closing_ne (callback ++ (gap ++ '(' :: inner))
      (List.forall_mem_append.2 ⟨hbehind, hlast⟩)
    rw [← happend, ← h, List.getLast?_concat] at hne
    exact absurd rfl hne
  · have happend : callback ++ (gap ++ '(' :: (inner ++ ')' :: (behind ++ ([';'] ++ last)))) =
        ((callback ++ (gap ++ '(' :: inner)) ++ ')' :: behind) ++ [';'] ++ last := by simp
    -- no blanks stand behind the semicolon, so it is the one that is taken off
    have hcut := congrArg Text.trimEnd (h.trans happend)
    rw [trimEnd_eq_self (getLast?_semicolon s), trimEnd_append hlast (getLast?_semicolon _)] at hcut
    rw [List.append_cancel_right hcut]
    exact getLast?_closing_ne _ hbehind

/-- A call with two semicolons behind it is none. -/
theorem unwrap_two_semicolons (callback inner : List Char) :
    unwrap callback (callback ++ '(' :: (inner ++ [')', ';', ';'])) = none := by
  refine Option.eq_none_iff_forall_ne_some.2 fun inner' h => ?_
  have hcall := unwrap_eq_some_iff.1 h
  have happend : callback ++ '(' :: (inner ++ [')', ';', ';']) =
      callback ++ '(' :: ((inner ++ [')', ';']) ++ [';']) := by simp
  have htrim : trim (callback ++ '(' :: ((inner ++ [')', ';']) ++ [';'])) =
      (Text.trimStart callback ++ '(' :: (inner ++ [')', ';'])) ++ [';'] := by
    rw [trim, trimStart_append_cons callback rfl, ← List.cons_append, ← List.append_assoc]
    exact trimEnd_eq_self (getLast?_semicolon _)
  rw [happend, htrim] at hcall
  refine hcall.of_semicolon ?_
  have hlast : Text.trimStart callback ++ '(' :: (inner ++ [')', ';']) =
      (Text.trimStart callback ++ '(' :: (inner ++ [')'])) ++ [';'] := by simp
  rw [hlast, List.getLast?_concat]

/-! ### What is recognised -/

/-- A call is unwrapped with a semicolon behind it. -/
theorem unwrap_semicolon (hname : ∀ c, callback.head? = some c → isBlank c = false)
    (inner : List Char) : unwrap callback (callback ++ '(' :: (inner ++ [')', ';'])) = some inner :=
  (unwrap_eq_some_iff_wraps hname).2
    ⟨[], _, .nil, ⟨[], [], [';'], [], .nil, .nil, .inr rfl, .nil, rfl⟩, rfl⟩

/-- **Unwrapping recognises exactly the calls of its callback.**  For a callback that does not begin
with a blank: the bodies that are unwrapped are the calls, with blanks before them, and what is
given is the inner text, of which a body has only one; whatever the inner text is, a call itself or
brackets and semicolons in any order, it is given as it stands, and one semicolon is taken off
behind it but not a second; a call that is not closed is not unwrapped.  For a callback that begins
with a blank no body is unwrapped. -/
theorem unwrap_recognises_calls (callback : List Char) :
    ((∀ c, callback.head? = some c → isBlank c = false) →
      (∀ body inner, unwrap callback body = some inner ↔ Wraps callback inner body) ∧
      (∀ body inner inner', Wraps callback inner body → Wraps callback inner' body →
        inner = inner') ∧
      (∀ inner, unwrap callback (callback ++ '(' :: (inner ++ [')'])) = some inner ∧
        unwrap callback (callback ++ '(' :: (inner ++ [')', ';'])) = some inner ∧
        unwrap callback (callback ++ '(' :: (inner ++ [')', ';', ';'])) = none) ∧
      ∀ rest, ')' ∉ rest → unwrap callback (callback ++ '(' :: rest) = none) ∧
    ∀ c, callback.head? = some c → isBlank c = true → ∀ body, unwrap callback body = none := by
  refine ⟨fun hname => ⟨fun body inner => unwrap_eq_some_iff_wraps hname, ?_, fun inner => ?_,
    fun rest => unwrap_unclosed hname⟩, ?_⟩
  · intro body inner inner' h h'
    rw [← unwrap_eq_some_iff_wraps hname] at h h'
    exact Option.some.inj (h.symm.trans h')
  · exact ⟨unwrap_call hname inner, unwrap_semicolon hname inner,
      unwrap_two_semicolons callback inner⟩
  · intro c hc hblank body
    obtain ⟨name, rfl⟩ : ∃ name, callback = c :: name := List.head?_eq_some_iff.1 hc
    exact unwrap_blank hblank name body

/-- A callback that ends in a bracket, with blanks of several bytes around its call on a call; the
same callback without a call; and a callback that begins with a blank. -/
theorem unwrap_recognises_calls_bracket :
    (∃ callback inner body, callback = "f(".toList ∧ inner = "f(;);".toList ∧
      body = " f( (f(;);) ; ".toList ∧
      (∀ c, callback.head? = some c → isBlank c = false) ∧ Wraps callback inner body ∧
      unwrap callback body = some inner ∧ unwrap callback "f((".toList = none) ∧
    ∃ callback, callback = " f".toList ∧ callback.head? = some ' ' ∧ isBlank ' ' = true ∧
      unwrap callback " f(1)".toList = none := by
  constructor
  · have hname : ∀ c, "f(".toList.head? = some c → isBlank c = false := by
      rintro c ⟨⟩
      rfl
    obtain ⟨hgrammar, -, -, hunclosed⟩ := (unwrap_recognises_calls "f(".toList).1 hname
    have hwraps : Wraps "f(".toList "f(;);".toList " f( (f(;);) ; ".toList :=
      (hgrammar _ _).1 (by decide)
    exact ⟨_, _, _, rfl, rfl, rfl, hname, hwraps, (hgrammar _ _).2 hwraps,
      hunclosed [] List.not_mem_nil⟩
  · exact ⟨_, rfl, rfl, rfl, (unwrap_recognises_calls " f".toList).2 ' ' rfl rfl _⟩

end ClusterWatch
