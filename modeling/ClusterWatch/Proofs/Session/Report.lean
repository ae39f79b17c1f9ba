import ClusterWatch.Proofs.Decimal.Numeral
import ClusterWatch.Proofs.Source.Delivery
import ClusterWatch.Proofs.Text.Lines
import ClusterWatch.Session

/-!
# Reports — what a report tells

A report names the address that was asked and then, by the class of what has failed, what the client
said of the exchange, the code of the answer, or what is wrong with its body (`Reported`).  The
lines of a cause after its first are indented, so no text in it can be taken for another cause.

* `reported_of_fails`: the report of each reason for which a fetch can fail reads like that.
* `report_inj`: no two reasons of one address have the same report: what it tells is the class of
  the reason, and the words, the code or the problem.
-/

namespace ClusterWatch.Session
open Text

/-- What stands behind the address in the report of a reason. -/
inductive ReportedCause (url : String) : SourceError → List Char → Prop
  /-- The exchange has failed: the address again, and all that the client said. -/
  | transport (failure : Failure) : ReportedCause url (.transport url failure)
      ("    0: ".toList ++
        hanging 7 ("request to " ++ url ++ " failed: " ++ failure.text).toList ++
        "\n    1: ".toList ++ hanging 7 failure.text.toList ++
        '\n' :: numbered 2 failure.causes)
  /-- The answer was no success: the address again, and the code. -/
  | status (code : Nat) : ReportedCause url (.status url code)
      ("    ".toList ++ hanging 4 (url ++ " answered with status " ++ Decimal.text code).toList ++
        ['\n'])
  /-- Its body was not understood: what is wrong with it, and where. -/
  | malformed (p : Json.Problem) : ReportedCause url (.malformed p)
      ("    0: ".toList ++ hanging 7 ("malformed cluster status: " ++ p.message).toList ++
        "\n    1: ".toList ++ hanging 7 p.message.toList ++ ['\n'])

/-- Whether a text is a report of a reason at an address. -/
def Reported (url : String) (e : SourceError) (text : String) : Prop :=
  ∃ cause, ReportedCause url e cause ∧
    text = "Error: failed to fetch " ++ url ++ "\n\nCaused by:\n" ++ String.ofList cause

/-- Whether a reason is one at the address `url`; the status of an answer has up to three digits. -/
inductive IsAt (url : String) : SourceError → Prop
  | transport (failure : Failure) : IsAt url (.transport url failure)
  | status {code : Nat} (h : code < 1000) : IsAt url (.status url code)
  | malformed (p : Json.Problem) : IsAt url (.malformed p)

/-- Whether two reasons are the same, as far as they are put in words. -/
inductive SameWords : SourceError → SourceError → Prop
  | transport (url : String) (failure : Failure) :
      SameWords (.transport url failure) (.transport url failure)
  | status (url : String) (code : Nat) : SameWords (.status url code) (.status url code)
  | malformed {p p' : Json.Problem} (h : p.message = p'.message) :
      SameWords (.malformed p) (.malformed p')

variable {indent i : Nat} {s t r r' : List Char} {url : String} {e e' : SourceError}

/-! ### Lines of one cause -/

theorem hanging_append (indent : Nat) (s t : List Char) :
    hanging indent (s ++ t) = hanging indent s ++ hanging indent t := List.flatMap_append

theorem hanging_cons_newline (indent : Nat) (s : List Char) :
    hanging indent ('\n' :: s) = '\n' :: (List.replicate indent ' ' ++ hanging indent s) := rfl

theorem hanging_cons_of_ne {c : Char} (hc : c ≠ '\n') (indent : Nat) (s : List Char) :
    hanging indent (c :: s) = c :: hanging indent s := by
  rw [hanging, List.flatMap_cons, if_neg hc]
  rfl

/-- A single line has no others to be indented. -/
theorem hanging_of_oneLine (h : OneLine s) (indent : Nat) : hanging indent s = s := by
  induction s with
  | nil => rfl
  | cons c s ih =>
      rw [OneLine, List.mem_cons, not_or] at h
      rw [hanging_cons_of_ne (Ne.symm h.1), ih h.2]

theorem length_hanging_mono {indent indent' : Nat} (h : indent ≤ indent') (s : List Char) :
    (hanging indent s).length ≤ (hanging indent' s).length := by
  induction s with
  | nil => exact Nat.le_refl 0
  | cons c s ih =>
      by_cases hc : c = '\n'
      · subst hc
        simp only [hanging_cons_newline, List.length_cons, List.length_append,
          List.length_replicate]
        omega
      · simpa only [hanging_cons_of_ne hc, List.length_cons, Nat.add_le_add_iff_right] using ih

/-- **Where a cause ends can be seen**, and what it is, if what stands behind it is not indented. -/
theorem hanging_inj (hr : ¬ List.replicate indent ' ' <+: r)
    (hr' : ¬ List.replicate indent ' ' <+: r')
    (h : hanging indent s ++ '\n' :: r = hanging indent t ++ '\n' :: r') : s = t ∧ r = r' := by
  -- a line end that stands in a cause is followed by blanks, and the one behind it is not
  have hinside : ∀ (s r r' : List Char), ¬ List.replicate indent ' ' <+: r' →
      hanging indent ('\n' :: s) ++ '\n' :: r ≠ '\n' :: r' := by
    intro s r r' hr' h
    refine hr' ⟨hanging indent s ++ '\n' :: r, ?_⟩
    rw [← List.append_assoc]
    exact (List.cons.inj h).2
  induction s generalizing t with
  | nil =>
      cases t with
      | nil => exact ⟨rfl, (List.cons.inj h).2⟩
      | cons d t =>
          by_cases hd : d = '\n'
          · subst hd
            exact absurd h.symm (hinside t r' r hr)
          · rw [hanging_cons_of_ne hd] at h
            exact absurd (List.cons.inj h).1.symm hd
  | cons c s ih =>
      cases t with
      | nil =>
          by_cases hc : c = '\n'
          · subst hc
            exact absurd h (hinside s r r' hr')
          · rw [hanging_cons_of_ne hc] at h
            exact absurd (List.cons.inj h).1 hc
      | cons d t =>
          by_cases hc : c = '\n' <;> by_cases hd : d = '\n'
          · subst hc hd
            simp only [hanging_cons_newline, List.cons_append, List.append_assoc] at h
            obtain ⟨rfl, hr⟩ := ih (List.append_cancel_left (List.cons.inj h).2)
            exact ⟨rfl, hr⟩
          · subst hc
            rw [hanging_cons_newline, hanging_cons_of_ne hd] at h
            exact absurd (List.cons.inj h).1.symm hd
          · subst hd
            rw [hanging_cons_newline, hanging_cons_of_ne hc] at h
            exact absurd (List.cons.inj h).1 hc
          · rw [hanging_cons_of_ne hc, hanging_cons_of_ne hd] at h
            obtain ⟨rfl, hrest⟩ := List.cons.inj h
            obtain ⟨rfl, hr⟩ := ih hrest
            exact ⟨rfl, hr⟩

/-! ### Numbered causes -/

/-- A mark has a digit among its first places. -/
theorem exists_mark (i : Nat) : ∃ k d rest, k < 7 ∧ d ≠ ' ' ∧
    mark i = List.replicate k ' ' ++ d :: rest := by
  obtain ⟨d, ds, hds⟩ := List.exists_cons_of_ne_nil (Decimal.numeral_ne_nil i)
  have hd : d.isDigit = true := Decimal.isDigit_of_mem_numeral (hds ▸ List.mem_cons_self)
  refine ⟨5 - (Decimal.numeral i).length, d, ds ++ [':', ' '], by omega, ?_, ?_⟩
  · rintro rfl
    cases hd
  · rw [mark, List.append_assoc, hds]
    rfl

/-- So no numbered cause is indented as the lines of one are. -/
theorem not_blanks_prefix_numbered (i : Nat) (causes : List String) :
    ¬ List.replicate 7 ' ' <+: numbered i causes := by
  cases causes with
  | nil => simp [numbered]
  | cons cause causes =>
      obtain ⟨k, d, rest, hk, hd, hmark⟩ := exists_mark i
      rintro ⟨tail, h⟩
      have hblanks : List.replicate 7 ' ' =
          List.replicate k ' ' ++ ' ' :: List.replicate (6 - k) ' ' := by
        rw [← List.replicate_succ, ← List.replicate_add, show k + (6 - k + 1) = 7 by omega]
      rw [numbered, hmark, hblanks] at h
      simp only [List.append_assoc, List.cons_append] at h
      exact hd (List.cons.inj (List.append_cancel_left h)).1.symm

/-- **Numbered causes are told apart.** -/
theorem numbered_inj {causes causes' : List String} (h : numbered i causes = numbered i causes') :
    causes = causes' := by
  induction causes generalizing i causes' with
  | nil =>
      cases causes' with
      | nil => rfl
      | cons cause' causes' => simp [numbered] at h
  | cons cause causes ih =>
      cases causes' with
      | nil => simp [numbered] at h
      | cons cause' causes' =>
          rw [numbered, numbered, List.append_assoc, List.append_assoc] at h
          obtain ⟨hcause, hrest⟩ := hanging_inj (not_blanks_prefix_numbered _ _)
            (not_blanks_prefix_numbered _ _) (List.append_cancel_left h)
          rw [String.toList_inj.1 hcause, ih hrest]

/-! ### The report of a reason -/

/-- What stands behind the address decides. -/
theorem causeLines_eq_of_report_eq (h : report url e = report url e') :
    causeLines e.causes = causeLines e'.causes := by
  have htext := congrArg String.toList h
  simp only [report, reportText, String.toList_append, String.toList_ofList] at htext
  exact List.append_cancel_left htext

/-- Behind the last character that is no digit two texts that end in digits are the same. -/
theorem append_digits_inj {c c' : Char} {ds ds' : List Char} (hc : c.isDigit = false)
    (hc' : c'.isDigit = false) (hds : ∀ d ∈ ds, d.isDigit = true)
    (hds' : ∀ d ∈ ds', d.isDigit = true) (h : s ++ c :: ds = t ++ c' :: ds') :
    s = t ∧ c = c' ∧ ds = ds' := by
  have hcut : ∀ {c : Char} {s ds : List Char}, c.isDigit = false → (∀ d ∈ ds, d.isDigit = true) →
      splitAt (!·.isDigit) (s ++ c :: ds).reverse = (ds.reverse, c :: s.reverse) := by
    intro c s ds hc hds
    have hdigits : ∀ d ∈ ds.reverse, (!d.isDigit) = false := fun d hd => by
      rw [hds d (List.mem_reverse.1 hd)]
      rfl
    simpa using splitAt_append_of_not hdigits (d := c) (by rw [hc]; rfl) s.reverse
  have hboth := (hcut hc hds).symm.trans
    ((congrArg _ (congrArg List.reverse h)).trans (hcut hc' hds'))
  obtain ⟨hdigits, hrest⟩ := Prod.mk.inj hboth
  obtain ⟨rfl, hs⟩ := List.cons.inj hrest
  exact ⟨List.reverse_injective hs, rfl, List.reverse_injective hdigits⟩

/-- The code of an answer stands at the end of its report. -/
theorem causeLines_status (url : String) (code : Nat) :
    causeLines (SourceError.status url code).causes =
      ("    ".toList ++ hanging 4 url.toList ++ " answered with status".toList) ++
        ' ' :: Decimal.numeral code ++ ['\n'] := by
  have hwords : OneLine (" answered with status " ++ Decimal.text code).toList :=
    OneLine.append_string (by decide) (by
      rw [Decimal.text, String.toList_ofList]
      exact Decimal.newline_notMem_numeral code)
  simp only [SourceError.causes, causeLines, String.append_assoc]
  rw [String.toList_append, hanging_append, hanging_of_oneLine hwords, String.toList_append,
    Decimal.text, String.toList_ofList]
  simp

/-- Where the body was not understood, the place of the problem does. -/
theorem exists_causeLines_malformed (p : Json.Problem) : ∃ before,
    causeLines (SourceError.malformed p).causes =
      (before ++ " column".toList) ++ ' ' :: Decimal.numeral p.position.column ++ ['\n'] := by
  have hwords : OneLine (" column " ++ Decimal.text p.position.column).toList :=
    OneLine.append_string (by decide) (by
      rw [Decimal.text, String.toList_ofList]
      exact Decimal.newline_notMem_numeral _)
  refine ⟨mark 0 ++ hanging 7 ("malformed cluster status: " ++ p.message).toList ++
    '\n' :: (mark 1 ++ hanging 7 (p.cause.message ++ " at line " ++
      Decimal.text p.position.line).toList), ?_⟩
  have hmessage : hanging 7 p.message.toList =
      hanging 7 (p.cause.message ++ " at line " ++ Decimal.text p.position.line).toList ++
        (" column ".toList ++ Decimal.numeral p.position.column) := by
    have hsplit : p.message = (p.cause.message ++ " at line " ++ Decimal.text p.position.line) ++
        (" column " ++ Decimal.text p.position.column) := String.append_assoc
    rw [hsplit, String.toList_append, hanging_append, hanging_of_oneLine hwords]
    exact congrArg _ (by simp only [String.toList_append, Decimal.text, String.toList_ofList])
  simp only [SourceError.causes, causeLines, numbered, hmessage]
  simp

theorem causeLines_status_ne_malformed (url : String) (code : Nat) (p : Json.Problem) :
    causeLines (SourceError.status url code).causes ≠
      causeLines (SourceError.malformed p).causes := by
  obtain ⟨before, hbefore⟩ := exists_causeLines_malformed p
  intro h
  rw [causeLines_status, hbefore] at h
  obtain ⟨hwords, -, -⟩ := append_digits_inj rfl rfl
    (fun _ => Decimal.isDigit_of_mem_numeral) (fun _ => Decimal.isDigit_of_mem_numeral)
    (List.append_cancel_right h)
  -- the last letters of `status` and `column`
  have hlast := congrArg List.getLast? hwords
  rw [List.getLast?_append_of_ne_nil _ (by decide), List.getLast?_append_of_ne_nil _ (by decide)]
    at hlast
  revert hlast
  decide

/-- A failed exchange has a longer report than an answer of the same address. -/
theorem causeLines_status_ne_transport {code : Nat} (hcode : code < 1000) (url : String)
    (failure : Failure) : causeLines (SourceError.status url code).causes ≠
      causeLines (SourceError.transport url failure).causes := by
  have hmark : ∀ i, 7 ≤ (mark i).length := fun i => by
    simp only [mark, List.length_append, List.length_replicate, List.length_cons, List.length_nil]
    omega
  have hdigits : (Decimal.numeral code).length ≤ 3 :=
    (Decimal.length_numeral_le_iff (by decide)).2 hcode
  have hurl := length_hanging_mono (show 4 ≤ 7 by decide) url.toList
  intro h
  have hlength := congrArg List.length h
  have hattempt : hanging 7 ("request to " ++ url ++ " failed: " ++ failure.text).toList =
      "request to ".toList ++ hanging 7 url.toList ++ " failed: ".toList ++
        hanging 7 failure.text.toList := by
    simp only [String.toList_append, hanging_append]
    rfl
  rw [causeLines_status] at hlength
  simp only [SourceError.causes, causeLines, numbered, hattempt, List.length_append,
    List.length_cons, List.length_nil, show "    ".toList.length = 4 from rfl,
    show " answered with status".toList.length = 21 from rfl,
    show "request to ".toList.length = 11 from rfl,
    show " failed: ".toList.length = 9 from rfl] at hlength
  have h0 := hmark 0
  have h1 := hmark (0 + 1)
  omega

/-- What comes first of a failed exchange is the request, and of a body that it is malformed. -/
theorem causeLines_transport_ne_malformed (url : String) (failure : Failure) (p : Json.Problem) :
    causeLines (SourceError.transport url failure).causes ≠
      causeLines (SourceError.malformed p).causes := by
  intro h
  have hfirst := congrArg (·.toList.head?) (List.cons.inj (numbered_inj h)).1
  simp [String.toList_append] at hfirst

/-- **A report tells its reason**: no two reasons of one address have the same report. -/
theorem report_inj (he : IsAt url e) (he' : IsAt url e') (h : report url e = report url e') :
    SameWords e e' := by
  have hlines := causeLines_eq_of_report_eq h
  cases he with
  | transport failure =>
      cases he' with
      | transport failure' =>
          obtain ⟨-, hwords⟩ := List.cons.inj (numbered_inj hlines)
          obtain ⟨htext, hcauses⟩ := List.cons.inj hwords
          cases failure
          cases failure'
          cases htext
          cases hcauses
          exact .transport url _
      | status hcode =>
          exact absurd hlines.symm (causeLines_status_ne_transport hcode url failure)
      | malformed p => exact absurd hlines (causeLines_transport_ne_malformed url failure p)
  | @status code hcode =>
      cases he' with
      | transport failure =>
          exact absurd hlines (causeLines_status_ne_transport hcode url failure)
      | @status code' hcode' =>
          rw [causeLines_status, causeLines_status] at hlines
          obtain ⟨-, -, hdigits⟩ := append_digits_inj rfl rfl
            (fun _ => Decimal.isDigit_of_mem_numeral) (fun _ => Decimal.isDigit_of_mem_numeral)
            (List.append_cancel_right hlines)
          obtain rfl : code = code' := by
            rw [← Decimal.value_numeral code, hdigits, Decimal.value_numeral]
          exact .status url code
      | malformed p => exact absurd hlines (causeLines_status_ne_malformed url code p)
  | malformed p =>
      cases he' with
      | transport failure =>
          exact absurd hlines.symm (causeLines_transport_ne_malformed url failure p)
      | @status code hcode => exact absurd hlines.symm (causeLines_status_ne_malformed url code p)
      | malformed p' =>
          obtain ⟨-, hwords⟩ := List.cons.inj (numbered_inj hlines)
          exact .malformed (List.cons.inj hwords).1

/-- **The report of a failed fetch** names what has failed. -/
theorem reported_of_fails [Client] {source : SourceConfig} {d : Delivery}
    (h : source.Fails d e) : Reported source.url e (report source.url e) := by
  have hmark : mark 0 = "    0: ".toList ∧ mark 1 = "    1: ".toList := by
    constructor <;> simp [mark, Decimal.numeral, Decimal.digitChar]
  have hreport : ∀ cause, causeLines e.causes = cause → ReportedCause source.url e cause →
      Reported source.url e (report source.url e) := by
    rintro cause rfl hcause
    refine ⟨_, hcause, ?_⟩
    rw [report, reportText, ← String.append_assoc]
    rfl
  have htransport : ∀ failure, causeLines (SourceError.transport source.url failure).causes =
      "    0: ".toList ++
        hanging 7 ("request to " ++ source.url ++ " failed: " ++ failure.text).toList ++
        "\n    1: ".toList ++ hanging 7 failure.text.toList ++
        '\n' :: numbered 2 failure.causes := by
    intro failure
    simp only [SourceError.causes, causeLines, numbered, hmark]
    simp
  cases h with
  | noAnswer | unasked | cutShort => exact hreport _ (htransport _) (.transport _)
  | noSuccess => exact hreport _ rfl (.status _)
  | @malformed body p =>
      refine hreport _ ?_ (.malformed p)
      simp only [SourceError.causes, causeLines, numbered, hmark]
      simp

end ClusterWatch.Session
