import ClusterWatch.Proofs.Source.Unwrap
import ClusterWatch.Source.Fetch

/-!
# Deliveries — what a source makes of what it is delivered

A delivery *carries* a status when an answer has arrived as a whole, with a code of success, and its
body holds the status (`Delivery.Carries`).  `SourceConfig.Fails` lists what there is otherwise, the
first reason that applies: no answer, no success, a body that is cut short, a body that holds none.

* `SourceConfig.fetch_eq_ok_iff`, `SourceConfig.fetch_eq_error_iff`: a fetch gives a status just
  when its request could be sent and the delivery carries the status, and fails for just the reasons
  of the list.
* `decodeBody_nil`: an empty body holds no status, so an answer that can have no body carries none.
-/

namespace ClusterWatch
open Text

namespace Delivery

/-- The code of the answer, if one has arrived. -/
def code? : Delivery → Option Nat
  | answered code _ _ => some code
  | unsent _ | unanswered _ => none

theorem code?_eq_some_iff {d : Delivery} {code : Nat} :
    d.code? = some code ↔ ∃ body cut, d = .answered code body cut := by
  cases d <;> simp [code?]

/-- The body of the answer, if it has arrived as a whole: where there can be none it is empty. -/
def body? : Delivery → Option (List UInt8)
  | answered code body cut =>
    if !hasBody code then some [] else if cut.isNone then some body else none
  | unsent _ | unanswered _ => none

/-- How what has not arrived failed: the answer, or the rest of its body. -/
def failure? : Delivery → Option Failure
  | unsent failure | unanswered failure => some failure
  | answered _ _ cut => cut

/-- What has not arrived as a whole has failed in some way. -/
theorem exists_failure_of_body?_eq_none {d : Delivery} (h : d.body? = none) :
    ∃ failure, d.failure? = some failure := by
  cases d with
  | unsent failure => exact ⟨failure, rfl⟩
  | unanswered failure => exact ⟨failure, rfl⟩
  | answered code body cut =>
      cases cut with
      | some failure => exact ⟨failure, rfl⟩
      | none => cases hhas : hasBody code <;> simp [body?, hhas] at h

theorem body?_eq_none_of_code? {d : Delivery} (h : d.code? = none) : d.body? = none := by
  cases d <;> first | rfl | cases h

/-- Whether an answer has arrived, and with a code of success. -/
def Succeeds (d : Delivery) : Prop := ∃ code, d.code? = some code ∧ 200 ≤ code ∧ code ≤ 299

/-- Whether a complete answer has arrived, of success, whose body in the form `format` holds the
status `s`. -/
def Carries (format : BodyFormat) (d : Delivery) (s : Status) : Prop :=
  d.Succeeds ∧ ∃ body, d.body? = some body ∧ decodeBody format (decodeLossy body) = .ok s

end Delivery

theorem isSuccess_iff {code : Nat} : isSuccess code = true ↔ 200 ≤ code ∧ code ≤ 299 := by
  rw [isSuccess, Bool.and_eq_true, decide_eq_true_eq, decide_eq_true_eq, Nat.lt_succ_iff]

variable [Client]

/-- Why a source gives no status. -/
inductive SourceConfig.Fails (config : SourceConfig) (d : Delivery) : SourceError → Prop
  /-- No request could be sent, or no answer has arrived. -/
  | noAnswer {failure : Failure} (hcode : d.code? = none) (h : d.failure? = some failure) :
      Fails config d (.transport config.url failure)
  /-- An answer has arrived for a source whose address cannot be asked. -/
  | unasked (hcode : d.code?.isSome) (h : config.request? = none) :
      Fails config d (.transport config.url (Client.wording (.unusable config.url)))
  /-- The code of the answer is none of success, whatever has arrived of its body. -/
  | noSuccess {code : Nat} (hsent : config.request?.isSome) (hcode : d.code? = some code)
      (h : ¬ (200 ≤ code ∧ code ≤ 299)) : Fails config d (.status config.url code)
  /-- The body of an answer of success has not arrived as a whole. -/
  | cutShort {failure : Failure} (hsent : config.request?.isSome) (hcode : d.Succeeds)
      (hbody : d.body? = none) (h : d.failure? = some failure) :
      Fails config d (.transport config.url failure)
  /-- The body of an answer of success holds no status. -/
  | malformed {body : List UInt8} {problem : Json.Problem} (hsent : config.request?.isSome)
      (hcode : d.Succeeds) (hbody : d.body? = some body)
      (h : decodeBody config.format (decodeLossy body) = .error problem) :
      Fails config d (.malformed problem)

/-! ### One fetch -/

namespace SourceConfig

variable {config : SourceConfig} {d : Delivery}

/-- Without an answer an exchange has failed. -/
theorem fetch_of_noAnswer {failure : Failure} (hcode : d.code? = none)
    (h : d.failure? = some failure) : config.fetch d = .error (.transport config.url failure) := by
  unfold fetch
  cases d with
  | unsent failure' => cases h; cases config.request? <;> rfl
  | unanswered failure' => cases h; cases config.request? <;> rfl
  | answered code body cut => cases hcode

/-- Without a request an exchange has failed, whatever comes. -/
theorem fetch_of_unasked (hcode : d.code?.isSome) (h : config.request? = none) :
    config.fetch d = .error (.transport config.url (Client.wording (.unusable config.url))) := by
  obtain ⟨code, hcode⟩ := Option.isSome_iff_exists.1 hcode
  obtain ⟨body, cut, rfl⟩ := Delivery.code?_eq_some_iff.1 hcode
  unfold fetch
  rw [h]

theorem fetch_of_noSuccess {code : Nat} (hsent : config.request?.isSome)
    (hcode : d.code? = some code) (h : ¬ (200 ≤ code ∧ code ≤ 299)) :
    config.fetch d = .error (.status config.url code) := by
  obtain ⟨request, hrequest⟩ := Option.isSome_iff_exists.1 hsent
  have hno : isSuccess code = false := Bool.eq_false_iff.2 (mt isSuccess_iff.1 h)
  obtain ⟨body, cut, rfl⟩ := Delivery.code?_eq_some_iff.1 hcode
  unfold fetch
  simp [hrequest, hno]

/-- Of an answer of success, the body decides. -/
theorem fetch_of_body {body : List UInt8} (hsent : config.request?.isSome) (hcode : d.Succeeds)
    (hbody : d.body? = some body) : config.fetch d = config.ofBody body := by
  obtain ⟨request, hrequest⟩ := Option.isSome_iff_exists.1 hsent
  obtain ⟨code, hcode, hsuccess⟩ := hcode
  have hyes : isSuccess code = true := isSuccess_iff.2 hsuccess
  obtain ⟨arrived, cut, rfl⟩ := Delivery.code?_eq_some_iff.1 hcode
  unfold fetch
  simp only [Delivery.body?] at hbody
  simp only [hrequest, hyes, Bool.not_true, Bool.false_eq_true, if_false]
  cases hhas : hasBody code <;> cases cut <;> simp_all

/-- An answer of success whose body has not arrived as a whole is no answer. -/
theorem fetch_of_cutShort {failure : Failure} (hsent : config.request?.isSome)
    (hcode : d.Succeeds) (hbody : d.body? = none) (h : d.failure? = some failure) :
    config.fetch d = .error (.transport config.url failure) := by
  obtain ⟨request, hrequest⟩ := Option.isSome_iff_exists.1 hsent
  obtain ⟨code, hcode, hsuccess⟩ := hcode
  have hyes : isSuccess code = true := isSuccess_iff.2 hsuccess
  obtain ⟨arrived, cut, rfl⟩ := Delivery.code?_eq_some_iff.1 hcode
  obtain rfl : cut = some failure := h
  have hhas : hasBody code = true := by
    by_contra hno
    simp [Delivery.body?, Bool.eq_false_iff.2 hno] at hbody
  unfold fetch
  simp only [hrequest, hyes, hhas, Bool.not_true, Bool.false_eq_true, if_false]

theorem fetch_of_carries {s : Status} (hsent : config.request?.isSome)
    (h : d.Carries config.format s) : config.fetch d = .ok s := by
  obtain ⟨hcode, body, hbody, hdecode⟩ := h
  rw [fetch_of_body hsent hcode hbody, ofBody, hdecode]

theorem Fails.fetch {e : SourceError} (h : config.Fails d e) : config.fetch d = .error e := by
  cases h with
  | noAnswer hcode h => exact fetch_of_noAnswer hcode h
  | unasked hcode h => exact fetch_of_unasked hcode h
  | noSuccess hsent hcode h => exact fetch_of_noSuccess hsent hcode h
  | cutShort hsent hcode hbody h => exact fetch_of_cutShort hsent hcode hbody h
  | malformed hsent hcode hbody h => rw [fetch_of_body hsent hcode hbody, ofBody, h]

/-- Of an answer of success, the body holds a status or there is a reason why it gives none. -/
theorem carries_or_fails_of_succeeds (config : SourceConfig) (hsent : config.request?.isSome)
    (hcode : d.Succeeds) : (∃ s, d.Carries config.format s) ∨ ∃ e, config.Fails d e := by
  cases hbody : d.body? with
  | none =>
      obtain ⟨failure, hfailure⟩ := Delivery.exists_failure_of_body?_eq_none hbody
      exact .inr ⟨_, .cutShort hsent hcode hbody hfailure⟩
  | some body =>
      cases hdecode : decodeBody config.format (decodeLossy body) with
      | ok s => exact .inl ⟨s, hcode, body, hbody, hdecode⟩
      | error problem => exact .inr ⟨_, .malformed hsent hcode hbody hdecode⟩

/-- A delivery carries a status, or there is a reason why it gives none. -/
theorem carries_or_fails (config : SourceConfig) (d : Delivery) :
    (config.request?.isSome ∧ ∃ s, d.Carries config.format s) ∨ ∃ e, config.Fails d e := by
  cases hcode : d.code? with
  | none =>
      obtain ⟨failure, hfailure⟩ := Delivery.exists_failure_of_body?_eq_none
        (Delivery.body?_eq_none_of_code? hcode)
      exact .inr ⟨_, .noAnswer hcode hfailure⟩
  | some code =>
      cases hrequest : config.request? with
      | none => exact .inr ⟨_, .unasked (hcode ▸ rfl) hrequest⟩
      | some request =>
          have hsent : config.request?.isSome := hrequest ▸ rfl
          by_cases hsuccess : 200 ≤ code ∧ code ≤ 299
          · rcases config.carries_or_fails_of_succeeds hsent ⟨code, hcode, hsuccess⟩ with hs | he
            · exact .inl ⟨rfl, hs⟩
            · exact .inr he
          · exact .inr ⟨_, .noSuccess hsent hcode hsuccess⟩

/-- **A fetch gives a status just when the delivery to its request carries it.** -/
theorem fetch_eq_ok_iff {s : Status} :
    config.fetch d = .ok s ↔ config.request?.isSome ∧ d.Carries config.format s := by
  refine ⟨fun h => ?_, fun h => fetch_of_carries h.1 h.2⟩
  rcases config.carries_or_fails d with ⟨hsent, s', hs'⟩ | ⟨e, he⟩
  · obtain rfl : s' = s := Except.ok.inj ((fetch_of_carries hsent hs').symm.trans h)
    exact ⟨hsent, hs'⟩
  · cases h.symm.trans he.fetch

/-- **A fetch fails for the first reason that applies.** -/
theorem fetch_eq_error_iff {e : SourceError} : config.fetch d = .error e ↔ config.Fails d e := by
  refine ⟨fun h => ?_, Fails.fetch⟩
  rcases config.carries_or_fails d with ⟨hsent, s, hs⟩ | ⟨e', he'⟩
  · cases h.symm.trans (fetch_of_carries hsent hs)
  · obtain rfl : e' = e := Except.error.inj (he'.fetch.symm.trans h)
    exact he'

end SourceConfig

/-! ### No body -/

omit [Client] in
/-- An empty body holds no status. -/
theorem decodeBody_nil (format : BodyFormat) :
    ∃ problem, decodeBody format [] = .error problem := by
  have hjson : ∃ problem, decodeBody .json [] = .error problem :=
    exists_problem_of_not_written fun st h => by
      obtain ⟨k, hk⟩ := Json.Shape.Writes.getLast? h
      cases hk
  cases format with
  | json => exact hjson
  | jsonp callback =>
      rwa [decodeBody_jsonp_of_none]
      refine Option.eq_none_iff_forall_ne_some.2 fun inner h => ?_
      obtain ⟨c, hc, -⟩ := (unwrap_eq_some_iff.1 h).getLast?
      cases hc

/-- An answer that can have no body is malformed if it is one of success. -/
theorem SourceConfig.fails_of_bodiless {config : SourceConfig} {code : Nat} {body : List UInt8}
    {cut : Option Failure} (hsent : config.request?.isSome) (hcode : 200 ≤ code ∧ code ≤ 299)
    (hbody : hasBody code = false ∨ (body = [] ∧ cut = none)) :
    ∃ problem, config.Fails (.answered code body cut) (.malformed problem) := by
  obtain ⟨problem, hproblem⟩ := decodeBody_nil config.format
  have hempty : (Delivery.answered code body cut).body? = some [] := by
    rcases hbody with h | ⟨rfl, rfl⟩
    · simp [Delivery.body?, h]
    · simp [Delivery.body?]
  exact ⟨problem, .malformed hsent ⟨code, rfl, hcode⟩ hempty (by rwa [decodeLossy])⟩

end ClusterWatch
