import ClusterWatch.Proofs.Source.Form
import ClusterWatch.Proofs.Source.Unwrap
import ClusterWatch.Source.Fetch

/-!
# Handshake — a master that wraps its answer in the name it was asked for

A source that expects a callback sends its name in the parameter `jsonp`, and a master answers with
the call of the name it has read (`Delivery.call`).

* `request_parameter`: the master reads the name as it was meant, whatever characters it has, when
  the address has no query of its own to which the parameter would be added.
* `unwrap_call`, `unwrap_blank`: the call's inner text is found, unless the name begins with a
  blank.  The body is trimmed before the name is looked for, so such a name is not found, and the
  call is taken for JSON, which it is not.
* `fetch_call_of_request` puts both together.
-/

namespace ClusterWatch
open Text

/-- What stands behind the question mark of a request's target. -/
def Request.query (r : Request) : List Char := (splitAt (· = '?') r.target.toList).2.tail

/-- The first value that a request gives to a parameter. -/
def Request.parameter? (r : Request) (name : List Char) : Option (List Char) :=
  (Query.parameters r.query).lookup name

/-- The answer that calls `name` on the text `inner`. -/
def Delivery.call (name inner : List Char) : Delivery :=
  .answered 200 (utf8 (name ++ '(' :: (inner ++ [')']))) none

/-! ### The address -/

namespace Url

theorem cleaned_subset (s : List Char) : cleaned s ⊆ s := by
  intro c hc
  have hinner := List.mem_reverse.1 (List.mem_filter.1 hc).1
  have houter := List.mem_reverse.1 ((List.dropWhile_sublist _).subset hinner)
  exact (List.dropWhile_sublist _).subset houter

theorem scheme?_subset {s rest : List Char} {secure : Bool} (h : scheme? s = some (secure, rest)) :
    rest ⊆ s := by
  simp only [scheme?] at h
  split at h
  next _ t _ ht =>
    cases h
    intro c hc
    have hc : c ∈ t := (List.dropWhile_sublist _).subset hc
    have hbehind := after?_eq_some_iff.1 ht
    refine (List.dropWhile_sublist (fun c => !decide (c = ':'))).subset ?_
    rw [show s.dropWhile (fun c => !decide (c = ':')) = [':'] ++ t from hbehind]
    exact List.mem_cons_of_mem _ hc
  next => cases h

/-- An address without a question mark has no query. -/
theorem query_eq_none [HostNames] {s : List Char} {u : Url} (h : parse? s = some u) (hs : '?' ∉ s) :
    u.query = none := by
  simp only [parse?] at h
  split at h
  · cases h
  next secure t hscheme =>
    split at h
    · cases h
    next host socket hauthority =>
      cases h
      have hsub : (splitAt endsPath (splitAt endsHost t).2).2 ⊆ s := fun c hc =>
        cleaned_subset s (scheme?_subset hscheme ((List.dropWhile_sublist _).subset
          ((List.dropWhile_sublist _).subset hc)))
      split
      next r hr =>
        refine absurd (hsub ?_) hs
        rw [hr]
        exact List.mem_cons_self
      next => rfl

theorem not_mem_pathText (u : Url) : '?' ∉ u.pathText := by
  intro h
  obtain ⟨part, -, hpart⟩ := List.mem_flatMap.1 h
  rcases List.mem_cons.1 hpart with hslash | hc
  · cases hslash
  · obtain ⟨c, -, hc⟩ := List.mem_flatMap.1 hc
    rw [escapeWhere] at hc
    split at hc
    · obtain ⟨b, -, hb⟩ := List.mem_flatMap.1 hc
      exact (Query.mem_percent hb).2.2.2 rfl
    next hplain =>
      obtain rfl := List.mem_singleton.1 hc
      exact hplain (by decide)

end Url

/-! ### What the master reads -/

theorem SourceConfig.not_mem_url {config : SourceConfig} (h : '?' ∉ config.baseUrl.toList) :
    '?' ∉ config.url.toList := by
  rw [SourceConfig.url, String.toList_ofList, List.mem_append, not_or]
  refine ⟨fun hc => h ?_, by decide⟩
  exact List.mem_reverse.1 ((List.dropWhile_sublist _).subset (List.mem_reverse.1 hc))

/-- **The master reads the name that the source expects.** -/
theorem request_parameter [Client] {config : SourceConfig} {callback : String} {request : Request}
    (hformat : config.format = .jsonp callback) (hbase : '?' ∉ config.baseUrl.toList)
    (hrequest : config.request? = some request) :
    request.parameter? "jsonp".toList = some callback.toList := by
  obtain ⟨u, hu, hr⟩ := Option.map_eq_some_iff.1 hrequest
  rw [SourceConfig.requestFor, hformat] at hr
  have hquery : u.queryText = none := by
    rw [Url.queryText, Url.query_eq_none hu (SourceConfig.not_mem_url hbase)]
    rfl
  have htarget : request.target.toList =
      u.pathText ++ '?' :: Query.append none "jsonp".toList callback.toList := by
    rw [← hr, String.toList_ofList, Url.targetWith, hquery]
  have hpath : ∀ c ∈ u.pathText, decide (c = '?') = false := fun c hc =>
    decide_eq_false fun h => u.not_mem_pathText (h ▸ hc)
  have hsplit : request.query = Query.append none "jsonp".toList callback.toList := by
    rw [Request.query, htarget, splitAt_append_of_not hpath rfl]
    rfl
  rw [Request.parameter?, hsplit, Query.parameters_append, List.lookup_cons_self]

/-! ### What the source makes of the answer -/

/-- A call is trimmed where its name is. -/
theorem isCall_trim (name inner : List Char) :
    IsCall (trimStart name) inner (trim (name ++ '(' :: (inner ++ [')']))) := by
  refine ⟨[], [], [], [], .nil, .nil, .inl rfl, .nil, ?_⟩
  rw [trim, trimStart_append_cons name (by decide)]
  refine trimEnd_eq_self fun c hc => ?_
  have happend : trimStart name ++ '(' :: (inner ++ [')']) =
      (trimStart name ++ '(' :: inner) ++ [')'] := by simp
  rw [happend, List.getLast?_concat] at hc
  obtain rfl : ')' = c := Option.some.inj hc
  rfl

/-- A call is unwrapped if its name does not begin with a blank. -/
theorem unwrap_call {name : List Char} (h : ∀ c, name.head? = some c → isBlank c = false)
    (inner : List Char) : unwrap name (name ++ '(' :: (inner ++ [')'])) = some inner := by
  have hname : trimStart name = name := trimStart_append (b := []) .nil h
  refine unwrap_eq_some_iff.2 ?_
  simpa only [hname] using isCall_trim name inner

/-- No body is unwrapped for a name that begins with a blank. -/
theorem unwrap_blank {c : Char} (hc : isBlank c = true) (name body : List Char) :
    unwrap (c :: name) body = none := by
  refine Option.eq_none_iff_forall_ne_some.2 fun inner h => ?_
  obtain ⟨gap, behind, mark, last, -, -, -, -, hbody⟩ := unwrap_eq_some_iff.1 h
  have hhead := head?_trim (s := body) (c := c) (by rw [hbody]; rfl)
  rw [hc] at hhead
  cases hhead

/-- A source decodes the body of an answer that is complete. -/
theorem SourceConfig.fetch_answered [Client] {config : SourceConfig} {request : Request}
    (hrequest : config.request? = some request) (body : List UInt8) :
    config.fetch (.answered 200 body none) = config.ofBody body := by
  have hsuccess : isSuccess 200 = true := by decide
  have hbody : hasBody 200 = true := by decide
  unfold SourceConfig.fetch
  rw [hrequest]
  simp only [hsuccess, hbody, Bool.not_true, Bool.false_eq_true, if_false]

/-- A status is what the text of a body decodes to. -/
theorem SourceConfig.ofBody_ok {config : SourceConfig} {body : List Char} {st : Status}
    (h : decodeBody config.format body = .ok st) : config.ofBody (utf8 body) = .ok st := by
  simp only [SourceConfig.ofBody, decodeLossy_utf8, h]

/-- What is not decoded is malformed. -/
theorem SourceConfig.ofBody_error {config : SourceConfig} {body : List Char}
    {problem : Json.Problem} (h : decodeBody config.format body = .error problem) :
    config.ofBody (utf8 body) = .error (.malformed problem) := by
  simp only [SourceConfig.ofBody, decodeLossy_utf8, h]

/-- **A source and a master that wraps its answer in the name it was asked for understand each
other**, unless that name begins with a blank: then the answer is refused. -/
theorem fetch_call_of_request [Client] {config : SourceConfig} {callback : String}
    {request : Request}
    {inner : List Char} {st : Status} (hformat : config.format = .jsonp callback)
    (hbase : '?' ∉ config.baseUrl.toList) (hrequest : config.request? = some request)
    (hinner : decodeBody .json inner = .ok st) :
    request.parameter? "jsonp".toList = some callback.toList ∧
      ∀ name, request.parameter? "jsonp".toList = some name →
        (config.fetch (.call name inner) = .ok st ↔
          callback = "" ∨ ∃ c rest, callback.toList = c :: rest ∧ isBlank c = false) ∧
        ∀ c rest, callback.toList = c :: rest → isBlank c = true →
          ∃ problem, config.fetch (.call name inner) = .error (.malformed problem) := by
  have hparameter := request_parameter hformat hbase hrequest
  refine ⟨hparameter, fun name hname => ?_⟩
  obtain rfl : callback.toList = name := Option.some.inj (hparameter.symm.trans hname)
  have hfetch : config.fetch (.call callback.toList inner) = config.ofBody _ :=
    SourceConfig.fetch_answered hrequest _
  have hgood : (∀ c, callback.toList.head? = some c → isBlank c = false) →
      config.fetch (.call callback.toList inner) = .ok st := by
    intro h
    rw [hfetch, SourceConfig.ofBody_ok]
    rw [hformat, decodeBody_jsonp_of_some (unwrap_call h inner), hinner]
  have hbad : ∀ c rest, callback.toList = c :: rest → isBlank c = true →
      ∃ problem, config.fetch (.call callback.toList inner) = .error (.malformed problem) := by
    intro c rest hcallback hc
    have hnone : unwrap callback.toList (callback.toList ++ '(' :: (inner ++ [')'])) = none := by
      rw [hcallback]
      exact unwrap_blank hc rest _
    obtain ⟨problem, hproblem⟩ :=
      exists_problem_of_not_written (isCall_trim callback.toList inner).not_written
    refine ⟨problem, ?_⟩
    rw [hfetch, SourceConfig.ofBody_error]
    rw [hformat, decodeBody_jsonp_of_none hnone, hproblem]
  refine ⟨⟨fun hok => ?_, ?_⟩, hbad⟩
  · cases hcallback : callback.toList with
    | nil => exact .inl (String.toList_eq_nil_iff.1 hcallback)
    | cons c rest =>
        refine .inr ⟨c, rest, rfl, ?_⟩
        cases hc : isBlank c with
        | false => rfl
        | true =>
            obtain ⟨problem, hproblem⟩ := hbad c rest hcallback hc
            cases hok.symm.trans hproblem
  · rintro (rfl | ⟨c, rest, hcallback, hc⟩)
    · exact hgood fun c h => nomatch h
    · refine hgood fun d hd => ?_
      rw [hcallback] at hd
      obtain rfl : c = d := Option.some.inj hd
      exact hc

/-- A name of characters that mean something in a query, and one that begins with a blank. -/
theorem fetch_call_of_request_escaped :
    (∃ (client : Client) (config : SourceConfig) (request : Request) (inner : List Char)
        (st : Status),
      client = .standard ∧
      config = { SourceConfig.ofUrl "http://h:9912/" with format := .jsonp "a&b=+%# ?\u00e9(" } ∧
      request = ⟨"GET", "/cluster?jsonp=a%26b%3D%2B%25%23+%3F%C3%A9%28", "*/*"⟩ ∧
      inner = "[[\"m\",1,0],[]]".toList ∧ st = ⟨⟨"m", 1, 0⟩, []⟩ ∧
      config.format = .jsonp "a&b=+%# ?\u00e9(" ∧ '?' ∉ config.baseUrl.toList ∧
      config.request? = some request ∧ decodeBody .json inner = .ok st ∧
      config.fetch (.call "a&b=+%# ?\u00e9(".toList inner) = .ok st) ∧
    ∃ (client : Client) (config : SourceConfig) (request : Request) (inner : List Char)
      (problem : Json.Problem), client = .standard ∧
      config = { SourceConfig.ofUrl "http://h:9912/" with format := .jsonp " cb" } ∧
      request = ⟨"GET", "/cluster?jsonp=+cb", "*/*"⟩ ∧ inner = "[[\"m\",1,0],[]]".toList ∧
      config.format = .jsonp " cb" ∧ '?' ∉ config.baseUrl.toList ∧
      config.request? = some request ∧
      config.fetch (.call " cb".toList inner) = .error (.malformed problem) := by
  let : Client := .standard
  have hinner : decodeBody .json "[[\"m\",1,0],[]]".toList = .ok ⟨⟨"m", 1, 0⟩, []⟩ := by
    decide +kernel
  constructor
  · have hrequest : SourceConfig.request?
        { SourceConfig.ofUrl "http://h:9912/" with format := .jsonp "a&b=+%# ?\u00e9(" } =
          some ⟨"GET", "/cluster?jsonp=a%26b%3D%2B%25%23+%3F%C3%A9%28", "*/*"⟩ := by
      decide +kernel
    obtain ⟨hparameter, hall⟩ := fetch_call_of_request rfl (by decide) hrequest hinner
    exact ⟨.standard, _, _, _, _, rfl, rfl, rfl, rfl, rfl, rfl, by decide, hrequest, hinner,
      (hall _ hparameter).1.2 (.inr ⟨'a', _, rfl, by decide⟩)⟩
  · have hrequest : SourceConfig.request?
        { SourceConfig.ofUrl "http://h:9912/" with format := .jsonp " cb" } =
          some ⟨"GET", "/cluster?jsonp=+cb", "*/*"⟩ := by decide +kernel
    obtain ⟨hparameter, hall⟩ := fetch_call_of_request rfl (by decide) hrequest hinner
    obtain ⟨problem, hproblem⟩ := (hall _ hparameter).2 ' ' _ rfl (by decide)
    exact ⟨.standard, _, _, _, problem, rfl, rfl, rfl, rfl, rfl, by decide, hrequest, hproblem⟩

end ClusterWatch
