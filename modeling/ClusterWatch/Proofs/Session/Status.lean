import ClusterWatch.Proofs.Session.Report
import ClusterWatch.Proofs.Source.Exchange

/-!
# Status — all or nothing

`status` prints the status that the client delivers, or nothing: then it reports the first reason
why there is none (`SourceConfig.Fails`).  `AllOrNothing` says so of the result of one delivery.
What is delivered, and how many requests that takes, `SourceConfig.Exchanged` says: the first answer
decides, unless it is a redirect, which takes one request more.

* `status_all_or_nothing`: a run of the program is both, from the words of the command line on,
  whatever arrives; when the words are rejected there is no request.
* `status_beyond_first_answer`: the answer that decides need not be the first, and the code that is
  reported need not be the one that came first.
-/

namespace ClusterWatch.Session

variable [Client]

/-- What `status` leaves when `d` is delivered to its source. -/
structure AllOrNothing (source : SourceConfig) (raw : Bool) (now : Instant) (d : Delivery)
    (r : Result) : Prop where
  /-- It succeeds just when its request could be sent and the delivery carries a status. -/
  succeeds : r.exit = 0 ↔ source.request?.isSome ∧ ∃ s, d.Carries source.format s
  /-- Then it prints that status, as a document with a line end or as a table, and nothing else. -/
  prints : ∀ s, source.request?.isSome → d.Carries source.format s → r.report = none ∧
    r.stdout = if raw then String.ofList ((Snapshot.ofStatus s now).raw ++ ['\n'])
      else (Snapshot.ofStatus s now).render now
  /-- Otherwise there is a reason. -/
  otherwise : r.exit ≠ 0 → ∃ e, source.Fails d e
  /-- It prints nothing then, and its report names the reason. -/
  reports : ∀ e, source.Fails d e →
    ∃ text, r = ⟨1, "", some text⟩ ∧ Reported source.url e text
  /-- An answer of success that can have no body, or has an empty one, is reported as malformed. -/
  bodiless : ∀ code body cut, source.request?.isSome → d = .answered code body cut →
    200 ≤ code ∧ code ≤ 299 → hasBody code = false ∨ body = [] ∧ cut = none →
    ∃ problem text, r = ⟨1, "", some text⟩ ∧ Reported source.url (.malformed problem) text

theorem status_of_fails {source : SourceConfig} {d : Delivery} {e : SourceError}
    (h : source.Fails d e) (raw : Bool) (now : Instant) :
    status source raw now d = ⟨1, "", some (report source.url e)⟩ := by
  rw [status, h.fetch]

theorem status_of_carries {source : SourceConfig} {d : Delivery} {s : Status}
    (hsent : source.request?.isSome) (h : d.Carries source.format s) (raw : Bool) (now : Instant) :
    status source raw now d = ⟨0, shown raw (.ofStatus s now) now, none⟩ := by
  rw [status, SourceConfig.fetch_of_carries hsent h]

/-- **All or nothing**, for one delivery. -/
theorem allOrNothing (source : SourceConfig) (raw : Bool) (now : Instant) (d : Delivery) :
    AllOrNothing source raw now d (status source raw now d) := by
  have hreports : ∀ e, source.Fails d e → ∃ text,
      status source raw now d = ⟨1, "", some text⟩ ∧ Reported source.url e text :=
    fun e he => ⟨_, status_of_fails he raw now, reported_of_fails he⟩
  constructor
  case succeeds =>
    refine ⟨fun h => ?_, fun ⟨hsent, s, hs⟩ => by rw [status_of_carries hsent hs]⟩
    rcases source.carries_or_fails d with hs | ⟨e, he⟩
    · exact hs
    · rw [status_of_fails he] at h
      cases h
  case prints =>
    intro s hsent hs
    rw [status_of_carries hsent hs]
    exact ⟨rfl, rfl⟩
  case otherwise =>
    intro h
    rcases source.carries_or_fails d with ⟨hsent, s, hs⟩ | he
    · rw [status_of_carries hsent hs] at h
      exact absurd rfl h
    · exact he
  case reports => exact hreports
  case bodiless =>
    rintro code body cut hsent rfl hcode hbody
    obtain ⟨problem, hproblem⟩ := SourceConfig.fails_of_bodiless hsent hcode hbody
    exact ⟨problem, hreports _ hproblem⟩

/-- **A run of `status` is all or nothing.**  When the words ask for the status, at the address and
in the form that they select, what the client delivers decides, whatever arrives; there is at most
one request, and one more for each redirect that is followed.  When the words are rejected there is
none. -/
theorem status_all_or_nothing (env : Environment) (words : List String) (now : Instant)
    (arrivals : List Arrival) :
    (∀ a raw, CommandLine.parse env words = .ok a → a.command = .status raw →
      a.source.baseUrl = a.masterUrl ∧
      a.source.format = (if a.plainJson then .json else .jsonp a.jsonpCallback) ∧
      ∃ d, a.source.Exchanged arrivals (run env words now arrivals).requests d ∧
        AllOrNothing a.source raw now d (run env words now arrivals).result) ∧
    ∀ e, CommandLine.parse env words = .error e → (run env words now arrivals).requests = [] := by
  refine ⟨fun a raw hparse hcommand => ?_, fun e hparse => by rw [run, hparse]⟩
  have hrun : run env words now arrivals =
      ⟨status a.source raw now (a.source.exchange arrivals).delivery,
        (a.source.exchange arrivals).requests⟩ := by
    simp only [run, hparse, hcommand]
  rw [hrun]
  dsimp only
  exact ⟨rfl, rfl, _, SourceConfig.exchanged_exchange a.source arrivals,
    allOrNothing a.source raw now _⟩

omit [Client] in
/-- A failure whose body is cut short; a wrapped status behind a redirect, shown raw; and a rejected
option. -/
theorem status_all_or_nothing_failure :
    ∃ client : Client, client = .standard ∧
    (∃ env words a x r d, env = ⟨none, none, none⟩ ∧
      words = ["--plain-json", "--master-url=http://h/", "cluster", "status"] ∧
      x = ⟨.answered 503 [] (some ⟨"closed", []⟩), none⟩ ∧
      CommandLine.parse env words = .ok a ∧ a.command = .status false ∧
      r = run env words ⟨0, 0⟩ [x] ∧ r.requests = [⟨"GET", "/cluster", "application/json"⟩] ∧
      a.source.Exchanged [x] r.requests d ∧ d = x.delivery ∧
      AllOrNothing a.source false ⟨0, 0⟩ d r.result ∧
      r.result = ⟨1, "", some ("Error: failed to fetch http://h/cluster\n\nCaused by:\n" ++
        "    http://h/cluster answered with status 503\n")⟩) ∧
    (∃ env words a x y r d, env = ⟨some "http://m:8080", none, none⟩ ∧
      words = ["--jsonp-callback", "cb", "cluster", "status", "--raw"] ∧
      x = ⟨.answered 307 [] none, some "/v2/cluster?jsonp=cb".toList⟩ ∧
      y = ⟨.answered 201 (Text.utf8 "cb([[\"m\",1,0],[]]);".toList) none, none⟩ ∧
      CommandLine.parse env words = .ok a ∧ a.command = .status true ∧
      r = run env words ⟨0, 0⟩ [x, y] ∧
      r.requests = [⟨"GET", "/cluster?jsonp=cb", "*/*"⟩, ⟨"GET", "/v2/cluster?jsonp=cb", "*/*"⟩] ∧
      a.source.Exchanged [x, y] r.requests d ∧
      AllOrNothing a.source true ⟨0, 0⟩ d r.result ∧ r.result.exit = 0) ∧
    CommandLine.parse ⟨none, none, none⟩ ["cluster", "status", "--interval-ms", "1"] =
        .error .unknownArgument ∧
      (run ⟨none, none, none⟩ ["cluster", "status", "--interval-ms", "1"] ⟨0, 0⟩ []).requests =
        [] := by
  let : Client := .standard
  have hfailure : CommandLine.parse ⟨none, none, none⟩
      ["--plain-json", "--master-url=http://h/", "cluster", "status"] =
        .ok ⟨"http://h/", true, "dtcraft_callback", 5000, none, none, .status false⟩ := by decide
  have hsuccess : CommandLine.parse ⟨some "http://m:8080", none, none⟩
      ["--jsonp-callback", "cb", "cluster", "status", "--raw"] =
        .ok ⟨"http://m:8080", false, "cb", 5000, none, none, .status true⟩ := by decide
  have hrejected : CommandLine.parse ⟨none, none, none⟩
      ["cluster", "status", "--interval-ms", "1"] = .error .unknownArgument := by decide
  refine ⟨.standard, rfl, ?_, ?_, hrejected,
    (status_all_or_nothing _ _ ⟨0, 0⟩ []).2 _ hrejected⟩
  · obtain ⟨-, -, d, hexchanged, hall⟩ := (status_all_or_nothing ⟨none, none, none⟩
      ["--plain-json", "--master-url=http://h/", "cluster", "status"] ⟨0, 0⟩
      [⟨.answered 503 [] (some ⟨"closed", []⟩), none⟩]).1 _ _ hfailure rfl
    obtain ⟨u, hu, hd⟩ := hexchanged.once _ rfl rfl (by decide +kernel)
    exact ⟨_, _, _, _, _, d, rfl, rfl, rfl, hfailure, rfl, rfl, by decide +kernel, hexchanged, hd,
      hall, by decide +kernel⟩
  · obtain ⟨-, -, d, hexchanged, hall⟩ := (status_all_or_nothing ⟨some "http://m:8080", none, none⟩
      ["--jsonp-callback", "cb", "cluster", "status", "--raw"] ⟨0, 0⟩
      [⟨.answered 307 [] none, some "/v2/cluster?jsonp=cb".toList⟩,
        ⟨.answered 201 (Text.utf8 "cb([[\"m\",1,0],[]]);".toList) none, none⟩]).1 _ _ hsuccess rfl
    exact ⟨_, _, _, _, _, _, d, rfl, rfl, rfl, rfl, hsuccess, rfl, rfl, by decide +kernel,
      hexchanged, hall, by decide +kernel⟩

omit [Client] in
/-- A redirect is no answer that decides, and its code is not reported; neither is the code of an
answer that announces another one. -/
theorem status_beyond_first_answer :
    ∃ client : Client, client = .standard ∧ ∃ env words a,
      env = ⟨none, none, none⟩ ∧
      words = ["--plain-json", "--master-url=http://h", "cluster", "status"] ∧
      CommandLine.parse env words = .ok a ∧ a.command = .status false ∧
      (∃ x y, x = ⟨.answered 302 [] none, some "/x".toList⟩ ∧
        y = ⟨.answered 200 (Text.utf8 "[[\"m\",1,0],[]]".toList) none, none⟩ ∧
        (run env words ⟨0, 0⟩ [x, y]).requests =
          [⟨"GET", "/cluster", "application/json"⟩, ⟨"GET", "/x", "application/json"⟩] ∧
        (run env words ⟨0, 0⟩ [x, y]).result.exit = 0 ∧
        ¬ AllOrNothing a.source false ⟨0, 0⟩ x.delivery (run env words ⟨0, 0⟩ [x, y]).result) ∧
      ∃ x, x = ⟨.answered 103 [] none, none⟩ ∧
        ¬ AllOrNothing a.source false ⟨0, 0⟩ x.delivery (run env words ⟨0, 0⟩ [x]).result := by
  let : Client := .standard
  have hparse : CommandLine.parse ⟨none, none, none⟩
      ["--plain-json", "--master-url=http://h", "cluster", "status"] =
        .ok ⟨"http://h", true, "dtcraft_callback", 5000, none, none, .status false⟩ := by decide
  refine ⟨.standard, rfl, _, _, _, rfl, rfl, hparse, rfl,
    ⟨_, _, rfl, rfl, by decide +kernel, by decide +kernel, fun h => ?_⟩, _, rfl, fun h => ?_⟩
  · obtain ⟨-, s, ⟨code, hcode, hsuccess⟩, -⟩ := h.succeeds.1 (by decide +kernel)
    obtain rfl := Option.some.inj hcode
    exact absurd hsuccess (by decide)
  · obtain ⟨text, hresult, cause, hcause, rfl⟩ :=
      h.reports _ (.noSuccess (by decide +kernel) rfl (by decide))
    cases hcause
    revert hresult
    decide +kernel

end ClusterWatch.Session
