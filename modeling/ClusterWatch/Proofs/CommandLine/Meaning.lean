import ClusterWatch.CommandLine
import ClusterWatch.Proofs.CommandLine.Options

/-!
# CommandLine — what a command line means

A line (`Line`) gives the program its options, then `cluster`, then one of the two commands with
the options of that; a callback cannot be chosen for plain JSON.  The arguments it means (`Means`)
have the value written for each option, and for an option that is not written the usual value, or
that of the environment where a variable stands in for the option.

**The command line accepts exactly its lines, and yields what they mean** (`parsed_as_written`).  A
line has one reading, and what it means depends neither on the order of the options within a level
nor on their spelling.

`Means` asks only which options are given and with which values.  It therefore holds for every order
of them (`Means.perm`), and since it determines the arguments (`Means.unique`), lines that differ
only in order and spelling are parsed alike.
-/

namespace ClusterWatch.CommandLine

/-! ### Lines and their meaning -/

/-- Words are a command line: options of the program, `cluster`, and a command with options of its
own. -/
structure Line (words : List String) (given : List Given) (l : Level) (own : List Given) :
    Prop where
  spelled : ∃ before name behind, words = before ++ "cluster" :: name :: behind ∧
    Written .top given before ∧ (name = "status" ∧ l = .status ∨ name = "watch" ∧ l = .watch) ∧
    Written l own behind
  compatible : ¬(Opt.plainJson ∈ given.map Prod.fst ∧ Opt.jsonpCallback ∈ given.map Prod.fst)

/-- The value of an option: what the text written for it denotes, or the usual value if none is
written. -/
def Valued {α : Type} (given : List Given) (o : Opt) (Denotes : String → α → Prop) (usual x : α) :
    Prop :=
  (∃ value, (o, value) ∈ given ∧ Denotes value x) ∨ o ∉ given.map Prod.fst ∧ x = usual

/-- The command that a level and the options given for it mean. -/
inductive Asked (own : List Given) : Level → Command → Prop
  | status {raw : Bool} (raw_iff : raw = true ↔ Opt.raw ∈ own.map Prod.fst) :
      Asked own .status (.status raw)
  | watch {interval : Nat} {raw : Bool} (interval_eq : Valued own .intervalMs Numeral 1000 interval)
      (raw_iff : raw = true ↔ Opt.raw ∈ own.map Prod.fst) : Asked own .watch (.watch interval raw)

/-- The arguments that options mean in an environment, and what they set up. -/
structure Means (env : Environment) (given : List Given) (l : Level) (own : List Given)
    (a : Arguments) : Prop where
  masterUrl : Valued given .masterUrl (fun text url => url = text)
    (env.masterUrl.getD "http://127.0.0.1:9912") a.masterUrl
  plainJson : a.plainJson = true ↔ Opt.plainJson ∈ given.map Prod.fst
  jsonpCallback : Valued given .jsonpCallback (fun text callback => callback = text)
    "dtcraft_callback" a.jsonpCallback
  timeout : Valued given .timeoutMs Numeral 5000 a.timeout
  otlpEndpoint : Valued given .otlpEndpoint (fun text url => url = some text) env.otlpEndpoint
    a.otlpEndpoint
  otlpToken : Valued given .otlpToken (fun text token => token = some text) env.otlpToken
    a.otlpToken
  command : Asked own l a.command
  format : Opt.plainJson ∈ given.map Prod.fst ∧ a.source.format = .json ∨
    Opt.plainJson ∉ given.map Prod.fst ∧ Valued given .jsonpCallback
      (fun text format => format = .jsonp text) (.jsonp "dtcraft_callback") a.source.format
  source : a.source = ⟨a.masterUrl, a.source.format, 3000, a.timeout⟩
  telemetry : a.telemetry = ⟨"dtcraft-cli", "warn", a.otlpEndpoint, a.otlpToken⟩
  pause : ∀ interval raw, a.command = .watch interval raw →
    watchInterval interval = if interval = 0 then 1 else interval

/-! ### A meaning is one, whatever the order -/

section Valued

variable {α : Type} {given given' : List Given} {o : Opt} {Denotes : String → α → Prop}
  {usual x y : α}

theorem Valued.perm (h : Valued given o Denotes usual x) (hperm : given.Perm given') :
    Valued given' o Denotes usual x := by
  rcases h with ⟨value, hmem, hx⟩ | ⟨hnot, hx⟩
  · exact .inl ⟨value, hperm.mem_iff.1 hmem, hx⟩
  · exact .inr ⟨fun hmem => hnot ((hperm.map _).mem_iff.2 hmem), hx⟩

/-- An option that is given once has one value, if its text denotes one. -/
theorem Valued.unique (hx : Valued given o Denotes usual x) (hy : Valued given o Denotes usual y)
    (honce : (given.map Prod.fst).Nodup) (hdenotes : Relator.RightUnique Denotes) : x = y := by
  rcases hx with ⟨value, hmem, hx⟩ | ⟨hnot, rfl⟩ <;>
    rcases hy with ⟨value', hmem', hy⟩ | ⟨hnot', rfl⟩
  · have hvalue := (lookup_eq_some_iff_mem honce).2 hmem
    rw [(lookup_eq_some_iff_mem honce).2 hmem', Option.some.injEq] at hvalue
    exact hdenotes hx (hvalue ▸ hy)
  · exact (hnot' (List.mem_map_of_mem hmem)).elim
  · exact (hnot (List.mem_map_of_mem hmem')).elim
  · rfl

/-- An option has the value that is found by looking it up. -/
theorem valued_of_lookup (honce : (given.map Prod.fst).Nodup)
    (hsome : ∀ value, (o, value) ∈ given → given.lookup o = some value → Denotes value x)
    (hnone : given.lookup o = none → x = usual) : Valued given o Denotes usual x := by
  cases hlookup : given.lookup o with
  | some value =>
    have hmem := (lookup_eq_some_iff_mem honce).1 hlookup
    exact .inl ⟨value, hmem, hsome value hmem hlookup⟩
  | none =>
    have hnot : o ∉ given.map Prod.fst := by rw [← isSome_lookup, hlookup]; exact Bool.false_ne_true
    exact .inr ⟨hnot, hnone hlookup⟩

/-- The value of an option whose text is taken as it is, in some form. -/
theorem valued_text (honce : (given.map Prod.fst).Nodup) (form : String → α)
    (hx : x = ((given.lookup o).map form).getD usual) :
    Valued given o (fun text x => x = form text) usual x :=
  valued_of_lookup honce (fun value _ hlookup => by rw [hx, hlookup]; rfl)
    (fun hlookup => by rw [hx, hlookup]; rfl)

end Valued

variable {env : Environment} {given given' own own' : List Given} {l : Level} {a b : Arguments}
  {c d : Command} {words : List String}

theorem Asked.perm (h : Asked own l c) (hperm : own.Perm own') : Asked own' l c := by
  have hraw := (hperm.map Prod.fst).mem_iff (a := Opt.raw)
  cases h with
  | status raw_iff => exact .status (raw_iff.trans hraw)
  | watch interval_eq raw_iff => exact .watch (interval_eq.perm hperm) (raw_iff.trans hraw)

theorem Asked.unique (hc : Asked own l c) (hd : Asked own l d) (honce : (own.map Prod.fst).Nodup) :
    c = d := by
  cases hc with
  | status hc =>
    cases hd with
    | status hd => rw [Bool.eq_iff_iff.2 (hc.trans hd.symm)]
  | watch hc hcraw =>
    cases hd with
    | watch hd hdraw =>
      obtain rfl := hc.unique hd honce fun _ _ _ => Numeral.unique
      rw [Bool.eq_iff_iff.2 (hcraw.trans hdraw.symm)]

/-- **What options mean does not depend on their order.** -/
theorem Means.perm (h : Means env given l own a) (hgiven : given.Perm given')
    (hown : own.Perm own') : Means env given' l own' a := by
  have hmem : ∀ o, o ∈ given.map Prod.fst ↔ o ∈ given'.map Prod.fst := fun _ =>
    (hgiven.map Prod.fst).mem_iff
  exact {
    masterUrl := h.masterUrl.perm hgiven
    plainJson := h.plainJson.trans (hmem _)
    jsonpCallback := h.jsonpCallback.perm hgiven
    timeout := h.timeout.perm hgiven
    otlpEndpoint := h.otlpEndpoint.perm hgiven
    otlpToken := h.otlpToken.perm hgiven
    command := h.command.perm hown
    format := h.format.imp (.imp_left (hmem _).1)
      (.imp (mt (hmem _).2) (·.perm hgiven))
    source := h.source
    telemetry := h.telemetry
    pause := h.pause }

/-- **Options that are given once mean one thing.** -/
theorem Means.unique (ha : Means env given l own a) (hb : Means env given l own b)
    (hgiven : (given.map Prod.fst).Nodup) (hown : (own.map Prod.fst).Nodup) : a = b := by
  cases a
  cases b
  rw [Arguments.mk.injEq]
  refine ⟨?_, ?_, ?_, ?_, ?_, ?_, ?_⟩
  · exact ha.masterUrl.unique hb.masterUrl hgiven fun _ _ _ hx hy => hx.trans hy.symm
  · exact Bool.eq_iff_iff.2 (ha.plainJson.trans hb.plainJson.symm)
  · exact ha.jsonpCallback.unique hb.jsonpCallback hgiven fun _ _ _ hx hy => hx.trans hy.symm
  · exact ha.timeout.unique hb.timeout hgiven fun _ _ _ => Numeral.unique
  · exact ha.otlpEndpoint.unique hb.otlpEndpoint hgiven fun _ _ _ hx hy => hx.trans hy.symm
  · exact ha.otlpToken.unique hb.otlpToken hgiven fun _ _ _ hx hy => hx.trans hy.symm
  · exact ha.command.unique hb.command hown

/-! ### The arguments of a line are what it means -/

/-- The number of an option that is given properly. -/
theorem valued_number {o : Opt} {usual : Nat} (hp : Proper l given) (ho : o.takes = .number) :
    Valued given o Numeral usual (numberOr given o usual) := by
  refine valued_of_lookup hp.once (fun value hmem hlookup => ?_) (fun hlookup => ?_)
  · obtain ⟨n, hn⟩ := hp.fits _ hmem ho
    rw [numberOr, hlookup, Option.bind_some, number?_eq_some_iff.2 hn]
    exact hn
  · rw [numberOr, hlookup]
    rfl

theorem asked_commandOf (hp : Proper l own) (hl : l = .status ∨ l = .watch) :
    Asked own l (commandOf l own) := by
  rcases hl with rfl | rfl
  · exact .status isSome_lookup
  · exact .watch (valued_number hp rfl) isSome_lookup

theorem means_argumentsOf (hp : Proper .top given) (hc : Asked own l c) :
    Means env given l own (argumentsOf env given c) where
  masterUrl := valued_text hp.once id (by simp only [argumentsOf]; cases given.lookup _ <;> rfl)
  plainJson := isSome_lookup
  jsonpCallback := valued_text hp.once id (by simp only [argumentsOf]; cases given.lookup _ <;> rfl)
  timeout := valued_number hp rfl
  otlpEndpoint :=
    valued_text hp.once some (by simp only [argumentsOf]; cases given.lookup _ <;> rfl)
  otlpToken := valued_text hp.once some (by simp only [argumentsOf]; cases given.lookup _ <;> rfl)
  command := hc
  format := by
    by_cases hplain : Opt.plainJson ∈ given.map Prod.fst
    · have hformat : has given .plainJson = true := isSome_lookup.2 hplain
      exact .inl ⟨hplain, if_pos hformat⟩
    · have hformat : has given .plainJson = false := Bool.not_eq_true _ ▸ mt isSome_lookup.1 hplain
      refine .inr ⟨hplain, valued_text hp.once BodyFormat.jsonp ?_⟩
      rw [Arguments.source, Arguments.format]
      simp only [argumentsOf, hformat]
      cases given.lookup _ <;> rfl
  source := rfl
  telemetry := rfl
  pause := fun interval _ _ => by unfold watchInterval; split <;> omega

/-! ### Lines are parsed -/

variable {words behind : List String}

theorem excluding_iff : excluding given = true ↔
    Opt.plainJson ∈ given.map Prod.fst ∧ Opt.jsonpCallback ∈ given.map Prod.fst := by
  rw [excluding, Bool.and_eq_true, has, has, isSome_lookup, isSome_lookup]

theorem mem_commands_cluster {name : String} : (name, l) ∈ Level.cluster.commands ↔
    name = "status" ∧ l = .status ∨ name = "watch" ∧ l = .watch := by
  simp [Level.commands]

/-- The levels of a line, one by one: what their scans end with, and what they settle to. -/
theorem Line.scans (h : Line words given l own) :
    ∃ s rest behind, scan .top .fresh words = .ok (s, .ofLevel .cluster rest) ∧
      s.settle = .ok given ∧ scan .cluster .fresh rest = .ok (.fresh, .ofLevel l behind) ∧
      parseOptions l behind = .ok own := by
  obtain ⟨before, name, behind, rfl, hgiven, hcommand, hown⟩ := h.spelled
  have hcluster : Ends .top ("cluster" :: name :: behind) (.ofLevel .cluster (name :: behind)) :=
    .level (by decide)
  obtain ⟨s, hscan, hs⟩ := scan_written hgiven hcluster
  refine ⟨s, name :: behind, behind, hscan, hs,
    scan_ends (.level (mem_commands_cluster.2 hcommand)) rfl, ?_⟩
  obtain ⟨t, hscan, ht⟩ := scan_written hown .line
  rw [List.append_nil] at hscan
  rw [parseOptions, hscan]
  exact ht

/-- The options of a line are given properly at their levels. -/
theorem Line.proper (h : Line words given l own) :
    Proper .top given ∧ Proper l own ∧ (l = .status ∨ l = .watch) := by
  obtain ⟨before, name, behind, -, hgiven, hcommand, hown⟩ := h.spelled
  exact ⟨hgiven.proper, hown.proper, hcommand.imp And.right And.right⟩

theorem Line.means (h : Line words given l own) :
    Means env given l own (argumentsOf env given (commandOf l own)) := by
  obtain ⟨hgiven, hown, hl⟩ := h.proper
  exact means_argumentsOf hgiven (asked_commandOf hown hl)

/-- A line is parsed to the arguments that its options give. -/
theorem parse_of_line (h : Line words given l own) :
    parse env words = .ok (argumentsOf env given (commandOf l own)) := by
  obtain ⟨s, rest, behind, hscan, hs, hcluster, hown⟩ := h.scans
  have hcompatible : excluding given = false :=
    Bool.not_eq_true _ ▸ mt excluding_iff.1 h.compatible
  simp [parse, hscan, parseCluster, hcluster, hown, hs, hcompatible, Except.map]

/-- **A line has one reading.** -/
theorem Line.unique {l' : Level} (h : Line words given l own) (h' : Line words given' l' own') :
    given = given' ∧ l = l' ∧ own = own' := by
  obtain ⟨s, rest, behind, hscan, hs, hcluster, hown⟩ := h.scans
  obtain ⟨s', rest', behind', hscan', hs', hcluster', hown'⟩ := h'.scans
  cases hscan.symm.trans hscan'
  cases hcluster.symm.trans hcluster'
  cases hs.symm.trans hs'
  cases hown.symm.trans hown'
  exact ⟨rfl, rfl, rfl⟩

/-- A level without commands is parsed only if its words are written for it. -/
theorem written_of_parseOptions (hleaf : l.commands = []) (h : parseOptions l words = .ok own)
    (hwords : "--" ∉ words) : Written l own words := by
  unfold parseOptions at h
  split at h
  · cases h
  · next s e hscan =>
    obtain ⟨before, rest, rfl, hwritten, hend⟩ := (scan_fresh_iff hwords).1 ⟨s, hscan, h⟩
    cases hend with
    | line => rwa [List.append_nil]
    | level hcommand => simp [hleaf] at hcommand

/-- `cluster` has no options, so its first word ends them. -/
theorem ends_of_scan_cluster {s : Scan} {e : Ending}
    (h : scan .cluster .fresh words = .ok (s, e)) (hwords : "--" ∉ words) :
    Ends .cluster words e := by
  cases words with
  | nil =>
    cases h
    exact .line
  | cons name behind =>
    obtain ⟨-, -, hend⟩ | ⟨_, _, _, -, hlong, -⟩ | ⟨_, _, heq, -⟩ :=
      scan_word h (List.ne_of_not_mem_cons hwords).symm
    · exact hend
    · obtain ⟨o, ho, -⟩ := mem_of_long_eq_ok hlong
      cases ho
    · cases heq

/-- What stands behind `cluster` is parsed only if it is a command with its options. -/
theorem written_of_parseCluster (h : parseCluster words = .ok c) (hwords : "--" ∉ words) :
    ∃ name l own behind, words = name :: behind ∧
      (name = "status" ∧ l = .status ∨ name = "watch" ∧ l = .watch) ∧ Written l own behind := by
  unfold parseCluster at h
  split at h
  · cases h
  · cases h
  · next s l behind hscan =>
    cases ends_of_scan_cluster hscan hwords with
    | @level name _ _ hcommand =>
    have hcommand := mem_commands_cluster.1 hcommand
    have hleaf : l.commands = [] := by rcases hcommand with ⟨-, rfl⟩ | ⟨-, rfl⟩ <;> rfl
    cases hown : parseOptions l behind with
    | error e => simp [hown, Except.map] at h
    | ok own =>
      exact ⟨name, l, own, behind, rfl, hcommand,
        written_of_parseOptions hleaf hown (List.not_mem_of_not_mem_cons hwords)⟩

/-- Words are parsed only if they are a line. -/
theorem line_of_parse (h : parse env words = .ok a) (hwords : "--" ∉ words) :
    ∃ given l own, Line words given l own := by
  unfold parse at h
  split at h
  · cases h
  · split at h <;> cases h
  · next s command rest hscan =>
    split at h
    · cases h
    · next c hcluster =>
      split at h
      · cases h
      · next given hs =>
        obtain ⟨before, rest, rfl, hgiven, hend⟩ := (scan_fresh_iff hwords).1 ⟨s, hscan, hs⟩
        cases hend with
        | @level name _ _ hname =>
        obtain ⟨rfl, rfl⟩ : name = "cluster" ∧ command = .cluster := by
          simpa [Level.commands] using hname
        have hrest : "--" ∉ rest := fun hmem => hwords (by simp [hmem])
        obtain ⟨name, l, own, behind, rfl, hcommand, hown⟩ :=
          written_of_parseCluster hcluster hrest
        refine ⟨given, l, own, ⟨before, name, behind, rfl, hgiven, hcommand, hown⟩, ?_⟩
        rw [← excluding_iff]
        intro hexcluding
        simp [hexcluding] at h

/-- **The command line accepts exactly its lines and yields what they mean**, whatever the
environment.  A line has one reading, and lines whose options differ in order and spelling alone are
parsed alike. -/
theorem parsed_as_written (env : Environment) (words : List String) (hwords : "--" ∉ words) :
    ((∃ a, parse env words = .ok a) ↔ ∃ given l own, Line words given l own) ∧
    ∀ given l own, Line words given l own →
      (∃ a, parse env words = .ok a ∧ Means env given l own a) ∧
      (∀ given' l' own', Line words given' l' own' → given' = given ∧ l' = l ∧ own' = own) ∧
      ∀ words' given' own', Line words' given' l own' → given'.Perm given → own'.Perm own →
        parse env words' = parse env words := by
  refine ⟨⟨fun ⟨a, ha⟩ => line_of_parse ha hwords, fun ⟨given, l, own, h⟩ =>
    ⟨_, parse_of_line h⟩⟩, fun given l own h => ⟨⟨_, parse_of_line h, h.means⟩,
      fun given' l' own' h' => h'.unique h, fun words' given' own' h' hgiven hown => ?_⟩⟩
  have hmeans : Means env given l own (argumentsOf env given' (commandOf l own')) :=
    h'.means.perm hgiven hown
  rw [parse_of_line h, parse_of_line h', hmeans.unique h.means h.proper.1.once h.proper.2.1.once]

/-- Two spellings of one line: a value that is the name of a command, a plus sign before a number,
and a token that is set to nothing in the environment. -/
theorem parsed_as_written_reordered :
    let env : Environment := ⟨none, none, some ""⟩
    let words := ["--timeout-ms=+0250", "--master-url", "cluster", "cluster",
      "watch", "--raw", "--interval-ms", "0"]
    let reordered := ["--master-url=cluster", "--timeout-ms", "+0250", "cluster",
      "watch", "--interval-ms=0", "--raw"]
    let given : List Given := [(.timeoutMs, "+0250"), (.masterUrl, "cluster")]
    let own : List Given := [(.raw, ""), (.intervalMs, "0")]
    let a : Arguments := ⟨"cluster", false, "dtcraft_callback", 250, none, some "", .watch 0 true⟩
    "--" ∉ words ∧ Line words given .watch own ∧ Line reordered given.reverse .watch own.reverse ∧
      parse env words = .ok a ∧ Means env given .watch own a ∧
      parse env reordered = parse env words := by
  intro env words reordered given own a
  have hwords : "--" ∉ words := by decide
  have hline : Line words given .watch own := by
    refine ⟨⟨["--timeout-ms=+0250", "--master-url", "cluster"], "watch",
      ["--raw", "--interval-ms", "0"], rfl, ⟨?_, by decide⟩, .inr ⟨rfl, rfl⟩, ⟨?_, by decide⟩⟩,
      by decide⟩
    · exact .cons (.attached "+0250" (by decide)) (.cons (.apart (by decide) (by decide)) .nil)
    · exact .cons (.flag rfl) (.cons (.apart (by decide) (by decide)) .nil)
  have hreordered : Line reordered given.reverse .watch own.reverse := by
    refine ⟨⟨["--master-url=cluster", "--timeout-ms", "+0250"], "watch",
      ["--interval-ms=0", "--raw"], rfl, ⟨?_, by decide⟩, .inr ⟨rfl, rfl⟩, ⟨?_, by decide⟩⟩,
      by decide⟩
    · exact .cons (.attached "cluster" (by decide)) (.cons (.apart (by decide) (by decide)) .nil)
    · exact .cons (.attached "0" (by decide)) (.cons (.flag rfl) .nil)
  have hparse : parse env words = .ok a := by decide
  obtain ⟨⟨b, hb, hmeans⟩, -, halike⟩ := (parsed_as_written env words hwords).2 _ _ _ hline
  cases hparse.symm.trans hb
  exact ⟨hwords, hline, hreordered, hparse, hmeans, halike reordered _ _ hreordered
    given.reverse_perm own.reverse_perm⟩

end ClusterWatch.CommandLine
