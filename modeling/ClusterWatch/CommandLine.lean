import ClusterWatch.CommandLine.Scan
import ClusterWatch.Poller
import ClusterWatch.Source

/-!
# CommandLine — from words to arguments

The arguments of the program are what its options say, with a value from the environment or a usual
one for an option that is not given (`parse`).  A level is checked when it ends: what is pending is
settled, then a missing command is reported, then options that exclude each other.  A command is
parsed to its end before the level that holds it.
-/

namespace ClusterWatch

open CommandLine

/-- The variables of the environment that stand in for options; one set to nothing is set. -/
structure Environment where
  masterUrl : Option String
  otlpEndpoint : Option String
  otlpToken : Option String
  deriving DecidableEq, Repr

/-- What is to be done: show the status once, or go on watching it, raw or as a table. -/
inductive Command
  | status (raw : Bool)
  | watch (interval : Nat) (raw : Bool)
  deriving DecidableEq, Repr

/-- The arguments of the program. -/
structure Arguments where
  masterUrl : String
  plainJson : Bool
  jsonpCallback : String
  timeout : Nat
  otlpEndpoint : Option String
  otlpToken : Option String
  command : Command
  deriving DecidableEq, Repr

namespace CommandLine

/-- Whether an option is among those given. -/
def has (given : List Given) (o : Opt) : Bool := (given.lookup o).isSome

/-- The number given for an option, or else a usual one. -/
def numberOr (given : List Given) (o : Opt) (usual : Nat) : Nat :=
  ((given.lookup o).bind fun value => number? value.toList).getD usual

/-- Parses the words of a level that has no commands. -/
def parseOptions (l : Level) (words : List String) : Except UsageError (List Given) :=
  match scan l .fresh words with
  | .error e => .error e
  | .ok (s, _) => s.settle

/-- The command of a level, from the options given for it. -/
def commandOf (l : Level) (given : List Given) : Command :=
  match l with
  | .watch => .watch (numberOr given .intervalMs Poller.standardInterval) (has given .raw)
  | .top | .cluster | .status => .status (has given .raw)

/-- Parses the words behind `cluster`. -/
def parseCluster (words : List String) : Except UsageError Command :=
  match scan .cluster .fresh words with
  | .error e => .error e
  | .ok (_, .ofLine) => .error .helpForMissing
  | .ok (_, .ofLevel l words) => (parseOptions l words).map (commandOf l)

/-- Whether a variable that stands in for an option is set. -/
def anySet (env : Environment) : Bool :=
  env.masterUrl.isSome || env.otlpEndpoint.isSome || env.otlpToken.isSome

/-- What is wrong with a command line that ends before its command. -/
def lacksCommand (env : Environment) (given : List Given) : UsageError :=
  if given.isEmpty && !anySet env then .helpForMissing else .missingCommand

/-- The arguments, from the options given for the program and its command. -/
def argumentsOf (env : Environment) (given : List Given) (command : Command) : Arguments where
  masterUrl := ((given.lookup .masterUrl).or env.masterUrl).getD SourceConfig.standard.baseUrl
  plainJson := has given .plainJson
  jsonpCallback := (given.lookup .jsonpCallback).getD BodyFormat.defaultCallback
  timeout := numberOr given .timeoutMs SourceConfig.standard.requestTimeout
  otlpEndpoint := (given.lookup .otlpEndpoint).or env.otlpEndpoint
  otlpToken := (given.lookup .otlpToken).or env.otlpToken
  command := command

/-- Whether options exclude each other. -/
def excluding (given : List Given) : Bool := has given .plainJson && has given .jsonpCallback

/-- Parses the words of a command line. -/
def parse (env : Environment) (words : List String) : Except UsageError Arguments :=
  match scan .top .fresh words with
  | .error e => .error e
  | .ok (s, .ofLine) =>
    match s.settle with
    | .error e => .error e
    | .ok given => .error (lacksCommand env given)
  | .ok (s, .ofLevel _ words) =>
    match parseCluster words with
    | .error e => .error e
    | .ok command =>
      match s.settle with
      | .error e => .error e
      | .ok given =>
        if excluding given then .error .conflict else .ok (argumentsOf env given command)

/-- The exit code of a usage error: asking for help is none. -/
def UsageError.exitCode : UsageError → Nat
  | .help => 0
  | _ => 2

/-- The wording of a usage error, with the words that would have been understood. -/
def UsageError.message (e : UsageError) : String :=
  let cause := match e with
    | .help => "dtcraft shows the status of a cluster"
    | .helpForMissing | .missingCommand => "error: a command is missing"
    | .unknownCommand => "error: unknown command"
    | .unknownArgument => "error: unknown argument"
    | .missingValue => "error: an option lacks its value"
    | .surplusValue => "error: an option takes no value"
    | .invalidValue => "error: invalid value of an option"
    | .conflict => "error: an option is given twice, or options exclude each other"
  let names := fun (l : Level) => String.join (l.options.map fun o => " [--" ++ o.name ++ "]")
  cause ++ "\n\nUsage: dtcraft" ++ names .top ++ " cluster\n  status" ++ names .status ++
    "\n  watch" ++ names .watch

end CommandLine

/-! ### What the arguments set up -/

/-- Where traces are reported, and as whom. -/
structure Telemetry where
  serviceName : String
  defaultFilter : String
  otlpEndpoint : Option String
  otlpToken : Option String
  deriving DecidableEq, Repr

namespace Arguments

/-- The form of body the arguments ask for. -/
def format (a : Arguments) : BodyFormat := if a.plainJson then .json else .jsonp a.jsonpCallback

/-- The source the arguments set up. -/
def source (a : Arguments) : SourceConfig :=
  { SourceConfig.ofUrl a.masterUrl with format := a.format, requestTimeout := a.timeout }

/-- The reporting of traces the arguments set up. -/
def telemetry (a : Arguments) : Telemetry := ⟨"dtcraft-cli", "warn", a.otlpEndpoint, a.otlpToken⟩

end Arguments

/-- The milliseconds between the fetches of a watch, which are never none. -/
def watchInterval (interval : Nat) : Nat := max interval 1

end ClusterWatch
