import ClusterWatch.CommandLine.Word

/-!
# Level — the commands and their options

A command line is read level by level: the program itself, its command `cluster`, and the two
commands `status` and `watch` of that.  Each level has options of its own.  The two upper levels
need a command, and know one more, `help`, which is followed by the command that help is wanted on.
-/

namespace ClusterWatch.CommandLine

/-- The options of all levels. -/
inductive Opt
  | masterUrl
  | plainJson
  | jsonpCallback
  | timeoutMs
  | otlpEndpoint
  | otlpToken
  | intervalMs
  | raw
  deriving DecidableEq, Repr

/-- What an option takes: nothing, any text, or a number. -/
inductive Takes
  | nothing
  | text
  | number
  deriving DecidableEq, Repr

namespace Opt

/-- The name of an option, behind its two dashes. -/
def name : Opt → String
  | masterUrl => "master-url"
  | plainJson => "plain-json"
  | jsonpCallback => "jsonp-callback"
  | timeoutMs => "timeout-ms"
  | otlpEndpoint => "otlp-endpoint"
  | otlpToken => "otlp-token"
  | intervalMs => "interval-ms"
  | raw => "raw"

/-- What an option takes. -/
def takes : Opt → Takes
  | masterUrl | jsonpCallback | otlpEndpoint | otlpToken => .text
  | timeoutMs | intervalMs => .number
  | plainJson | raw => .nothing

/-- Whether a text may be the value of an option. -/
def accepts (o : Opt) (value : String) : Bool :=
  match o.takes with
  | .nothing | .text => true
  | .number => (number? value.toList).isSome

end Opt

/-- The places on a command line at which options may stand. -/
inductive Level
  | top
  | cluster
  | status
  | watch
  deriving DecidableEq, Repr

namespace Level

/-- The options of a level. -/
def options : Level → List Opt
  | top => [.masterUrl, .plainJson, .jsonpCallback, .timeoutMs, .otlpEndpoint, .otlpToken]
  | cluster => []
  | status => [.raw]
  | watch => [.intervalMs, .raw]

/-- The commands of a level. -/
def commands : Level → List (String × Level)
  | top => [("cluster", cluster)]
  | cluster => [("status", status), ("watch", watch)]
  | status | watch => []

/-- The option of a level that has the given name. -/
def option? (l : Level) (name : List Char) : Option Opt :=
  l.options.find? fun o => o.name.toList = name

/-- Whether a level has commands of its own, one of which must follow. -/
def isInner (l : Level) : Bool := !l.commands.isEmpty

/-- Whether a word is a command of a level, `help` among them. -/
def isCommand (l : Level) (word : String) : Bool :=
  (l.commands.lookup word).isSome || (l.isInner && word = "help")

end Level

end ClusterWatch.CommandLine
