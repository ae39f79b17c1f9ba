import ClusterWatch.Cluster.Wire

/-!
# Source — where a status comes from

A source asks one address for the status, as plain JSON or wrapped in a call of a named function
(JSONP).  `unwrap` strips the call and `decodeBody` decodes a body in either form: a body that is
not wrapped is decoded as it stands, whichever form was asked for.
-/

namespace ClusterWatch

/-- The form a source asks for. -/
inductive BodyFormat
  | json
  | jsonp (callback : String)
  deriving DecidableEq, Repr

/-- The name asked for unless another is chosen; a master answers only names like it. -/
def BodyFormat.defaultCallback : String := "dtcraft_callback"

/-- The form asked for unless another is chosen. -/
def BodyFormat.standard : BodyFormat := .jsonp BodyFormat.defaultCallback

/-- How a source is set up; its limits are in milliseconds. -/
structure SourceConfig where
  baseUrl : String
  format : BodyFormat
  connectTimeout : Nat
  requestTimeout : Nat
  deriving DecidableEq, Repr

/-- The set-up for an address, with everything else as usual. -/
def SourceConfig.ofUrl (baseUrl : String) : SourceConfig := ⟨baseUrl, .standard, 3000, 5000⟩

/-- The usual set-up. -/
def SourceConfig.standard : SourceConfig := .ofUrl "http://127.0.0.1:9912"

/-- The address that is asked: the path `/cluster` behind the base address, whose slashes at the end
do not count. -/
def SourceConfig.url (config : SourceConfig) : String :=
  String.ofList ((config.baseUrl.toList.reverse.dropWhile (· = '/')).reverse ++ "/cluster".toList)

/-- What a body holds between `callback(` and `)`, if it is such a call.  Blanks may stand at both
ends, before the bracket, and around one semicolon at the end. -/
def unwrap (callback body : List Char) : Option (List Char) :=
  match Text.after? callback (Text.trim body) with
  | none => none
  | some s =>
    match Text.after? ['('] (Text.trimStart s) with
    | none => none
    | some s =>
      let s := Text.trimEnd s
      Text.before? ')' (Text.trimEnd ((Text.before? ';' s).getD s))

/-- The status that a body holds. -/
def decodeBody (format : BodyFormat) (body : List Char) : Except Json.Problem Status :=
  match format with
  | .json => Status.decode body
  | .jsonp callback => Status.decode ((unwrap callback.toList body).getD body)

/-- What is said of an exchange that has failed: a text, and the texts of what led to it, the
nearest first. -/
structure Failure where
  text : String
  causes : List String
  deriving DecidableEq, Repr, Inhabited

/-- Why a source gives no status: the exchange failed, the answer's status was not a success, or its
body was not understood. -/
inductive SourceError
  | transport (url : String) (failure : Failure)
  | status (url : String) (code : Nat)
  | malformed (problem : Json.Problem)
  deriving DecidableEq

/-- What led to there being no status, as texts, the outermost cause first. -/
def SourceError.causes : SourceError → List String
  | .transport url failure =>
    ("request to " ++ url ++ " failed: " ++ failure.text) :: failure.text :: failure.causes
  | .status url code => [url ++ " answered with status " ++ Decimal.text code]
  | .malformed p => ["malformed cluster status: " ++ p.message, p.message]

end ClusterWatch
