import ClusterWatch.CommandLine.Level

/-!
# Scan — the words of one level

The words of a level are scanned from left to right up to a command or to the end.  An option that
takes a value from the next word is *pending* until the next known option of its level, or the end
of the level, settles it: only then is it checked that it has a value, that it was not given before,
and that its value is of the right kind.  An option with an attached value, and one that takes none,
is checked where it stands.
-/

namespace ClusterWatch.CommandLine

/-- Why a command line yields no arguments.  The first is a wish and no mistake. -/
inductive UsageError
  | help
  | helpForMissing
  | missingCommand
  | unknownCommand
  | unknownArgument
  | missingValue
  | surplusValue
  | invalidValue
  | conflict
  deriving DecidableEq, Repr

/-- An option that has been given, with its value; the value of one that takes none is empty. -/
abbrev Given := Opt × String

/-- What has been scanned of a level. -/
structure Scan where
  given : List Given
  pending : Option (Opt × Option String)
  deriving DecidableEq, Repr

namespace Scan

/-- The start of a level. -/
def fresh : Scan := ⟨[], none⟩

/-- Whether the next plain word is a value. -/
def awaitsValue (s : Scan) : Bool :=
  match s.pending with
  | some (_, none) => true
  | _ => false

/-- Adds an option with its value. -/
def give (given : List Given) (o : Opt) (value : String) : Except UsageError (List Given) :=
  if (given.lookup o).isSome then .error .conflict
  else if !o.accepts value then .error .invalidValue
  else .ok (given ++ [(o, value)])

/-- The options that have been given, once the pending one is settled. -/
def settle (s : Scan) : Except UsageError (List Given) :=
  match s.pending with
  | none => .ok s.given
  | some (_, none) => .error .missingValue
  | some (o, some value) => give s.given o value

/-- Settles what is pending, then adds an option with its value. -/
def add (s : Scan) (o : Opt) (value : String) : Except UsageError Scan :=
  match s.settle with
  | .error e => .error e
  | .ok given =>
    match give given o value with
    | .error e => .error e
    | .ok given => .ok ⟨given, none⟩

/-- Settles what is pending, then lets an option wait for its value. -/
def await (s : Scan) (o : Opt) : Except UsageError Scan :=
  match s.settle with
  | .error e => .error e
  | .ok given => .ok ⟨given, some (o, none)⟩

/-- Settles what is pending, then asks for help. -/
def askHelp (s : Scan) : UsageError :=
  match s.settle with
  | .error e => e
  | .ok _ => .help

/-- Scans a word that names an option of a level. -/
def long (s : Scan) (l : Level) (name : List Char) (attached : Option (List Char)) :
    Except UsageError Scan :=
  if name = "help".toList then
    .error (if attached.isSome then .surplusValue else s.askHelp)
  else
    match l.option? name with
    | none => .error .unknownArgument
    | some o =>
      match o.takes, attached with
      | .nothing, none => s.add o ""
      | .nothing, some _ => .error .surplusValue
      | _, none => s.await o
      | _, some value => s.add o (String.ofList value)

end Scan

/-- The error of a plain word that is neither a value nor a command; `ended` says whether `--`
stands before it. -/
def strayWord (l : Level) (ended : Bool) (word : String) : UsageError :=
  if ended && l.isCommand word then .unknownArgument
  else if l.isInner then .unknownCommand
  else .unknownArgument

/-- The answer to `help`: the words behind it must lead from command to command. -/
def helpOn (l : Level) : List String → UsageError
  | [] => .help
  | word :: words =>
    match l.commands.lookup word with
    | some l => helpOn l words
    | none =>
      if l.isCommand word ∧ words = [] then .help
      else .unknownCommand

/-- How the words of a level end: with the command line, or with a command. -/
inductive Ending
  | ofLine
  | ofLevel (command : Level) (words : List String)
  deriving DecidableEq, Repr

/-- Scans the words of a level. -/
def scan (l : Level) (s : Scan) : List String → Except UsageError (Scan × Ending)
  | [] => .ok (s, .ofLine)
  | word :: words =>
    if !s.awaitsValue && l.isCommand word then
      match l.commands.lookup word with
      | some command => .ok (s, .ofLevel command words)
      | none => .error (helpOn l words)
    else
      match Word.of word with
      | .ending =>
        match words with
        | [] => .ok (s, .ofLine)
        | stray :: _ => .error (strayWord l true stray)
      | .long name attached =>
        match s.long l name attached with
        | .error e => .error e
        | .ok s => scan l s words
      | .short letters =>
        .error (if letters.head? = some 'h' then s.askHelp else .unknownArgument)
      | .plain =>
        match s.pending with
        | some (o, none) => scan l ⟨s.given, some (o, some word)⟩ words
        | _ => .error (strayWord l false word)

end ClusterWatch.CommandLine
