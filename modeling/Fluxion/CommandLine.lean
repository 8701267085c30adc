import Fluxion.Decimal.Reader
import Fluxion.Settings
import Fluxion.Shell
import Fluxion.Text.Quoted

/-!
# The command line

The arguments are an expression and options, in any order. With an expression, it is
differentiated, or drawn, and the program is done; without one, a session of the shell is run
over the input. Options override the settings.

## Main definitions

* `Arguments`, `Arguments.parse` — what the arguments ask for
* `UsageError`, `Ending` — why arguments are refused, and why nothing is run for them
* `CommandLine.run` — the whole program

## Implementation notes

Arguments are read from the left, up to the first one that is wrong by itself or asks for help. An
argument that belongs nowhere is set aside, and all such are refused together at the end. Only an
argument that stands for several options is refused before anything is read.

An argument that starts with a minus sign is an option, unless it looks like a negative number
or has a space in it. The name of an option may be shortened as long as no other option starts
alike, and the request for help has a short form of one letter. After `--` no argument is an
option; the two signs themselves count as an argument only when there is nothing left for them to
introduce.
-/

namespace Fluxion

/-- The options. -/
inductive Flag where
  | help
  | wrt
  | binding
  | noPrune
  | dot
  | logLevel
deriving DecidableEq

namespace Flag

/-- All options. -/
def all : List Flag := [help, wrt, binding, noPrune, dot, logLevel]

/-- An option as it is written in full. -/
def name : Flag → String
  | help => "--help"
  | wrt => "--wrt"
  | binding => "--at"
  | noPrune => "--no-prune"
  | dot => "--dot"
  | logLevel => "--log-level"

/-- An option in messages, with all its forms. -/
def label : Flag → String
  | help => "-h/--help"
  | flag => flag.name

/-- Whether an option has a value. -/
def takesValue : Flag → Bool
  | wrt | binding | logLevel => true
  | help | noPrune | dot => false

/-- The options whose names start in a way, the two minus signs included. -/
def startingWith (s : String) : List Flag :=
  if "--".toList.isPrefixOf s.toList then all.filter fun f => s.toList.isPrefixOf f.name.toList
  else []

end Flag

/-- What the arguments ask for. -/
structure Arguments where
  expression : Option String := none
  wrt : Option String := none
  /-- The values of names, in the order in which they were given. -/
  bindings : List (String × Float) := []
  noPrune : Bool := false
  dot : Bool := false
  logLevel : Option String := none

/-- Why arguments are refused. -/
inductive UsageError where
  /-- An option stands without its value. -/
  | missingValue (flag : Flag)
  /-- An option has a value that it does not take. -/
  | ignoredValue (flag : Flag) (value : String)
  /-- A value for a name has no name or no value. -/
  | badBinding (text : String)
  /-- The value for a name is no number. -/
  | badNumber (value : String)
  /-- An argument stands for several options. -/
  | ambiguous (argument : String)
  /-- Some arguments belong nowhere. -/
  | unrecognized (arguments : List String)

/-- The wording of a usage error. -/
def UsageError.message : UsageError → String
  | missingValue flag => "argument " ++ flag.label ++ ": expected one argument"
  | ignoredValue flag value =>
    "argument " ++ flag.label ++ ": ignored explicit argument " ++ Text.quote value
  | badBinding text =>
    "argument " ++ Flag.binding.label ++ ": expected NAME=VALUE, got '" ++ text ++ "'"
  | badNumber value => "argument " ++ Flag.binding.label ++ ": '" ++ value ++ "' is not a number"
  | ambiguous argument =>
    "ambiguous option: " ++ argument ++ " could match " ++ ", ".intercalate (Flag.all.map Flag.name)
  | unrecognized arguments => "unrecognized arguments: " ++ " ".intercalate arguments

/-- The last line that is shown for a usage error. -/
def UsageError.report (e : UsageError) : String := "dydx: error: " ++ e.message

/-- Why nothing is run for a list of arguments. -/
inductive Ending where
  /-- They ask for help. -/
  | help
  | refused (error : UsageError)

/-- What an argument is, by its looks. -/
inductive Argument where
  /-- An option, perhaps with a value behind an equals sign. -/
  | option (flag : Flag) (value : Option String)
  /-- The beginning of several options. -/
  | ambiguous
  /-- Something that looks like an option and is none. -/
  | unknown
  | plain
deriving DecidableEq

namespace Argument

/-- Whether a text looks like a negative number: a minus sign and digits, or a minus sign, a
point and digits, with or without digits before the point. A line end may follow. -/
def isNegativeNumber (s : String) : Bool :=
  let isDigit (c : Char) : Bool := (Unicode.digitValue? c).isSome
  match s.toList with
  | '-' :: cs =>
    let cs := if cs.getLast? == some '\n' then cs.dropLast else cs
    match cs.dropWhile isDigit with
    | [] => !cs.isEmpty
    | '.' :: digits => !digits.isEmpty && digits.all isDigit
    | _ => false
  | _ => false

/-- The part of a text before the first equals sign and the part behind it, if there is one. -/
def splitAtEquals (s : String) : String × Option String :=
  let before := String.ofList (s.toList.takeWhile (· != '='))
  match s.toList.dropWhile (· != '=') with
  | [] => (before, none)
  | _ :: after => (before, some (String.ofList after))

/-- What stands behind the short form of the request for help and is refused as its value. A
letter counts as a short form of its own: if it is the same once more, what is behind it counts,
and if it is another one, the first request is met before that one is looked at. -/
def behindShortHelp : List Char → Option String
  | [] => none
  | '=' :: value => some (String.ofList value)
  | '-' :: value => some (String.ofList ('-' :: value))
  | 'h' :: more => behindShortHelp more
  | _ :: _ => none

/-- What an argument is, by its looks. -/
def ofText (s : String) : Argument :=
  match s.toList with
  | ['-'] => plain
  | '-' :: 'h' :: more => option .help (behindShortHelp more)
  | '-' :: _ =>
    let (name, value) := splitAtEquals s
    match Flag.startingWith name with
    | [flag] => option flag value
    | _ :: _ => ambiguous
    | [] => if isNegativeNumber s || s.toList.contains ' ' then plain else unknown
  | _ => plain

/-- The name and the number of a value for a name. -/
def readBinding (text : String) : Except UsageError (String × Float) :=
  let (before, value) := splitAtEquals text
  let name := Unicode.trim before
  match value with
  | none => .error (.badBinding text)
  | some value =>
    if Unicode.isIdentifier name then
      match Decimal.readFloat? value with
      | some x => .ok (name, x)
      | none => .error (.badNumber value)
    else .error (.badBinding text)

end Argument

namespace Arguments

/-- The arguments with an option that has no value. -/
def switchOn (a : Arguments) : Flag → Except Ending Arguments
  | .help => .error .help
  | .noPrune => .ok { a with noPrune := true }
  | .dot => .ok { a with dot := true }
  | .wrt | .binding | .logLevel => .ok a

/-- The arguments with the value of an option. -/
def setValue (a : Arguments) (flag : Flag) (value : String) : Except Ending Arguments :=
  match flag with
  | .wrt => .ok { a with wrt := some value }
  | .binding =>
    match Argument.readBinding value with
    | .ok binding => .ok { a with bindings := a.bindings ++ [binding] }
    | .error e => .error (.refused e)
  | .logLevel => .ok { a with logLevel := some value }
  | .help | .noPrune | .dot => .error (.refused (.ignoredValue flag value))

/-- The arguments when all that follows is no option: the first of `rest` is the expression if
there is none yet, and the others are surplus. -/
def takePlain (a : Arguments) (rest : List String) : Arguments × List String :=
  match a.expression, rest with
  | none, s :: rest => ({ a with expression := some s }, rest)
  | none, [] => (a, [])
  | some _, rest => (a, "--" :: rest)

/-- Reads arguments from the left, given what was read so far and the arguments set aside. -/
def consume (a : Arguments) (surplus : List String) :
    List String → Except Ending (Arguments × List String)
  | [] => .ok (a, surplus)
  | s :: rest =>
    if s = "--" then
      let (a, more) := a.takePlain rest
      .ok (a, surplus ++ more)
    else match Argument.ofText s with
      | .ambiguous => .error (.refused (.ambiguous s))
      | .unknown => a.consume (surplus ++ [s]) rest
      | .plain =>
        match a.expression, rest with
        | some _, rest => a.consume (surplus ++ [s]) rest
        | none, "--" :: rest => .ok ({ a with expression := some s }, surplus ++ rest)
        | none, rest => Arguments.consume { a with expression := some s } surplus rest
      | .option flag (some value) => do (← a.setValue flag value).consume surplus rest
      | .option flag none =>
        if flag.takesValue then
          match rest with
          | value :: rest =>
            if value ≠ "--" ∧ Argument.ofText value = .plain then do
              (← a.setValue flag value).consume surplus rest
            else .error (.refused (.missingValue flag))
          | [] => .error (.refused (.missingValue flag))
        else do (← a.switchOn flag).consume surplus rest

/-- The first argument before `--` that stands for several options. -/
def ambiguous? (arguments : List String) : Option String :=
  (arguments.takeWhile (· ≠ "--")).find? fun s => Argument.ofText s = .ambiguous

/-- What a list of arguments asks for. -/
def parse (arguments : List String) : Except Ending Arguments := do
  if let some s := ambiguous? arguments then throw (.refused (.ambiguous s))
  let (a, surplus) ← consume {} [] arguments
  if surplus.isEmpty then return a else throw (.refused (.unrecognized surplus))

/-- The workspace that arguments ask for under settings. Of two values for one name the later
one holds. -/
def workspace (a : Arguments) (settings : Settings) : Workspace Float where
  wrt := a.wrt.getD settings.wrt
  prune := settings.prune && !a.noPrune
  bindings := Std.TreeMap.ofList a.bindings

end Arguments

namespace CommandLine

/-- How the program ends: its exit code, and all that it wrote. -/
structure Exit where
  code : Nat
  output : String

/-- What is written for one expression. -/
def once (w : Workspace Float) (dot : Bool) (expression : String) :
    Except (Failure Float) String :=
  if dot then Shell.drawing expression
  else do
    let (text, _) ← w.report expression
    return text

/-- The program under settings, once its arguments are read. -/
def runWith (settings : Settings) (a : Arguments) (input : String) : Exit :=
  let w := a.workspace settings
  match a.expression with
  | none => ⟨0, (Shell.session settings.prompt w (Shell.inputLines input)).1⟩
  | some expression =>
    match once w a.dot expression with
    | .ok text => ⟨0, text ++ "\n"⟩
    | .error failure => ⟨1, "error: " ++ failure.message ++ "\n"⟩

/-- What is written when help is asked for, on lines of eighty characters at most. -/
def help : String := "\n".intercalate [
  "usage: dydx [-h] [--wrt WRT] [--at NAME=VALUE] [--no-prune] [--dot]",
  "            [--log-level LOG_LEVEL]",
  "            [expression]",
  "",
  "Symbolic differentiation shell",
  "",
  "positional arguments:",
  "  expression            Expression to differentiate (omit for the shell)",
  "",
  "options:",
  "  -h, --help            show this help message and exit",
  "  --wrt WRT             Differentiation variable",
  "  --at NAME=VALUE       Bind a variable for evaluation (repeatable)",
  "  --no-prune            Print the derivative unsimplified",
  "  --dot                 Print the expression tree as DOT and exit",
  "  --log-level LOG_LEVEL",
  "                        Logging level",
  ""]

/-- The program under an environment, with arguments and an input. -/
def run (env : String → Option String) (arguments : List String) (input : String) :
    Except UsageError Exit :=
  match Arguments.parse arguments with
  | .ok a => .ok (runWith (Settings.ofEnvironment env) a input)
  | .error .help => .ok ⟨0, help⟩
  | .error (.refused e) => .error e

end CommandLine

end Fluxion
