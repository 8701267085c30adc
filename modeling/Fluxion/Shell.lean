import Fluxion.Expr.Text
import Fluxion.Formula.Parser
import Fluxion.Node.Drawing
import Fluxion.Node.OfFormula
import Fluxion.Unicode.Identifier
import Fluxion.Workspace.Report

/-!
# The shell

A session is a list of lines. A line that starts with a colon is a command, any other line is
run in the workspace. A line that fails is answered with an error, and the session goes on with
the workspace that the line has left; it ends with its input or with a command to quit.

## Main definitions

* `Reply` — a text, or the end of the session
* `Shell.answer` — answers a line
* `Shell.handle` — the same for a caller who is told of a failure only
* `Shell.respond` — what is shown in answer to a line
* `Shell.session` — the output of a whole session, and the workspace at its end
-/

namespace Fluxion

/-- The answer to a line of input. -/
inductive Reply where
  | text (s : String)
  | quit

namespace Shell

open Unicode (trim isLetter isIdentifier)

/-- What the shell shows before a line of input. -/
def defaultPrompt : String := ">> "

/-- The answer to `:help`. -/
def help : String :=
  "\n".intercalate
    ["<expr>          differentiate, prune and (if bound) evaluate an expression",
     "name = <expr>   bind a variable to the value of a closed expression",
     ":wrt NAME       differentiate with respect to NAME",
     ":vars           show bindings",
     ":clear          drop all bindings",
     ":tree <expr>    print the expression tree",
     ":dot <expr>     print the expression tree in GraphViz DOT format",
     ":help           show this message",
     ":quit           leave the shell"]

/-- The commands of the shell. -/
inductive Command where
  | wrt
  | vars
  | clear
  | tree
  | dot
  | help
  | quit

/-- The command of a name. -/
def Command.ofName? : String → Option Command
  | "wrt" => some wrt
  | "vars" => some vars
  | "clear" => some clear
  | "tree" => some tree
  | "dot" => some dot
  | "help" => some help
  | "quit" | "exit" | "q" => some quit
  | _ => none

/-- Whether derivatives may be taken with respect to a name: an identifier that starts with a
letter and is no keyword. -/
def isVariableName (name : String) : Bool :=
  name.toList.head?.any isLetter && isIdentifier name && Token.Kind.ofWord name == .name

/-- A formula that is not too deep to draw or to outline. -/
def parseShallow (text : String) : Except (Failure Float) Formula := do
  let f ← (Formula.parse text).mapError Failure.parse
  let _ ← checkDepth (f.lower : Expr Float)
  return f

/-- The outline of the expression of a text. -/
def outline (text : String) : Except (Failure Float) String := do
  return (← parseShallow text).lower.outlineText 0

/-- The drawing of the expression of a text. -/
def drawing (text : String) : Except (Failure Float) String := do
  return (← parseShallow text).toNode.dot "graph"

/-- Obeys a command. -/
def obey (argument : String) : Command → Workspace.Action Float Reply
  | .wrt => do
    if isVariableName argument then
      modify fun w => { w with wrt := argument }
      return .text ("differentiating with respect to " ++ argument)
    else return .text "error: usage :wrt NAME"
  | .vars => do return .text (← get).summary
  | .clear => do
    modify Workspace.clear
    return .text "bindings cleared"
  | .tree => do return .text (← Workspace.attempt (outline argument))
  | .dot => do return .text (← Workspace.attempt (drawing argument))
  | .help => return .text help
  | .quit => return .quit

/-- Answers a line. -/
def answer (line : String) : Workspace.Action Float Reply :=
  match (trim line).toList with
  | [] => return .text ""
  | ':' :: command =>
    let name := String.ofList (command.takeWhile (· != ' '))
    let argument := trim (String.ofList ((command.dropWhile (· != ' ')).drop 1))
    match Command.ofName? name with
    | some command => obey argument command
    | none => return .text ("error: unknown command ':" ++ name ++ "' (try :help)")
  | _ => do return .text (← Workspace.tell (trim line))

/-- The answer to a line, and the workspace after it. -/
def handle (w : Workspace Float) (line : String) :
    Except (Failure Float) (Reply × Workspace Float) :=
  w.outcome (answer line)

/-- An answer on a line of its own; an empty answer takes none. -/
def answerLine (text : String) : String := if text.isEmpty then "" else text ++ "\n"

/-- What is shown in answer to a line, or nothing to end the session, and the workspace after
the line. -/
def respond (w : Workspace Float) (line : String) : Option String × Workspace Float :=
  match (answer line).run w with
  | .ok .quit w => (none, w)
  | .ok (.text answer) w => (some (answerLine answer), w)
  | .error failure w => (some (answerLine ("error: " ++ failure.message)), w)

/-- The output of a session over lines of input, and the workspace at its end. The prompt is
shown before every line and before the end of the input. -/
def session (prompt : String) (w : Workspace Float) : List String → String × Workspace Float
  | [] => (prompt, w)
  | line :: lines =>
    match respond w line with
    | (none, w) => (prompt, w)
    | (some answer, w) =>
      let (output, w) := session prompt w lines
      (prompt ++ answer ++ output, w)

/-- The lines of an input; a last line needs no end. -/
def inputLines (input : String) : List String :=
  match (input.splitOn "\n").reverse with
  | "" :: lines => lines.reverse
  | lines => lines.reverse

end Shell

end Fluxion
