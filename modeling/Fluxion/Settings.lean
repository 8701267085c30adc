import Fluxion.Unicode.Blank
import Fluxion.Unicode.Uppercase

/-!
# Settings

The settings of a session have defaults, which environment variables override.

## Main definitions

* `Settings` — the settings and their defaults
* `Settings.ofEnvironment` — the settings under an environment
-/

namespace Fluxion

/-- The settings of a session. -/
structure Settings where
  /-- What is shown before a line of input. -/
  prompt : String := ">> "
  /-- The variable that derivatives are taken with respect to. -/
  wrt : String := "x"
  /-- Whether derivatives are pruned. -/
  prune : Bool := true
  /-- The level of the log, in capital letters. -/
  logLevel : String := "WARNING"

namespace Settings

/-- The environment variables that override the defaults. -/
def names : List String := ["DYDX_PROMPT", "DYDX_VAR", "DYDX_PRUNE", "DYDX_LOG_LEVEL"]

/-- Whether the value of a switch turns it on. -/
def isOn (value : String) : Bool :=
  ["1", "true", "yes", "on"].contains (Unicode.trim value).toLower

/-- The settings under an environment. -/
def ofEnvironment (env : String → Option String) : Settings :=
  let defaults : Settings := {}
  { prompt := (env "DYDX_PROMPT").getD defaults.prompt
    wrt := (env "DYDX_VAR").getD defaults.wrt
    prune := ((env "DYDX_PRUNE").map isOn).getD defaults.prune
    logLevel := Unicode.uppercase ((env "DYDX_LOG_LEVEL").getD defaults.logLevel) }

end Settings

end Fluxion
