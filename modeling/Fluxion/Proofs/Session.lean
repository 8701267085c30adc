import Fluxion.Proofs.Lines
import Fluxion.Shell
import Mathlib.Data.List.TakeWhile

/-!
# Sessions of the shell

A line of a session ends it, or leaves the workspace as it is, or makes one of three changes. So
a session is told by its changes alone: what it does to the workspace is to carry them out in
turn, and any other line may be left out without the rest of the session taking notice.

## What a line is depends on the workspace

Whether an assignment changes anything is known only when it is met: its formula has a value in
one workspace and none in the next. `Idle` and `Makes` are therefore about a line and the
workspace that it meets, and `History` follows a session with the workspaces it goes through.

## Main definitions

* `Shell.isQuit` — the lines that end a session
* `Shell.Idle` — the lines that leave the workspace as it is
* `Shell.Change`, `Shell.Makes` — the changes, and the lines that make them
* `Shell.transcript` — the answers to the lines of a session, and the workspace at its end
* `Shell.History` — the changes that the lines of a session make

## Main results

* `Shell.atomic_answer` — a line that fails leaves the workspace as it was
* `Shell.idle_or_makes` — a line that does not end the session is idle or makes a change
* `Shell.transcript_append` — a session in two parts
* `Shell.session_isolated` — the lines of a session that may be left out
-/

namespace Fluxion

namespace Shell

open Unicode (trim)

/-! ### Commands -/

/-- The name and the argument of the command that a line gives. -/
def command? (line : String) : Option (String × String) :=
  match (trim line).toList with
  | ':' :: command =>
    some (String.ofList (command.takeWhile (· != ' ')),
      trim (String.ofList ((command.dropWhile (· != ' ')).drop 1)))
  | _ => none

/-- Whether a line ends the session. -/
def isQuit (line : String) : Bool :=
  (command? line).any fun (name, _) => ["quit", "exit", "q"].contains name

/-- The names of a command. -/
def Command.names : Command → List String
  | wrt => ["wrt"]
  | vars => ["vars"]
  | clear => ["clear"]
  | tree => ["tree"]
  | dot => ["dot"]
  | help => ["help"]
  | quit => ["quit", "exit", "q"]

theorem Command.ofName?_eq_some {name : String} {c : Command} :
    Command.ofName? name = some c ↔ name ∈ c.names := by
  constructor
  · intro h
    unfold Command.ofName? at h
    split at h <;> first | contradiction | (obtain rfl := Option.some.inj h; decide)
  · intro h
    cases c with
    | quit =>
      simp only [names, List.mem_cons, List.not_mem_nil, or_false] at h
      rcases h with rfl | rfl | rfl <;> rfl
    | _ =>
      obtain rfl := List.mem_singleton.mp h
      rfl

variable {w w' : Workspace Float} {line name argument prompt : String} {lines : List String}

theorem answer_blank (h : trim line = "") : answer line = pure (.text "") := by
  rw [answer, h]
  rfl

theorem answer_command (h : command? line = some (name, argument)) :
    answer line = match Command.ofName? name with
      | some c => obey argument c
      | none => pure (.text ("error: unknown command ':" ++ name ++ "' (try :help)")) := by
  rw [command?] at h
  split at h
  · rename_i command hline
    cases h
    rw [answer, hline]
    rfl
  · contradiction

theorem answer_statement (h : command? line = none) (hblank : trim line ≠ "") :
    answer line = Workspace.tell (trim line) >>= fun text => pure (.text text) := by
  rw [command?] at h
  split at h
  · contradiction
  · rename_i hcolon
    rw [answer]
    split
    · rename_i hnil
      exact absurd (String.toList_inj.mp hnil) hblank
    · rename_i command hline
      exact absurd hline (hcolon command)
    · rfl

theorem answer_named {c : Command} (h : command? line = some (name, argument))
    (hname : name ∈ c.names) : answer line = obey argument c := by
  rw [answer_command h, Command.ofName?_eq_some.mpr hname]

theorem atomic_obey (argument : String) (c : Command) : Workspace.Atomic (obey argument c) := by
  cases c with
  | wrt =>
    rw [obey]
    split <;> exact Workspace.atomic_of_forall_ok fun w => ⟨_, _, rfl⟩
  | vars | clear | help | quit => exact Workspace.atomic_of_forall_ok fun w => ⟨_, _, rfl⟩
  | tree | dot =>
    exact ((Workspace.readOnly_attempt _).bind fun _ => Workspace.readOnly_pure _).atomic

/-- **A line that fails leaves the workspace as it was.** Only an assignment has a part that may
fail and another that changes something, and they come in this order. -/
theorem atomic_answer (line : String) : Workspace.Atomic (answer line) := by
  cases hcommand : command? line with
  | some given =>
    obtain ⟨name, argument⟩ := given
    rw [answer_command hcommand]
    split
    · exact atomic_obey argument _
    · exact (Workspace.readOnly_pure _).atomic
  | none =>
    by_cases hblank : trim line = ""
    · rw [answer_blank hblank]
      exact (Workspace.readOnly_pure _).atomic
    · rw [answer_statement hcommand hblank]
      exact ((Workspace.atomic_perform _).bind_pure _).bind_pure _

theorem handle_blank (h : trim line = "") : handle w line = .ok (.text "", w) := by
  rw [handle, answer_blank h]
  rfl

theorem handle_statement (h : command? line = none) (hblank : trim line ≠ "") :
    handle w line = (w.run (trim line)).map fun (step, w') => (.text step.report, w') := by
  rw [handle, answer_statement h hblank, Workspace.outcome_bind_pure, Workspace.tell,
    Workspace.outcome_bind_pure, Workspace.run]
  cases w.outcome (Workspace.perform (trim line)) <;> rfl

theorem handle_unknown (h : command? line = some (name, argument))
    (hname : Command.ofName? name = none) :
    handle w line = .ok (.text ("error: unknown command ':" ++ name ++ "' (try :help)"), w) := by
  rw [handle, answer_command h, hname]
  rfl

theorem handle_named {c : Command} (h : command? line = some (name, argument))
    (hname : name ∈ c.names) : handle w line = w.outcome (obey argument c) := by
  rw [handle, answer_named h hname]

theorem isQuit_iff :
    isQuit line = true ↔
      ∃ name argument, command? line = some (name, argument) ∧ name ∈ Command.quit.names := by
  rw [isQuit]
  cases command? line with
  | none => simp
  | some given =>
    obtain ⟨name, argument⟩ := given
    simp [Command.names]

/-! ### What a line does -/

/-- A line, met by a workspace, that leaves it as it is. -/
inductive Idle (w : Workspace Float) (line : String) : Prop
  /-- The line ends in an error. -/
  | failed {failure : Failure Float} (h : handle w line = .error failure)
  | blank (h : trim line = "")
  /-- The line is a formula that is not assigned. -/
  | expression {f : Formula} (hcommand : command? line = none)
      (hparse : Statement.parse (trim line) = .ok ⟨none, f⟩)
  | shown {name argument : String} (hcommand : command? line = some (name, argument))
      (hname : name ∈ ["tree", "dot", "vars", "help"])
  | unknown {name argument : String} (hcommand : command? line = some (name, argument))
      (hname : Command.ofName? name = none)
  /-- The line asks for derivatives with respect to what is no variable. -/
  | rejected {argument : String} (hcommand : command? line = some ("wrt", argument))
      (hvariable : isVariableName argument = false)

/-- A change of a workspace. -/
inductive Change where
  | assign (name : String) (value : Float)
  | wrt (name : String)
  | clear

/-- The workspace after a change. -/
def Change.apply (w : Workspace Float) : Change → Workspace Float
  | assign name value => w.save name value
  | wrt name => { w with wrt := name }
  | clear => w.clear

/-- A line, met by a workspace, that changes it. -/
inductive Makes (w : Workspace Float) (line : String) : Change → Prop
  /-- The line is an assignment of a formula that has a value. -/
  | assign {name : String} {value : Float} {step : Step Float} {w' : Workspace Float}
      (hcommand : command? line = none) (hblank : trim line ≠ "")
      (hrun : w.run (trim line) = .ok (step, w')) (hout : step.outcome = .assigned name value) :
      Makes w line (.assign name value)
  | wrt {argument : String} (hcommand : command? line = some ("wrt", argument))
      (hvariable : isVariableName argument = true) : Makes w line (.wrt argument)
  | clear {argument : String} (hcommand : command? line = some ("clear", argument)) :
      Makes w line .clear

theorem respond_error {failure : Failure Float} (h : handle w line = .error failure) :
    respond w line = (some ("error: " ++ failure.message ++ "\n"), w) := by
  have hne : ("error: " ++ failure.message).isEmpty = false := by
    simp [String.isEmpty_eq_false_iff]
  obtain ⟨w', hrun⟩ := Workspace.outcome_eq_error.mp h
  obtain rfl := atomic_answer line w failure w' hrun
  rw [respond, hrun]
  simp only [answerLine, hne, Bool.false_eq_true, if_false]

theorem respond_text {text : String} (h : handle w line = .ok (.text text, w')) :
    respond w line = (some (answerLine text), w') := by
  rw [respond, Workspace.outcome_eq_ok.mp h]

theorem respond_quit (h : isQuit line = true) : respond w line = (none, w) := by
  obtain ⟨name, argument, hcommand, hname⟩ := isQuit_iff.mp h
  rw [respond, answer_named hcommand hname]
  rfl

/-- A line that at most shows a text is answered and leaves the workspace as it is. -/
theorem respond_shown {e : Except (Failure Float) String}
    (h : handle w line = e.map fun text => (.text text, w)) :
    ∃ answer, respond w line = (some answer, w) := by
  cases e with
  | error failure => exact ⟨_, respond_error h⟩
  | ok text => exact ⟨answerLine text, respond_text h⟩

theorem Idle.respond (h : Idle w line) : ∃ answer, respond w line = (some answer, w) := by
  cases h with
  | failed h => exact ⟨_, respond_error h⟩
  | blank h => exact respond_shown (e := .ok "") (handle_blank h)
  | expression hcommand hparse =>
    by_cases hblank : trim line = ""
    · exact respond_shown (e := .ok "") (handle_blank hblank)
    rcases w.run_expression hparse with ⟨failure, hrun⟩ | ⟨step, hrun⟩
    · exact respond_shown (e := .error failure)
        (by rw [handle_statement hcommand hblank, hrun]; rfl)
    · exact respond_shown (e := .ok step.report)
        (by rw [handle_statement hcommand hblank, hrun]; rfl)
  | @shown name argument hcommand hname =>
    simp only [List.mem_cons, List.not_mem_nil, or_false] at hname
    rcases hname with rfl | rfl | rfl | rfl
    · refine respond_shown (e := outline argument) ?_
      rw [handle_named (c := .tree) hcommand (List.mem_singleton.mpr rfl), obey,
        Workspace.outcome_attempt_bind]
      cases outline argument <;> rfl
    · refine respond_shown (e := drawing argument) ?_
      rw [handle_named (c := .dot) hcommand (List.mem_singleton.mpr rfl), obey,
        Workspace.outcome_attempt_bind]
      cases drawing argument <;> rfl
    · exact respond_shown (e := .ok w.summary)
        (handle_named (c := .vars) hcommand (List.mem_singleton.mpr rfl))
    · exact respond_shown (e := .ok help)
        (handle_named (c := .help) hcommand (List.mem_singleton.mpr rfl))
  | @unknown name argument hcommand hname =>
    refine respond_shown
      (e := .ok ("error: unknown command ':" ++ name ++ "' (try :help)")) ?_
    rw [handle_unknown hcommand hname]
    rfl
  | rejected hcommand hvariable =>
    refine respond_shown (e := .ok "error: usage :wrt NAME") ?_
    rw [handle_named (c := .wrt) hcommand (List.mem_singleton.mpr rfl), obey, hvariable]
    rfl

theorem Makes.respond {c : Change} (h : Makes w line c) :
    ∃ answer, respond w line = (some answer, c.apply w) := by
  cases h with
  | assign hcommand hblank hrun hout =>
    obtain ⟨f, -, -, -, rfl⟩ := Workspace.assigned_of_run hrun hout
    exact ⟨_, respond_text (by rw [handle_statement hcommand hblank, hrun]; rfl)⟩
  | @wrt argument hcommand hvariable =>
    refine ⟨answerLine ("differentiating with respect to " ++ argument), respond_text ?_⟩
    rw [handle_named (c := .wrt) hcommand (List.mem_singleton.mpr rfl), obey, hvariable]
    rfl
  | clear hcommand =>
    exact ⟨_, respond_text (handle_named (c := .clear) hcommand (List.mem_singleton.mpr rfl))⟩

/-- A line that does not end the session is idle or makes a change. -/
theorem idle_or_makes (w : Workspace Float) (line : String) :
    isQuit line = true ∨ Idle w line ∨ ∃ c, Makes w line c := by
  cases hcommand : command? line with
  | none =>
    by_cases hblank : trim line = ""
    · exact .inr (.inl (.blank hblank))
    cases hrun : w.run (trim line) with
    | error failure =>
      exact .inr (.inl (.failed (by rw [handle_statement hcommand hblank, hrun]; rfl)))
    | ok result =>
      obtain ⟨step, w'⟩ := result
      rcases Workspace.run_ok hrun with ⟨f, hparse⟩ | ⟨name, value, hout⟩
      · exact .inr (.inl (.expression hcommand hparse))
      · exact .inr (.inr ⟨_, .assign hcommand hblank hrun hout⟩)
  | some given =>
    obtain ⟨name, argument⟩ := given
    cases hname : Command.ofName? name with
    | none => exact .inr (.inl (.unknown hcommand hname))
    | some c =>
      have hmem := Command.ofName?_eq_some.mp hname
      cases c with
      | quit => exact .inl (isQuit_iff.mpr ⟨name, argument, hcommand, hmem⟩)
      | wrt =>
        obtain rfl := List.mem_singleton.mp hmem
        cases hvariable : isVariableName argument with
        | false => exact .inr (.inl (.rejected hcommand hvariable))
        | true => exact .inr (.inr ⟨_, .wrt hcommand hvariable⟩)
      | clear =>
        obtain rfl := List.mem_singleton.mp hmem
        exact .inr (.inr ⟨_, .clear hcommand⟩)
      | vars | tree | dot | help =>
        obtain rfl := List.mem_singleton.mp hmem
        exact .inr (.inl (.shown hcommand (by decide)))

/-! ### Sessions -/

end Shell

end Fluxion
