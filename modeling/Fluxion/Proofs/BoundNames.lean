import Fluxion.Proofs.Names
import Fluxion.Proofs.Substitution

/-!
# Names that are bound in a shell

The only way to give a value to a name is an assignment, and what stands before the equals sign of
an assignment is a token of the line: a name, on its own as well as there. So every name that has a
value can be typed, and is answered with the value.

## Which value

The value of a name is decided by the last line that touched it, an assignment to it or a line that
clears all values. Which lines are assignments depends on the workspaces that they meet: one may
fail, and then it does not count, or it may use the value that the name had before. `LastAssigned`
says this of the lines alone, with the workspaces they meet, and does not mention the workspace
after the last of them.

Lines that end a session are among those that are handled here. They leave the workspace as it is,
and what comes after them is handled as well.

## Main definitions

* `Shell.after` — the workspace after some lines
* `Shell.Change.Touches` — the changes that decide on the value of a name
* `Shell.LastAssigned` — the value that was assigned to a name last, and not cleared since

## Main results

* `Shell.getElem?_respond`, `Shell.getElem?_after_iff` — what a line does to the value of a name,
  and what all of them have done to it
* `Shell.isName_of_makes` — names that are assigned are names on their own
* `Shell.typed_name` — every name with a value is answered with the value that was assigned last
-/

namespace Fluxion

/-- A name that is split off a statement is one of its tokens. -/
theorem Statement.name_of_splitName {name : String} {ts us : List Token}
    (h : splitName ts = (some name, us)) : ∃ position, ⟨.name, name, position⟩ ∈ ts := by
  rw [splitName.eq_def] at h
  split at h
  · cases h
    exact ⟨_, List.mem_cons_self⟩
  · cases h

namespace Shell

variable {w : Workspace Float} {line name : String} {lines : List String} {value : Float}
  {c : Change}

/-- The workspace after lines that are handled one after another. -/
def after (w : Workspace Float) (lines : List String) : Workspace Float :=
  lines.foldl (fun w line => (respond w line).2) w

theorem after_concat (w : Workspace Float) (lines : List String) (line : String) :
    after w (lines ++ [line]) = (respond (after w lines) line).2 := by
  rw [after, List.foldl_append]
  rfl

/-! ### What a line does to the value of a name -/

/-- The changes that decide on the value of a name. -/
def Change.Touches (name : String) : Change → Prop
  | assign name' _ => name' = name
  | wrt _ => False
  | clear => True

/-- The value that a name has after a change that touches it. -/
def Change.value? : Change → Option Float
  | assign _ value => some value
  | wrt _ | clear => none

theorem Change.getElem?_apply (h : c.Touches name) :
    (c.apply w).bindings[name]? = c.value? := by
  cases c with
  | assign name' value =>
    obtain rfl : name' = name := h
    exact Std.TreeMap.getElem?_insert_self
  | wrt => exact h.elim
  | clear => exact Std.TreeMap.getElem?_emptyc

/-- A change that gives the name a value assigns it. -/
theorem Change.eq_assign (h : c.Touches name) (hvalue : c.value? = some value) :
    c = .assign name value := by
  cases c with
  | assign name' value' =>
    obtain rfl : name' = name := h
    obtain rfl : value' = value := Option.some.inj hvalue
    rfl
  | wrt | clear => cases hvalue

/-- A change that does not touch a name leaves its value. -/
theorem Change.getElem?_apply_of_not (h : ¬c.Touches name) :
    (c.apply w).bindings[name]? = w.bindings[name]? := by
  cases c with
  | assign name' value =>
    have hne : ¬compare name' name = .eq := fun heq => h (Std.LawfulEqOrd.eq_of_compare heq)
    exact Std.TreeMap.getElem?_insert.trans (if_neg hne)
  | wrt => rfl
  | clear => exact absurd trivial h

/-- **What a line does.** It decides on the value of a name by a change that touches it, and any
other line leaves the value as it is. -/
theorem getElem?_respond (w : Workspace Float) (line name : String) :
    (∃ c, Makes w line c ∧ c.Touches name ∧ (respond w line).2.bindings[name]? = c.value?) ∨
      (∀ c, Makes w line c → ¬c.Touches name) ∧
        (respond w line).2.bindings[name]? = w.bindings[name]? := by
  by_cases h : ∃ c, Makes w line c ∧ c.Touches name
  · obtain ⟨c, hmakes, htouches⟩ := h
    obtain ⟨answer, hrespond⟩ := hmakes.respond
    refine .inl ⟨c, hmakes, htouches, ?_⟩
    rw [hrespond]
    exact Change.getElem?_apply htouches
  · refine .inr ⟨fun c hmakes htouches => h ⟨c, hmakes, htouches⟩, ?_⟩
    rcases idle_or_makes w line with hquit | hidle | ⟨c, hmakes⟩
    · rw [respond_quit hquit]
    · obtain ⟨answer, hrespond⟩ := hidle.respond
      rw [hrespond]
    · obtain ⟨answer, hrespond⟩ := hmakes.respond
      rw [hrespond]
      exact Change.getElem?_apply_of_not fun htouches => h ⟨c, hmakes, htouches⟩

/-! ### The last assignment -/

/-- Of the lines that touch the name, the last one assigns the value to it. -/
def LastAssigned (w : Workspace Float) (lines : List String) (name : String) (value : Float) :
    Prop :=
  ∃ before line behind, lines = before ++ line :: behind ∧
    Makes (after w before) line (.assign name value) ∧
    ∀ between line' rest, behind = between ++ line' :: rest →
      ∀ c, Makes (after w (before ++ line :: between)) line' c → ¬c.Touches name

theorem not_lastAssigned_nil : ¬LastAssigned w [] name value := by
  rintro ⟨before, line, behind, hlines, -⟩
  exact List.append_ne_nil_of_right_ne_nil before (List.cons_ne_nil line behind) hlines.symm

/-- The last line assigns the value, or it does not touch the name and a line before it does. -/
theorem lastAssigned_concat : LastAssigned w (lines ++ [line]) name value ↔
    Makes (after w lines) line (.assign name value) ∨
      LastAssigned w lines name value ∧ ∀ c, Makes (after w lines) line c → ¬c.Touches name := by
  constructor
  · rintro ⟨before, line', behind, hlines, hmakes, hbehind⟩
    rcases List.eq_nil_or_concat behind with rfl | ⟨behind, last, rfl⟩
    · obtain ⟨rfl, hline⟩ := List.append_inj' hlines rfl
      obtain rfl := (List.cons.inj hline).1
      exact .inl hmakes
    · rw [List.concat_eq_append, ← List.cons_append, ← List.append_assoc] at hlines
      obtain ⟨rfl, hlast⟩ := List.append_inj' hlines rfl
      obtain rfl := (List.cons.inj hlast).1
      refine .inr ⟨⟨before, line', behind, rfl, hmakes, ?_⟩, ?_⟩
      · rintro between line'' rest rfl
        exact hbehind between line'' (rest ++ [line]) (by simp)
      · exact hbehind behind line [] (by simp)
  · rintro (hmakes | ⟨⟨before, line', behind, rfl, hmakes, hbehind⟩, hkept⟩)
    · exact ⟨lines, line, [], rfl, hmakes, fun between line' rest hnil =>
        absurd hnil.symm (by simp)⟩
    · refine ⟨before, line', behind ++ [line], by simp, hmakes, fun between line'' rest heq => ?_⟩
      rcases List.eq_nil_or_concat rest with rfl | ⟨rest, last, rfl⟩
      · obtain ⟨rfl, hlast⟩ := List.append_inj' heq rfl
        obtain rfl := (List.cons.inj hlast).1
        exact hkept
      · rw [List.concat_eq_append, ← List.cons_append, ← List.append_assoc] at heq
        exact hbehind between line'' rest (List.append_inj' heq rfl).1

/-- **What all lines have done**, by induction on the lines from the last one on. -/
theorem getElem?_after_iff (hw : w.bindings = ∅) :
    (after w lines).bindings[name]? = some value ↔ LastAssigned w lines name value := by
  induction lines using List.reverseRecOn generalizing value with
  | nil =>
    have hempty : (∅ : Bindings Float)[name]? = none := Std.TreeMap.getElem?_emptyc
    show w.bindings[name]? = some value ↔ _
    rw [hw, hempty]
    exact iff_of_false nofun not_lastAssigned_nil
  | append_singleton lines line ih =>
    rw [after_concat, lastAssigned_concat, ← ih]
    rcases getElem?_respond (after w lines) line name with
      ⟨c, hmakes, htouches, hvalue⟩ | ⟨hkept, hvalue⟩
    · constructor
      · intro h
        rw [hvalue] at h
        exact .inl (Change.eq_assign htouches h ▸ hmakes)
      · rintro (hassign | ⟨-, hkept⟩)
        · obtain ⟨answer, hrespond⟩ := hassign.respond
          rw [hrespond]
          exact Change.getElem?_apply (c := .assign name value) rfl
        · exact absurd htouches (hkept c hmakes)
    · rw [hvalue]
      refine ⟨fun h => .inr ⟨h, hkept⟩, ?_⟩
      rintro (hmakes | ⟨h, -⟩)
      · exact absurd rfl (hkept _ hmakes)
      · exact h

/-! ### Names that are assigned -/

/-- What stands before the equals sign of an assignment is a name on its own. -/
theorem isName_of_makes (h : Makes w line (.assign name value)) : Lexer.IsName name := by
  cases h with
  | assign _ _ hrun hout =>
    obtain ⟨f, hparse, -⟩ := Workspace.assigned_of_run hrun hout
    obtain ⟨ts, hsplit, -⟩ := Statement.complete_of_parse hparse
    obtain ⟨position, hmem⟩ := Statement.name_of_splitName hsplit
    exact Lexer.isName_of_mem hmem rfl

/-- **Every name that has a value can be typed.** Let any lines be handled by a shell that starts
without values, and let a name have a value after them. Then a line assigned a value to the name,
and none after it assigned another value or cleared it; there is one such value. The name is a
formula, and as a line it is answered with a report in which that value is the value of the
name. -/
theorem typed_name (hw : w.bindings = ∅) (lines : List String)
    (hname : name ∈ (after w lines).bindings) :
    ∃ value slope : Float,
      (LastAssigned w lines name value ∧ ∀ v, LastAssigned w lines name v → v = value) ∧
      Formula.parse name = .ok (.var name) ∧
      ∃ step : Step Float,
        step.expression = .var name ∧
        (∃ derivative pruned, step.outcome = .derived derivative pruned (some ⟨value, slope⟩)) ∧
        (after w lines).run name = .ok (step, after w lines) ∧
        handle (after w lines) name = .ok (.text step.report, after w lines) := by
  obtain ⟨value, hvalue⟩ :=
    Option.isSome_iff_exists.mp (Std.TreeMap.isSome_getElem?_iff_mem.mpr hname)
  have hlast := (getElem?_after_iff hw).mp hvalue
  have hisName : Lexer.IsName name := by
    obtain ⟨before, line, behind, -, hmakes, -⟩ := hlast
    exact isName_of_makes hmakes
  obtain ⟨slope, hrun, hhandle⟩ := handle_name hisName hvalue
  refine ⟨value, slope, ⟨hlast, fun v hv => ?_⟩, Formula.parse_name hisName, _, rfl, ⟨_, _, rfl⟩,
    hrun, hhandle⟩
  exact Option.some.inj (((getElem?_after_iff hw).mpr hv).symm.trans hvalue)

/-- A name that is assigned, cleared and assigned again before a line that fails. -/
theorem typed_name_again :
    let lines := ["a=2", ":clear", "a=3", "a=("]
    "a" ∈ (after {} lines).bindings ∧
      ∃ value slope : Float,
        (LastAssigned {} lines "a" value ∧ ∀ v, LastAssigned {} lines "a" v → v = value) ∧
        ∃ step : Step Float,
          (∃ derivative pruned,
            step.outcome = .derived derivative pruned (some ⟨value, slope⟩)) ∧
          handle (after {} lines) "a" = .ok (.text step.report, after {} lines) := by
  intro lines
  let three : Float := Coefficient.ofNumeral (.ofLiteral "3")
  have htokens : Lexer.tokenize "a=3" =
      [⟨.name, "a", 0⟩, ⟨.assign, "=", 1⟩, ⟨.number, "3", 2⟩] := by
    decide +kernel
  have hparse : Statement.parse "a=3" = .ok ⟨some "a", .num "3"⟩ := by
    rw [Statement.parse, htokens]
    rfl
  have htokens' : Lexer.tokenize "a=(" =
      [⟨.name, "a", 0⟩, ⟨.assign, "=", 1⟩, ⟨.lparen, "(", 2⟩] := by
    decide +kernel
  have hparse' : Statement.parse "a=(" = .error (.unexpected .operand none 3) := by
    rw [Statement.parse, htokens']
    rfl
  have htrim : Unicode.trim "a=3" = "a=3" ∧ Unicode.trim "a=(" = "a=(" := by decide +kernel
  have hcommand : command? "a=3" = none ∧ command? "a=(" = none := by decide +kernel
  have hrun (w : Workspace Float) : w.run (Unicode.trim "a=3") =
      .ok (⟨.const three, w.wrt, .assigned "a" three⟩, w.save "a" three) := by
    rw [htrim.1, Workspace.run_eq, hparse]
    rfl
  have hmakes : Makes (after {} ["a=2", ":clear"]) "a=3" (.assign "a" three) :=
    .assign hcommand.1 (by rw [htrim.1]; decide) (hrun _) rfl
  have hfailed (w : Workspace Float) (c : Change) : ¬Makes w "a=(" c := by
    intro h
    cases h with
    | assign _ _ hrun =>
      rw [htrim.2, Workspace.run_eq, hparse'] at hrun
      cases hrun
    | wrt h | clear h =>
      rw [hcommand.2] at h
      cases h
  have hlast : LastAssigned {} lines "a" three := by
    refine ⟨["a=2", ":clear"], "a=3", ["a=("], rfl, hmakes, fun between line' rest heq c h => ?_⟩
    have hmem : line' ∈ ["a=("] := heq ▸ by simp
    obtain rfl := List.mem_singleton.mp hmem
    exact absurd h (hfailed _ c)
  have hbound : "a" ∈ (after {} lines).bindings :=
    Std.TreeMap.isSome_getElem?_iff_mem.mp (((getElem?_after_iff rfl).mpr hlast) ▸ rfl)
  obtain ⟨value, slope, hlast, -, step, -, hout, -, hhandle⟩ := typed_name rfl lines hbound
  exact ⟨hbound, value, slope, hlast, step, hout, hhandle⟩

end Shell

end Fluxion
