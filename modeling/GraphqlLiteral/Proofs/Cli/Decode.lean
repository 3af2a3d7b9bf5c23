import GraphqlLiteral.Cli.Command
import GraphqlLiteral.Proofs.Text.Lines
import GraphqlLiteral.Proofs.Text.Quoted
import Mathlib

/-!
# What the decoded arguments are told as

A run of `decode` writes one line for each argument, on the stream that fits, and
both streams can be read back: the standard output determines the arguments with
a value and their values, the error output the arguments without one
(`decode_output_determines_arguments`). The arguments may hold whatever the lines
are made of, since a quoted text ends itself and stays on one line.
-/

namespace GraphqlLiteral.Cli

/-- The output of the program for the command line `decode raws`. -/
def decodeCommand (read : String → Except ReadError String) (raws : List String) : Output :=
  (Command.ofArgs ("decode" :: raws)).run read

/-- The arguments that have a value, each with it. -/
def accepted (raws : List String) : List (String × String) :=
  raws.filterMap fun raw =>
    match Body.decode raw with
    | .ok value => some (raw, value)
    | .error _ => none

/-- The arguments that have no value. -/
def refused (raws : List String) : List String := raws.filter Body.isRefused

/-- The line about an argument with its value. -/
def acceptedLine (p : String × String) : String :=
  DecodedArgument.shown p.1 ++ " => " ++ DecodedArgument.shown p.2

/-- The line about an argument without a value. -/
def refusedLine (raw : String) : String :=
  DecodedArgument.shown raw ++ ": error: " ++ EscapeError.invalid.message

/-! ## Lines -/

/-- Lines that hold no break are read back as they were written. -/
theorem lines_unlines {ls : List String}
    (h : ∀ l ∈ ls, '\n' ∉ l.toList ∧ l.toList.getLast? ≠ some '\r') :
    Text.lines (Output.unlines ls) = ls.map fun l => ⟨l, .lf⟩ := by
  have hwritten : Output.unlines ls = Text.ofLines (ls.map fun l => ⟨l, .lf⟩) := by
    rw [← String.toList_inj, Output.unlines, Text.ofLines, String.toList_join,
      String.toList_ofList, List.flatMap_map, List.flatMap_map]
    congr 1
    funext l
    exact String.toList_append
  have hcomplete : ∀ l ∈ ls.map fun l => (⟨l, .lf⟩ : Text.Line), l.Complete := by
    rw [List.forall_mem_map]
    exact fun l hl => ⟨(h l hl).1, by simp⟩
  rw [hwritten, Text.lines_ofLines hcomplete, List.map_map]
  apply List.map_congr_left
  intro l hl
  show Text.Line.ofSegment (l.toList ++ ['\n']) = ⟨l, .lf⟩
  rw [Text.Line.ofSegment, if_pos List.getLast?_concat, List.dropLast_concat,
    if_neg (h l hl).2, String.ofList_toList]

theorem lf_not_mem_shown (s : String) : '\n' ∉ (DecodedArgument.shown s).toList :=
  @Text.lf_not_mem_quoted Text.isHidden s

/-- What is shown at the front of a line is determined by the line, and so is the
rest of it. -/
theorem shown_append_inj {s t : String} {x y : List Char}
    (h : (DecodedArgument.shown s).toList ++ x = (DecodedArgument.shown t).toList ++ y) :
    s = t ∧ x = y := @Text.quoted_append_inj Text.isHidden s t x y h

theorem toList_acceptedLine (p : String × String) :
    (acceptedLine p).toList = (DecodedArgument.shown p.1).toList ++
      (" => ".toList ++ (DecodedArgument.shown p.2).toList) := by
  rw [acceptedLine, String.toList_append, String.toList_append, List.append_assoc]

theorem toList_refusedLine (raw : String) :
    (refusedLine raw).toList = (DecodedArgument.shown raw).toList ++
      (": error: ".toList ++ EscapeError.invalid.message.toList) := by
  rw [refusedLine, String.toList_append, String.toList_append, List.append_assoc]

theorem acceptedLine_unbroken (p : String × String) :
    '\n' ∉ (acceptedLine p).toList ∧ (acceptedLine p).toList.getLast? ≠ some '\r' := by
  rw [toList_acceptedLine]
  refine ⟨?_, ?_⟩
  · simp [lf_not_mem_shown]
  · have hquote : (DecodedArgument.shown p.2).toList.getLast? = some '"' := by
      rw [DecodedArgument.shown, Text.toList_quoted, ← List.cons_append, List.getLast?_concat]
    rw [List.getLast?_append, List.getLast?_append, hquote]
    simp

theorem refusedLine_unbroken (raw : String) :
    '\n' ∉ (refusedLine raw).toList ∧ (refusedLine raw).toList.getLast? ≠ some '\r' := by
  rw [toList_refusedLine]
  refine ⟨?_, ?_⟩
  · simp [lf_not_mem_shown, EscapeError.message]
  · simp [EscapeError.message]

/-- Behind the argument and the arrow stands the value. -/
theorem acceptedLine_injective : Function.Injective acceptedLine := by
  intro p q h
  rw [← String.toList_inj, toList_acceptedLine, toList_acceptedLine] at h
  obtain ⟨hraw, hrest⟩ := shown_append_inj h
  have hshown := List.append_cancel_left hrest
  rw [← List.append_nil (DecodedArgument.shown p.2).toList,
    ← List.append_nil (DecodedArgument.shown q.2).toList] at hshown
  exact Prod.ext hraw (shown_append_inj hshown).1

theorem refusedLine_injective : Function.Injective refusedLine := by
  intro raw raw' h
  rw [← String.toList_inj, toList_refusedLine, toList_refusedLine] at h
  exact (shown_append_inj h).1

/-! ## The output -/

theorem filterMap_outLine? (raws : List String) :
    (decodeArguments raws).filterMap DecodedArgument.outLine? =
      (accepted raws).map acceptedLine := by
  induction raws with
  | nil => rfl
  | cons raw raws ih =>
    rw [decodeArguments, List.map_cons, List.filterMap_cons, accepted, List.filterMap_cons]
    cases hd : Body.decode raw with
    | ok value => exact congrArg (acceptedLine (raw, value) :: ·) ih
    | error e => exact ih

theorem filterMap_errLine? (raws : List String) :
    (decodeArguments raws).filterMap DecodedArgument.errLine? =
      (refused raws).map refusedLine := by
  induction raws with
  | nil => rfl
  | cons raw raws ih =>
    rw [decodeArguments, List.map_cons, List.filterMap_cons, refused, List.filter_cons,
      Body.isRefused]
    cases hd : Body.decode raw with
    | ok value => exact ih
    | error e =>
      cases e
      exact congrArg (refusedLine raw :: ·) ih

theorem all_isOk_decodeArguments (raws : List String) :
    (decodeArguments raws).all DecodedArgument.isOk = !raws.any Body.isRefused := by
  rw [decodeArguments, List.all_map, List.not_any_eq_all_not]
  congr 1
  funext raw
  show DecodedArgument.isOk ⟨raw, Body.decode raw⟩ = !Body.isRefused raw
  rw [DecodedArgument.isOk, Body.isRefused]
  cases Body.decode raw with
  | ok value => rfl
  | error e => rfl

theorem any_isRefused_iff {raws : List String} :
    raws.any Body.isRefused = true ↔ ∃ raw ∈ raws, Body.decode raw = .error .invalid := by
  simp only [List.any_eq_true, Body.isRefused_iff]

theorem any_isRefused_eq_false_iff {raws : List String} :
    raws.any Body.isRefused = false ↔ ∀ raw ∈ raws, ∃ value, Body.decode raw = .ok value := by
  simp only [List.any_eq_false, Bool.not_eq_true, Body.isRefused_eq_false_iff]

variable (read : String → Except ReadError String)

/-- With arguments the program decodes them, and says something about each. -/
theorem decodeCommand_of_ne_nil {raws : List String} (hne : raws ≠ []) :
    decodeCommand read raws =
      ⟨if raws.any Body.isRefused then .invalid else .ok,
        (accepted raws).map acceptedLine, (refused raws).map refusedLine⟩ := by
  obtain ⟨raw, rest, rfl⟩ := List.exists_cons_of_ne_nil hne
  show Cli.decode (raw :: rest) = _
  simp only [Cli.decode, filterMap_outLine?, filterMap_errLine?, all_isOk_decodeArguments]
  cases (raw :: rest).any Body.isRefused with
  | true => rfl
  | false => rfl

theorem lines_stdout (raws : List String) :
    Text.lines (decodeCommand read raws).stdout =
      (accepted raws).map fun p => ⟨acceptedLine p, .lf⟩ := by
  have hout : (decodeCommand read raws).out = (accepted raws).map acceptedLine := by
    by_cases hne : raws = []
    · subst hne
      rfl
    · rw [decodeCommand_of_ne_nil read hne]
  rw [Output.stdout, hout, lines_unlines, List.map_map]
  · rfl
  · rw [List.forall_mem_map]
    exact fun p _ => acceptedLine_unbroken p

theorem lines_stderr {raws : List String} (hne : raws ≠ []) :
    Text.lines (decodeCommand read raws).stderr =
      (refused raws).map fun raw => ⟨refusedLine raw, .lf⟩ := by
  rw [Output.stderr, decodeCommand_of_ne_nil read hne, lines_unlines, List.map_map]
  · rfl
  · rw [List.forall_mem_map]
    exact fun raw _ => refusedLine_unbroken raw

/-- Without arguments the error output says how to give some, and no line about an
argument looks like that. -/
theorem stderr_ne_of_ne_nil (read' : String → Except ReadError String) {raws : List String}
    (hne : raws ≠ []) : (decodeCommand read raws).stderr ≠ (decodeCommand read' []).stderr := by
  intro h
  have hhead : (decodeCommand read' []).stderr.toList.head? = some 'U' := by
    show (Output.unlines decodeUsage).toList.head? = some 'U'
    simp [Output.unlines, decodeUsage]
  rw [← h, Output.stderr, decodeCommand_of_ne_nil read hne, Output.unlines,
    String.toList_join] at hhead
  cases hrefused : refused raws with
  | nil => simp [hrefused] at hhead
  | cons raw rest =>
    simp [hrefused, toList_refusedLine, DecodedArgument.shown, Text.toList_quoted] at hhead

/-- The output for arguments to be decoded is complete and can be read back. The
status is 0 exactly when every argument has a value, and 1 if not. Each argument
has one line, on the standard output with its value or on the error output, and
both keep the order of the arguments. Runs with the same standard output had the
same values for the same arguments, and runs with the same error output refused
the same arguments, whatever characters these are made of. -/
theorem decode_output_determines_arguments (read read' : String → Except ReadError String) :
    (∀ raws, raws ≠ [] →
      ((decodeCommand read raws).status.code = 0 ↔
        ∀ raw ∈ raws, ∃ value, Body.decode raw = .ok value) ∧
      ((decodeCommand read raws).status.code = 1 ↔
        ∃ raw ∈ raws, Body.decode raw = .error .invalid) ∧
      Text.lines (decodeCommand read raws).stdout =
        (accepted raws).map (fun p => ⟨acceptedLine p, .lf⟩) ∧
      Text.lines (decodeCommand read raws).stderr =
        (refused raws).map fun raw => ⟨refusedLine raw, .lf⟩) ∧
    (∀ raws raws', (decodeCommand read raws).stdout = (decodeCommand read' raws').stdout →
      accepted raws = accepted raws') ∧
    ∀ raws raws', (decodeCommand read raws).stderr = (decodeCommand read' raws').stderr →
      refused raws = refused raws' := by
  refine ⟨?_, ?_, ?_⟩
  · intro raws hne
    refine ⟨?_, ?_, lines_stdout read raws, lines_stderr read hne⟩
    · rw [← any_isRefused_eq_false_iff, decodeCommand_of_ne_nil read hne]
      cases raws.any Body.isRefused with
      | true => simp [ExitStatus.code]
      | false => simp [ExitStatus.code]
    · rw [← any_isRefused_iff, decodeCommand_of_ne_nil read hne]
      cases raws.any Body.isRefused with
      | true => simp [ExitStatus.code]
      | false => simp [ExitStatus.code]
  · intro raws raws' h
    have hlines := congrArg Text.lines h
    rw [lines_stdout, lines_stdout] at hlines
    exact List.map_injective_iff.2
      (fun p q hpq => acceptedLine_injective (congrArg Text.Line.content hpq)) hlines
  · intro raws raws' h
    by_cases hne : raws = []
    · by_cases hne' : raws' = []
      · rw [hne, hne']
      · subst hne
        exact absurd h.symm (stderr_ne_of_ne_nil read' read hne')
    · by_cases hne' : raws' = []
      · subst hne'
        exact absurd h (stderr_ne_of_ne_nil read read' hne)
      · have hlines := congrArg Text.lines h
        rw [lines_stderr read hne, lines_stderr read' hne'] at hlines
        exact List.map_injective_iff.2
          (fun p q hpq => refusedLine_injective (congrArg Text.Line.content hpq)) hlines

/-- An argument that looks like a line about two others, in front of a refused one
and behind another refused one, and the refused one by itself. -/
theorem decode_output_of_arrow_in_argument :
    let read : String → Except ReadError String := fun _ => .error .missing
    let raws := ["a\" => \"b", "\\q"]
    let raws' := ["\\z\n", "a\" => \"b"]
    raws ≠ [] ∧ (∃ raw ∈ raws, Body.decode raw = .error .invalid) ∧
      (decodeCommand read raws).status.code = 1 ∧
    (decodeCommand read raws).stdout = (decodeCommand read raws').stdout ∧
      accepted raws = accepted raws' ∧
    (decodeCommand read raws).stderr = (decodeCommand read ["\\q"]).stderr ∧
      refused raws = refused ["\\q"] := by
  intro read raws raws'
  obtain ⟨htold, hvalues, hrefused⟩ := decode_output_determines_arguments read read
  have hne : raws ≠ [] := List.cons_ne_nil _ _
  obtain ⟨-, hcode, -⟩ := htold raws hne
  have hq : Body.decode "\\q" = .error .invalid := by cbv
  have hz : Body.decode "\\z\n" = .error .invalid := by cbv
  have harrow : Body.decode "a\" => \"b" = .ok "a\" => \"b" := by cbv
  have hbad : ∃ raw ∈ raws, Body.decode raw = .error .invalid :=
    ⟨"\\q", List.mem_cons_of_mem _ List.mem_cons_self, hq⟩
  have hout : (decodeCommand read raws).stdout = (decodeCommand read raws').stdout := by
    simp [raws, raws', decodeCommand, Command.ofArgs, Command.run, Cli.decode, decodeArguments,
      Output.stdout, List.filterMap_cons, DecodedArgument.outLine?, hq, hz, harrow]
  have herr : (decodeCommand read raws).stderr = (decodeCommand read ["\\q"]).stderr := by
    simp [raws, decodeCommand, Command.ofArgs, Command.run, Cli.decode, decodeArguments,
      Output.stderr, List.filterMap_cons, DecodedArgument.errLine?, hq, harrow]
  exact ⟨hne, hbad, hcode.2 hbad, hout, hvalues _ _ hout, herr, hrefused _ _ herr⟩

end GraphqlLiteral.Cli
