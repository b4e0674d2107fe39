import AnnotatedShader.Batch.Options
import AnnotatedShader.Machine
import AnnotatedShader.Source.Stage

set_option autoImplicit false

/-!
# Validators

A validator compiles generated GLSL and reports success or a log.  It is a program of a machine,
which is run once per stage on a file with the source, or a script that answers by rule.  A program
is told its target by arguments and the stage by the suffix of the file; it succeeds when it ends
with code zero, and its log names the stage where the program names the file.

Nothing here says which sources a program takes: that is up to the machine.  Whether there is an
answer at all does not depend on the source and the stage (`Validator.run_of_run`).
-/

namespace AnnotatedShader

/-- What comes of validating a stage. -/
structure ValidationResult where
  success : Bool
  log : String
  deriving DecidableEq, Repr, Inhabited

/-- What comes of linking stages. -/
structure LinkResult where
  success : Bool
  log : String
  reflection : String
  deriving DecidableEq, Repr, Inhabited

/-- Answers by rule: a log, the stages that fail and the texts that make a source fail. -/
structure Script where
  log : String
  failingStages : List String
  failingTexts : List String
  deriving DecidableEq, Repr, Inhabited

/-- A validator. -/
inductive Validator where
  | program (name : String) (machine : Machine := .bare)
  | script (s : Script)

namespace Text

/-- A text with another one in the place of each occurrence of a part, from left to right; the next
`skip` characters belong to an occurrence. -/
def replaceFrom (part other : List Char) : (skip : Nat) → List Char → List Char
  | _, [] => []
  | skip + 1, _ :: rest => replaceFrom part other skip rest
  | 0, c :: rest =>
    if part.isPrefixOf (c :: rest) then other ++ replaceFrom part other (part.length - 1) rest
    else c :: replaceFrom part other 0 rest

/-- A text with another one in the place of each occurrence of a part that is not empty. -/
def replace (part other text : String) : String :=
  String.ofList (replaceFrom part.toList other.toList 0 text.toList)

/-- Whether a text occurs in another one. -/
def occursIn (part : List Char) : List Char → Bool
  | [] => part.isEmpty
  | c :: rest => part.isPrefixOf (c :: rest) || occursIn part rest

end Text

namespace Validator

/-- The validator of a batch that is given none. -/
def default (machine : Machine := .bare) : Validator := .program "glslangValidator" machine

/-- The path of the file that a program finds the source of a stage in. -/
def stagePath (machine : Machine) (stage : Stage) : String :=
  machine.directory ++ "/shader." ++ stage.suffix

/-- What a program is told to validate a stage. -/
def stageArguments (machine : Machine) (e : Environment) (stage : Stage) : List String :=
  e.arguments ++ [stagePath machine stage, "-o", stagePath machine stage ++ ".spv"]

/-- How a log tells why a program cannot be run. -/
def refusalText (name reason : String) : String := name ++ ": " ++ reason

/-- What is made of the ending of a program that was to validate a stage. -/
def resultOf (name path : String) (stage : Stage) : Ending → ValidationResult
  | .refused reason => ⟨false, refusalText name reason⟩
  | .ended code output errors =>
    ⟨code == 0, Text.replace path ("<" ++ stage.name ++ ">") (output ++ errors)⟩

/-- Validates the source of a stage for a target. -/
def run (v : Validator) (e : Environment) (source : String) (stage : Stage) :
    Except Failure ValidationResult :=
  match v with
  | .program name machine => do
    let path := stagePath machine stage
    let ending ← machine.start name (stageArguments machine e stage) [(path, source)]
    .ok (resultOf name path stage ending)
  | .script s =>
    let fails := s.failingStages.contains stage.name ||
      s.failingTexts.any fun t => Text.occursIn t.toList source.toList
    .ok ⟨!fails, s.log⟩

theorem any_holdsNull_stageArguments (machine : Machine) (e : Environment) (stage : Stage) :
    (stageArguments machine e stage).any Machine.holdsNull =
      (e.arguments.any Machine.holdsNull || Machine.holdsNull machine.directory) := by
  have hsuffix : Machine.holdsNull stage.suffix = false := by cases stage <;> decide
  have hplain : Machine.holdsNull "/shader." = false ∧ Machine.holdsNull "-o" = false ∧
      Machine.holdsNull ".spv" = false := by decide
  simp [stageArguments, stagePath, Machine.holdsNull_append, hsuffix, hplain]

/-- A validator that has an answer for one source has one for every source of every stage. -/
theorem run_of_run {v : Validator} {e : Environment} {source : String} {stage : Stage}
    {answer : ValidationResult} (h : v.run e source stage = .ok answer) (source' : String)
    (stage' : Stage) : ∃ answer', v.run e source' stage' = .ok answer' := by
  cases v with
  | script s => exact ⟨_, rfl⟩
  | program name machine =>
    cases hstart : machine.start name (stageArguments machine e stage)
        [(stagePath machine stage, source)] with
    | error failure => simp [run, hstart, bind, Except.bind] at h
    | ok ending =>
      have hsame := (any_holdsNull_stageArguments machine e stage').trans
        (any_holdsNull_stageArguments machine e stage).symm
      have hstart' := Machine.start_of_start hsame hstart [(stagePath machine stage', source')]
      exact ⟨_, by rw [run, hstart']; rfl⟩

/-- A validator takes a source for a stage. -/
def Takes (v : Validator) (e : Environment) (source : String) (stage : Stage) : Prop :=
  ∃ answer, v.run e source stage = .ok answer ∧ answer.success = true

/-- Validates the source of a stage of a file for a target, and reports the log if that fails. -/
def validate (v : Validator) (e : Environment) (source : String) (stage : Stage) (file : String) :
    Except Failure ValidationResult := do
  let result ← v.run e source stage
  if result.success then .ok result
  else .error (.at_ file .nowhere (.validation result.log))

/-- Why the program of a validator cannot be run, if it is a program that cannot. -/
def refusal? (v : Validator) (e : Environment) (source : String) (stage : Stage) : Option String :=
  match v with
  | .program name machine =>
    match machine.start name (stageArguments machine e stage)
      [(stagePath machine stage, source)] with
    | .ok (.refused reason) => some (refusalText name reason)
    | _ => none
  | .script _ => none

/-- Links stages for a target by a program. -/
def link (name : String) (e : Environment) (stages : List (Stage × String) := [])
    (machine : Machine := .bare) : Except Failure LinkResult := do
  let files := stages.map fun (stage, source) => (stagePath machine stage, source)
  match ← machine.start name (e.arguments ++ ["-l", "-q"] ++ files.map Prod.fst) files with
  | .refused reason => .ok ⟨false, refusalText name reason, ""⟩
  | .ended code output errors =>
    .ok (if code == 0 then ⟨true, "", output⟩ else ⟨false, output ++ errors, ""⟩)

end Validator

end AnnotatedShader
