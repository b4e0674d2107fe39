import AnnotatedShader.CommandLine.Run

set_option autoImplicit false

/-!
# The program

Loads what a run can see of the file system into a file tree, runs the command line on it, and
stores what has changed.  The library leaves open which machine a validator runs on.  This program
runs no other program, so here it is the bare one.

What a run can see are the places that its paths lead through: the working directory and those above
it, the inputs and the output directory.
-/

namespace AnnotatedShader.Host

open AnnotatedShader.CommandLine

/-- The machine of this program, which runs no other program. -/
def machine : Machine := .bare

/-- What stands at a path of the file system. -/
def nodeAt (path : String) : IO (Option Node) := do
  match ← (IO.FS.readBinFile path).toBaseIO with
  | .ok bytes =>
    match String.fromUTF8? bytes with
    | some text => return some (.file text)
    | none => throw (IO.userError (path ++ ": invalid UTF-8"))
  | .error (.noFileOrDirectory _ _ _) => return none
  | .error _ => return some .directory

/-- The paths that lead to a path, itself included. -/
def stations (p : Path) : List Path :=
  (List.range (p.names.length + 1)).map fun n => { p with names := p.names.take n }

/-- The paths that a request is about: its inputs and its outputs. -/
def watched (r : Request) : List Path :=
  let inputs := r.inputs.map Path.ofText
  let directory := outputDirectory r inputs
  inputs ++ inputs.flatMap fun p =>
    [directory.child (p.stem ++ ".glsl"), directory.child (p.stem ++ ".json")]

/-- Adds what stands at a path to a tree. -/
def load (t : FileTree) (p : Path) : IO FileTree := do
  match t.locate p with
  | .error _ => return t
  | .ok l =>
    if (t.node? l).isSome then return t
    match ← nodeAt p.render with
    | some n => return t.put l n
    | none => return t

/-- The spelling of a location below the working directory or the root. -/
def spelling (l : Location) : String :=
  match l.anchor with
  | .above n => "/".intercalate (List.replicate n ".." ++ l.names)
  | .root => "/" ++ "/".intercalate l.names

/-- Stores what a tree has and an earlier one has not. -/
def store (earlier later : FileTree) : IO Unit :=
  for (l, n) in later.nodes do
    if earlier.node? l != some n then
      match n with
      | .directory => IO.FS.createDirAll (spelling l)
      | .file text => IO.FS.writeFile (spelling l) text

/-- What is said when a run breaks off. -/
def breakdownText : Breakdown → String
  | .batch (.diagnosed d) => d.render
  | .batch .versionMissing => Flag.glslVersion.complaint "a number is wanted"
  | .batch .nullCharacter => "null character in an argument of a program"
  | .batch _ => "a number has too many digits"
  | .file .missing p => p.render ++ ": no such file or directory"
  | .file .isDirectory p => p.render ++ ": is a directory"
  | .file .notADirectory p => p.render ++ ": not a directory"
  | .file .occupied p => p.render ++ ": file exists"
  | .file .tooLong p => p.render ++ ": file name too long"
  | .file .nullCharacter p => p.render ++ ": null character in a path"
  | .numberMissing f => f.complaint "a number is wanted"

end AnnotatedShader.Host

open AnnotatedShader AnnotatedShader.CommandLine AnnotatedShader.Host in
/-- Runs the command line on the file system. -/
def main (arguments : List String) : IO UInt32 := do
  let paths :=
    match Request.ofArguments arguments with
    | .ok r => (watched r).flatMap stations
    | .error _ => []
  let before ← paths.foldlM load FileTree.empty
  let outcome := run arguments before (.default machine)
  store before outcome.tree
  (← IO.getStdout).putStr outcome.output
  (← IO.getStderr).putStr outcome.log
  match outcome.ending with
  | .status code => return code.toUInt32
  | .broken b => do
    IO.eprintln (breakdownText b)
    return 1
