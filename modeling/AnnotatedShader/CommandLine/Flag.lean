set_option autoImplicit false

/-!
# Flags

A flag has a long name, some have a letter as well, and some take a value.  The order of the flags
shows where a message lists several of them.

The properties of flags are tables over `Flag.all`; a flag is found by its letter, by its name or by
the start of its name.
-/

namespace AnnotatedShader.CommandLine

/-- The flags of the command line. -/
inductive Flag where
  | help
  | outputDirectory
  | noReflection
  | validate
  | client
  | glslVersion
  | noExplicitBindings
  | perFileBindings
  | jobs
  | verbose
  | version
  deriving DecidableEq, Repr, Inhabited

namespace Flag

/-- All flags in order. -/
def all : List Flag :=
  [.help, .outputDirectory, .noReflection, .validate, .client, .glslVersion, .noExplicitBindings,
    .perFileBindings, .jobs, .verbose, .version]

/-- The long name of a flag. -/
def name : Flag → String
  | .help => "--help"
  | .outputDirectory => "--output-dir"
  | .noReflection => "--no-reflection"
  | .validate => "--validate"
  | .client => "--client"
  | .glslVersion => "--glsl-version"
  | .noExplicitBindings => "--no-explicit-bindings"
  | .perFileBindings => "--per-file-bindings"
  | .jobs => "--jobs"
  | .verbose => "--verbose"
  | .version => "--version"

/-- The letter of a flag. -/
def letter? : Flag → Option Char
  | .help => some 'h'
  | .outputDirectory => some 'o'
  | .jobs => some 'j'
  | .verbose => some 'v'
  | _ => none

/-- Whether a flag takes a value. -/
def takesValue : Flag → Bool
  | .outputDirectory | .client | .glslVersion | .jobs => true
  | _ => false

/-- How messages name a flag. -/
def label (f : Flag) : String :=
  match f.letter? with
  | some c => String.ofList ['-', c] ++ "/" ++ f.name
  | none => f.name

/-- The flag of a letter. -/
def ofLetter? (c : Char) : Option Flag := all.find? fun f => f.letter? == some c

/-- The flag of a long name. -/
def ofName? (name : String) : Option Flag := all.find? fun f => f.name == name

/-- The flags whose long names start with a text. -/
def startingWith (start : List Char) : List Flag :=
  all.filter fun f => start.isPrefixOf f.name.toList

end Flag

end AnnotatedShader.CommandLine
