import AnnotatedShader.CommandLine.Argument

set_option autoImplicit false

/-!
# Help

The usage of the command line, which also heads every complaint about it, and the help text.

Both are fixed texts, written line by line as a terminal of eighty columns shows them.
-/

namespace AnnotatedShader.CommandLine

/-- Lines as a text; each ends with a line feed. -/
def linesText (ls : List String) : String := String.join (ls.map fun line => line ++ "\n")

/-- The version. -/
def versionText : String := "salc 0.1.0\n"

/-- How the command line is used. -/
def usageLines : List String := [
  "usage: salc [-h] [-o OUTPUT_DIR] [--no-reflection] [--validate]",
  "            [--client \x7bopengl,vulkan\x7d] [--glsl-version N]",
  "            [--no-explicit-bindings] [--per-file-bindings] [-j N] [-v]",
  "            [--version]",
  "            [inputs ...]"]

/-- What the arguments mean. -/
def argumentLines : List String := [
  "",
  "SAL shader compiler: expands annotated shaders into plain GLSL",
  "",
  "positional arguments:",
  "  inputs                Input shader files (compiled as one batch)",
  "",
  "options:",
  "  -h, --help            show this help message and exit",
  "  -o OUTPUT_DIR, --output-dir OUTPUT_DIR",
  "                        Output directory (default: directory of the first",
  "                        input)",
  "  --no-reflection       Skip .json reflection metadata emission",
  "  --validate            Compile generated GLSL with glslangValidator",
  "  --client \x7bopengl,vulkan\x7d",
  "                        Client API for backend validation",
  "  --glsl-version N      GLSL #version of the generated source",
  "  --no-explicit-bindings",
  "                        Omit binding = N qualifiers for older GL targets",
  "  --per-file-bindings   Number bindings per file instead of across the whole",
  "                        batch",
  "  -j N, --jobs N        Worker threads for per-file phases",
  "  -v, --verbose         Log compiler phases",
  "  --version             show program's version number and exit"]

/-- The help text. -/
def helpText : String := linesText (usageLines ++ argumentLines)

/-- The complaint about a wrong command line. -/
def UsageError.text (e : UsageError) : String :=
  linesText (usageLines ++ ["salc: error: " ++ e.message])

end AnnotatedShader.CommandLine
