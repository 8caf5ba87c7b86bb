/-
What the command says of itself.
-/
import ClassLens.Report.Sarif

set_option autoImplicit false

namespace ClassLens.Command

/-- The name that the command goes by. -/
def programName : String := Report.toolName

/-- The answer to a request for the version. -/
def versionText : String := programName ++ " " ++ Report.toolVersion ++ "\n"

/-- The lines of the answer to a request for help. Options without a
description keep the column that it would stand in. -/
def helpLines : List String := [
  "Expression trees and nanopatterns for JVM class files and JAR files.",
  "",
  "Usage: " ++ programName ++ " [OPTIONS]",
  "",
  "Options:",
  "      --input <PATH>   ",
  "      --output <PATH>  ",
  "      --trees          Write expression-forest outlines instead of SARIF",
  "      --list-patterns  Write the pattern catalog as JSON and exit",
  "      --quiet          ",
  "      --timing         ",
  "  -v, --verbose        ",
  "  -h, --help           Print help",
  "  -V, --version        Print version"]

/-- The answer to a request for help. -/
def helpText : String :=
  helpLines.foldl (fun text line => text ++ line ++ "\n") ""

/-- The advice after words that make no sense. -/
def misuseText : String :=
  "error: invalid arguments\n\nFor more information, try '--help'.\n"

end ClassLens.Command
