/-
Generated text as lines, each indented by four spaces for a level and ended by a line feed.
-/

namespace TypedTables.Source

def line (level : Nat) (text : String) : String :=
  String.ofList (List.replicate (4 * level) ' ') ++ text

def blank : String := ""

def unlines (lines : List String) : String := String.join (lines.map (· ++ "\n"))

/-- The first line of every generated module. -/
def banner : String := "// @generated by tablemaker. Do not edit by hand."

end TypedTables.Source
