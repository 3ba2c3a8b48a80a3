/-
Paths as they are written: a text whose parts are separated by slashes. Joining never doubles a
slash at the end of the first path and puts none behind an empty one.
-/

namespace TypedTables.Files

/-- A path as it is written. -/
structure Path where
  text : String
  deriving DecidableEq, Repr

namespace Path

def splitSlashes : List Char → List (List Char)
  | [] => [[]]
  | c :: rest =>
    if c == '/' then [] :: splitSlashes rest
    else match splitSlashes rest with
      | [] => [[c]]
      | part :: parts => (c :: part) :: parts

/-- The parts of a path; empty ones between slashes do not count. -/
def parts (p : Path) : List String :=
  ((splitSlashes p.text.toList).filter fun part => !part.isEmpty).map String.ofList

/-- A path with a slash at its end names a folder. -/
def endsInSlash (p : Path) : Bool := p.text.toList.getLast? == some '/'

/-- The last part of a path is one dot or two. -/
def endsInDots (p : Path) : Bool :=
  p.parts.getLast? == some "." || p.parts.getLast? == some ".."

def isAbsolute (p : Path) : Bool := p.text.toList.head? == some '/'

/-- What is written below a path; an absolute path stands for itself. -/
def join (p : Path) (below : String) : Path :=
  if (Path.mk below).isAbsolute then ⟨below⟩
  else if p.text.isEmpty || p.endsInSlash then ⟨p.text ++ below⟩
  else ⟨p.text ++ "/" ++ below⟩

def joinAll (p : Path) (names : List String) : Path := names.foldl join p

def ofParts (parts : List String) : Path := ⟨"/".intercalate parts⟩

/-- The folders that a path lies in, the nearest one first. Dots do not count as parts, so what a
path with a dot at its end lies in is what it lies in without the dot. -/
def ancestors (p : Path) : List Path :=
  below (if p.isAbsolute then [""] else []) ((p.parts.filter (· != ".")).reverse.drop 1)
where
  below (start : List String) : List String → List Path
    | [] => []
    | part :: above => ofParts (start ++ (part :: above).reverse) :: below start above

example : ancestors ⟨"a/./b/c/."⟩ = [⟨"a/b"⟩, ⟨"a"⟩] := by decide +kernel

end Path

end TypedTables.Files
