/-
YAML documents that hold one mapping of scalars to scalars, in lines or inside of braces. Aliases
are followed, and scalars keep their tags. A text that is no YAML, holds more than one document or
nests collections is refused. Main definition: `read?`.
-/
import TypedTables.Yaml.Token

namespace TypedTables.Yaml

/-- The keys and values of a mapping, in order. -/
abbrev Pairs := List (Scalar × Scalar)

/-! ## Nodes -/

/-- A key or value: a scalar, or an alias for the anchor of a number. -/
inductive Node where
  | scalar (s : Scalar)
  | alias (number : Nat)
  deriving DecidableEq, Repr

/-- The anchors so far. `names` has each name once, with the number of its last anchor; `targets`
has what stands at each number, the last one first, and nothing for a mapping. -/
structure Anchors where
  names : List (String × Nat)
  targets : List (Nat × Option Scalar)
  deriving DecidableEq, Repr

namespace Anchors

def empty : Anchors := ⟨[], []⟩

/-- The anchors with a further one, if there is one. Its number is how many names came before. Where
a name came twice, the next name therefore takes the number of the second one over. -/
def add (a : Anchors) (name : Option String) (target : Option Scalar) : Anchors :=
  match name with
  | none => a
  | some n =>
    ⟨(n, a.names.length) :: a.names.filter (·.1 != n), (a.names.length, target) :: a.targets⟩

/-- The scalar that a node stands for. -/
def scalar? (a : Anchors) : Node → Option Scalar
  | .scalar s => some s
  | .alias number => (a.targets.lookup number).join

end Anchors

/-- What was read of a part of a document, the anchors after it, and the tokens behind it. -/
abbrev Parsed (α : Type) := α × Anchors × List Token

/-- The anchor and the tag before a node, in any order, and the tokens behind them. -/
def properties : List Token → Option String × Option Tag × List Token
  | .anchor a :: .tag t :: rest => (some a, some t, rest)
  | .tag t :: .anchor a :: rest => (some a, some t, rest)
  | .anchor a :: rest => (some a, none, rest)
  | .tag t :: rest => (none, some t, rest)
  | rest => (none, none, rest)

/-- A tag in full, if there is one. -/
def fullTag? (handles : Handles) : Option Tag → Option (Option String)
  | none => some none
  | some t => (t.full? handles).map some

/-- Reads a node. Behind an anchor or a tag the scalar may be missing. -/
def node? (handles : Handles) (anchors : Anchors) : List Token → Option (Parsed Node)
  | .alias name :: rest =>
    (anchors.names.lookup name).map fun number => (.alias number, anchors, rest)
  | ts => do
    let (anchor, tag, rest) := properties ts
    let full ← fullTag? handles tag
    match rest with
    | .scalar s :: rest =>
      let s := { s with tag := full }
      return (.scalar s, anchors.add anchor s, rest)
    | rest =>
      let s := { Scalar.absent with tag := full }
      if anchor.isSome || tag.isSome then return (.scalar s, anchors.add anchor s, rest) else none

/-! ## Mappings -/

/-- Whether a key or value that is missing would end here. -/
def endsPart : List Token → Bool
  | .key :: _ => true
  | .value :: _ => true
  | .separator :: _ => true
  | .mappingEnd :: _ => true
  | _ => false

/-- Reads a key or value that may be missing. -/
def part? (handles : Handles) (anchors : Anchors) (ts : List Token) : Option (Parsed Node) :=
  if endsPart ts then some (.scalar .absent, anchors, ts) else node? handles anchors ts

/-- Reads a key and its value. Inside of braces a node alone is a key. -/
def pair? (braces : Bool) (handles : Handles) (anchors : Anchors) :
    List Token → Option (Parsed (Node × Node))
  | .key :: ts => do
    let (key, anchors, ts) ← part? handles anchors ts
    match ts with
    | .value :: ts =>
      let (value, anchors, ts) ← part? handles anchors ts
      return ((key, value), anchors, ts)
    | ts => return ((key, .scalar .absent), anchors, ts)
  | ts =>
    if braces then do
      let (key, anchors, ts) ← node? handles anchors ts
      return ((key, .scalar .absent), anchors, ts)
    else none

/-- The tokens behind the separator of two pairs. Inside of braces the last pair may have one; in
lines there are none. -/
def pastSeparator? (braces : Bool) : List Token → Option (List Token)
  | .separator :: ts => if braces then some ts else none
  | .mappingEnd :: ts => some (.mappingEnd :: ts)
  | ts => if braces then none else some ts

/-- Reads the pairs of a mapping and its end; `fuel` bounds their number. -/
def pairs? (braces : Bool) (handles : Handles) :
    (fuel : Nat) → Anchors → List Token → Option (Parsed (List (Node × Node)))
  | 0, _, _ => none
  | _ + 1, anchors, .mappingEnd :: ts => some ([], anchors, ts)
  | fuel + 1, anchors, ts => do
    let (p, anchors, ts) ← pair? braces handles anchors ts
    let (ps, anchors, ts) ← pairs? braces handles fuel anchors (← pastSeparator? braces ts)
    return (p :: ps, anchors, ts)

/-! ## Documents -/

def isLast (ts : List Token) : Bool := ts.all (· == .documentEnd)

/-- The directives of a document: whether there is one of the version, the handles, and the tokens
behind them. Neither a version nor a handle is stated twice. -/
def directives? : Bool → Handles → List Token → Option (Bool × Handles × List Token)
  | versioned, handles, .version major minor :: ts =>
    if !versioned && major == 1 && (minor == 1 || minor == 2) then directives? true handles ts
    else none
  | versioned, handles, .handle name start :: ts =>
    if (handles.lookup name).isSome then none
    else directives? versioned ((name, start) :: handles) ts
  | versioned, handles, ts => some (versioned, handles, ts)

/-- The handles of the document, whether a line of dashes starts it, and the tokens behind that.
Directives need such a line. -/
def documentStart? (ts : List Token) : Option (Handles × Bool × List Token) := do
  let (versioned, handles, ts) ← directives? false [] ts
  match ts with
  | .documentStart :: ts => return (handles, true, ts)
  | ts => if versioned || !handles.isEmpty then none else return (handles, false, ts)

/-- The pairs of a text of tokens. A document without content has none. -/
def document? (ts : List Token) : Option Pairs := do
  let (handles, marked, ts) ← documentStart? ts
  let (anchor, tag, content) := properties ts
  let _ ← fullTag? handles tag
  match content with
  | .mappingStart braces :: content =>
    let (pairs, anchors, rest) ←
      pairs? braces handles (content.length + 1) (Anchors.empty.add anchor none) content
    if isLast rest then
      pairs.mapM fun p => return (← anchors.scalar? p.1, ← anchors.scalar? p.2)
    else none
  | rest =>
    if isLast rest && (marked || ts.isEmpty || anchor.isSome || tag.isSome) then return [] else none

/-- Reads the pairs of a text that holds one mapping, or nothing. -/
def read? (text : String) : Option Pairs :=
  if text.toList.all isAllowed then (tokens? (unifyBreaks text.toList)).bind document? else none

example : read? "a: b # c\nd: 'e\n f'\n" =
    some [(⟨"a", .plain, none⟩, ⟨"b", .plain, none⟩),
      (⟨"d", .plain, none⟩, ⟨"e f", .quoted, none⟩)] := by
  decide +kernel

example : read? "&k a: !!str b\nc: *k\n" =
    some [(⟨"a", .plain, none⟩, ⟨"b", .plain, some "tag:yaml.org,2002:str"⟩),
      (⟨"c", .plain, none⟩, ⟨"a", .plain, none⟩)] := by
  decide +kernel

example : read? "\x7ba: b, c\x7d" =
    some [(⟨"a", .plain, none⟩, ⟨"b", .plain, none⟩),
      (⟨"c", .plain, none⟩, .absent)] := by
  decide +kernel

example : read? "a: b: c" = none := by decide +kernel

end TypedTables.Yaml
