/-! Paths as they are written, and their components. -/

namespace DialectBench

/-- A path as it is written. -/
structure Path where
  /-- The text of the path. -/
  text : String
  deriving DecidableEq, Repr, Inhabited

/-- A step of a path. -/
inductive Component where
  /-- The root of all paths. -/
  | root
  /-- A dot that the path begins with. -/
  | current
  /-- Two dots. -/
  | parent
  /-- The name of an entry. -/
  | name (text : String)
  deriving DecidableEq, Repr

namespace Component

/-- The text of a step. -/
def text : Component → String
  | root => "/"
  | current => "."
  | parent => ".."
  | name text => text

/-- The kinds of steps in their order. -/
def rank : Component → Nat
  | root => 0
  | current => 1
  | parent => 2
  | name _ => 3

/-- Steps are ordered by kind, and names by their characters. -/
def order (a b : Component) : Ordering :=
  (compare a.rank b.rank).then (compare a.text b.text)

end Component

/-- Lists of components are ordered by the first place where they differ. -/
def orderComponents : List Component → List Component → Ordering
  | [], [] => .eq
  | [], _ :: _ => .lt
  | _ :: _, [] => .gt
  | a :: as, b :: bs => (a.order b).then (orderComponents as bs)

/-- Lists of names are ordered by the first place where they differ. -/
def orderNames : List String → List String → Ordering
  | [], [] => .eq
  | [], _ :: _ => .lt
  | _ :: _, [] => .gt
  | a :: as, b :: bs => (compare a b).then (orderNames as bs)

/-- A component and the part of the text that it stands for. -/
structure Span where
  /-- The component. -/
  component : Component
  /-- The number of characters before it. -/
  start : Nat
  /-- The number of characters up to its end. -/
  stop : Nat

/-- The spans of the pieces between slashes; an empty piece and a dot are no components. -/
def spansFrom (offset : Nat) : List (List Char) → List Span
  | [] => []
  | piece :: pieces =>
    let rest := spansFrom (offset + piece.length + 1) pieces
    let stop := offset + piece.length
    if piece = [] || piece = ['.'] then rest
    else if piece = ['.', '.'] then ⟨.parent, offset, stop⟩ :: rest
    else ⟨.name (String.ofList piece), offset, stop⟩ :: rest

namespace Path

instance : Coe String Path := ⟨Path.mk⟩

/-- The spans of a path: the root or a leading dot count as components. -/
def spans (p : Path) : List Span :=
  match p.text.toList.splitOn '/' with
  | ['.'] :: pieces => ⟨.current, 0, 1⟩ :: spansFrom 2 pieces
  | [] :: piece :: pieces => ⟨.root, 0, 1⟩ :: spansFrom 1 (piece :: pieces)
  | pieces => spansFrom 0 pieces

/-- The components of a path. -/
def components (p : Path) : List Component :=
  p.spans.map Span.component

/-- The texts of the components of a path. -/
def segments (p : Path) : List String :=
  p.components.map Component.text

/-- A path starts at the root of all paths. -/
def isAbsolute (p : Path) : Bool :=
  p.text.toList.head? == some '/'

/-- A path put behind another; an absolute one stands alone. -/
def join (base rest : Path) : Path :=
  if rest.isAbsolute then rest
  else
    match base.text.toList.getLast? with
    | none => rest
    | some '/' => ⟨base.text ++ rest.text⟩
    | some _ => ⟨base.text ++ "/" ++ rest.text⟩

instance : HDiv Path String Path := ⟨fun base name => base.join ⟨name⟩⟩

/-- The path of an entry below a directory, by the names on the way to it. -/
def extend (base : Path) (names : List String) : Path :=
  names.foldl (fun path name => path / name) base

/-- The characters of a path from one place to another. -/
def slice (p : Path) (start stop : Nat) : Path :=
  ⟨String.ofList ((p.text.toList.take stop).drop start)⟩

/-- The path without its last component; a path of the root alone or of nothing has none. -/
def parent? (p : Path) : Option Path :=
  match p.spans.reverse with
  | [] => none
  | ⟨.root, _, _⟩ :: _ => none
  | [_] => some ⟨""⟩
  | _ :: previous :: _ => some (p.slice 0 previous.stop)

/-- The name that a path ends with. -/
def fileName? (p : Path) : Option String :=
  match p.spans.getLast? with
  | some ⟨.name text, _, _⟩ => some text
  | _ => none

/-- What stands after the last point of a name, unless the name begins with that point. -/
def extensionOf? (name : String) : Option String :=
  let reversed := name.toList.reverse
  match reversed.dropWhile (· != '.') with
  | _ :: _ :: _ => some (String.ofList (reversed.takeWhile (· != '.')).reverse)
  | _ => none

/-- The extension of the name that a path ends with. -/
def extension? (p : Path) : Option String :=
  p.fileName?.bind extensionOf?

/-- The spans after those of another path, if it leads to this one. -/
def spansBeyond (base : List Component) (spans : List Span) : Option (List Span) :=
  match base, spans with
  | [], rest => some rest
  | _ :: _, [] => none
  | component :: base, span :: spans =>
    if component = span.component then spansBeyond base spans else none

/-- The part of a path after another one that leads to it, as it is written. -/
def relativeTo? (p base : Path) : Option Path :=
  (spansBeyond base.components p.spans).map fun rest =>
    match rest.head?, rest.getLast? with
    | some first, some last => p.slice first.start last.stop
    | _, _ => ⟨""⟩

/-- A path leads through another one. -/
def startsWith (p base : Path) : Bool :=
  base.components.isPrefixOf p.components

/-- Paths are ordered by their components. -/
def order (a b : Path) : Ordering :=
  orderComponents a.components b.components

/-- The paths that a path is made from by taking away last components, itself first. -/
def ancestors (p : Path) : List Path :=
  let stops := (p.spans.reverse.drop 1).map Span.stop
  let shorter := stops.map fun stop => p.slice 0 stop
  match p.spans with
  | [] => [p]
  | ⟨.root, _, _⟩ :: _ => p :: shorter
  | _ => p :: shorter ++ [⟨""⟩]

end Path

end DialectBench
