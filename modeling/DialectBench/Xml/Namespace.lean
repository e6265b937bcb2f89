import DialectBench.Xml.Name

/-! Namespaces: which qualifiers an element may use, and which attributes are the same. -/

namespace DialectBench.Xml

/-- An attribute as written, its value evened out. -/
structure Attribute where
  /-- The name. -/
  name : Name
  /-- The value. -/
  value : List Char
  deriving DecidableEq, Repr

/-- The namespace of the qualifier that is always known. -/
def markupSpace : List Char := "http://www.w3.org/XML/1998/namespace".toList

/-- The namespace of the declarations, which nothing may be bound to. -/
def declarationSpace : List Char := "http://www.w3.org/2000/xmlns/".toList

/-- The qualifiers in reach and their namespaces, the nearest first. -/
abbrev Scope := List (List Char × List Char)

/-- The qualifier that is always known. -/
def markupQualifier : List Char := "xml".toList

/-- The qualifier of declarations. -/
def declarator : List Char := "xmlns".toList

/-- The declarations among the attributes of an element, if each of them is admitted. -/
def declared? : Scope → List Attribute → Option Scope
  | found, [] => some found
  | found, ⟨name, value⟩ :: rest =>
    if name.qualifier = declarator then
      if value = declarationSpace then none
      -- The known qualifier and its namespace belong to each other and to nothing else.
      else if (name.base = markupQualifier) != (value = markupSpace) then none
      else if found.any fun (qualifier, _) => qualifier = name.base then none
      else declared? ((name.base, value) :: found) rest
    else if name.base = declarator then
      if value = declarationSpace || value = markupSpace then none else declared? found rest
    else declared? found rest

/-- An attribute that declares no namespace. -/
def Attribute.isOrdinary (given : Attribute) : Bool :=
  given.name.qualifier != declarator && given.name.base != declarator

/-- The namespace of a qualifier: none for an empty one, and an error for an unknown one. -/
def namespaceOf? (scope : Scope) (qualifier : List Char) : Option (Option (List Char)) :=
  if qualifier.isEmpty then some none
  else if qualifier = markupQualifier then some (some markupSpace)
  else (scope.lookup qualifier).map some

/-- The namespaces and bases of attributes, if all their qualifiers are known. -/
def expanded? (scope : Scope) (attributes : List Attribute) :
    Option (List (Option (List Char) × List Char)) :=
  attributes.mapM fun given =>
    (namespaceOf? scope given.name.qualifier).map fun space => (space, given.name.base)

/-- No entry of a list repeats. -/
def allDistinct {α : Type} [DecidableEq α] : List α → Bool
  | [] => true
  | x :: rest => !rest.contains x && allDistinct rest

/-- The scope inside an element and its ordinary attributes, if its names are right. -/
def enter? (scope : Scope) (name : Name) (attributes : List Attribute) :
    Option (Scope × List Attribute) :=
  if name.qualifier = declarator then none
  else
    match declared? [] attributes with
    | none => none
    | some found =>
      let inside := found ++ scope
      let ordinary := attributes.filter Attribute.isOrdinary
      match namespaceOf? inside name.qualifier, expanded? inside ordinary with
      -- Two attributes are the same when their namespaces are, whatever their qualifiers.
      | some _, some names => if allDistinct names then some (inside, ordinary) else none
      | _, _ => none

end DialectBench.Xml
