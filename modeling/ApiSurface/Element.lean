import ApiSurface.Fault

/-!
Elements of an API surface: packages, types and members. An element is named by its path, which is
its own kind and name followed by those of the elements around it.
-/

namespace ApiSurface

inductive Kind
  | package
  | classType
  | interfaceType
  | method
  | field
  deriving DecidableEq

namespace Kind

def all : List Kind := [.package, .classType, .interfaceType, .method, .field]

def word : Kind → Text
  | .package => "package"
  | .classType => "class"
  | .interfaceType => "interface"
  | .method => "method"
  | .field => "field"

def label : Kind → Text
  | .package => "PACKAGE"
  | .classType => "CLASS"
  | .interfaceType => "INTERFACE"
  | .method => "METHOD"
  | .field => "FIELD"

def ofWord? (word : Text) : Option Kind := all.find? (·.word == word)

def order : Kind → Nat
  | .package => 0
  | .classType => 1
  | .interfaceType => 2
  | .method => 3
  | .field => 4

def isMember : Kind → Bool
  | .method | .field => true
  | _ => false

def isType : Kind → Bool
  | .classType | .interfaceType => true
  | _ => false

end Kind

inductive Obligation
  | mandatory
  | optional
  | conditional
  deriving DecidableEq

namespace Obligation

def all : List Obligation := [.mandatory, .optional, .conditional]

def word : Obligation → Text
  | .mandatory => "mandatory"
  | .optional => "optional"
  | .conditional => "conditional"

def ofWord? (word : Text) : Option Obligation := all.find? (·.word == word)

def label : Obligation → Text
  | .mandatory => "MANDATORY"
  | .optional => "OPTIONAL"
  | .conditional => "CONDITIONAL"

end Obligation

structure Step where
  kind : Kind
  name : Text
  deriving DecidableEq

/-- The steps from an element outwards. The empty path stands for the absence of a container. Data may
be too deep to be read, but paths may be of any length: that comparing very long ones could take up a
stack is left out. -/
abbrev Path := List Step

namespace Path

def name? (path : Path) : Option Text := path.head?.map Step.name

def stepKey (step : Step) : Text := Text.ofNat step.kind.order ++ ":" ++ step.name

def sortKey (path : Path) : List Text := (path.map stepKey).reverse

def shown : Path → Text
  | [] => []
  | [step] => step.kind.word ++ " " ++ step.name
  | step :: outer :: _ => step.kind.word ++ " " ++ outer.name ++ "." ++ step.name

end Path

structure Draft where
  kind : Kind
  name : Text
  container : Path := []
  /-- The name of the property in the governing standard. -/
  identifier : Option Text := none
  /-- The type of a field, the result of a method, the parent of a type. -/
  declaredType : Option Text := none
  obligation : Option Obligation := none
  isPublic : Bool := true
  isDeprecated : Bool := false
  deriving DecidableEq

/-- An element has a name, and a member stands inside something. -/
structure Element extends Draft where
  named : name ≠ []
  housed : kind.isMember = true → container ≠ []
  deriving DecidableEq

def Draft.check (draft : Draft) : Except Fault Element :=
  if named : draft.name ≠ [] then
    if housed : draft.kind.isMember = true → draft.container ≠ [] then
      .ok { draft with named, housed }
    else .error (.invalidElement draft.name (draft.kind.word ++ " without container"))
  else .error (.invalidElement draft.name.quoted "empty name")

structure SortKey where
  order : Nat
  container : Text
  name : Text
  chain : List Text
  deriving DecidableEq, Ord

namespace Element

def identity (element : Element) : Path := ⟨element.kind, element.name⟩ :: element.container

def containerName? (element : Element) : Option Text := element.container.name?

def sortKey (element : Element) : SortKey where
  order := element.kind.order
  container := element.containerName?.getD []
  name := element.name
  chain := element.container.sortKey

def precedes (left right : Element) : Bool := (compare left.sortKey right.sortKey).isLE

end Element

end ApiSurface
