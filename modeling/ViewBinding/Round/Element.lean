import ViewBinding.Model.Declaration

/-!
# Elements of a round

A round is what one run looks at: classes, fields and methods with their markers, each member
knowing the class it lies in. The collector and the renderer see a round only through four lists
and a look-up of classes, so any host can stand behind it.

The package of a class is found by walking outwards from class to enclosing class. A look-up
answers only with classes of the round, of which there are finitely many, so the walk is bounded.
-/

namespace ViewBinding

/-- The identity of a class in a round: its canonical name. -/
abbrev ClassId := String

/-- The markers that the generator knows. -/
inductive Marker where
  | contentView
  | viewId
  | onClick
  | onLongClick
  deriving DecidableEq, Repr

/-- The word for a marker in messages. -/
def Marker.label : Marker → String
  | contentView => "content-view"
  | viewId => "view-id"
  | onClick => "on-click"
  | onLongClick => "on-long-click"

/-- What directly encloses a class: a package for a top-level class, else another class. -/
inductive Enclosing where
  | package (name : String)
  | type (id : ClassId)
  deriving DecidableEq, Repr

/-- A class of a round. -/
structure ClassElement where
  id : ClassId
  simpleName : String
  enclosing : Enclosing
  contentView : Option ResourceId
  deriving DecidableEq, Repr

/-- A field of a round and the class it lies in. -/
structure FieldElement where
  name : String
  owner : ClassId
  declaredType : String
  viewId : Option ResourceId
  deriving DecidableEq, Repr

/-- A method of a round and the class it lies in. -/
structure MethodElement where
  name : String
  owner : ClassId
  onClick : Option (List ResourceId)
  onLongClick : Option (List ResourceId)
  deriving DecidableEq, Repr

/-- What the generator may ask of a round. The lists are in discovery order. -/
structure Round where
  /-- Classes offered as carrying a content view. -/
  contentViewClasses : List ClassElement
  /-- Fields offered as carrying a view id. -/
  viewIdFields : List FieldElement
  /-- Methods offered as carrying click ids. -/
  clickMethods : List MethodElement
  /-- Methods offered as carrying long-click ids. -/
  longClickMethods : List MethodElement
  /-- Every class that a look-up can answer with. -/
  classes : List ClassElement
  /-- The class with an id. -/
  find? : ClassId → Option ClassElement
  /-- A look-up answers only with classes of the round. -/
  mem_of_find? : ∀ {id c}, find? id = some c → c ∈ classes

namespace Round

/-- Walk outwards for at most `steps` classes, never entering an id twice. -/
def packageWithin (round : Round) : Nat → List ClassId → ClassElement → Option String
  | steps, visited, c =>
    match c.enclosing, steps with
    | .package name, _ => some name
    | .type _, 0 => none
    | .type outer, steps + 1 =>
      if outer ∈ visited then none
      else (round.find? outer).bind (round.packageWithin steps (outer :: visited))

/-- The package that ultimately encloses a class. There is none if the chain of enclosing classes
leaves the round or comes back to itself. A chain that does neither enters each class of the round
at most once, so the bound is never what ends it. -/
def packageOf? (round : Round) (c : ClassElement) : Option String :=
  round.packageWithin (round.classes.length + 1) [] c

end Round

end ViewBinding
