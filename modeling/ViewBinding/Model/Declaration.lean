import ViewBinding.Name

/-!
# Declarations

What a model file declares: classes with their fields and methods and the markers on them. A class
lies in a package or in another class, never both, and every name must be one that the generated
source can spell.
-/

namespace ViewBinding

/-- The numeric id of a layout or a view. -/
abbrev ResourceId := Int

/-- A field of a declared class; marked when it has a view id. -/
structure FieldDeclaration where
  name : String
  declaredType : String
  viewId : Option ResourceId := none
  deriving DecidableEq, Repr

/-- A method of a declared class; each kind of listener is marked by a list of view ids. -/
structure MethodDeclaration where
  name : String
  onClick : Option (List ResourceId) := none
  onLongClick : Option (List ResourceId) := none
  deriving DecidableEq, Repr

/-- A declared class; marked when it has a layout id. -/
structure ClassDeclaration where
  name : String
  package : Option String := none
  enclosingClass : Option String := none
  contentView : Option ResourceId := none
  fields : List FieldDeclaration := []
  methods : List MethodDeclaration := []
  deriving DecidableEq, Repr

/-- The declarations of one model file, in the order of the file. -/
structure ModelFile where
  classes : List ClassDeclaration := []
  deriving DecidableEq, Repr

/-- A name in a model file that generated sources cannot spell, or a class placed twice. -/
inductive NameFault where
  | className (name : String)
  | placedTwice (owner : String)
  | package (name : String)
  | enclosingClass (name : String)
  | fieldName (owner name : String)
  | fieldType (owner field declaredType : String)
  | methodName (owner name : String)
  deriving DecidableEq, Repr

namespace NameFault

/-- The complaint about one name, shown as it is written. -/
def invalid (what name : String) : String := "Invalid " ++ what ++ ": \"" ++ name ++ "\""

/-- The text of the complaint; that of a member starts with the place it is in. -/
def message : NameFault → String
  | className name => invalid "class name" name
  | placedTwice owner => "Class '" ++ owner ++ "' declares both 'package' and 'enclosingClass'"
  | package name => invalid "package" name
  | enclosingClass name => invalid "enclosingClass" name
  | fieldName owner name => "in class '" ++ owner ++ "': " ++ invalid "field name" name
  | fieldType owner field declaredType =>
    "in field '" ++ owner ++ "." ++ field ++ "': " ++ invalid "field type" declaredType
  | methodName owner name => "in class '" ++ owner ++ "': " ++ invalid "method name" name

end NameFault

/-- A fault unless the condition holds. -/
def faultUnless (condition : Bool) (fault : NameFault) : Option NameFault :=
  if condition then none else some fault

/-- The first fault of a field: its name, then its type. -/
def FieldDeclaration.fault? (owner : String) (f : FieldDeclaration) : Option NameFault :=
  faultUnless (Name.isIdentifier f.name) (.fieldName owner f.name) <|>
  faultUnless (Name.isDeclaredType f.declaredType) (.fieldType owner f.name f.declaredType)

/-- The fault of a method's name. -/
def MethodDeclaration.fault? (owner : String) (m : MethodDeclaration) : Option NameFault :=
  faultUnless (Name.isIdentifier m.name) (.methodName owner m.name)

namespace ClassDeclaration

/-- The fault of a class's place: two places, or a place with no proper name. -/
def placeFault? (c : ClassDeclaration) : Option NameFault :=
  match c.package, c.enclosingClass with
  | some _, some _ => some (.placedTwice c.name)
  | some package, none =>
    faultUnless (package.isEmpty || Name.isQualified package) (.package package)
  | none, some outer => faultUnless (Name.isQualified outer) (.enclosingClass outer)
  | none, none => none

/-- The first fault of a class: its name, its place, its fields, its methods. -/
def fault? (c : ClassDeclaration) : Option NameFault :=
  faultUnless (Name.isIdentifier c.name) (.className c.name) <|>
  c.placeFault? <|>
  c.fields.findSome? (·.fault? c.name) <|>
  c.methods.findSome? (·.fault? c.name)

/-- The name by which the rest of the round knows the class. A nested class names its outer class
in full, so the name never depends on other declarations. -/
def canonicalName (c : ClassDeclaration) : String :=
  match c.enclosingClass with
  | some outer => outer ++ "." ++ c.name
  | none => Name.qualify (c.package.getD "") c.name

end ClassDeclaration

/-- The first fault of a model file, in the order of the file. -/
def ModelFile.fault? (m : ModelFile) : Option NameFault := m.classes.findSome? (·.fault?)

end ViewBinding
