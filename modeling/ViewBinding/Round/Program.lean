import ViewBinding.Round.Element
import ViewBinding.Table

/-!
# The program of a round

All model files of a run make one program. Flattening keeps files and declarations in order and
gives every class its canonical name, which no other class of the round may have. Where a class
stands among the others is kept under its name, so that it is found again.
-/

namespace ViewBinding

/-- A model file and the path that it was loaded from. -/
structure LoadedFile where
  path : String
  model : ModelFile
  deriving DecidableEq, Repr

/-- A canonical name that is declared again, and the path of the file that repeats it. -/
structure DuplicateClass where
  id : ClassId
  path : String
  deriving DecidableEq, Repr

/-- The complaint about a class that is declared twice. -/
def DuplicateClass.message (d : DuplicateClass) : String :=
  "Class '" ++ d.id ++ "' is declared more than once (again in " ++ d.path ++ ")"

/-- All elements of a round, in discovery order. -/
structure Program where
  classes : List ClassElement := []
  fields : List FieldElement := []
  methods : List MethodElement := []
  /-- The positions of the classes, under their ids. -/
  index : Table ClassId Nat := []
  deriving DecidableEq, Repr

namespace ClassDeclaration

/-- The class as an element of its round. -/
def element (c : ClassDeclaration) : ClassElement where
  id := c.canonicalName
  simpleName := c.name
  enclosing :=
    match c.enclosingClass with
    | some outer => .type outer
    | none => .package (c.package.getD "")
  contentView := c.contentView

/-- The fields of the class as elements that know their class. -/
def fieldElements (c : ClassDeclaration) : List FieldElement :=
  c.fields.map fun f => ⟨f.name, c.canonicalName, f.declaredType, f.viewId⟩

/-- The methods of the class as elements that know their class. -/
def methodElements (c : ClassDeclaration) : List MethodElement :=
  c.methods.map fun m => ⟨m.name, c.canonicalName, m.onClick, m.onLongClick⟩

end ClassDeclaration

namespace Program

/-- The class with an id. -/
def find? (p : Program) (id : ClassId) : Option ClassElement :=
  (p.index.get? id).bind (p.classes[·]?)

/-- A look-up finds a class of the program. -/
theorem mem_of_find? {p : Program} {id : ClassId} {c : ClassElement} (h : p.find? id = some c) :
    c ∈ p.classes := by
  obtain ⟨i, -, hi⟩ := Option.bind_eq_some_iff.mp h
  exact List.mem_of_getElem? hi

/-- Add a declaration of the file at `path`, unless its name is taken. -/
def add (p : Program) (path : String) (c : ClassDeclaration) : Except DuplicateClass Program :=
  if (p.index.get? c.canonicalName).isSome then .error ⟨c.canonicalName, path⟩
  else .ok {
    classes := p.classes ++ [c.element]
    fields := p.fields ++ c.fieldElements
    methods := p.methods ++ c.methodElements
    index := p.index.insert c.canonicalName p.classes.length }

/-- Flatten the declarations of all files, in order; a name that is declared twice fails the
round. An enclosing class that no file declares is kept as written. -/
def ofFiles (files : List LoadedFile) : Except DuplicateClass Program :=
  (files.flatMap fun f => f.model.classes.map (f.path, ·)).foldlM
    (fun p (path, c) => p.add path c) {}

/-- The program as the collector sees it: of each kind, the elements that carry the marker. -/
def round (p : Program) : Round where
  contentViewClasses := p.classes.filter (·.contentView.isSome)
  viewIdFields := p.fields.filter (·.viewId.isSome)
  clickMethods := p.methods.filter (·.onClick.isSome)
  longClickMethods := p.methods.filter (·.onLongClick.isSome)
  classes := p.classes
  find? := p.find?
  mem_of_find? := mem_of_find?

end Program

end ViewBinding
