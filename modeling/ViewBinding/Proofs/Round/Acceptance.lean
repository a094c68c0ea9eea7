import ViewBinding.Proofs.Name.Spelling
import ViewBinding.Proofs.Round.Regrouping
import ViewBinding.Source.Generated

/-!
# Accepted files

A model file is accepted if none of its names has a fault. Then every name that its declarations
lead to satisfies the spelling rules: the canonical names of the classes, the packages that they
lie in, and all names in the bindings of the round.
-/

namespace ViewBinding

open Text Name

/-- A binding whose names satisfy the spelling rules, in a package whose name does. -/
structure Binding.Spelled (b : Binding) (package : String) : Prop where
  package : package = "" ∨ isQualified package = true
  owner : isQualified b.owner.id = true
  simpleName : isIdentifier b.owner.simpleName = true
  viewFields : ∀ f ∈ b.viewFields,
    isIdentifier f.field.name = true ∧ isDeclaredType f.field.declaredType = true
  clicks : ∀ l ∈ b.clicks, isIdentifier l.method.name = true
  longClicks : ∀ l ∈ b.longClicks, isIdentifier l.method.name = true

/-- A spelled binding is filed under a dotted name. -/
theorem Binding.Spelled.isQualified_qualifiedName {b : Binding} {package : String}
    (h : b.Spelled package) : isQualified (b.source package).qualifiedName = true :=
  isQualified_qualify h.package
    (isIdentifier_append h.simpleName (isPart_of_mem_identifier (by decide)))

theorem faultUnless_eq_none_iff {condition : Bool} {fault : NameFault} :
    faultUnless condition fault = none ↔ condition = true := by
  cases condition <;> simp [faultUnless]

/-- A field is accepted exactly if its name and its type are spelled. -/
theorem FieldDeclaration.fault?_eq_none_iff {owner : String} {f : FieldDeclaration} :
    f.fault? owner = none ↔ isIdentifier f.name = true ∧ isDeclaredType f.declaredType = true := by
  simp [fault?, faultUnless_eq_none_iff]

/-- A method is accepted exactly if its name is spelled. -/
theorem MethodDeclaration.fault?_eq_none_iff {owner : String} {m : MethodDeclaration} :
    m.fault? owner = none ↔ isIdentifier m.name = true := faultUnless_eq_none_iff

namespace ClassDeclaration

/-- A class in a place that it may name. -/
def Placed (c : ClassDeclaration) : Prop :=
  (∀ package ∈ c.package, package = "" ∨ isQualified package = true) ∧
    ∀ outer ∈ c.enclosingClass, c.package = none ∧ isQualified outer = true

/-- A place is accepted exactly if it is one, and is spelled. -/
theorem placeFault?_eq_none_iff {c : ClassDeclaration} : c.placeFault? = none ↔ c.Placed := by
  cases hp : c.package <;> cases ho : c.enclosingClass <;>
    simp [placeFault?, Placed, hp, ho, faultUnless_eq_none_iff]

/-- A class is accepted exactly if its name, its place and its members are. -/
theorem fault?_eq_none_iff {c : ClassDeclaration} : c.fault? = none ↔
    isIdentifier c.name = true ∧ c.Placed ∧
      (∀ f ∈ c.fields, isIdentifier f.name = true ∧ isDeclaredType f.declaredType = true) ∧
      ∀ m ∈ c.methods, isIdentifier m.name = true := by
  simp [fault?, faultUnless_eq_none_iff, placeFault?_eq_none_iff,
    FieldDeclaration.fault?_eq_none_iff, MethodDeclaration.fault?_eq_none_iff]

/-- A package of an accepted class is unnamed or a dotted name. -/
theorem Placed.package_getD {c : ClassDeclaration} (h : c.Placed) :
    c.package.getD "" = "" ∨ isQualified (c.package.getD "") = true := by
  cases hp : c.package with
  | none => exact .inl rfl
  | some package => exact h.1 package hp

/-- The canonical name of an accepted class is a dotted name. -/
theorem isQualified_canonicalName {c : ClassDeclaration} (h : c.fault? = none) :
    isQualified c.canonicalName = true := by
  obtain ⟨hname, hplace, -, -⟩ := fault?_eq_none_iff.mp h
  unfold canonicalName
  cases ho : c.enclosingClass with
  | none => exact isQualified_qualify hplace.package_getD hname
  | some outer => exact isQualified_append (hplace.2 outer ho).2 hname

/-- The names in the binding of an accepted class are spelled. -/
theorem spelled_of_binding? {c : ClassDeclaration} (h : c.fault? = none) {b : Binding}
    (hb : c.binding? = some b) {package : String}
    (hpackage : package = "" ∨ isQualified package = true) : b.Spelled package := by
  obtain ⟨hname, -, hfields, hmethods⟩ := fault?_eq_none_iff.mp h
  obtain ⟨layoutId, -, rfl⟩ := Option.map_eq_some_iff.mp hb
  refine ⟨hpackage, isQualified_canonicalName h, hname, ?_, ?_, ?_⟩
  · intro f hf
    obtain ⟨d, hd, hsome⟩ := List.mem_filterMap.mp hf
    obtain ⟨id, -, rfl⟩ := Option.map_eq_some_iff.mp hsome
    exact hfields d hd
  · intro l hl
    obtain ⟨d, hd, hsome⟩ := List.mem_filterMap.mp hl
    obtain ⟨ids, -, rfl⟩ := Option.map_eq_some_iff.mp hsome
    exact hmethods d hd
  · intro l hl
    obtain ⟨d, hd, hsome⟩ := List.mem_filterMap.mp hl
    obtain ⟨ids, -, rfl⟩ := Option.map_eq_some_iff.mp hsome
    exact hmethods d hd

/-- A class that lies in a package names it. -/
theorem package_of_enclosing_element {c : ClassDeclaration} {package : String}
    (h : c.element.enclosing = .package package) : package = c.package.getD "" := by
  unfold element at h
  cases ho : c.enclosingClass with
  | none =>
    rw [ho] at h
    exact (Enclosing.package.inj h).symm
  | some outer =>
    rw [ho] at h
    exact nomatch h

end ClassDeclaration

namespace Round

variable (round : Round) {c : ClassElement}

/-- A class that lies in a package has been walked to. -/
theorem packageWithin_package {name : String} (h : c.enclosing = .package name) (steps : Nat)
    (visited : List ClassId) : round.packageWithin steps visited c = some name := by
  unfold packageWithin
  rw [h]

/-- Without steps left, no class is walked to. -/
theorem packageWithin_type_zero {outer : ClassId} (h : c.enclosing = .type outer)
    (visited : List ClassId) : round.packageWithin 0 visited c = none := by
  unfold packageWithin
  rw [h]

/-- A step walks to the enclosing class, unless its id was visited. -/
theorem packageWithin_type_succ {outer : ClassId} (h : c.enclosing = .type outer) (steps : Nat)
    (visited : List ClassId) : round.packageWithin (steps + 1) visited c =
      if outer ∈ visited then none
      else (round.find? outer).bind (round.packageWithin steps (outer :: visited)) := by
  conv_lhs => unfold packageWithin
  rw [h]

/-- A package that is found is that of the class itself or of a class of the round. -/
theorem exists_enclosing_of_packageWithin {steps : Nat} {visited : List ClassId}
    {package : String} (h : round.packageWithin steps visited c = some package) :
    ∃ d, (d = c ∨ d ∈ round.classes) ∧ d.enclosing = .package package := by
  induction steps generalizing visited c with
  | zero =>
    cases hc : c.enclosing with
    | package name =>
      obtain rfl : name = package := by simpa [round.packageWithin_package hc] using h
      exact ⟨c, .inl rfl, hc⟩
    | type outer => simp [round.packageWithin_type_zero hc] at h
  | succ steps ih =>
    cases hc : c.enclosing with
    | package name =>
      obtain rfl : name = package := by simpa [round.packageWithin_package hc] using h
      exact ⟨c, .inl rfl, hc⟩
    | type outer =>
      rw [round.packageWithin_type_succ hc] at h
      by_cases hseen : outer ∈ visited
      · rw [if_pos hseen] at h
        exact nomatch h
      · rw [if_neg hseen] at h
        obtain ⟨d, hd, hrest⟩ := Option.bind_eq_some_iff.mp h
        obtain ⟨e, he, henclosing⟩ := ih hrest
        refine ⟨e, .inr ?_, henclosing⟩
        rcases he with rfl | hin
        · exact round.mem_of_find? hd
        · exact hin

end Round

/-- All names of these files can be spelled. -/
def Accepted (files : List LoadedFile) : Prop := ∀ f ∈ files, f.model.fault? = none

/-- Every declaration of accepted files is accepted. -/
theorem Accepted.fault?_eq_none {files : List LoadedFile} (h : Accepted files)
    {c : ClassDeclaration} (hc : c ∈ declarations files) : c.fault? = none := by
  obtain ⟨f, hf, hin⟩ := List.mem_flatMap.mp hc
  exact List.findSome?_eq_none_iff.mp (h f hf) c hin

/-- In a round of accepted files, a binding in its package is spelled. -/
theorem Accepted.spelled {files : List LoadedFile} (h : Accepted files) {p : Program}
    (hp : Program.ofFiles files = .ok p) {b : Binding} (hb : b ∈ p.round.collect.bindings)
    {package : String} (hpackage : p.round.packageOf? b.owner = some package) :
    b.Spelled package := by
  obtain ⟨hnodup, rfl⟩ := Program.ofFiles_eq_ok_iff.mp hp
  rw [Program.bindings_collect_ofDeclarations hnodup] at hb
  obtain ⟨c, hc, hsome⟩ := List.mem_filterMap.mp hb
  have howner : b.owner = c.element := by
    obtain ⟨layoutId, -, rfl⟩ := Option.map_eq_some_iff.mp hsome
    rfl
  obtain ⟨d, hd, henclosing⟩ := Round.exists_enclosing_of_packageWithin _ hpackage
  have hdeclared : ∃ e ∈ declarations files, e.element = d := by
    rcases hd with rfl | hin
    · exact ⟨c, hc, howner.symm⟩
    · exact List.mem_map.mp (Program.classes_ofDeclarations _ ▸ hin)
  obtain ⟨e, he, rfl⟩ := hdeclared
  have hplace := (ClassDeclaration.fault?_eq_none_iff.mp (h.fault?_eq_none he)).2.1
  have hspelled := hplace.package_getD
  rw [← ClassDeclaration.package_of_enclosing_element henclosing] at hspelled
  exact ClassDeclaration.spelled_of_binding? (h.fault?_eq_none hc) hsome hspelled

end ViewBinding
