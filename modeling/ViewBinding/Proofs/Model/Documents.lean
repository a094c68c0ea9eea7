import ViewBinding.Model.Document
import ViewBinding.Proofs.Json.Records
import ViewBinding.Proofs.Round.Acceptance

/-!
# The format of model files

A model file is accepted exactly if it has the documented form: objects with the known keys, each at
most once, values of their types, and names that generated sources can spell. What is read is then
what the members say, whatever their order, with lists in their order.
-/

namespace ViewBinding

open Json Json.Reader

section Forms

variable {ms : List (String × Value)}

/-- The members of a field: a name, a type and perhaps the id of a view. -/
@[mk_iff]
structure FieldDeclaration.DescribedBy (ms : List (String × Value)) (f : FieldDeclaration) :
    Prop where
  keys : ms.map Prod.fst ⊆ ["name", "type", "viewId"]
  once : (ms.map Prod.fst).Nodup
  name : ("name", .text f.name) ∈ ms
  declaredType : ("type", .text f.declaredType) ∈ ms
  viewId : OptionalMember Value.IsInt32 "viewId" ms f.viewId

/-- The members of a method: a name and perhaps the ids of views for each kind of listener. -/
@[mk_iff]
structure MethodDeclaration.DescribedBy (ms : List (String × Value)) (m : MethodDeclaration) :
    Prop where
  keys : ms.map Prod.fst ⊆ ["name", "onClick", "onLongClick"]
  once : (ms.map Prod.fst).Nodup
  name : ("name", .text m.name) ∈ ms
  onClick : OptionalMember (Value.IsList Value.IsInt32) "onClick" ms m.onClick
  onLongClick : OptionalMember (Value.IsList Value.IsInt32) "onLongClick" ms m.onLongClick

/-- The members of a class: a name, perhaps a place and the id of a layout, fields and methods. -/
@[mk_iff]
structure ClassDeclaration.DescribedBy (ms : List (String × Value)) (c : ClassDeclaration) :
    Prop where
  keys : ms.map Prod.fst ⊆
    ["name", "package", "enclosingClass", "contentView", "fields", "methods"]
  once : (ms.map Prod.fst).Nodup
  name : ("name", .text c.name) ∈ ms
  package : OptionalMember Value.IsText "package" ms c.package
  enclosingClass : OptionalMember Value.IsText "enclosingClass" ms c.enclosingClass
  contentView : OptionalMember Value.IsInt32 "contentView" ms c.contentView
  fields : ListedMember (Value.IsObject FieldDeclaration.DescribedBy) "fields" ms c.fields
  methods : ListedMember (Value.IsObject MethodDeclaration.DescribedBy) "methods" ms c.methods

/-- The members of a model file: its classes. -/
@[mk_iff]
structure ModelFile.DescribedBy (ms : List (String × Value)) (m : ModelFile) : Prop where
  keys : ms.map Prod.fst ⊆ ["classes"]
  once : (ms.map Prod.fst).Nodup
  classes : ListedMember (Value.IsObject ClassDeclaration.DescribedBy) "classes" ms m.classes

/-- A class whose place and names generated sources can spell. -/
structure ClassDeclaration.Spellable (c : ClassDeclaration) : Prop where
  name : Name.isIdentifier c.name = true
  onePlace : c.package = none ∨ c.enclosingClass = none
  package : ∀ package ∈ c.package, package ≠ "" → Name.isQualified package = true
  enclosingClass : ∀ outer ∈ c.enclosingClass, Name.isQualified outer = true
  fields : ∀ f ∈ c.fields,
    Name.isIdentifier f.name = true ∧ Name.isDeclaredType f.declaredType = true
  methods : ∀ m ∈ c.methods, Name.isIdentifier m.name = true

/-- A class has no fault exactly if it can be spelled. -/
theorem ClassDeclaration.fault?_eq_none_iff_spellable {c : ClassDeclaration} :
    c.fault? = none ↔ c.Spellable := by
  rw [ClassDeclaration.fault?_eq_none_iff]
  constructor
  · rintro ⟨hname, ⟨hpackage, houter⟩, hfields, hmethods⟩
    refine ⟨hname, ?_, fun package h hne => (hpackage package h).resolve_left hne,
      fun outer h => (houter outer h).2, hfields, hmethods⟩
    cases ho : c.enclosingClass with
    | none => exact .inr rfl
    | some outer => exact .inl (houter outer ho).1
  · rintro ⟨hname, hplace, hpackage, houter, hfields, hmethods⟩
    refine ⟨hname, ⟨fun package h => or_iff_not_imp_left.mpr (hpackage package h), fun outer h =>
      ⟨hplace.resolve_right fun hnone => ?_, houter outer h⟩⟩, hfields, hmethods⟩
    exact nomatch hnone.symm.trans h

end Forms

section Schemas

namespace FieldDeclaration

/-- The fields of a declared field. -/
def schema : Schema recordType where
  slots := [
    .mandatory "name" decodes_text name (fun v f => { f with name := v }) fun _ _ => rfl,
    .mandatory "type" decodes_text declaredType (fun v f => { f with declaredType := v })
      fun _ _ => rfl,
    .defaulted "viewId" (decodes_optional decodes_int32) viewId (fun v f => { f with viewId := v })
      fun _ _ => rfl]
  fields := rfl
  apart := by simp [Slot.apart_iff, Slot.mandatory, Slot.defaulted, Slot.kept, Slot.key]
  ext r r' h := by
    cases r
    cases r'
    simpa [Slot.mandatory, Slot.defaulted, Slot.kept] using h

/-- An object decodes to the field that its members describe. -/
theorem decode?_eq_some_iff (v : Value) (f : FieldDeclaration) :
    schema.decode? v = some f ↔ v.IsObject DescribedBy f := by
  have hdescribes : ∀ ms, schema.Describes ms f ↔ f.DescribedBy ms := by
    intro ms
    rw [Schema.describes_iff, describedBy_iff]
    simp only [schema, List.forall_mem_cons]
    exact .and .rfl <| .and .rfl <| .and Slot.holds_text_iff <| .and Slot.holds_text_iff <|
      (and_iff_left nofun).trans (Slot.holds_optional_iff Value.int32?_eq_some_iff rfl)
  simp only [schema.decode?_eq_some_iff, Value.IsObject, hdescribes]

end FieldDeclaration

namespace MethodDeclaration

/-- The fields of a declared method. -/
def schema : Schema recordType where
  slots := [
    .mandatory "name" decodes_text name (fun v m => { m with name := v }) fun _ _ => rfl,
    .defaulted "onClick" (decodes_optional (decodes_list decodes_int32)) onClick
      (fun v m => { m with onClick := v }) fun _ _ => rfl,
    .defaulted "onLongClick" (decodes_optional (decodes_list decodes_int32)) onLongClick
      (fun v m => { m with onLongClick := v }) fun _ _ => rfl]
  fields := rfl
  apart := by simp [Slot.apart_iff, Slot.mandatory, Slot.defaulted, Slot.kept, Slot.key]
  ext r r' h := by
    cases r
    cases r'
    simpa [Slot.mandatory, Slot.defaulted, Slot.kept] using h

/-- An object decodes to the method that its members describe. -/
theorem decode?_eq_some_iff (v : Value) (m : MethodDeclaration) :
    schema.decode? v = some m ↔ v.IsObject DescribedBy m := by
  have hids := Value.list?_eq_some_iff Value.int32?_eq_some_iff
  have hdescribes : ∀ ms, schema.Describes ms m ↔ m.DescribedBy ms := by
    intro ms
    rw [Schema.describes_iff, describedBy_iff]
    simp only [schema, List.forall_mem_cons]
    exact .and .rfl <| .and .rfl <| .and Slot.holds_text_iff <|
      .and (Slot.holds_optional_iff hids rfl) <|
      (and_iff_left nofun).trans (Slot.holds_optional_iff hids rfl)
  simp only [schema.decode?_eq_some_iff, Value.IsObject, hdescribes]

end MethodDeclaration

namespace ClassDeclaration

/-- The fields of a declared class. -/
def schema : Schema recordType where
  slots := [
    .mandatory "name" decodes_text name (fun v c => { c with name := v }) fun _ _ => rfl,
    .defaulted "package" (decodes_optional decodes_text) package
      (fun v c => { c with package := v }) fun _ _ => rfl,
    .defaulted "enclosingClass" (decodes_optional decodes_text) enclosingClass
      (fun v c => { c with enclosingClass := v }) fun _ _ => rfl,
    .defaulted "contentView" (decodes_optional decodes_int32) contentView
      (fun v c => { c with contentView := v }) fun _ _ => rfl,
    .defaulted "fields" (decodes_list FieldDeclaration.schema.decodes_read) fields
      (fun v c => { c with fields := v }) fun _ _ => rfl,
    .defaulted "methods" (decodes_list MethodDeclaration.schema.decodes_read) methods
      (fun v c => { c with methods := v }) fun _ _ => rfl]
  fields := rfl
  apart := by simp [Slot.apart_iff, Slot.mandatory, Slot.defaulted, Slot.kept, Slot.key]
  ext r r' h := by
    cases r
    cases r'
    simpa [Slot.mandatory, Slot.defaulted, Slot.kept] using h

/-- An object decodes to the class that its members describe. -/
theorem decode?_eq_some_iff (v : Value) (c : ClassDeclaration) :
    schema.decode? v = some c ↔ v.IsObject DescribedBy c := by
  have hdescribes : ∀ ms, schema.Describes ms c ↔ c.DescribedBy ms := by
    intro ms
    rw [Schema.describes_iff, describedBy_iff]
    simp only [schema, List.forall_mem_cons]
    exact .and .rfl <| .and .rfl <| .and Slot.holds_text_iff <|
      .and (Slot.holds_optional_iff Value.text?_eq_some_iff rfl) <|
      .and (Slot.holds_optional_iff Value.text?_eq_some_iff rfl) <|
      .and (Slot.holds_optional_iff Value.int32?_eq_some_iff rfl) <|
      .and (Slot.holds_listed_iff FieldDeclaration.decode?_eq_some_iff) <|
      (and_iff_left nofun).trans (Slot.holds_listed_iff MethodDeclaration.decode?_eq_some_iff)
  simp only [schema.decode?_eq_some_iff, Value.IsObject, hdescribes]

end ClassDeclaration

namespace ModelFile

/-- The fields of a model file. -/
def schema : Schema recordType where
  slots := [
    .defaulted "classes" (decodes_list ClassDeclaration.schema.decodes_read) classes
      (fun v m => { m with classes := v }) fun _ _ => rfl]
  fields := rfl
  apart := by simp
  ext r r' h := by
    cases r
    cases r'
    simpa [Slot.defaulted, Slot.kept] using h

/-- An object decodes to the model file that its members describe. -/
theorem decode?_eq_some_iff (v : Value) (m : ModelFile) :
    schema.decode? v = some m ↔ v.IsObject DescribedBy m := by
  have hdescribes : ∀ ms, schema.Describes ms m ↔ m.DescribedBy ms := by
    intro ms
    rw [Schema.describes_iff, describedBy_iff]
    simp only [schema, List.forall_mem_cons]
    exact .and .rfl <| .and .rfl <|
      (and_iff_left nofun).trans (Slot.holds_listed_iff ClassDeclaration.decode?_eq_some_iff)
  simp only [schema.decode?_eq_some_iff, Value.IsObject, hdescribes]

end ModelFile

end Schemas

section Entries

/-- The value is an object. -/
def MemberEntry (v : Value) : Prop := ∃ ms, v = .object ms

/-- The value is an object, and so are the items of its fields and methods. -/
def ClassEntry (v : Value) : Prop :=
  ∃ ms, v = .object ms ∧
    ∀ m ∈ ms, m.1 = "fields" ∨ m.1 = "methods" → m.2.ForItems MemberEntry

theorem MemberEntry.field {v : Value} (h : MemberEntry v) : FieldDeclaration.schema.Domain v := by
  obtain ⟨ms, rfl⟩ := h
  refine Schema.domain_object _ rfl fun m _ => ?_
  simp only [FieldDeclaration.schema, List.forall_mem_cons]
  exact ⟨fun _ => trivial, fun _ => trivial, fun _ => trivial, nofun⟩

theorem MemberEntry.method {v : Value} (h : MemberEntry v) :
    MethodDeclaration.schema.Domain v := by
  obtain ⟨ms, rfl⟩ := h
  refine Schema.domain_object _ rfl fun m _ => ?_
  simp only [MethodDeclaration.schema, List.forall_mem_cons]
  exact ⟨fun _ => trivial, fun _ _ _ _ _ => trivial, fun _ _ _ _ _ => trivial, nofun⟩

theorem ClassEntry.domain {v : Value} (h : ClassEntry v) : ClassDeclaration.schema.Domain v := by
  obtain ⟨ms, rfl, hmembers⟩ := h
  refine Schema.domain_object _ rfl fun m hm => ?_
  simp only [ClassDeclaration.schema, List.forall_mem_cons]
  exact ⟨fun _ => trivial, fun _ => trivial, fun _ => trivial, fun _ => trivial,
    fun hkey vs hvs v hv => (hmembers m hm (.inl hkey.symm) vs hvs v hv).field,
    fun hkey vs hvs v hv => (hmembers m hm (.inr hkey.symm) vs hvs v hv).method, nofun⟩

end Entries

/-- A model file is accepted if its document decodes and no name has a fault. -/
theorem ModelFile.parse_eq_ok_iff {content : String} {m : ModelFile} :
    ModelFile.parse content = .ok m ↔
      decode ModelFile.recordType.read content = .ok m ∧ m.fault? = none := by
  unfold ModelFile.parse
  cases decode ModelFile.recordType.read content with
  | error e => simp
  | ok d =>
    cases hfault : d.fault? with
    | some fault =>
      simp only [hfault, Except.ok.injEq, reduceCtorEq, false_iff, not_and]
      rintro rfl hnone
      exact nomatch hnone.symm.trans hfault
    | none =>
      simp only [hfault, Except.ok.injEq]
      exact ⟨fun h => ⟨h, h ▸ hfault⟩, And.left⟩

/-- A document whose root, classes, fields and methods are objects is accepted as a model file
exactly if its members describe that file and its names can be spelled. -/
theorem parse_documented {content : String} {ms : List (String × Value)}
    (hcontent : DocumentSpelled content (.object ms))
    (hentries : ∀ m ∈ ms, m.1 = "classes" → m.2.ForItems ClassEntry) {m : ModelFile} :
    ModelFile.parse content = .ok m ↔ m.DescribedBy ms ∧ ∀ c ∈ m.classes, c.Spellable := by
  have hdomain : ModelFile.schema.Domain (.object ms) := by
    refine Schema.domain_object _ rfl fun k hk => ?_
    simp only [ModelFile.schema, List.forall_mem_cons]
    exact ⟨fun hkey vs hvs v hv => (hentries k hk hkey.symm vs hvs v hv).domain, nofun⟩
  have hdescribed : (Value.object ms).IsObject ModelFile.DescribedBy m ↔ m.DescribedBy ms := by
    simp [Value.IsObject]
  have hnames : m.fault? = none ↔ ∀ c ∈ m.classes, c.Spellable := by
    simp only [ModelFile.fault?, List.findSome?_eq_none_iff,
      ClassDeclaration.fault?_eq_none_iff_spellable]
  rw [ModelFile.parse_eq_ok_iff, decode_eq_ok_iff ModelFile.schema.decodes_read hcontent
    hdomain, ModelFile.decode?_eq_some_iff, hdescribed, hnames]

section Example

/-- A class with a marked field, without a package. -/
def titledClass : String :=
  "\x7b\"classes\":[\x7b\"package\":null, \"fields\":[\x7b\"type\":\"Text\", \"viewId\":7, " ++
    "\"name\":\"title\"\x7d], \"name\":\"Main\"\x7d]\x7d"

/-- The members of its field. -/
def titleMembers : List (String × Value) :=
  [("type", .text "Text"), ("viewId", .number (.integer 7)), ("name", .text "title")]

/-- The members of the class. -/
def titledClassMembers : List (String × Value) :=
  [("package", .null), ("fields", .list [.object titleMembers]), ("name", .text "Main")]

/-- A member is spelled without blanks if its key has nothing to escape. -/
theorem memberSpelled_of_isUnescaped {k : String} {cs : List Char} {v : Value} (h : Spelled cs v)
    (hk : isUnescaped k = true) :
    MemberSpelled Spelled ('"' :: k.toList ++ ['"'] ++ [] ++ ':' :: [] ++ cs) (k, v) :=
  .mk (textSpelled_of_isUnescaped hk) .nil .nil h

theorem titledClass_spelled :
    DocumentSpelled titledClass (.object [("classes", .list [.object titledClassMembers])]) := by
  have hspace : IsBlank [' '] := by simp [IsBlank, isBlank]
  have hwhole : IsWhole ['7'] := ⟨⟨by simp, by simp⟩, by simp⟩
  have hseven : NumberSpelled (writtenSign false ++ ['7']) (.integer 7) := .integer hwhole rfl
  have htext : ∀ {s : String}, isUnescaped s = true →
      Spelled ('"' :: s.toList ++ ['"']) (.text s) := fun h => .text (textSpelled_of_isUnescaped h)
  have htype := memberSpelled_of_isUnescaped (k := "type") (htext (s := "Text") (by decide))
    (by decide)
  have hview := memberSpelled_of_isUnescaped (k := "viewId") (.number hseven) (by decide)
  have htitle := memberSpelled_of_isUnescaped (k := "name") (htext (s := "title") (by decide))
    (by decide)
  have hfield := Spelled.object .nil
    (.cons htype .nil hspace (.cons hview .nil hspace (.one htitle .nil)))
  have hpackage := memberSpelled_of_isUnescaped (k := "package") .null (by decide)
  have hfields := memberSpelled_of_isUnescaped (k := "fields") (.list .nil (.one hfield .nil))
    (by decide)
  have hname := memberSpelled_of_isUnescaped (k := "name") (htext (s := "Main") (by decide))
    (by decide)
  have hclass := Spelled.object .nil
    (.cons hpackage .nil hspace (.cons hfields .nil hspace (.one hname .nil)))
  have hclasses := memberSpelled_of_isUnescaped (k := "classes") (.list .nil (.one hclass .nil))
    (by decide)
  exact .mk .nil (.object .nil (.one hclasses .nil)) .nil (by decide)

/-- The class is read with its field. -/
theorem parse_documented_titledClass : ∃ ms, DocumentSpelled titledClass (.object ms) ∧
    (∀ m ∈ ms, m.1 = "classes" → m.2.ForItems ClassEntry) ∧
      ModelFile.parse titledClass =
        .ok ⟨[{ name := "Main", fields := [⟨"title", "Text", some 7⟩] }]⟩ := by
  have hclass : ClassEntry (.object titledClassMembers) := by
    refine ⟨_, rfl, ?_⟩
    simp [titledClassMembers, Value.ForItems, MemberEntry]
  have hentries : ∀ m ∈ [("classes", Value.list [.object titledClassMembers])],
      m.1 = "classes" → m.2.ForItems ClassEntry := by
    rintro m hm - vs hvs v hv
    obtain rfl := List.mem_singleton.mp hm
    obtain rfl := Value.list.inj hvs
    obtain rfl := List.mem_singleton.mp hv
    exact hclass
  have hfield : FieldDeclaration.DescribedBy titleMembers ⟨"title", "Text", some 7⟩ := {
    keys := by simp [titleMembers]
    once := by simp [titleMembers]
    name := by simp [titleMembers]
    declaredType := by simp [titleMembers]
    viewId := .present (v := .number (.integer 7)) (by simp [titleMembers]) ⟨rfl, by decide⟩ }
  have hmembers : ClassDeclaration.DescribedBy titledClassMembers
      { name := "Main", fields := [⟨"title", "Text", some 7⟩] } := {
    keys := by simp [titledClassMembers]
    once := by simp [titledClassMembers]
    name := by simp [titledClassMembers]
    package := .null (by simp [titledClassMembers])
    enclosingClass := .absent (by simp [titledClassMembers])
    contentView := .absent (by simp [titledClassMembers])
    fields := .present (v := .list [.object titleMembers]) (by simp [titledClassMembers])
      ⟨_, rfl, .cons ⟨_, rfl, hfield⟩ .nil⟩
    methods := .absent (by simp [titledClassMembers]) }
  refine ⟨_, titledClass_spelled, hentries,
    (parse_documented titledClass_spelled hentries).mpr ⟨⟨by simp, by simp, ?_⟩, ?_⟩⟩
  · exact .present (List.mem_singleton.mpr rfl) ⟨_, rfl, .cons ⟨_, rfl, hmembers⟩ .nil⟩
  · intro c hc
    obtain rfl := List.mem_singleton.mp hc
    refine ⟨by decide +kernel, .inl rfl, nofun, nofun, fun f hf => ?_, nofun⟩
    obtain rfl := List.mem_singleton.mp hf
    decide +kernel

end Example

end ViewBinding
