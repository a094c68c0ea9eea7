import ViewBinding.Proofs.Name.Languages
import ViewBinding.Proofs.Round.Extension
import ViewBinding.Proofs.Round.Walking
import ViewBinding.Proofs.Source.DryRun

/-!
# Names that rounds build

A round makes names from those in its files: a class is known by its package or its enclosing class
and its simple name, and a source is filed under the package that the walk outwards finds and the
name of the binding class. All of them are dotted names again. So a class of any round can enclose a
class of another file, and what is filed has no character that a path or a source could misread.
-/

namespace ViewBinding

open Name Text

namespace ClassDeclaration

/-- The class with another one as its place. -/
def within (d : ClassDeclaration) (outer : ClassId) : ClassDeclaration :=
  { d with package := none, enclosingClass := some outer }

variable {d : ClassDeclaration} {outer : ClassId}

theorem canonicalName_within : (d.within outer).canonicalName = outer ++ "." ++ d.name := rfl

theorem enclosing_within : (d.within outer).element.enclosing = .type outer := rfl

/-- An accepted class may be placed in a class with a dotted name. -/
theorem fault?_within (h : d.fault? = none) (houter : isQualified outer = true) :
    (d.within outer).fault? = none := by
  obtain ⟨hname, -, hmembers⟩ := fault?_eq_none_iff.mp h
  apply fault?_eq_none_iff.mpr
  refine ⟨hname, ⟨?_, ?_⟩, hmembers⟩
  · intro package hpackage
    exact absurd hpackage (by simp [within])
  · intro id hid
    obtain rfl : outer = id := by simpa [within] using hid
    exact ⟨rfl, houter⟩

end ClassDeclaration

/-- A file that declares a class within another one. -/
def fileWithin (path : String) (d : ClassDeclaration) (outer : ClassId) : LoadedFile :=
  ⟨path, ⟨[d.within outer]⟩⟩

/-- A file more declares one class more. -/
theorem declarations_concat_fileWithin (files : List LoadedFile) (path : String)
    (d : ClassDeclaration) (outer : ClassId) :
    declarations (files ++ [fileWithin path d outer]) = declarations files ++ [d.within outer] := by
  simp [declarations, fileWithin]

section Rounds

variable {files : List LoadedFile} {p : Program} (hp : Program.ofFiles files = .ok p)

include hp

/-- In a round of accepted files, the id of a class is a dotted name. -/
theorem Accepted.isQualified_id (haccepted : Accepted files) {c : ClassElement}
    (hc : c ∈ p.classes) : isQualified c.id = true := by
  obtain ⟨-, rfl⟩ := Program.ofFiles_eq_ok_iff.mp hp
  obtain ⟨d, hd, rfl⟩ := List.mem_map.mp hc
  exact ClassDeclaration.isQualified_canonicalName (haccepted.fault?_eq_none hd)

/-- Accepted files stay so with one more that names a class of their round. -/
theorem Accepted.concat_fileWithin (haccepted : Accepted files) {c : ClassElement}
    (hc : c ∈ p.classes) {d : ClassDeclaration} (hd : d.fault? = none) (path : String) :
    Accepted (files ++ [fileWithin path d c.id]) := by
  intro f hf
  rcases List.mem_append.mp hf with hin | hlast
  · exact haccepted f hin
  · rw [List.mem_singleton.mp hlast]
    apply List.findSome?_eq_none_iff.mpr
    intro e he
    rw [List.mem_singleton.mp he]
    exact ClassDeclaration.fault?_within hd (haccepted.isQualified_id hp hc)

/-- A class of a round encloses the one that one more file places in it, if its name is free. -/
theorem Program.encloses_of_concat_fileWithin {c : ClassElement} (hc : c ∈ p.classes)
    {d : ClassDeclaration} (hfree : c.id ++ "." ++ d.name ∉ p.classes.map (·.id)) (path : String) :
    ∃ q, Program.ofFiles (files ++ [fileWithin path d c.id]) = .ok q ∧
      q.round.Encloses c (d.within c.id).element := by
  obtain ⟨hnodup, rfl⟩ := Program.ofFiles_eq_ok_iff.mp hp
  rw [ids_ofDeclarations] at hfree
  -- distinct names stay distinct with the free one, so the look-up still finds the class by its id
  have hmore : ((declarations files ++ [d.within c.id]).map (·.canonicalName)).Nodup := by
    rw [List.map_append, List.nodup_append']
    refine ⟨hnodup, List.nodup_singleton _, ?_⟩
    rw [List.map_singleton, ClassDeclaration.canonicalName_within]
    exact List.disjoint_singleton.mpr hfree
  obtain ⟨e, he, rfl⟩ := List.mem_map.mp hc
  refine ⟨_, Program.ofFiles_eq_ok_iff.mpr ⟨?_, rfl⟩, e.canonicalName,
    ClassDeclaration.enclosing_within, ?_⟩
  · rwa [declarations_concat_fileWithin]
  · rw [declarations_concat_fileWithin]
    apply (find?_ofDeclarations_eq_some_iff hmore).mpr
    exact ⟨e, List.mem_append_left _ he, rfl, rfl⟩

end Rounds

/-- The names that rounds build are dotted names. Identifiers and dotted names are two regular
languages, and a text is a dotted name exactly if all its pieces between dots are identifiers. In a
round of accepted files the id of each class is a dotted name: a further file that places an
accepted class in it is accepted, and makes a round in which it encloses that class, unless the name
of that class is taken. And each source that is rendered is filed under a dotted name, which has no
characters but letters, numbers, `_`, `$` and dots. -/
theorem dottedNames_closed :
    (∀ s : String, (isIdentifier s = true ↔ s.toList ∈ identifiers) ∧
      (isQualified s = true ↔ s.toList ∈ dottedNames) ∧
      (isQualified s = true ↔ ∀ piece ∈ split '.' s, isIdentifier piece = true)) ∧
    ∀ files, Accepted files → ∀ p, Program.ofFiles files = .ok p →
      (∀ c ∈ p.classes, isQualified c.id = true ∧
        ∀ (path : String) (d : ClassDeclaration), d.fault? = none →
          Accepted (files ++ [fileWithin path d c.id]) ∧
          (c.id ++ "." ++ d.name ∉ p.classes.map (·.id) →
            ∃ q, Program.ofFiles (files ++ [fileWithin path d c.id]) = .ok q ∧
              q.round.Encloses c (d.within c.id).element)) ∧
      ∀ b ∈ p.round.collect.bindings, ∀ s, p.round.source b = .ok s →
        isQualified s.qualifiedName = true ∧
        ∀ a ∈ s.qualifiedName.toList, isLetter a = true ∨ isNumber a = true ∨ a = '_' ∨ a = '$' ∨
          a = '.' := by
  refine ⟨fun s => ⟨isIdentifier_iff_mem, isQualified_iff_mem, isQualified_iff_split⟩, ?_⟩
  intro files haccepted p hp
  constructor
  · intro c hc
    refine ⟨haccepted.isQualified_id hp hc, fun path d hd => ?_⟩
    exact ⟨haccepted.concat_fileWithin hp hc hd path,
      fun hfree => Program.encloses_of_concat_fileWithin hp hc hfree path⟩
  · intro b hb s hs
    have hname := haccepted.isQualified_qualifiedName hp hb hs
    refine ⟨hname, fun a ha => ?_⟩
    exact isDottedPart_iff.mp (isDottedPart_of_mem_qualified hname a ha)

/-- A class of the unnamed package, one that lies in it, and one of a named package. -/
def unnamedFiles : List LoadedFile := [
  ⟨"tiles", ⟨[
    { name := "Café", contentView := some 1 },
    { name := "Tile²", enclosingClass := some "Café", contentView := some 2 },
    { name := "Main", package := some "app.ui", contentView := some 3 }]⟩⟩]

/-- A class that can be placed elsewhere. -/
def rowDeclaration : ClassDeclaration := { name := "Row", package := some "app.ui" }

/-- The nested class of the unnamed package has a dotted name and may enclose the class of a further
file, and its source is filed under a name without dots. An empty piece makes a text no dotted
name. -/
theorem dottedNames_closed_unnamedFiles :
    ¬isQualified "Café..Tile²" = true ∧
    ∃ p, Program.ofFiles unnamedFiles = .ok p ∧
      (∃ c ∈ p.classes, c.id = "Café.Tile²" ∧ isQualified c.id = true ∧
        Accepted (unnamedFiles ++ [fileWithin "rows" rowDeclaration c.id]) ∧
        ∃ q, Program.ofFiles (unnamedFiles ++ [fileWithin "rows" rowDeclaration c.id]) = .ok q ∧
          q.round.Encloses c (rowDeclaration.within c.id).element) ∧
      ∃ b ∈ p.round.collect.bindings, ∃ s, p.round.source b = .ok s ∧
        s.qualifiedName = "Tile²_ViewBinding" ∧ isQualified s.qualifiedName = true ∧
        ∀ a ∈ s.qualifiedName.toList, isLetter a = true ∨ isNumber a = true ∨ a = '_' ∨ a = '$' ∨
          a = '.' := by
  obtain ⟨hnames, hrounds⟩ := dottedNames_closed
  have haccepted : Accepted unnamedFiles := by
    unfold Accepted
    decide
  have hp : Program.ofFiles unnamedFiles =
      .ok (Program.ofDeclarations (declarations unnamedFiles)) :=
    Program.ofFiles_eq_ok_iff.mpr ⟨by decide, rfl⟩
  obtain ⟨hclasses, hsources⟩ := hrounds unnamedFiles haccepted _ hp
  refine ⟨?_, _, hp, ?_, ?_⟩
  · intro hqualified
    have hempty := (hnames "Café..Tile²").2.2.mp hqualified "" (by decide)
    exact absurd hempty (by decide)
  · let c : ClassElement := ⟨"Café.Tile²", "Tile²", .type "Café", some 2⟩
    have hc : c ∈ (Program.ofDeclarations (declarations unnamedFiles)).classes := by decide
    obtain ⟨hid, hnested⟩ := hclasses c hc
    obtain ⟨hmore, hencloses⟩ := hnested "rows" rowDeclaration (by decide)
    exact ⟨c, hc, rfl, hid, hmore, hencloses (by decide)⟩
  · let round := (Program.ofDeclarations (declarations unnamedFiles)).round
    have htile : ∃ b ∈ round.collect.bindings, round.packageOf? b.owner = some "" ∧
        (b.source "").qualifiedName = "Tile²_ViewBinding" := by decide +kernel
    obtain ⟨b, hb, hpackage, hname⟩ := htile
    have hs : round.source b = .ok (b.source "") := by rw [Round.source, hpackage]
    obtain ⟨hqualified, hchars⟩ := hsources b hb _ hs
    exact ⟨b, hb, _, hs, hname, hqualified, hchars⟩

end ViewBinding
