import Mathlib.Logic.Relation
import ViewBinding.Proofs.Round.Extension
import ViewBinding.Proofs.Round.Walking

/-!
# Enclosing classes

A nested class is named after the class that it lies in, so names get shorter on the way outwards.
That is why no class of a program lies in itself, whatever the files say about enclosing classes,
and why the name of a class spells out its package and the classes around it.
-/

namespace ViewBinding

/-- What is added to a simple name is added to the full name. -/
theorem Name.qualify_append (package s t : String) :
    Name.qualify package (s ++ t) = Name.qualify package s ++ t := by
  unfold Name.qualify
  split
  · rfl
  · rw [String.append_assoc, String.append_assoc, String.append_assoc]

namespace ClassDeclaration

variable {c : ClassDeclaration}

/-- A class that lies in a package is named by it and its simple name. -/
theorem canonicalName_of_package {package : String} (h : c.element.enclosing = .package package) :
    c.canonicalName = Name.qualify package c.name := by
  rw [package_of_enclosing_element h]
  unfold element at h
  unfold canonicalName
  cases ho : c.enclosingClass with
  | none => rfl
  | some outer =>
    rw [ho] at h
    exact nomatch h

/-- A class that lies in a class is named by that one's id and its simple name. -/
theorem canonicalName_of_type {outer : ClassId} (h : c.element.enclosing = .type outer) :
    c.canonicalName = outer ++ "." ++ c.name := by
  unfold element at h
  unfold canonicalName
  cases ho : c.enclosingClass with
  | none =>
    rw [ho] at h
    exact nomatch h
  | some id =>
    rw [ho] at h
    rw [← Enclosing.type.inj h]

end ClassDeclaration

namespace Program

section Naming

variable {cs : List ClassDeclaration} {c : ClassElement}

/-- The name of a nested class is longer than the id of the class that it lies in. -/
theorem length_lt_of_type (hc : c ∈ (ofDeclarations cs).classes) {outer : ClassId}
    (h : c.enclosing = .type outer) : outer.length < c.id.length := by
  obtain ⟨d, -, rfl⟩ := List.mem_map.mp hc
  have hid : d.element.id = outer ++ "." ++ d.name := ClassDeclaration.canonicalName_of_type h
  rw [hid, String.length_append, String.length_append]
  have hdot : ".".length = 1 := rfl
  omega

/-- The name of an enclosing class is shorter. -/
theorem length_lt_of_encloses {d : ClassElement} (hc : c ∈ (ofDeclarations cs).classes)
    (h : (ofDeclarations cs).round.Encloses d c) :
    d ∈ (ofDeclarations cs).classes ∧ d.id.length < c.id.length := by
  obtain ⟨outer, henclosing, hd⟩ := h
  exact ⟨mem_of_find? hd, id_of_find?_ofDeclarations hd ▸ length_lt_of_type hc henclosing⟩

/-- All names on the way outwards are shorter. -/
theorem length_lt_of_transGen {d : ClassElement} (hc : c ∈ (ofDeclarations cs).classes)
    (h : Relation.TransGen (ofDeclarations cs).round.Encloses d c) :
    d ∈ (ofDeclarations cs).classes ∧ d.id.length < c.id.length := by
  induction h with
  | single hencloses => exact length_lt_of_encloses hc hencloses
  | tail _ hencloses ih =>
    obtain ⟨hmem, hlt⟩ := length_lt_of_encloses hc hencloses
    obtain ⟨hd, hless⟩ := ih hmem
    exact ⟨hd, Nat.lt_trans hless hlt⟩

/-- The ids that were entered are no shorter than the name of the class that has been reached, so
none of them is entered again. -/
theorem not_loops_of_length_le {visited : List ClassId} (hc : c ∈ (ofDeclarations cs).classes)
    (hvisited : ∀ id ∈ visited, c.id.length ≤ id.length) :
    ¬(ofDeclarations cs).round.Loops visited c := by
  intro h
  induction h with
  | again henclosing hseen =>
    have hlt := length_lt_of_type hc henclosing
    exact absurd (hvisited _ hseen) (Nat.not_le.mpr hlt)
  | further henclosing _ hd _ ih =>
    have hlt := length_lt_of_type hc henclosing
    refine ih (mem_of_find? hd) fun id hin => ?_
    rw [id_of_find?_ofDeclarations hd]
    rcases List.mem_cons.mp hin with rfl | hin
    · exact Nat.le_refl _
    · exact Nat.le_trans (Nat.le_of_lt hlt) (hvisited id hin)

/-- The name of a class spells out its package and the classes around it. -/
theorem id_eq_of_liesIn {package : String} {names : List String}
    (hc : c ∈ (ofDeclarations cs).classes)
    (h : (ofDeclarations cs).round.LiesIn c package names) :
    c.id = Name.qualify package (Text.join '.' names) := by
  induction h with
  | package henclosing =>
    obtain ⟨d, -, rfl⟩ := List.mem_map.mp hc
    rw [Text.join_singleton]
    exact ClassDeclaration.canonicalName_of_package henclosing
  | @type c d package names hencloses hlies ih =>
    obtain ⟨outer, henclosing, hd⟩ := hencloses
    obtain ⟨e, -, rfl⟩ := List.mem_map.mp hc
    have hname : e.element.id = d.id ++ "." ++ e.name :=
      id_of_find?_ofDeclarations hd ▸ ClassDeclaration.canonicalName_of_type henclosing
    rw [hname, ih (mem_of_find? hd), Text.join_concat '.' hlies.ne_nil, Name.qualify_append,
      Name.qualify_append]
    rfl

/-- A class of a program has no package exactly if one of the ids on the way outwards is not
declared. -/
theorem packageOf?_eq_none_iff_missing (hc : c ∈ (ofDeclarations cs).classes) :
    (ofDeclarations cs).round.packageOf? c = none ↔
      ∃ id, (ofDeclarations cs).round.OnChain c id ∧ id ∉ cs.map (·.canonicalName) := by
  rw [Round.packageOf?_eq_none_iff, or_iff_right
    (not_loops_of_length_le hc fun _ hin => absurd hin List.not_mem_nil)]
  refine exists_congr fun id => and_congr_right fun _ => ?_
  rw [← isSome_find?_ofDeclarations, Option.not_isSome_iff_eq_none]
  exact Iff.rfl

end Naming

/-- The order of declarations makes no difference to the package of a class. -/
theorem packageOf?_ofDeclarations_of_perm {cs ds : List ClassDeclaration} (h : cs.Perm ds)
    (hnodup : (ds.map (·.canonicalName)).Nodup) (c : ClassElement) :
    (ofDeclarations cs).round.packageOf? c = (ofDeclarations ds).round.packageOf? c := by
  have hforth := extends_ofDeclarations h.subperm hnodup
  have hback := extends_ofDeclarations h.symm.subperm ((h.map _).nodup_iff.mpr hnodup)
  exact Option.ext fun package => ⟨hforth.packageOf?_eq, hback.packageOf?_eq⟩

end Program

/-- In a round of files that declare no class twice, no class lies in itself, by however many
classes between, and the walk to a package enters no id again. A class has no package exactly if one
of the ids on the way outwards is declared nowhere; if it has one, then the package and the simple
names of the classes from the outermost down to it make up its canonical name. None of this depends
on the order of the declarations, or on the files that they come from. -/
theorem packageOf?_ofFiles {files : List LoadedFile} {p : Program}
    (h : Program.ofFiles files = .ok p) :
    (∀ c ∈ p.classes, ¬Relation.TransGen p.round.Encloses c c) ∧
    (∀ c ∈ p.classes, ¬p.round.Loops [] c) ∧
    (∀ c ∈ p.classes, p.round.packageOf? c = none ↔
      ∃ id, p.round.OnChain c id ∧ id ∉ (declarations files).map (·.canonicalName)) ∧
    (∀ c ∈ p.classes, ∀ package, p.round.packageOf? c = some package →
      ∃ names, p.round.LiesIn c package names ∧
        c.id = Name.qualify package (Text.join '.' names)) ∧
    ∀ others, (declarations others).Perm (declarations files) →
      ∃ q, Program.ofFiles others = .ok q ∧
        ∀ c, q.round.packageOf? c = p.round.packageOf? c := by
  obtain ⟨hnodup, rfl⟩ := Program.ofFiles_eq_ok_iff.mp h
  refine ⟨?_, ?_, ?_, ?_, ?_⟩
  · intro c hc hcycle
    exact absurd (Program.length_lt_of_transGen hc hcycle).2 (Nat.lt_irrefl _)
  · exact fun c hc => Program.not_loops_of_length_le hc fun _ hin => absurd hin List.not_mem_nil
  · exact fun c hc => Program.packageOf?_eq_none_iff_missing hc
  · intro c hc package hpackage
    obtain ⟨names, hlies⟩ := Round.exists_liesIn_of_packageWithin hpackage
    exact ⟨names, hlies, Program.id_eq_of_liesIn hc hlies⟩
  · intro others hperm
    exact ⟨_, Program.ofFiles_eq_ok_iff.mpr ⟨(hperm.map _).nodup_iff.mpr hnodup, rfl⟩,
      Program.packageOf?_ofDeclarations_of_perm hperm hnodup⟩

/-- Classes within classes, the inner ones first and in other files, and one that lies in a class of
no file. -/
def scatteredFiles : List LoadedFile := [
  ⟨"leaf", ⟨[
    { name := "Leaf", enclosingClass := some "app.Shell.Screen" },
    { name := "Stray", enclosingClass := some "app.Gone" }]⟩⟩,
  ⟨"screen", ⟨[{ name := "Screen", enclosingClass := some "app.Shell" }]⟩⟩,
  ⟨"shell", ⟨[{ name := "Shell", package := some "app" }]⟩⟩]

/-- The innermost class is named by its package and the classes around it, and the one that lies in
an unknown class has no package, also when the files come in another order. -/
theorem packageOf?_scatteredFiles :
    ∃ p q, Program.ofFiles scatteredFiles = .ok p ∧
      Program.ofFiles scatteredFiles.reverse = .ok q ∧
      ∃ leaf ∈ p.classes, ∃ stray ∈ p.classes,
        (∃ names, p.round.LiesIn leaf "app" names ∧
          leaf.id = Name.qualify "app" (Text.join '.' names)) ∧
        q.round.packageOf? leaf = some "app" ∧ q.round.packageOf? stray = none := by
  have hp : Program.ofFiles scatteredFiles =
      .ok (Program.ofDeclarations (declarations scatteredFiles)) :=
    Program.ofFiles_eq_ok_iff.mpr ⟨by decide, rfl⟩
  obtain ⟨-, -, hmissing, hnamed, horder⟩ := packageOf?_ofFiles hp
  obtain ⟨q, hq, hsame⟩ := horder scatteredFiles.reverse
    ((List.reverse_perm scatteredFiles).flatMap_right _)
  let leaf : ClassElement := ⟨"app.Shell.Screen.Leaf", "Leaf", .type "app.Shell.Screen", none⟩
  let stray : ClassElement := ⟨"app.Gone.Stray", "Stray", .type "app.Gone", none⟩
  have hleaf : leaf ∈ (Program.ofDeclarations (declarations scatteredFiles)).classes := by
    decide
  have hstray : stray ∈ (Program.ofDeclarations (declarations scatteredFiles)).classes := by
    decide
  have hfound : (Program.ofDeclarations (declarations scatteredFiles)).round.packageOf? leaf =
      some "app" := by decide +kernel
  have hnone := (hmissing stray hstray).mpr ⟨"app.Gone", .next rfl, by decide⟩
  exact ⟨_, q, hp, hq, leaf, hleaf, stray, hstray, hnamed leaf hleaf "app" hfound,
    (hsame leaf).trans hfound, (hsame stray).trans hnone⟩

end ViewBinding
