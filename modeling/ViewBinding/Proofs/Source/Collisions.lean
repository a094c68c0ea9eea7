import Mathlib.Data.List.Forall2
import ViewBinding.Proofs.Round.Enclosing
import ViewBinding.Proofs.Source.Isolation

/-!
# Collisions of artifact names

An artifact is named by the package of its owner and the owner's simple name. A simple name holds no
dot, so both can be read off the artifact's name, and two artifacts collide only if both agree. For
top-level owners these two make up the canonical name, which no two classes share; so a collision
takes a nested owner, and without nested owners every binding is written.
-/

namespace ViewBinding

open Name Text

/-- Does the class lie in another class? -/
def ClassElement.IsNested (c : ClassElement) : Prop := ∃ outer, c.enclosing = .type outer

/-- A class lies in a package if it is not nested. -/
theorem ClassElement.exists_package {c : ClassElement} (h : ¬c.IsNested) :
    ∃ package, c.enclosing = .package package := by
  cases hc : c.enclosing with
  | package name => exact ⟨name, rfl⟩
  | type outer => exact absurd ⟨outer, hc⟩ h

/-- The last piece of a full name is the simple name. -/
theorem Name.split_qualify {package simpleName : String} (h : '.' ∉ simpleName.toList) :
    split '.' (qualify package simpleName) =
      (if package = "" then [] else split '.' package) ++ [simpleName] := by
  unfold qualify
  by_cases hp : package = ""
  · rw [if_pos (by simp [hp]), if_pos hp, split_of_notMem h, List.nil_append]
  · have hpieces : split '.' (package ++ "." ++ simpleName) =
        split '.' package ++ split '.' simpleName := split_append '.' package simpleName
    rw [if_neg (by simpa using hp), if_neg hp, hpieces, split_of_notMem h]

/-- Full names with simple names that hold no dot are the same only part by part. -/
theorem Name.qualify_inj {package other s t : String} (hs : '.' ∉ s.toList) (ht : '.' ∉ t.toList) :
    qualify package s = qualify other t ↔ package = other ∧ s = t := by
  constructor
  · intro h
    have hpieces := congrArg (split '.') h
    rw [split_qualify hs, split_qualify ht] at hpieces
    obtain ⟨hfront, hlast⟩ := List.append_inj' hpieces rfl
    refine ⟨?_, List.head_eq_of_cons_eq hlast⟩
    by_cases hp : package = "" <;> by_cases ho : other = ""
    · rw [hp, ho]
    · rw [if_pos hp, if_neg ho] at hfront
      exact absurd hfront.symm (split_ne_nil '.' other)
    · rw [if_neg hp, if_pos ho] at hfront
      exact absurd hfront (split_ne_nil '.' package)
    · rw [if_neg hp, if_neg ho] at hfront
      rw [← join_split '.' package, hfront, join_split]
  · rintro ⟨rfl, rfl⟩
    rfl

/-- The name of a binding class holds no dot, as that of its owner. -/
theorem Binding.dot_notMem_className {b : Binding} (h : isIdentifier b.owner.simpleName = true) :
    '.' ∉ b.className.toList :=
  notMem_of_forall (by decide) (isPart_of_mem_identifier
    (isIdentifier_append h (isPart_of_mem_identifier (by decide))))

/-- Two bindings are filed under one name exactly if their packages and the simple names of their
owners agree. -/
theorem Binding.qualifiedName_eq_iff {b other : Binding}
    (hb : isIdentifier b.owner.simpleName = true)
    (hother : isIdentifier other.owner.simpleName = true) {package place : String} :
    (b.source package).qualifiedName = (other.source place).qualifiedName ↔
      package = place ∧ b.owner.simpleName = other.owner.simpleName := by
  have hnames : (b.source package).qualifiedName = (other.source place).qualifiedName ↔
      package = place ∧ b.className = other.className :=
    qualify_inj (dot_notMem_className hb) (dot_notMem_className hother)
  rwa [className, className, String.append_left_inj] at hnames

/-- A source is one of its binding, in the package that the round finds. -/
theorem Round.source_eq_ok_iff {round : Round} {b : Binding} {s : Source} :
    round.source b = .ok s ↔
      ∃ package, round.packageOf? b.owner = some package ∧ b.source package = s := by
  unfold source
  cases round.packageOf? b.owner <;> simp

/-- The binding of a top-level owner has a source. -/
theorem Round.exists_source_of_topLevel (round : Round) {b : Binding} (h : ¬b.owner.IsNested) :
    ∃ s, round.source b = .ok s := by
  obtain ⟨package, hplace⟩ := ClassElement.exists_package h
  exact ⟨_, source_eq_ok_iff.mpr ⟨package, round.packageWithin_package hplace _ _, rfl⟩⟩

/-- The file that a source fills: its name and its text. -/
def Source.file (s : Source) : String × Content := (s.qualifiedName, .ofText s.text)

/-- These are the sources of the bindings, one for each. -/
def Round.Renders (round : Round) : List Binding → List Source → Prop :=
  List.Forall₂ fun b s => round.source b = .ok s

section Rendering

variable {round : Round} {bs : List Binding}

/-- Bindings that each have a source are rendered. -/
theorem Round.exists_renders (h : ∀ b ∈ bs, ∃ s, round.source b = .ok s) :
    ∃ sources, round.Renders bs sources := by
  induction bs with
  | nil => exact ⟨[], .nil⟩
  | cons b bs ih =>
    obtain ⟨s, hs⟩ := h b (List.mem_cons_self ..)
    obtain ⟨sources, hsources⟩ := ih fun c hc => h c (List.mem_cons_of_mem _ hc)
    exact ⟨s :: sources, .cons hs hsources⟩

/-- Sources have the names by which a report speaks of their bindings. -/
theorem Round.Renders.names_eq {sources : List Source} (h : round.Renders bs sources) :
    sources.map (·.qualifiedName) = bs.map round.artifact := by
  induction h with
  | nil => rfl
  | cons hs _ ih =>
    rw [List.map_cons, List.map_cons, ih, Round.artifact, Round.filedName?_of_source hs,
      Option.getD_some]

/-- A source whose name is free is written, behind the files that are there. -/
theorem MemoryFiles.emitOne_of_free {b : Binding} {s : Source} (hs : round.source b = .ok s)
    {m : MemoryFiles} (hfree : s.qualifiedName ∉ m.files.keys) :
    filer.emitOne round b m = (.ok s.qualifiedName, ⟨m.files ++ [s.file]⟩) := by
  have hnone : ¬(m.get? s.qualifiedName).isSome = true := mt Table.isSome_get?.mp hfree
  rw [Filer.emitOne_of_source filer hs, store_eq, if_neg hnone, Table.insert_insert,
    Table.insert_of_notMem hfree]
  rfl

/-- Sources with different free names are all written, each to a file of its own. -/
theorem MemoryFiles.emit_of_distinct {sources : List Source} (h : round.Renders bs sources)
    {m : MemoryFiles} (hdistinct : (m.files.keys ++ sources.map (·.qualifiedName)).Nodup) :
    filer.emit round bs m =
      (⟨sources.map (·.qualifiedName), []⟩, ⟨m.files ++ sources.map Source.file⟩) := by
  induction h generalizing m with
  | nil => simp
  | @cons b s bs sources hs _ ih =>
    rw [List.map_cons] at hdistinct
    have hfree : s.qualifiedName ∉ m.files.keys := fun hin =>
      (List.nodup_append.mp hdistinct).2.2 _ hin _ (List.mem_cons_self ..) rfl
    have hkeys : Table.keys (m.files ++ [s.file]) = m.files.keys ++ [s.qualifiedName] :=
      List.map_append
    have hrest : (Table.keys (m.files ++ [s.file]) ++
        sources.map (·.qualifiedName)).Nodup := by
      rw [hkeys, List.append_assoc]
      exact hdistinct
    rw [Filer.emit_cons, emitOne_of_free hs hfree, ih hrest, List.append_assoc]
    rfl

end Rendering

namespace Program

variable {cs : List ClassDeclaration} (hnodup : (cs.map (·.canonicalName)).Nodup)

include hnodup

/-- The owner of a binding is declared, with a content view. -/
theorem exists_declaration_of_mem_bindings {b : Binding}
    (hb : b ∈ (ofDeclarations cs).round.collect.bindings) :
    ∃ c ∈ cs, c.binding? = some b ∧ c.element = b.owner ∧ c.contentView = some b.layoutId := by
  rw [bindings_collect_ofDeclarations hnodup] at hb
  obtain ⟨c, hc, hsome⟩ := List.mem_filterMap.mp hb
  obtain ⟨layoutId, hview, rfl⟩ := Option.map_eq_some_iff.mp hsome
  exact ⟨c, hc, hsome, rfl, hview⟩

/-- The owner of a binding is among the classes with a content view. -/
theorem owner_mem_contentViewClasses {b : Binding}
    (hb : b ∈ (ofDeclarations cs).round.collect.bindings) :
    b.owner ∈ (ofDeclarations cs).round.contentViewClasses := by
  obtain ⟨c, hc, -, howner, hview⟩ := exists_declaration_of_mem_bindings hnodup hb
  have hmarked : c.element.contentView.isSome = true := by
    rw [show c.element.contentView = some b.layoutId from hview]
    rfl
  exact howner ▸ List.mem_filter.mpr ⟨List.mem_map_of_mem hc, hmarked⟩

/-- Bindings of top-level owners with the same package and simple name are the same. -/
theorem binding_eq_of_topLevel {b other : Binding}
    (hb : b ∈ (ofDeclarations cs).round.collect.bindings)
    (hother : other ∈ (ofDeclarations cs).round.collect.bindings) {package : String}
    (hplace : b.owner.enclosing = .package package)
    (hsame : other.owner.enclosing = .package package)
    (hname : b.owner.simpleName = other.owner.simpleName) : b = other := by
  refine List.inj_on_of_nodup_map (nodup_owners_ofDeclarations hnodup) hb hother ?_
  obtain ⟨c, -, -, hc, -⟩ := exists_declaration_of_mem_bindings hnodup hb
  obtain ⟨d, -, -, hd, -⟩ := exists_declaration_of_mem_bindings hnodup hother
  rw [← hc] at hplace hname
  rw [← hd] at hsame hname
  have hid : c.canonicalName = d.canonicalName := by
    rw [ClassDeclaration.canonicalName_of_package hplace,
      ClassDeclaration.canonicalName_of_package hsame, show c.name = d.name from hname]
  rw [← hc, ← hd]
  exact hid

end Program

section Accepted

variable {files : List LoadedFile} (haccepted : Accepted files) {p : Program}
  (hp : Program.ofFiles files = .ok p)

include haccepted hp

section Bindings

variable {b other : Binding} (hb : b ∈ p.round.collect.bindings)

include hb

/-- In a round of accepted files, the simple name of an owner is an identifier. -/
theorem Accepted.isIdentifier_simpleName : isIdentifier b.owner.simpleName = true := by
  obtain ⟨hnodup, rfl⟩ := Program.ofFiles_eq_ok_iff.mp hp
  obtain ⟨c, hc, -, howner, -⟩ := Program.exists_declaration_of_mem_bindings hnodup hb
  rw [← howner]
  exact (ClassDeclaration.fault?_eq_none_iff.mp (haccepted.fault?_eq_none hc)).1

variable (hother : other ∈ p.round.collect.bindings)

include hother

/-- In a round of accepted files, two sources have one name exactly if the packages and the simple
names of their owners agree. -/
theorem Accepted.qualifiedName_eq_iff {s t : Source} (hs : p.round.source b = .ok s)
    (ht : p.round.source other = .ok t) :
    s.qualifiedName = t.qualifiedName ↔
      p.round.packageOf? b.owner = p.round.packageOf? other.owner ∧
        b.owner.simpleName = other.owner.simpleName := by
  obtain ⟨package, hpackage, rfl⟩ := Round.source_eq_ok_iff.mp hs
  obtain ⟨place, hplace, rfl⟩ := Round.source_eq_ok_iff.mp ht
  rw [Binding.qualifiedName_eq_iff (haccepted.isIdentifier_simpleName hp hb)
    (haccepted.isIdentifier_simpleName hp hother), hpackage, hplace, Option.some.injEq]

/-- In a round of accepted files, sources of top-level owners have different names. -/
theorem Accepted.eq_of_qualifiedName_eq (htop : ¬b.owner.IsNested) (htop' : ¬other.owner.IsNested)
    {s t : Source} (hs : p.round.source b = .ok s) (ht : p.round.source other = .ok t)
    (hname : s.qualifiedName = t.qualifiedName) : b = other := by
  obtain ⟨hpackage, hsimple⟩ := (haccepted.qualifiedName_eq_iff hp hb hother hs ht).mp hname
  obtain ⟨package, hplace⟩ := ClassElement.exists_package htop
  obtain ⟨place, hplace'⟩ := ClassElement.exists_package htop'
  unfold Round.packageOf? at hpackage
  rw [Round.packageWithin_package _ hplace, Round.packageWithin_package _ hplace'] at hpackage
  obtain rfl := Option.some.inj hpackage
  obtain ⟨hnodup, rfl⟩ := Program.ofFiles_eq_ok_iff.mp hp
  exact Program.binding_eq_of_topLevel hnodup hb hother hplace hplace' hsimple

end Bindings

/-- In a round of accepted files without nested owners, every artifact has a name of its own. -/
theorem Accepted.nodup_artifacts (htop : ∀ b ∈ p.round.collect.bindings, ¬b.owner.IsNested) :
    (p.round.collect.bindings.map p.round.artifact).Nodup := by
  have hbindings : p.round.collect.bindings.Nodup := by
    obtain ⟨hnodup, rfl⟩ := Program.ofFiles_eq_ok_iff.mp hp
    exact (Program.nodup_owners_ofDeclarations hnodup).of_map _
  refine hbindings.map_on fun b hb other hother hname => ?_
  obtain ⟨s, hs⟩ := p.round.exists_source_of_topLevel (htop b hb)
  obtain ⟨t, ht⟩ := p.round.exists_source_of_topLevel (htop other hother)
  rw [Round.artifact, Round.artifact, Round.filedName?_of_source hs, Round.filedName?_of_source ht,
    Option.getD_some, Option.getD_some] at hname
  exact haccepted.eq_of_qualifiedName_eq hp hb hother (htop b hb) (htop other hother) hs ht hname

end Accepted

/-- In a round of accepted files, names of artifacts collide only when they must. Two bindings whose
packages are found are filed under one name exactly if these packages and the simple names of their
owners agree, and for different bindings this takes a nested owner. If no class with a content view
is nested, then an emission to memory writes every binding, and leaves one file for each. -/
theorem collisions_ofFiles {files : List LoadedFile} (haccepted : Accepted files) {p : Program}
    (hp : Program.ofFiles files = .ok p) :
    let bindings := p.round.collect.bindings
    (∀ b ∈ bindings, ∀ other ∈ bindings, ∀ s t, p.round.source b = .ok s →
      p.round.source other = .ok t →
      (s.qualifiedName = t.qualifiedName ↔
        p.round.packageOf? b.owner = p.round.packageOf? other.owner ∧
          b.owner.simpleName = other.owner.simpleName)) ∧
    (∀ b ∈ bindings, ∀ other ∈ bindings, b ≠ other → ∀ s t, p.round.source b = .ok s →
      p.round.source other = .ok t → s.qualifiedName = t.qualifiedName →
      b.owner.IsNested ∨ other.owner.IsNested) ∧
    ((∀ c ∈ p.round.contentViewClasses, ¬c.IsNested) →
      ∃ sources, p.round.Renders bindings sources ∧
        (sources.map (·.qualifiedName)).Nodup ∧
        MemoryFiles.filer.emit p.round bindings {} =
          (⟨sources.map (·.qualifiedName), []⟩, ⟨sources.map Source.file⟩)) := by
  intro bindings
  refine ⟨?_, ?_, ?_⟩
  · exact fun b hb other hother s t hs ht =>
      haccepted.qualifiedName_eq_iff hp hb hother hs ht
  · intro b hb other hother hne s t hs ht hname
    by_contra htop
    rw [not_or] at htop
    exact hne (haccepted.eq_of_qualifiedName_eq hp hb hother htop.1 htop.2 hs ht hname)
  · intro htop
    have htopLevel : ∀ b ∈ bindings, ¬b.owner.IsNested := by
      intro b hb
      obtain ⟨hnodup, rfl⟩ := Program.ofFiles_eq_ok_iff.mp hp
      exact htop _ (Program.owner_mem_contentViewClasses hnodup hb)
    obtain ⟨sources, hsources⟩ := Round.exists_renders fun b hb =>
      Round.exists_source_of_topLevel p.round (htopLevel b hb)
    have hnames : (sources.map (·.qualifiedName)).Nodup := by
      rw [hsources.names_eq]
      exact haccepted.nodup_artifacts hp htopLevel
    exact ⟨sources, hsources, hnames, MemoryFiles.emit_of_distinct hsources hnames⟩

/-- Top-level classes of one simple name in three packages, one of them unnamed. -/
def topLevelFiles : List LoadedFile := [
  ⟨"main", ⟨[
    { name := "Main", package := some "app", contentView := some 1 },
    { name := "Main", contentView := some 2 }]⟩⟩,
  ⟨"more", ⟨[{ name := "Main", package := some "app.more", contentView := some 3 }]⟩⟩]

/-- A class and one with the same simple name that is nested in a class of the same package. -/
def shadowedFiles : List LoadedFile := [
  ⟨"main", ⟨[
    { name := "Main", package := some "app", contentView := some 1 },
    { name := "Shell", package := some "app" }]⟩⟩,
  ⟨"inner", ⟨[{ name := "Main", enclosingClass := some "app.Shell", contentView := some 2 }]⟩⟩]

/-- The nested class collides with the other one of its name, and top-level classes in different
packages do not. -/
theorem collisions_shadowedFiles :
    (∃ p, Program.ofFiles shadowedFiles = .ok p ∧
      ∃ b ∈ p.round.collect.bindings, ∃ other ∈ p.round.collect.bindings, ∃ s t,
        b ≠ other ∧ p.round.source b = .ok s ∧ p.round.source other = .ok t ∧
        s.qualifiedName = t.qualifiedName ∧ (b.owner.IsNested ∨ other.owner.IsNested)) ∧
    ∃ p, Program.ofFiles topLevelFiles = .ok p ∧
      ∃ sources, p.round.Renders p.round.collect.bindings sources ∧
        (sources.map (·.qualifiedName)).Nodup ∧
        MemoryFiles.filer.emit p.round p.round.collect.bindings {} =
          (⟨sources.map (·.qualifiedName), []⟩, ⟨sources.map Source.file⟩) := by
  constructor
  · have haccepted : Accepted shadowedFiles := by
      unfold Accepted
      decide
    have hp : Program.ofFiles shadowedFiles =
        .ok (Program.ofDeclarations (declarations shadowedFiles)) :=
      Program.ofFiles_eq_ok_iff.mpr ⟨by decide, rfl⟩
    obtain ⟨hnames, hnested, -⟩ := collisions_ofFiles haccepted hp
    let round := (Program.ofDeclarations (declarations shadowedFiles)).round
    have hpair : ∃ b ∈ round.collect.bindings, ∃ other ∈ round.collect.bindings, b ≠ other ∧
        round.packageOf? b.owner = some "app" ∧ round.packageOf? other.owner = some "app" ∧
        b.owner.simpleName = other.owner.simpleName := by decide +kernel
    obtain ⟨b, hb, other, hother, hne, hplace, hplace', hsimple⟩ := hpair
    have hs := Round.source_eq_ok_iff.mpr ⟨"app", hplace, rfl⟩
    have ht := Round.source_eq_ok_iff.mpr ⟨"app", hplace', rfl⟩
    have hname := (hnames b hb other hother _ _ hs ht).mpr ⟨hplace.trans hplace'.symm, hsimple⟩
    exact ⟨_, hp, b, hb, other, hother, _, _, hne, hs, ht, hname,
      hnested b hb other hother hne _ _ hs ht hname⟩
  · have haccepted : Accepted topLevelFiles := by
      unfold Accepted
      decide
    have hp : Program.ofFiles topLevelFiles =
        .ok (Program.ofDeclarations (declarations topLevelFiles)) :=
      Program.ofFiles_eq_ok_iff.mpr ⟨by decide, rfl⟩
    refine ⟨_, hp, (collisions_ofFiles haccepted hp).2.2 ?_⟩
    rintro c hc ⟨outer, hplace⟩
    have hpackages : ∀ c ∈ (Program.ofDeclarations (declarations topLevelFiles)).classes,
        c.enclosing = .package "app" ∨ c.enclosing = .package "" ∨
          c.enclosing = .package "app.more" := by decide
    rcases hpackages c (List.mem_filter.mp hc).1 with h | h | h
    · exact nomatch hplace.symm.trans h
    · exact nomatch hplace.symm.trans h
    · exact nomatch hplace.symm.trans h

end ViewBinding
