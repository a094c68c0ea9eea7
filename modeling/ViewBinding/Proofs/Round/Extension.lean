import Mathlib.Data.List.Flatten
import Mathlib.Data.List.Perm.Subperm
import ViewBinding.Proofs.Round.Acceptance
import ViewBinding.Source.Emission

/-!
# Extending a round

What is generated for a declaration depends on that declaration and on the classes around it. So
files may be split, reordered and added to: as long as no declaration is taken away and the round
still has no class twice, each binding, each marker set aside and each source stays what it was.
-/

namespace ViewBinding

namespace Round

/-- A round that answers every look-up as another one does, where that has an answer. -/
structure Extends (larger smaller : Round) : Prop where
  find? : ∀ {id c}, smaller.find? id = some c → larger.find? id = some c
  length_le : smaller.classes.length ≤ larger.classes.length

variable {larger smaller : Round} {c : ClassElement}

/-- A package that is found in so many steps is found in an extension, with as many steps or
more. -/
theorem Extends.packageWithin_eq (h : larger.Extends smaller) {steps more : Nat}
    (hsteps : steps ≤ more) {visited : List ClassId} {package : String}
    (hfound : smaller.packageWithin steps visited c = some package) :
    larger.packageWithin more visited c = some package := by
  induction steps generalizing more visited c with
  | zero =>
    cases hc : c.enclosing with
    | package name =>
      rw [smaller.packageWithin_package hc] at hfound
      rw [larger.packageWithin_package hc, hfound]
    | type outer =>
      rw [smaller.packageWithin_type_zero hc] at hfound
      exact nomatch hfound
  | succ steps ih =>
    cases hc : c.enclosing with
    | package name =>
      rw [smaller.packageWithin_package hc] at hfound
      rw [larger.packageWithin_package hc, hfound]
    | type outer =>
      obtain ⟨more, rfl⟩ : ∃ n, more = n + 1 := ⟨more - 1, by omega⟩
      rw [smaller.packageWithin_type_succ hc] at hfound
      rw [larger.packageWithin_type_succ hc]
      by_cases hseen : outer ∈ visited
      · rw [if_pos hseen] at hfound
        exact nomatch hfound
      · rw [if_neg hseen] at hfound ⊢
        obtain ⟨d, hd, hrest⟩ := Option.bind_eq_some_iff.mp hfound
        exact Option.bind_eq_some_iff.mpr ⟨d, h.find? hd, ih (by omega) hrest⟩

/-- A package that is found stays the same in an extension. -/
theorem Extends.packageOf?_eq (h : larger.Extends smaller) {package : String}
    (hfound : smaller.packageOf? c = some package) : larger.packageOf? c = some package :=
  h.packageWithin_eq (Nat.add_le_add_right h.length_le 1) hfound

/-- A source that is rendered stays the same in an extension. -/
theorem Extends.source_eq (h : larger.Extends smaller) {b : Binding} {s : Source}
    (hs : smaller.source b = .ok s) : larger.source b = .ok s := by
  cases hp : smaller.packageOf? b.owner with
  | none => simp [Round.source, hp] at hs
  | some package =>
    rw [Round.source, hp] at hs
    rw [Round.source, h.packageOf?_eq hp]
    exact hs

end Round

section Subperm

variable {α β : Type} {xs ys : List α}

/-- A selection from fewer items is contained in that from more. -/
theorem subperm_filterMap (h : xs.Subperm ys) (f : α → Option β) :
    (xs.filterMap f).Subperm (ys.filterMap f) := by
  obtain ⟨zs, hperm, hsub⟩ := h
  exact ⟨zs.filterMap f, hperm.filterMap f, hsub.filterMap f⟩

/-- What fewer items contribute is contained in what more contribute. -/
theorem subperm_flatMap (h : xs.Subperm ys) (f : α → List β) :
    (xs.flatMap f).Subperm (ys.flatMap f) := by
  obtain ⟨zs, hperm, hsub⟩ := h
  exact ⟨zs.flatMap f, hperm.flatMap_right f, hsub.flatMap f⟩

/-- Fewer items have distinct keys if more have. -/
theorem nodup_map_of_subperm (h : xs.Subperm ys) {key : α → β} (hnodup : (ys.map key).Nodup) :
    (xs.map key).Nodup := by
  obtain ⟨zs, hperm, hsub⟩ := h
  exact (hperm.map key).nodup_iff.mp (hnodup.sublist (hsub.map key))

end Subperm

namespace Program

variable {cs ds : List ClassDeclaration}

/-- Among declarations with distinct names, a look-up finds the one of that name. -/
theorem find?_ofDeclarations_eq_some_iff (hnodup : (cs.map (·.canonicalName)).Nodup) {id : ClassId}
    {e : ClassElement} :
    (ofDeclarations cs).find? id = some e ↔ ∃ c ∈ cs, c.canonicalName = id ∧ c.element = e := by
  constructor
  · intro h
    obtain ⟨c, hc, rfl⟩ := List.mem_map.mp (mem_of_find? h)
    exact ⟨c, hc, id_of_find?_ofDeclarations h, rfl⟩
  · rintro ⟨c, hc, rfl, rfl⟩
    obtain ⟨e, he⟩ := Option.isSome_iff_exists.mp
      (isSome_find?_ofDeclarations.mpr (List.mem_map_of_mem hc))
    obtain ⟨d, hd, rfl⟩ := List.mem_map.mp (mem_of_find? he)
    rw [he, List.inj_on_of_nodup_map hnodup hd hc (id_of_find?_ofDeclarations he)]

/-- A program of more declarations extends that of fewer. -/
theorem extends_ofDeclarations (h : cs.Subperm ds) (hnodup : (ds.map (·.canonicalName)).Nodup) :
    (ofDeclarations ds).round.Extends (ofDeclarations cs).round where
  find? := by
    intro id e he
    obtain ⟨c, hc, hid⟩ :=
      (find?_ofDeclarations_eq_some_iff (nodup_map_of_subperm h hnodup)).mp he
    exact (find?_ofDeclarations_eq_some_iff hnodup).mpr ⟨c, h.subset hc, hid⟩
  length_le := by simpa [round] using h.length_le

end Program

/-- A binding depends on its own declaration and on the classes that enclose it. If the
declarations of some files are among those of others, and the others make a round, then so do the
files: their bindings and the markers that they set aside are among those of the larger round, and
each source that is rendered in theirs is rendered alike in the larger one. -/
theorem collect_of_subperm {files more : List LoadedFile}
    (hsub : (declarations files).Subperm (declarations more)) {q : Program}
    (hq : Program.ofFiles more = .ok q) :
    ∃ p, Program.ofFiles files = .ok p ∧
      p.round.collect.bindings.Subperm q.round.collect.bindings ∧
      p.round.collect.dropped.Subperm q.round.collect.dropped ∧
      ∀ b ∈ p.round.collect.bindings, ∀ s, p.round.source b = .ok s → q.round.source b = .ok s := by
  obtain ⟨hnodup, rfl⟩ := Program.ofFiles_eq_ok_iff.mp hq
  have hfewer := nodup_map_of_subperm hsub hnodup
  refine ⟨_, Program.ofFiles_eq_ok_iff.mpr ⟨hfewer, rfl⟩, ?_, ?_, ?_⟩
  · rw [Program.bindings_collect_ofDeclarations hfewer,
      Program.bindings_collect_ofDeclarations hnodup]
    exact subperm_filterMap hsub _
  · have hkind (kind : Marker) := subperm_flatMap (hsub.filter (·.contentView.isNone))
      (ClassDeclaration.markers · kind)
    rw [Program.dropped_collect_ofDeclarations hfewer,
      Program.dropped_collect_ofDeclarations hnodup]
    simp only [Marker.ofMembers, List.flatMap_cons, List.flatMap_nil, List.append_nil]
    exact (hkind .viewId).append ((hkind .onClick).append (hkind .onLongClick))
  · exact fun b _ s hs => (Program.extends_ofDeclarations hsub hnodup).source_eq hs

/-- The declarations of the nested files in one file, the outer class first. -/
def regroupedFiles : List LoadedFile := [⟨"all", ⟨(declarations nestedFiles).reverse⟩⟩]

/-- The nested files, and one more with a class that lies in the screen. -/
def widenedFiles : List LoadedFile := nestedFiles ++ [
  ⟨"more", ⟨[
    { name := "Pane", enclosingClass := some "app.Shell.Screen", contentView := some 20
      methods := [⟨"onDrag", some [21], none⟩] }]⟩⟩]

/-- Regrouped and without the class that was added, the files make the same source of the nested
screen. -/
theorem collect_regroupedFiles :
    ∃ p q, Program.ofFiles regroupedFiles = .ok p ∧ Program.ofFiles widenedFiles = .ok q ∧
      p.round.collect.bindings.Subperm q.round.collect.bindings ∧
      p.round.collect.dropped.Subperm q.round.collect.dropped ∧
      ∃ b ∈ p.round.collect.bindings, ∃ s, p.round.source b = .ok s ∧
        q.round.source b = .ok s ∧ s.qualifiedName = "app.Screen_ViewBinding" := by
  have hsub : (declarations regroupedFiles).Subperm (declarations widenedFiles) := by
    have hmore : declarations widenedFiles =
        declarations nestedFiles ++ declarations (widenedFiles.drop 2) := rfl
    have hsame : declarations regroupedFiles = (declarations nestedFiles).reverse := rfl
    rw [hmore, hsame]
    exact (List.reverse_perm _).subperm.trans (List.sublist_append_left _ _).subperm
  have hq : Program.ofFiles widenedFiles =
      .ok (Program.ofDeclarations (declarations widenedFiles)) :=
    Program.ofFiles_eq_ok_iff.mpr ⟨by decide, rfl⟩
  obtain ⟨p, hp, hbindings, hdropped, hsource⟩ := collect_of_subperm hsub hq
  obtain ⟨-, rfl⟩ := Program.ofFiles_eq_ok_iff.mp hp
  let screens := (Program.ofDeclarations (declarations regroupedFiles)).round
  have hscreen : ∃ b ∈ screens.collect.bindings, screens.packageOf? b.owner = some "app" ∧
      (b.source "app").qualifiedName = "app.Screen_ViewBinding" := by decide +kernel
  obtain ⟨b, hb, hpackage, hname⟩ := hscreen
  have hs : screens.source b = .ok (b.source "app") := by rw [Round.source, hpackage]
  exact ⟨_, _, hp, hq, hbindings, hdropped, b, hb, _, hs, hsource b hb _ hs, hname⟩

end ViewBinding
