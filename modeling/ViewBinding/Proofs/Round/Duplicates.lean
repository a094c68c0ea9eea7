import Mathlib.Data.List.Induction
import ViewBinding.Proofs.Round.Extension

/-!
# Classes that are declared twice

Files make a round unless two of their declarations have the same canonical name. Then the first
declaration that repeats the name of an earlier one is reported, with the file that it is in. In a
round, every class is found by its id, and so is the class of every member.
-/

namespace ViewBinding

section Repeats

variable {α κ : Type} {key : α → κ}

/-- If not all keys are distinct, there is a first item that has the key of an earlier one. -/
theorem exists_first_repeat {xs : List α} (h : ¬(xs.map key).Nodup) :
    ∃ before x after, xs = before ++ x :: after ∧ key x ∈ before.map key ∧
      (before.map key).Nodup := by
  induction xs using List.reverseRecOn with
  | nil => exact absurd List.nodup_nil h
  | append_singleton xs x ih =>
    by_cases hxs : (xs.map key).Nodup
    · -- All earlier keys are distinct, so it is the last one that is taken.
      refine ⟨xs, x, [], rfl, ?_, hxs⟩
      by_contra hfree
      refine h ?_
      rw [List.map_append, List.map_singleton, ← List.concat_eq_append]
      exact hxs.concat hfree
    · obtain ⟨before, y, after, hsplit, hrepeat⟩ := ih hxs
      exact ⟨before, y, after ++ [x], by rw [hsplit]; simp, hrepeat⟩

end Repeats

/-- All declarations of the files, each with the path of its file, in file order and then in the
order of each file. -/
def placedDeclarations (files : List LoadedFile) : List (String × ClassDeclaration) :=
  files.flatMap fun f => f.model.classes.map (f.path, ·)

/-- The declarations are those that are placed. -/
theorem map_snd_placedDeclarations (files : List LoadedFile) :
    (placedDeclarations files).map (·.2) = declarations files := by
  simp [placedDeclarations, declarations, List.map_flatMap, Function.comp_def]

/-- Does a complaint name the first declaration, in file and declaration order, that repeats the
canonical name of an earlier one, and the file of that later declaration? -/
def DuplicateClass.IsFirst (d : DuplicateClass) (files : List LoadedFile) : Prop :=
  ∃ before c after, placedDeclarations files = before ++ (d.path, c) :: after ∧
    c.canonicalName = d.id ∧ d.id ∈ before.map (·.2.canonicalName) ∧
    (before.map (·.2.canonicalName)).Nodup

namespace Program

variable {files : List LoadedFile} {d : DuplicateClass}

/-- If names are not all distinct, there is a first one that is repeated. -/
theorem exists_isFirst (h : ¬((declarations files).map (·.canonicalName)).Nodup) :
    ∃ d : DuplicateClass, d.IsFirst files := by
  rw [← map_snd_placedDeclarations, List.map_map] at h
  obtain ⟨before, ⟨path, c⟩, after, hsplit, hrepeat, hnodup⟩ := exists_first_repeat h
  exact ⟨⟨c.canonicalName, path⟩, before, c, after, hsplit, rfl, hrepeat, hnodup⟩

/-- The first name that is repeated fails the round. -/
theorem ofFiles_of_isFirst (h : d.IsFirst files) : ofFiles files = .error d := by
  obtain ⟨before, c, after, hsplit, hid, hrepeat, hnodup⟩ := h
  have hnames : (before.map (·.2)).map (·.canonicalName) = before.map (·.2.canonicalName) :=
    List.map_map
  have hbefore := (foldlM_add_eq_ok_iff [] List.nodup_nil before _).mpr ⟨hnames.symm ▸ hnodup, rfl⟩
  have hadd : (ofDeclarations (before.map (·.2))).add d.path c = .error d := by
    rw [add_of_mem d.path (by rwa [hnames, hid]), hid]
  have hplaced : (files.flatMap fun f => f.model.classes.map (f.path, ·)) =
      before ++ (d.path, c) :: after := hsplit
  rw [ofFiles, hplaced, List.foldlM_append, ← ofDeclarations_nil, hbefore]
  simp only [List.nil_append, bind, Except.bind, List.foldlM_cons, hadd]

/-- A round fails exactly with the first name that is repeated. -/
theorem ofFiles_eq_error_iff : ofFiles files = .error d ↔ d.IsFirst files := by
  refine ⟨fun h => ?_, ofFiles_of_isFirst⟩
  have hrepeated : ¬((declarations files).map (·.canonicalName)).Nodup := fun hnodup =>
    nomatch h.symm.trans (ofFiles_eq_ok_iff.mpr ⟨hnodup, rfl⟩)
  obtain ⟨first, hfirst⟩ := exists_isFirst hrepeated
  obtain rfl := Except.error.inj (h.symm.trans (ofFiles_of_isFirst hfirst))
  exact hfirst

end Program

/-- Files fail to make a round exactly if two of their declarations, in whatever files and however
nested, have the same canonical name; the complaint then names the first declaration that repeats
an earlier one, and its file. In a round, every declaration is listed once, in order, a look-up of
an id finds a class exactly if it is listed with that id, and the class of every field and every
method is found. -/
theorem ofFiles_exact (files : List LoadedFile) :
    ((∃ d, Program.ofFiles files = .error d) ↔
      ¬((declarations files).map (·.canonicalName)).Nodup) ∧
    (∀ d, Program.ofFiles files = .error d ↔ d.IsFirst files) ∧
    ∀ p, Program.ofFiles files = .ok p →
      p.classes = (declarations files).map (·.element) ∧ (p.classes.map (·.id)).Nodup ∧
      (∀ id c, p.find? id = some c ↔ c ∈ p.classes ∧ c.id = id) ∧
      (∀ f ∈ p.fields, (p.find? f.owner).isSome) ∧ ∀ m ∈ p.methods, (p.find? m.owner).isSome := by
  refine ⟨⟨?_, fun h => ?_⟩, fun d => Program.ofFiles_eq_error_iff, fun p hp => ?_⟩
  · rintro ⟨d, hd⟩ hnodup
    exact nomatch hd.symm.trans (Program.ofFiles_eq_ok_iff.mpr ⟨hnodup, rfl⟩)
  · obtain ⟨d, hd⟩ := Program.exists_isFirst h
    exact ⟨d, Program.ofFiles_of_isFirst hd⟩
  obtain ⟨hnodup, rfl⟩ := Program.ofFiles_eq_ok_iff.mp hp
  have hfound : ∀ c ∈ declarations files,
      ((Program.ofDeclarations (declarations files)).find? c.canonicalName).isSome :=
    fun c hc => Program.isSome_find?_ofDeclarations.mpr (List.mem_map_of_mem hc)
  refine ⟨rfl, ?_, fun id e => ?_, fun f hf => ?_, fun m hm => ?_⟩
  · rw [Program.classes_ofDeclarations, List.map_map]
    exact hnodup
  · rw [Program.find?_ofDeclarations_eq_some_iff hnodup, Program.classes_ofDeclarations,
      List.mem_map]
    constructor
    · rintro ⟨c, hc, rfl, rfl⟩
      exact ⟨⟨c, hc, rfl⟩, rfl⟩
    · rintro ⟨⟨c, hc, rfl⟩, rfl⟩
      exact ⟨c, hc, rfl, rfl⟩
  · obtain ⟨c, hc, hin⟩ := List.mem_flatMap.mp hf
    exact c.owner_of_mem_fieldElements hin ▸ hfound c hc
  · obtain ⟨c, hc, hin⟩ := List.mem_flatMap.mp hm
    exact c.owner_of_mem_methodElements hin ▸ hfound c hc

/-- A class in a package and a class in a class may have the same name. The second file repeats the
name of a class of the first, and so does the third. -/
example : Program.ofFiles [
    ⟨"first", ⟨[{ name := "B", package := some "a" }, { name := "C", package := some "a.B" }]⟩⟩,
    ⟨"second", ⟨[{ name := "C", enclosingClass := some "a.B" }]⟩⟩,
    ⟨"third", ⟨[{ name := "B", package := some "a" }]⟩⟩] = .error ⟨"a.B.C", "second"⟩ := by
  decide

end ViewBinding
