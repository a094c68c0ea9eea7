import Mathlib.Data.List.Nodup
import ViewBinding.Round.Program

/-!
# Flattening

Loading files as one round succeeds exactly if no two declarations have the same canonical name,
and the program is then the concatenation of what the declarations hold, in file and declaration
order.
-/

namespace ViewBinding

/-- All declarations of the files, in file order and then in the order of each file. -/
def declarations (files : List LoadedFile) : List ClassDeclaration :=
  files.flatMap (·.model.classes)

namespace Program

/-- The program that holds exactly these declarations. -/
def ofDeclarations (cs : List ClassDeclaration) : Program where
  classes := cs.map (·.element)
  fields := cs.flatMap (·.fieldElements)
  methods := cs.flatMap (·.methodElements)
  index := (cs.map (·.canonicalName)).zipIdx

@[simp] theorem ofDeclarations_nil : ofDeclarations [] = {} := rfl

@[simp] theorem classes_ofDeclarations (cs : List ClassDeclaration) :
    (ofDeclarations cs).classes = cs.map (·.element) := rfl

@[simp] theorem fields_ofDeclarations (cs : List ClassDeclaration) :
    (ofDeclarations cs).fields = cs.flatMap (·.fieldElements) := rfl

@[simp] theorem methods_ofDeclarations (cs : List ClassDeclaration) :
    (ofDeclarations cs).methods = cs.flatMap (·.methodElements) := rfl

/-- The ids of the classes are the canonical names of the declarations, in order. -/
theorem ids_ofDeclarations (cs : List ClassDeclaration) :
    (ofDeclarations cs).classes.map (·.id) = cs.map (·.canonicalName) := by
  rw [classes_ofDeclarations, List.map_map]
  rfl

/-- The ids that are indexed are the canonical names of the declarations, in order. -/
theorem keys_index_ofDeclarations (cs : List ClassDeclaration) :
    (ofDeclarations cs).index.keys = cs.map (·.canonicalName) :=
  List.zipIdx_map_fst _ _

/-- Under positions from a number on, a class is found that stands behind as many others. -/
theorem bind_get?_zipIdx (before : List ClassElement) (cs : List ClassDeclaration) (id : ClassId) :
    (Table.get? ((cs.map (·.canonicalName)).zipIdx before.length) id).bind
        ((before ++ cs.map (·.element))[·]?) =
      (cs.map (·.element)).find? (·.id == id) := by
  induction cs generalizing before with
  | nil => rfl
  | cons c cs ih =>
    simp only [List.map_cons, List.zipIdx_cons, Table.get?, List.find?_cons]
    by_cases hid : id = c.canonicalName
    · simp [hid, ClassDeclaration.element]
    · have hne : (c.element.id == id) = false := by
        simpa [ClassDeclaration.element] using fun h => hid h.symm
      have hnext := ih (before ++ [c.element])
      rw [List.length_append, List.length_singleton, List.append_assoc,
        List.singleton_append] at hnext
      rw [if_neg hid, hne]
      exact hnext

/-- A look-up finds the first class with the id. -/
theorem find?_ofDeclarations (cs : List ClassDeclaration) (id : ClassId) :
    (ofDeclarations cs).find? id = (cs.map (·.element)).find? (·.id == id) :=
  bind_get?_zipIdx [] cs id

/-- A look-up finds a class exactly under the canonical names of the declarations. -/
theorem isSome_find?_ofDeclarations {cs : List ClassDeclaration} {id : ClassId} :
    ((ofDeclarations cs).find? id).isSome ↔ id ∈ cs.map (·.canonicalName) := by
  simp only [find?_ofDeclarations, List.find?_isSome, List.mem_map, beq_iff_eq]
  constructor
  · rintro ⟨_, ⟨c, hc, rfl⟩, rfl⟩
    exact ⟨c, hc, rfl⟩
  · rintro ⟨c, hc, rfl⟩
    exact ⟨c.element, ⟨c, hc, rfl⟩, rfl⟩

/-- What a look-up finds has the id that was asked for. -/
theorem id_of_find?_ofDeclarations {cs : List ClassDeclaration} {id : ClassId} {e : ClassElement}
    (h : (ofDeclarations cs).find? id = some e) : e.id = id := by
  rw [find?_ofDeclarations] at h
  simpa using List.find?_some h

/-- A declaration with a free name goes to the end. -/
theorem add_of_notMem {cs : List ClassDeclaration} {c : ClassDeclaration} (path : String)
    (h : c.canonicalName ∉ cs.map (·.canonicalName)) :
    (ofDeclarations cs).add path c = .ok (ofDeclarations (cs ++ [c])) := by
  rw [← keys_index_ofDeclarations] at h
  have hfree : ¬((ofDeclarations cs).index.get? c.canonicalName).isSome :=
    fun hs => h (Table.isSome_get?.mp hs)
  rw [add, if_neg hfree, Table.insert_of_notMem h]
  simp [ofDeclarations, List.zipIdx_append]

/-- A declaration with a name that is taken fails, with that name and the path of its file. -/
theorem add_of_mem {cs : List ClassDeclaration} {c : ClassDeclaration} (path : String)
    (h : c.canonicalName ∈ cs.map (·.canonicalName)) :
    (ofDeclarations cs).add path c = .error ⟨c.canonicalName, path⟩ := by
  rw [← keys_index_ofDeclarations] at h
  rw [add, if_pos (Table.isSome_get?.mpr h)]

/-- Going on from declarations with distinct names succeeds exactly if all names stay distinct. -/
theorem foldlM_add_eq_ok_iff (done : List ClassDeclaration)
    (hdone : (done.map (·.canonicalName)).Nodup) (next : List (String × ClassDeclaration))
    (p : Program) :
    next.foldlM (fun q (path, c) => q.add path c) (ofDeclarations done) = .ok p ↔
      ((done ++ next.map (·.2)).map (·.canonicalName)).Nodup ∧
        p = ofDeclarations (done ++ next.map (·.2)) := by
  induction next generalizing done with
  | nil =>
    simp only [List.foldlM_nil, List.map_nil, List.append_nil, hdone, true_and]
    exact ⟨fun h => (Except.ok.inj h).symm, fun h => congrArg Except.ok h.symm⟩
  | cons x next ih =>
    obtain ⟨path, c⟩ := x
    have hsplit : done ++ c :: next.map (·.2) = (done ++ [c]) ++ next.map (·.2) := by simp
    by_cases hmem : c.canonicalName ∈ done.map (·.canonicalName)
    · -- the name is taken, so neither side holds
      have hdup : ¬((done ++ c :: next.map (·.2)).map (·.canonicalName)).Nodup := by
        intro h
        rw [List.map_append, List.nodup_append] at h
        exact h.2.2 _ hmem _ (by simp) rfl
      simp only [List.foldlM_cons, add_of_mem path hmem, List.map_cons, hdup, false_and, iff_false]
      change ¬Except.error _ = Except.ok p
      exact fun h => nomatch h
    · have hnext : ((done ++ [c]).map (·.canonicalName)).Nodup := by
        rw [List.map_append, List.nodup_append]
        refine ⟨hdone, by simp, ?_⟩
        intro a ha b hb he
        rw [List.map_singleton, List.mem_singleton] at hb
        exact hmem (hb ▸ he ▸ ha)
      simp only [List.foldlM_cons, add_of_notMem path hmem, List.map_cons, hsplit]
      exact ih (done ++ [c]) hnext

/-- Files make a round exactly if all canonical names are distinct, and it is then the program of
all their declarations. -/
theorem ofFiles_eq_ok_iff {files : List LoadedFile} {p : Program} :
    ofFiles files = .ok p ↔
      ((declarations files).map (·.canonicalName)).Nodup ∧
        p = ofDeclarations (declarations files) := by
  have hall : (files.flatMap fun f => f.model.classes.map (f.path, ·)).map (·.2) =
      declarations files := by
    simp [declarations, List.map_flatMap, Function.comp_def]
  have h := foldlM_add_eq_ok_iff [] List.nodup_nil
    (files.flatMap fun f => f.model.classes.map (f.path, ·)) p
  rwa [hall, List.nil_append] at h

end Program

end ViewBinding
