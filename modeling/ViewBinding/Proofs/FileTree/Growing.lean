import ViewBinding.Proofs.FileTree.Paving

/-!
# What was there before

A path leads below another when it goes on from it by names that go up nowhere. In a tree that has
only grown, a path whose place had an entry before is answered as before: a directory is still one,
and so is what is none. Paths may lead to something new only where nothing was.
-/

namespace ViewBinding

namespace FileTree

variable {t : FileTree} {p q : Place}

/-- There is an entry everywhere on the way to an entry. -/
theorem Plain.isSome_of_above (h : t.Plain) (hp : (t.get? p).isSome) (hq : q <+: p) :
    (t.get? q).isSome := by
  obtain ⟨e, he⟩ := Option.isSome_iff_exists.mp hp
  by_cases hne : q = p
  · rwa [hne]
  · rw [h.get?_of_above he hq hne]
    rfl

end FileTree

namespace Path

variable {name : String}

/-- A text without a slash that is no double dot goes up nowhere. -/
theorem dots_notMem_names (h : '/' ∉ name.toList) (hdots : name ≠ "..") : ".." ∉ names ⟨name⟩ := by
  rw [names_of_notMem h]
  split
  · exact List.not_mem_nil
  · exact fun hin => hdots (List.mem_singleton.mp hin).symm

/-- A name is the only name of its text. -/
theorem names_of_isName (h : IsName name) (hdot : name ≠ ".") : names ⟨name⟩ = [name] := by
  rw [names_of_notMem h.2, if_neg]
  simp [isIdle, h.1, hdot]

end Path

namespace Workspace

/-- Joining a name that goes up nowhere leads below a path. -/
theorem placeOf_join {w : Workspace} {path : Path} {name : String} (hpath : path.Descends)
    (h : '/' ∉ name.toList) (hdots : name ≠ "..") :
    (path.join name).Descends ∧ w.placeOf (path.join name) = w.placeOf path ++ Path.names ⟨name⟩ :=
  placeOf_of_names_eq hpath (Path.names_join (Path.head?_ne_of_notMem h) path)
    (Path.head?_join (Path.head?_ne_of_notMem h) path) (Path.dots_notMem_names h hdots)

/-- Paths that go up nowhere are joined to one that does not. -/
theorem descends_join {path : Path} {s : String} (hpath : path.Descends)
    (hs : Path.Descends ⟨s⟩) : (path.join s).Descends := by
  by_cases hhead : s.toList.head? = some '/'
  · have hjoin : path.join s = ⟨s⟩ := by simp [Path.join, hhead]
    rwa [hjoin]
  · unfold Path.Descends
    rw [Path.names_join hhead]
    exact fun hin => (List.mem_append.mp hin).elim hpath hs

/-- A plain workspace and a later one in the same directory. -/
structure Later (w w' : Workspace) : Prop where
  before : w.Plain
  after : w'.Plain
  here : w'.here = w.here
  tree : FileTree.Later w.tree w'.tree

/-- Is there something at the place of a path? -/
def Has (w : Workspace) (path : Path) : Prop := (w.tree.get? (w.placeOf path)).isSome

variable {w w' : Workspace} {path : Path}

/-- Where there is something at the place of a path, there is something on the way to it. -/
theorem Plain.has_of_above (h : w.Plain) {above : Path} (hpath : w.Has path)
    (habove : w.placeOf above <+: w.placeOf path) : w.Has above :=
  h.tree.isSome_of_above hpath habove

/-- There is something where a path leads to a directory. -/
theorem Plain.has_of_isDirectory (h : w.Plain) (hpath : path.Descends)
    (hdirectory : w.isDirectory path = true) : w.Has path := by
  unfold Has
  rw [((h.isDirectory_iff hpath).mp hdirectory).2]
  rfl

/-- There is something where a path leads to a file. -/
theorem Plain.has_of_isFile (h : w.Plain) (hpath : path.Descends) (hfile : w.isFile path = true) :
    w.Has path := by
  obtain ⟨-, -, content, hentry⟩ := (h.isFile_iff hpath).mp hfile
  unfold Has
  rw [hentry]
  rfl

namespace Later

variable (h : w.Later w')

include h

/-- A path has the same place later. -/
theorem placeOf_eq (path : Path) : w'.placeOf path = w.placeOf path := placeOf_congr h.here path

/-- What was there is there later. -/
theorem isSome_get? {p : Place} (hp : (w.tree.get? p).isSome) : (w'.tree.get? p).isSome := by
  obtain ⟨e, he⟩ := Option.isSome_iff_exists.mp hp
  obtain ⟨e', he', -⟩ := h.tree p e he
  rw [he']
  rfl

/-- What was there is a directory exactly if it was one. -/
theorem get?_eq_directory_iff {p : Place} (hp : (w.tree.get? p).isSome) :
    w'.tree.get? p = some .directory ↔ w.tree.get? p = some .directory := by
  obtain ⟨e, he⟩ := Option.isSome_iff_exists.mp hp
  obtain ⟨e', he', hsame⟩ := h.tree p e he
  rw [he, he', Option.some.injEq, Option.some.injEq, hsame]

/-- A path that led to a directory leads to one, and conversely if anything was there. -/
theorem isDirectory_eq (hpath : path.Descends) (hknown : w.Has path) :
    w'.isDirectory path = w.isDirectory path := by
  rw [Bool.eq_iff_iff, h.after.isDirectory_iff hpath, h.before.isDirectory_iff hpath, h.placeOf_eq,
    h.get?_eq_directory_iff hknown]

/-- A path that led to something leads to something, and conversely if anything was there. -/
theorem holds_eq (hpath : path.Descends) (hknown : w.Has path) :
    w'.holds path = w.holds path := by
  rw [Bool.eq_iff_iff, h.after.holds_iff hpath, h.before.holds_iff hpath, h.placeOf_eq]
  obtain ⟨e, he⟩ := Option.isSome_iff_exists.mp hknown
  obtain ⟨e', he', hsame⟩ := h.tree _ e he
  simp only [he, he', Option.some.injEq, exists_eq_left', hsame]

/-- A name that had an entry in a directory is listed exactly if it was listed. -/
theorem mem_list_iff (hpath : path.Descends) {name : String}
    (hknown : (w.tree.get? (w.placeOf path ++ [name])).isSome) :
    name ∈ w'.list path ↔ name ∈ w.list path := by
  have habove : w.Has path := h.before.tree.isSome_of_above hknown (List.prefix_append ..)
  have hlater := h.isSome_get? hknown
  have hne : w.placeOf path ++ [name] ≠ [] := by simp
  rw [h.after.mem_list_iff hpath, h.before.mem_list_iff hpath, h.isDirectory_eq hpath habove,
    h.placeOf_eq]
  simp only [(FileTree.isSome_get?.mp hknown).resolve_left hne,
    (FileTree.isSome_get?.mp hlater).resolve_left hne]

end Later

end Workspace

end ViewBinding
