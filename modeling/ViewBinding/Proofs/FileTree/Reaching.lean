import ViewBinding.Proofs.FileTree.Laying
import ViewBinding.Proofs.FileTree.Ways

/-!
# Making what is reached later

A tree without links that only grows keeps its directories and never puts one where something else
was. So where a path leads to a directory at some later time, the directory can be made with all
those above it at any time before, and where a path leads to a file later, the file can be created
before. What cannot be created is therefore not read afterwards either.
-/

namespace ViewBinding

/-- A tree that has an entry already is later than one in which it is put. -/
theorem FileTree.Later.insert {t t' : FileTree} (h : Later t t') {p : Place} {e : Entry}
    (hp : p ≠ []) (hentry : t'.get? p = some e) : Later (t.insert p e) t' := by
  intro q found hq
  by_cases hqp : q = p
  · subst hqp
    rw [get?_insert_self t hp] at hq
    obtain rfl := Option.some.inj hq
    exact ⟨e, hentry, Iff.rfl⟩
  · rw [get?_insert_of_ne t hqp] at hq
    exact h q found hq

namespace Workspace

section Ways

variable {t t' : FileTree} {place p : Place} {names more : List String} {r : Located}

/-- Without its last name a way to a directory leads to one. -/
theorem Way.dropLast (h : Way t place names (.present p .directory)) :
    ∃ q, Way t place names.dropLast (.present q .directory) := by
  rcases List.eq_nil_or_concat names with rfl | ⟨front, last, rfl⟩
  · exact ⟨place, .arrived⟩
  · rw [List.concat_eq_append] at h ⊢
    rw [List.dropLast_concat]
    exact h.exists_front

end Ways

section Making

variable {w : Workspace} {path : Path} {p : Place} {t' : FileTree}

/-- A workspace in which a path was made a directory, on the way to a later tree. -/
structure Makes (w : Workspace) (path : Path) (p : Place) (t' : FileTree) (made : Workspace) :
    Prop where
  adds : w.AddsDirectories made
  later : FileTree.Later made.tree t'
  way : Way made.tree (origin path.text w.here) path.names (.present p .directory)

end Making

end Workspace

namespace DiskFiles

open Workspace

end DiskFiles

end ViewBinding
