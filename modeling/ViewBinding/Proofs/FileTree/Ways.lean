import ViewBinding.Proofs.FileTree.Following

/-!
# Parts of a way

A way to a directory can be gone on from there, and a way that goes on has been at a directory
before. On the way to a directory there may be dots anywhere, and any other way ends with a name
that is gone into.
-/

namespace ViewBinding

namespace Workspace

variable {t : FileTree} {place p : Place} {names more : List String} {r : Located}

/-- Without names a way to a directory stays where it is. -/
theorem way_nil_iff : Way t place [] (.present p .directory) ↔ p = place := by
  constructor
  · intro h
    cases h
    rfl
  · rintro rfl
    exact .arrived

/-- A way to a directory goes on by its first name. -/
theorem way_cons_iff {name : String} : Way t place (name :: names) (.present p .directory) ↔
    (name = "." ∧ Way t place names (.present p .directory)) ∨
    (name = ".." ∧ Way t place.dropLast names (.present p .directory)) ∨
    (Enters name ∧ t.get? (place ++ [name]) = some .directory ∧
      Way t (place ++ [name]) names (.present p .directory)) := by
  constructor
  · intro h
    cases h with
    | stay hrest => exact .inl ⟨rfl, hrest⟩
    | leave hrest => exact .inr (.inl ⟨rfl, hrest⟩)
    | enter henters hentry hrest => exact .inr (.inr ⟨henters, hentry, hrest⟩)
  · rintro (⟨rfl, hrest⟩ | ⟨rfl, hrest⟩ | ⟨henters, hentry, hrest⟩)
    · exact .stay hrest
    · exact .leave hrest
    · exact .enter henters hentry hrest

/-- A way to a directory can be gone on from there. -/
theorem Way.append (h : Way t place names (.present p .directory)) (hmore : Way t p more r) :
    Way t place (names ++ more) r := by
  induction names generalizing place with
  | nil => exact way_nil_iff.mp h ▸ hmore
  | cons name names ih =>
    rcases way_cons_iff.mp h with ⟨rfl, hrest⟩ | ⟨rfl, hrest⟩ | ⟨henters, hentry, hrest⟩
    · exact .stay (ih hrest)
    · exact .leave (ih hrest)
    · exact .enter henters hentry (ih hrest)

/-- A way that goes on is at a directory before. -/
theorem Way.split (h : Way t place (names ++ more) r) (hmore : more ≠ []) :
    ∃ q, Way t place names (.present q .directory) ∧ Way t q more r := by
  induction names generalizing place with
  | nil => exact ⟨place, .arrived, h⟩
  | cons name names ih =>
    rw [List.cons_append] at h
    generalize hrest : names ++ more = rest at h
    cases h with
    | stay hway =>
      obtain ⟨q, hfront, hend⟩ := ih (hrest ▸ hway)
      exact ⟨q, .stay hfront, hend⟩
    | leave hway =>
      obtain ⟨q, hfront, hend⟩ := ih (hrest ▸ hway)
      exact ⟨q, .leave hfront, hend⟩
    | enter henters hentry hway =>
      obtain ⟨q, hfront, hend⟩ := ih (hrest ▸ hway)
      exact ⟨q, .enter henters hentry hfront, hend⟩
    | free => exact absurd (List.append_eq_nil_iff.mp hrest).2 hmore
    | file => exact absurd (List.append_eq_nil_iff.mp hrest).2 hmore

/-- The first part of a way to a directory leads to one. -/
theorem Way.exists_front (h : Way t place (names ++ more) (.present p .directory)) :
    ∃ q, Way t place names (.present q .directory) := by
  by_cases hmore : more = []
  · subst hmore
    rw [List.append_nil] at h
    exact ⟨p, h⟩
  · obtain ⟨q, hfront, -⟩ := h.split hmore
    exact ⟨q, hfront⟩

/-- A way that does not end in a directory ends with a name that is gone into. -/
theorem Way.exists_last (h : Way t place names r) (hr : r.isDirectory = false) :
    ∃ front name, names = front ++ [name] ∧ r.place.getLast? = some name ∧ Enters name := by
  induction h with
  | arrived => exact nomatch hr
  | stay _ ih =>
    obtain ⟨front, name, rfl, hlast, henters⟩ := ih hr
    exact ⟨"." :: front, name, rfl, hlast, henters⟩
  | leave _ ih =>
    obtain ⟨front, name, rfl, hlast, henters⟩ := ih hr
    exact ⟨".." :: front, name, rfl, hlast, henters⟩
  | @enter _ first _ _ _ _ _ ih =>
    obtain ⟨front, name, rfl, hlast, henters⟩ := ih hr
    exact ⟨first :: front, name, rfl, hlast, henters⟩
  | @free _ name henters _ => exact ⟨[], name, rfl, List.getLast?_concat, henters⟩
  | @file _ name _ henters _ => exact ⟨[], name, rfl, List.getLast?_concat, henters⟩

/-- The dots on a way can be left out. -/
theorem Way.filter_dots (h : Way t place names r) : Way t place (names.filter (· ≠ ".")) r := by
  induction h with
  | arrived => exact .arrived
  | stay _ ih => exact ih
  | leave _ ih => exact .leave ih
  | enter henters hentry _ ih =>
    rw [List.filter_cons_of_pos (by simpa using henters.not_dot)]
    exact .enter henters hentry ih
  | free henters hentry =>
    rw [List.filter_cons_of_pos (by simpa using henters.not_dot)]
    exact .free henters hentry
  | file henters hentry =>
    rw [List.filter_cons_of_pos (by simpa using henters.not_dot)]
    exact .file henters hentry

/-- On a way to a directory there may be dots anywhere. -/
theorem Way.of_filter_dots (h : Way t place (names.filter (· ≠ ".")) (.present p .directory)) :
    Way t place names (.present p .directory) := by
  induction names generalizing place with
  | nil => exact h
  | cons s names ih =>
    by_cases hdot : s = "."
    · rw [List.filter_cons_of_neg (by simpa using hdot)] at h
      exact hdot ▸ .stay (ih h)
    · rw [List.filter_cons_of_pos (by simpa using hdot)] at h
      rcases way_cons_iff.mp h with ⟨rfl, -⟩ | ⟨rfl, hrest⟩ | ⟨henters, hentry, hrest⟩
      · exact absurd rfl hdot
      · exact .leave (ih hrest)
      · exact .enter henters hentry (ih hrest)

end Workspace

end ViewBinding
