import ViewBinding.Text.Split

/-!
# Pieces

Splitting and joining follow the text: pieces before and after a separator are split on their own,
and what is added to the last piece is added to the text.
-/

namespace ViewBinding.Text

/-- A text that does not hold the separator is its only piece. -/
theorem split_of_notMem {separator : Char} {s : String} (h : separator ∉ s.toList) :
    split separator s = [s] := by
  rw [split, List.splitOn_eq_singleton h, List.map_singleton, String.ofList_toList]

/-- There is always a piece. -/
theorem split_ne_nil (separator : Char) (s : String) : split separator s ≠ [] := by
  simp [split, List.splitOn_ne_nil]

/-- No piece holds the separator. -/
theorem notMem_of_mem_split {separator : Char} {s piece : String} (h : piece ∈ split separator s) :
    separator ∉ piece.toList := by
  obtain ⟨chars, hchars, rfl⟩ := List.mem_map.mp h
  rw [String.toList_ofList]
  clear h
  generalize hs : s.toList = text at hchars
  clear hs s
  -- The first separator divides the text into a piece without it and a shorter text.
  induction hn : text.length using Nat.strongRecOn generalizing text with
  | ind n ih =>
    by_cases hmem : separator ∈ text
    · obtain ⟨before, after, rfl, hbefore⟩ := List.eq_append_cons_of_mem hmem
      rw [List.splitOn_append_cons_self, List.splitOn_eq_singleton hbefore] at hchars
      rcases List.mem_cons.mp hchars with rfl | hin
      · exact hbefore
      · have hshort : after.length < n := by
          rw [← hn, List.length_append, List.length_cons]
          omega
        exact ih _ hshort after hin rfl
    · rw [List.splitOn_eq_singleton hmem] at hchars
      obtain rfl := List.mem_singleton.mp hchars
      exact hmem

/-- The pieces around a separator are those before it and those after it. -/
theorem split_append (separator : Char) (s t : String) :
    split separator (s ++ String.singleton separator ++ t) =
      split separator s ++ split separator t := by
  have hchars : (s ++ String.singleton separator ++ t).toList =
      s.toList ++ separator :: t.toList := by
    simp
  rw [split, hchars, List.splitOn_append_cons_self, List.map_append]
  rfl

/-- One piece is joined to itself. -/
@[simp] theorem join_singleton (separator : Char) (s : String) : join separator [s] = s := by
  simp [join]

/-- A piece in front of others is followed by a separator. -/
theorem join_cons (separator : Char) (s : String) {pieces : List String} (h : pieces ≠ []) :
    join separator (s :: pieces) = s ++ String.singleton separator ++ join separator pieces := by
  cases pieces with
  | nil => exact absurd rfl h
  | cons t pieces => simp [join, ← String.toList_inj]

/-- A piece after others follows a separator. -/
theorem join_concat (separator : Char) {pieces : List String} (h : pieces ≠ []) (s : String) :
    join separator (pieces ++ [s]) = join separator pieces ++ String.singleton separator ++ s := by
  induction pieces with
  | nil => exact absurd rfl h
  | cons p pieces ih =>
    cases pieces with
    | nil => rw [List.singleton_append, join_cons _ _ (by simp), join_singleton, join_singleton]
    | cons q pieces =>
      have hrest : q :: pieces ≠ [] := List.cons_ne_nil q pieces
      rw [List.cons_append, join_cons _ _ (by simp), ih hrest, join_cons _ _ hrest]
      simp only [String.append_assoc]

/-- What is added to the last piece is added to the joined text. -/
theorem join_concat_append (separator : Char) (pieces : List String) (s t : String) :
    join separator (pieces ++ [s ++ t]) = join separator (pieces ++ [s]) ++ t := by
  induction pieces with
  | nil => simp
  | cons p pieces ih =>
    rw [List.cons_append, List.cons_append, join_cons _ _ (by simp), join_cons _ _ (by simp), ih,
      String.append_assoc, String.append_assoc, String.append_assoc]

/-- The characters of a piece are among those of the joined text. -/
theorem mem_join_of_mem {separator : Char} {pieces : List String} {piece : String} {c : Char}
    (h : piece ∈ pieces) (hc : c ∈ piece.toList) : c ∈ (join separator pieces).toList := by
  induction pieces with
  | nil => exact nomatch h
  | cons s pieces ih =>
    by_cases hnil : pieces = []
    · subst hnil
      rwa [join_singleton, ← List.mem_singleton.mp h]
    · rw [join_cons separator s hnil, String.toList_append, String.toList_append, List.append_assoc]
      rcases List.mem_cons.mp h with rfl | hmore
      · exact List.mem_append_left _ hc
      · exact List.mem_append_right _ (List.mem_append_right _ (ih hmore))

/-- The characters of a piece are characters of the text. -/
theorem mem_of_mem_split {separator : Char} {s piece : String} {c : Char}
    (h : piece ∈ split separator s) (hc : c ∈ piece.toList) : c ∈ s.toList := by
  rw [← join_split separator s]
  exact mem_join_of_mem h hc

/-- A beginning of a text is followed by the rest. -/
theorem exists_append_of_starts {s t : String} (h : s.toList <+: t.toList) :
    ∃ rest, t = s ++ rest := by
  obtain ⟨rest, hrest⟩ := h
  exact ⟨String.ofList rest, by simp [← String.toList_inj, ← hrest]⟩

/-- A beginning of a text has no more bytes. -/
theorem utf8ByteSize_le_of_starts {s t : String} (h : s.toList <+: t.toList) :
    s.utf8ByteSize ≤ t.utf8ByteSize := by
  obtain ⟨rest, rfl⟩ := exists_append_of_starts h
  rw [String.utf8ByteSize_append]
  omega

/-- A beginning that is shorter has fewer bytes. -/
theorem utf8ByteSize_lt_of_starts {s t : String} (h : s.toList <+: t.toList)
    (hshort : s.length < t.length) : s.utf8ByteSize < t.utf8ByteSize := by
  obtain ⟨rest, rfl⟩ := exists_append_of_starts h
  have hrest : rest.utf8ByteSize ≠ 0 := by
    rw [Ne, String.utf8ByteSize_eq_zero_iff]
    rintro rfl
    simp at hshort
  rw [String.utf8ByteSize_append]
  omega

end ViewBinding.Text
