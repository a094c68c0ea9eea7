/-!
# Splitting at a character

A text is split at every occurrence of a separator, and pieces are joined with one between them.
Joining undoes splitting, and splitting undoes joining if no piece holds the separator.
-/

namespace ViewBinding.Text

/-- The pieces of a text between the occurrences of a separator; there is always at least one. -/
def split (separator : Char) (s : String) : List String :=
  (s.toList.splitOn separator).map String.ofList

/-- Join pieces with a separator between them. -/
def join (separator : Char) (pieces : List String) : String :=
  String.ofList ([separator].intercalate (pieces.map String.toList))

/-- Joining the pieces of a text gives the text. -/
theorem join_split (separator : Char) (s : String) : join separator (split separator s) = s := by
  have h : (List.map String.ofList (s.toList.splitOn separator)).map String.toList
      = s.toList.splitOn separator := by
    rw [List.map_map]
    exact (List.map_congr_left fun _ _ => String.toList_ofList).trans (List.map_id _)
  rw [join, split, h, List.intercalate_splitOn, String.ofList_toList]

/-- Splitting at a separator that no piece holds gives the pieces. -/
theorem split_join {separator : Char} {pieces : List String} (hne : pieces ≠ [])
    (h : ∀ p ∈ pieces, separator ∉ p.toList) :
    split separator (join separator pieces) = pieces := by
  rw [split, join, String.toList_ofList, List.splitOn_intercalate, List.map_map]
  · exact (List.map_congr_left fun _ _ => String.ofList_toList).trans (List.map_id _)
  · intro l hl
    obtain ⟨p, hp, rfl⟩ := List.mem_map.mp hl
    exact h p hp
  · simpa using hne

end ViewBinding.Text
