/-!
# Lines and cuts

A text is cut before its first character outside a class. If two texts are equal, so are the parts
they are cut into; in particular the lines of a text can be read back if none of them holds a line
break.
-/

namespace ViewBinding.Text

/-- Does the text begin with a character outside the class? -/
def stops (p : Char → Bool) (s : String) : Bool := s.toList.head?.any (!p ·)

/-- A text that begins with a stop stops the class. -/
theorem stops_append {p : Char → Bool} {s : String} (h : stops p s = true) (t : String) :
    stops p (s ++ t) = true := by
  rw [stops] at h ⊢
  rw [String.toList_append]
  cases hs : s.toList with
  | nil => rw [hs] at h; exact nomatch h
  | cons c cs => simpa [hs] using h

/-- What stands before a stop is the longest beginning in the class. -/
theorem takeWhile_append_stops {p : Char → Bool} {x r : String} (hx : ∀ c ∈ x.toList, p c = true)
    (hr : stops p r = true) : (x ++ r).toList.takeWhile p = x.toList := by
  rw [String.toList_append, List.takeWhile_append_of_pos hx]
  cases hchars : r.toList with
  | nil => rw [List.takeWhile_nil, List.append_nil]
  | cons c cs =>
    have hc : p c = false := by simpa [stops, hchars] using hr
    rw [List.takeWhile_cons_of_neg (by rw [hc]; decide), List.append_nil]

/-- Equal texts have equal parts before and from their first stop on. -/
theorem cut_inj {p : Char → Bool} {x y r s : String} (hx : ∀ c ∈ x.toList, p c = true)
    (hy : ∀ c ∈ y.toList, p c = true) (hr : stops p r = true) (hs : stops p s = true)
    (h : x ++ r = y ++ s) : x = y ∧ r = s := by
  have hxy : x = y := by
    rw [← String.toList_inj, ← takeWhile_append_stops hx hr, h, takeWhile_append_stops hy hs]
  refine ⟨hxy, ?_⟩
  rwa [hxy, String.append_right_inj] at h

/-- The text of lines, each ended by a line break. -/
def unlines : List String → String
  | [] => ""
  | l :: ls => l ++ "\n" ++ unlines ls

@[simp] theorem unlines_nil : unlines [] = "" := rfl

@[simp] theorem unlines_cons (l : String) (ls : List String) :
    unlines (l :: ls) = l ++ "\n" ++ unlines ls := rfl

/-- The text of lines in two parts is the text of the parts. -/
theorem unlines_append (ls ms : List String) : unlines (ls ++ ms) = unlines ls ++ unlines ms := by
  induction ls with
  | nil => simp
  | cons l ls ih => simp [ih, String.append_assoc]

/-- A line holds no line break. -/
def IsLine (s : String) : Prop := '\n' ∉ s.toList

instance (s : String) : Decidable (IsLine s) := inferInstanceAs (Decidable (_ ∉ _))

/-- Two parts of a line are one together. -/
theorem IsLine.append {s t : String} (hs : IsLine s) (ht : IsLine t) : IsLine (s ++ t) := by
  rw [IsLine, String.toList_append, List.mem_append, not_or]
  exact ⟨hs, ht⟩

/-- Every character of a line is in the class of those that do not end it. -/
theorem IsLine.forall_ne {s : String} (h : IsLine s) : ∀ c ∈ s.toList, (c != '\n') = true := by
  intro c hc
  have hne : c ≠ '\n' := fun heq => h (heq ▸ hc)
  simpa using hne

/-- A text of characters from a class without the line break is a line. -/
theorem isLine_of_forall {p : Char → Bool} (hp : p '\n' = false) {s : String}
    (h : ∀ c ∈ s.toList, p c = true) : IsLine s := by
  intro hc
  rw [h _ hc] at hp
  exact nomatch hp

/-- Lines can be read back from their text. -/
theorem unlines_inj {ls ms : List String} (hl : ∀ l ∈ ls, IsLine l) (hm : ∀ m ∈ ms, IsLine m)
    (h : unlines ls = unlines ms) : ls = ms := by
  have hstop : ∀ s : String, stops (· != '\n') ("\n" ++ s) = true := fun s => stops_append rfl s
  have hne : ∀ (l : String) (ls : List String), unlines (l :: ls) ≠ "" := by
    intro l ls
    simp
  induction ls generalizing ms with
  | nil =>
    cases ms with
    | nil => rfl
    | cons m ms => exact absurd h.symm (hne m ms)
  | cons l ls ih =>
    cases ms with
    | nil => exact absurd h (hne l ls)
    | cons m ms =>
      rw [unlines_cons, unlines_cons, String.append_assoc, String.append_assoc] at h
      obtain ⟨hlm, hrest⟩ := cut_inj (hl l (List.mem_cons_self ..)).forall_ne
        (hm m (List.mem_cons_self ..)).forall_ne (hstop _) (hstop _) h
      rw [String.append_right_inj] at hrest
      rw [hlm, ih (fun k hk => hl k (List.mem_cons_of_mem _ hk))
        (fun k hk => hm k (List.mem_cons_of_mem _ hk)) hrest]

end ViewBinding.Text
