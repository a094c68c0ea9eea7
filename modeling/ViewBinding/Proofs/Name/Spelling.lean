import ViewBinding.Model.Declaration
import ViewBinding.Proofs.Text.Pieces

/-!
# Spelling of names

What the spelling rules say about the characters of a name. No punctuation is part of an
identifier, so whatever encloses a name in a text marks where it ends; and a dotted name is a
sequence of identifiers with single dots between them.
-/

namespace ViewBinding.Name

open ViewBinding.Text

/-- A character of an identifier may stand in a declared type. -/
theorem isTypePart_of_isPart {c : Char} (h : isPart c = true) : isTypePart c = true := by
  rw [isTypePart, h, Bool.true_or]

/-- A character that begins an identifier may go on with it. -/
theorem isPart_of_isStart {c : Char} (h : isStart c = true) : isPart c = true := by
  rw [isPart, h, Bool.true_or]

/-- Characters that are not in the class are not in a name that consists of it. -/
theorem notMem_of_forall {p : Char → Bool} {c : Char} (hc : p c = false) {cs : List Char}
    (h : ∀ a ∈ cs, p a = true) : c ∉ cs := by
  intro hmem
  rw [h c hmem] at hc
  exact nomatch hc

/-- All characters of a name satisfy the class that it goes on with, if a beginning does. -/
theorem forall_of_startsAndGoesOn {part : Char → Bool}
    (hstart : ∀ c, isStart c = true → part c = true) {cs : List Char}
    (h : startsAndGoesOn part cs = true) : ∀ c ∈ cs, part c = true := by
  cases cs with
  | nil => exact nomatch h
  | cons c cs =>
    simp only [startsAndGoesOn, Bool.and_eq_true, List.all_eq_true] at h
    intro a ha
    rcases List.mem_cons.mp ha with rfl | hin
    · exact hstart a h.1
    · exact h.2 a hin

/-- Every character of an identifier is a part of one. -/
theorem isPart_of_mem_identifier {s : String} (h : isIdentifier s = true) :
    ∀ c ∈ s.toList, isPart c = true :=
  forall_of_startsAndGoesOn (fun _ => isPart_of_isStart) h

/-- An identifier begins with a character that may begin one. -/
theorem exists_cons_of_isIdentifier {s : String} (h : isIdentifier s = true) :
    ∃ c cs, s.toList = c :: cs ∧ isStart c = true := by
  unfold isIdentifier at h
  cases hchars : s.toList with
  | nil =>
    rw [hchars] at h
    exact nomatch h
  | cons c cs =>
    rw [hchars, startsAndGoesOn, Bool.and_eq_true] at h
    exact ⟨c, cs, rfl, h.1⟩

/-- An identifier is not empty. -/
theorem ne_empty_of_isIdentifier {s : String} (h : isIdentifier s = true) : s ≠ "" := by
  rintro rfl
  exact nomatch h

/-- Every character of a declared type may stand in one. -/
theorem isTypePart_of_mem_declaredType {s : String} (h : isDeclaredType s = true) :
    ∀ c ∈ s.toList, isTypePart c = true := by
  rw [isDeclaredType, Bool.and_eq_true] at h
  exact forall_of_startsAndGoesOn (fun _ hc => isTypePart_of_isPart (isPart_of_isStart hc)) h.1

/-- A character that a dotted name may hold. -/
def isDottedPart (c : Char) : Bool := isPart c || c == '.'

/-- A dotted name may hold letters, numbers, `_`, `$` and dots. -/
theorem isDottedPart_iff {c : Char} : isDottedPart c = true ↔
    isLetter c = true ∨ isNumber c = true ∨ c = '_' ∨ c = '$' ∨ c = '.' := by
  simp only [isDottedPart, isPart, isStart, Bool.or_eq_true, beq_iff_eq]
  grind

/-- Scanning for a dotted name is checking its pieces between the dots; inside a piece, the first
one has begun already. -/
theorem scanDotted_eq_all (cs : List Char) :
    scanDotted true cs = (cs.splitOn '.').all (startsAndGoesOn isPart) ∧
      ∀ piece rest, cs.splitOn '.' = piece :: rest →
        scanDotted false cs = (piece.all isPart && rest.all (startsAndGoesOn isPart)) := by
  induction cs with
  | nil =>
    refine ⟨rfl, fun piece rest h => ?_⟩
    obtain ⟨rfl, rfl⟩ := List.cons.inj h
    rfl
  | cons c cs ih =>
    obtain ⟨piece, rest, hsplit⟩ := List.exists_cons_of_ne_nil (List.splitOn_ne_nil '.' cs)
    have hinside := ih.2 piece rest hsplit
    by_cases hc : c = '.'
    · have hdot : (c :: cs).splitOn '.' = [] :: cs.splitOn '.' := by
        rw [List.splitOn_cons_eq_if_modifyHead, if_pos (by simp [hc])]
      have hstart : isStart c = false := by rw [hc]; decide
      refine ⟨by simp [scanDotted, hdot, hstart, startsAndGoesOn], fun p r h => ?_⟩
      obtain ⟨rfl, rfl⟩ := List.cons.inj (hdot.symm.trans h)
      simp [scanDotted, hc, ih.1]
    · have hgoes : (c :: cs).splitOn '.' = (c :: piece) :: rest := by
        rw [List.splitOn_cons_eq_if_modifyHead, if_neg (by simpa using hc), hsplit,
          List.modifyHead_cons]
      refine ⟨by simp [scanDotted, hgoes, hinside, startsAndGoesOn, Bool.and_assoc],
        fun p r h => ?_⟩
      obtain ⟨rfl, rfl⟩ := List.cons.inj (hgoes.symm.trans h)
      simp [scanDotted, hc, hinside, Bool.and_assoc]

/-- A dotted name is one whose pieces between the dots are identifiers. -/
theorem isQualified_iff_split {s : String} :
    isQualified s = true ↔ ∀ piece ∈ split '.' s, isIdentifier piece = true := by
  rw [isQualified, (scanDotted_eq_all s.toList).1, List.all_eq_true, split]
  simp [isIdentifier]

/-- Scanning passes over a part of an identifier or a dot, and goes on. -/
theorem scanDotted_cons {fresh : Bool} {a : Char} {cs : List Char}
    (h : scanDotted fresh (a :: cs) = true) :
    isDottedPart a = true ∧ ∃ next, scanDotted next cs = true := by
  cases fresh with
  | true =>
    simp only [scanDotted, if_true, Bool.and_eq_true] at h
    exact ⟨by rw [isDottedPart, isPart_of_isStart h.1, Bool.true_or], false, h.2⟩
  | false =>
    by_cases ha : a = '.'
    · simp only [scanDotted, Bool.false_eq_true, if_false, ha, if_true] at h
      exact ⟨by rw [ha]; decide, true, h⟩
    · simp only [scanDotted, Bool.false_eq_true, if_false, ha, Bool.and_eq_true] at h
      exact ⟨by rw [isDottedPart, h.1, Bool.true_or], false, h.2⟩

/-- Scanning passes over parts of identifiers and dots only. -/
theorem forall_of_scanDotted {fresh : Bool} {cs : List Char} (h : scanDotted fresh cs = true) :
    ∀ c ∈ cs, isDottedPart c = true := by
  induction cs generalizing fresh with
  | nil => exact fun c hc => absurd hc List.not_mem_nil
  | cons a cs ih =>
    obtain ⟨hpart, next, hnext⟩ := scanDotted_cons h
    intro c hc
    rcases List.mem_cons.mp hc with rfl | hin
    · exact hpart
    · exact ih hnext c hin

/-- Every character of a dotted name is a part of an identifier or a dot. -/
theorem isDottedPart_of_mem_qualified {s : String} (h : isQualified s = true) :
    ∀ c ∈ s.toList, isDottedPart c = true := forall_of_scanDotted h

/-- A name goes on being an identifier with characters that it may go on with. -/
theorem isIdentifier_append {s t : String} (hs : isIdentifier s = true)
    (ht : ∀ c ∈ t.toList, isPart c = true) : isIdentifier (s ++ t) = true := by
  rw [isIdentifier, String.toList_append]
  unfold isIdentifier at hs
  cases hchars : s.toList with
  | nil => rw [hchars] at hs; exact nomatch hs
  | cons c cs =>
    rw [hchars] at hs
    simp only [startsAndGoesOn, List.cons_append, List.all_append, Bool.and_eq_true,
      List.all_eq_true] at hs ⊢
    exact ⟨hs.1, hs.2, ht⟩

/-- An identifier is a dotted name of one piece. -/
theorem isQualified_of_isIdentifier {s : String} (h : isIdentifier s = true) :
    isQualified s = true := by
  have hdot : '.' ∉ s.toList := notMem_of_forall (by decide) (isPart_of_mem_identifier h)
  rw [isQualified_iff_split, split_of_notMem hdot]
  simpa using h

/-- An identifier may follow a dotted name after a dot. -/
theorem isQualified_append {s t : String} (hs : isQualified s = true) (ht : isIdentifier t = true) :
    isQualified (s ++ "." ++ t) = true := by
  have hpieces : split '.' (s ++ "." ++ t) = split '.' s ++ split '.' t := split_append '.' s t
  have htail := isQualified_iff_split.mp (isQualified_of_isIdentifier ht)
  rw [isQualified_iff_split, hpieces]
  intro piece hpiece
  rcases List.mem_append.mp hpiece with hin | hin
  · exact isQualified_iff_split.mp hs piece hin
  · exact htail piece hin

/-- The full name of a class is a dotted name. -/
theorem isQualified_qualify {package simpleName : String}
    (hpackage : package = "" ∨ isQualified package = true)
    (hname : isIdentifier simpleName = true) : isQualified (qualify package simpleName) = true := by
  unfold qualify
  cases hempty : package.isEmpty with
  | true => simpa using isQualified_of_isIdentifier hname
  | false =>
    have hne : package ≠ "" := by simpa [String.isEmpty_iff] using hempty
    simpa using isQualified_append (hpackage.resolve_left hne) hname

end ViewBinding.Name
