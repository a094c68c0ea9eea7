import Mathlib.Computability.Language
import ViewBinding.Proofs.Name.Spelling

/-!
# Languages of names

Identifiers and dotted names are regular languages. An identifier is a starting character and any
number of characters that may go on; a dotted name is an identifier and any number of further ones
with a dot in front of each. The checks of names recognize these two languages.

Whether a word is one of several that are joined by a separator can be told by splitting it, if the
words of the language do not hold the separator: then the separators of the word are those between
its parts.
-/

namespace ViewBinding.Name

open Text
open scoped Computability

/-- The words of one character, which satisfies the class. -/
def oneOf (p : Char → Bool) : Language Char := {w | ∃ c, p c = true ∧ w = [c]}

/-- A starting character, then characters that may go on. -/
def identifiers : Language Char := oneOf isStart * (oneOf isPart)∗

/-- An identifier, then identifiers that follow a dot. -/
def dottedNames : Language Char := identifiers * (oneOf (· == '.') * identifiers)∗

variable {w : List Char}

theorem mem_oneOf {p : Char → Bool} : w ∈ oneOf p ↔ ∃ c, p c = true ∧ w = [c] := Iff.rfl

/-- A word is made of words of one character each exactly if all its characters satisfy the
class. -/
theorem mem_kstar_oneOf {p : Char → Bool} : w ∈ (oneOf p)∗ ↔ ∀ c ∈ w, p c = true := by
  rw [Language.mem_kstar]
  constructor
  · rintro ⟨words, rfl, hwords⟩ c hc
    obtain ⟨word, hword, hin⟩ := List.mem_flatten.mp hc
    obtain ⟨d, hd, rfl⟩ := hwords word hword
    rwa [List.mem_singleton.mp hin]
  · intro h
    refine ⟨w.map fun c => [c], ?_, ?_⟩
    · rw [← List.flatMap_def, List.flatMap_singleton']
    · intro word hword
      obtain ⟨c, hc, rfl⟩ := List.mem_map.mp hword
      exact ⟨c, h c hc, rfl⟩

/-- The words of the identifiers are those that the check passes over. -/
theorem mem_identifiers : w ∈ identifiers ↔ startsAndGoesOn isPart w = true := by
  simp only [identifiers, Language.mem_mul, mem_oneOf, mem_kstar_oneOf]
  cases w with
  | nil => simp [startsAndGoesOn]
  | cons c cs =>
    rw [startsAndGoesOn, Bool.and_eq_true, List.all_eq_true]
    constructor
    · rintro ⟨start, ⟨d, hd, rfl⟩, rest, hrest, heq⟩
      obtain ⟨rfl, rfl⟩ := List.cons.inj heq
      exact ⟨hd, hrest⟩
    · rintro ⟨hc, hcs⟩
      exact ⟨[c], ⟨c, hc, rfl⟩, cs, hcs, rfl⟩

/-- Identifiers hold no dot. -/
theorem dot_notMem_of_mem_identifiers (h : w ∈ identifiers) : '.' ∉ w := by
  have hparts : ∀ c ∈ w, isPart c = true :=
    forall_of_startsAndGoesOn (fun _ => isPart_of_isStart) (mem_identifiers.mp h)
  exact notMem_of_forall (by decide) hparts

/-- Joined words are the first one, and the others with a separator in front of each. -/
theorem intercalate_cons_eq (separator : Char) (first : List Char) (words : List (List Char)) :
    [separator].intercalate (first :: words) =
      first ++ (words.map (separator :: ·)).flatten := by
  induction words generalizing first with
  | nil => simp
  | cons second words ih =>
    rw [List.intercalate_cons_cons, ih, List.map_cons, List.flatten_cons, List.append_assoc]
    rfl

section Separated

variable {l : Language Char} {separator : Char}

/-- A separator and a word of the language behind it. -/
theorem mem_oneOf_mul : w ∈ oneOf (· == separator) * l ↔ ∃ v ∈ l, w = separator :: v := by
  simp only [Language.mem_mul, mem_oneOf, beq_iff_eq]
  constructor
  · rintro ⟨head, ⟨c, rfl, rfl⟩, v, hv, rfl⟩
    exact ⟨v, hv, rfl⟩
  · rintro ⟨v, hv, rfl⟩
    exact ⟨[separator], ⟨separator, rfl, rfl⟩, v, hv, rfl⟩

/-- Any number of words of the language, with a separator in front of each. -/
theorem mem_kstar_oneOf_mul : w ∈ (oneOf (· == separator) * l)∗ ↔
    ∃ words : List (List Char), (∀ v ∈ words, v ∈ l) ∧
      w = (words.map (separator :: ·)).flatten := by
  constructor
  · rintro ⟨parts, rfl, hparts⟩
    refine ⟨parts.map List.tail, ?_, ?_⟩
    · intro v hv
      obtain ⟨part, hpart, rfl⟩ := List.mem_map.mp hv
      obtain ⟨v, hin, rfl⟩ := mem_oneOf_mul.mp (hparts part hpart)
      exact hin
    · have hsame : parts.map ((separator :: ·) ∘ List.tail) = parts.map id := by
        apply List.map_congr_left
        intro part hpart
        obtain ⟨v, -, rfl⟩ := mem_oneOf_mul.mp (hparts part hpart)
        rfl
      rw [List.map_map, hsame, List.map_id]
  · rintro ⟨words, hwords, rfl⟩
    apply Language.join_mem_kstar
    intro part hpart
    obtain ⟨v, hv, rfl⟩ := List.mem_map.mp hpart
    exact mem_oneOf_mul.mpr ⟨v, hwords v hv, rfl⟩

/-- A word is made of words of the language with separators between them exactly if its pieces
between the separators are in the language, whose words do not hold the separator. -/
theorem mem_mul_kstar_iff_splitOn (hl : ∀ v ∈ l, separator ∉ v) :
    w ∈ l * (oneOf (· == separator) * l)∗ ↔ ∀ piece ∈ w.splitOn separator, piece ∈ l := by
  constructor
  · intro h
    obtain ⟨first, hfirst, rest, hrest, rfl⟩ := Language.mem_mul.mp h
    obtain ⟨words, hwords, rfl⟩ := mem_kstar_oneOf_mul.mp hrest
    -- no word holds the separator, so splitting what is joined gives the words back
    have hall : ∀ v ∈ first :: words, v ∈ l := List.forall_mem_cons.mpr ⟨hfirst, hwords⟩
    rw [← intercalate_cons_eq, List.splitOn_intercalate separator (fun v hv => hl v (hall v hv))
      (List.cons_ne_nil first words)]
    exact hall
  · intro h
    obtain ⟨first, words, hsplit⟩ := List.exists_cons_of_ne_nil (List.splitOn_ne_nil separator w)
    have hjoined : [separator].intercalate (w.splitOn separator) = w :=
      List.intercalate_splitOn separator
    rw [hsplit, List.forall_mem_cons] at h
    rw [← hjoined, hsplit, intercalate_cons_eq]
    exact Language.append_mem_mul h.1 (mem_kstar_oneOf_mul.mpr ⟨words, h.2, rfl⟩)

end Separated

/-- The check of identifiers recognizes them. -/
theorem isIdentifier_iff_mem {s : String} : isIdentifier s = true ↔ s.toList ∈ identifiers :=
  mem_identifiers.symm

/-- The check of dotted names recognizes them. -/
theorem isQualified_iff_mem {s : String} : isQualified s = true ↔ s.toList ∈ dottedNames := by
  rw [dottedNames, mem_mul_kstar_iff_splitOn fun _ => dot_notMem_of_mem_identifiers,
    isQualified_iff_split, split, List.forall_mem_map]
  apply forall₂_congr
  intro piece _
  rw [isIdentifier_iff_mem, String.toList_ofList]

end ViewBinding.Name
