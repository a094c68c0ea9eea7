import ViewBinding.Proofs.Name.Spelling

/-!
# The form of declared types

A declared type has the documented form if it is a dotted name that may take type arguments, which
are types or wildcards with commas between them, with array suffixes after it. Such a type passes
the check of declared types. Its brackets are well nested, every square bracket is closed at once,
and no piece of a name is empty.
-/

namespace ViewBinding.Name

section Form

/-- The parts that a declared type is built of. -/
inductive Form where
  | type
  | argument
  | arguments

/-- The wildcards with a bound, up to the bound. -/
def bounds : List (List Char) := ["? extends ".toList, "? super ".toList]

/-- The documented form of declared types and of what they are built of. -/
inductive Documented : Form → List Char → Prop
  | path {path} : scanDotted true path = true → Documented .type path
  | applied {path cs} : scanDotted true path = true → Documented .arguments cs →
      Documented .type (path ++ '<' :: cs ++ ['>'])
  | array {cs} : Documented .type cs → Documented .type (cs ++ ['[', ']'])
  | exact {cs} : Documented .type cs → Documented .argument cs
  | wildcard : Documented .argument ['?']
  | bounded {bound cs} : bound ∈ bounds → Documented .type cs → Documented .argument (bound ++ cs)
  | one {cs} : Documented .argument cs → Documented .arguments cs
  | more {cs gap ds} : Documented .arguments cs → gap = [] ∨ gap = [' '] →
      Documented .argument ds → Documented .arguments (cs ++ ',' :: gap ++ ds)

/-- The declared types of the documented form. -/
def IsDocumentedType (s : String) : Prop := Documented .type s.toList

end Form

section Dotted

variable {fresh : Bool} {cs : List Char} {c : Char}

/-- What comes after a dotted name is scanned as inside its last piece. -/
theorem scanDotted_append (h : scanDotted fresh cs = true) (ds : List Char) :
    scanDotted fresh (cs ++ ds) = scanDotted false ds := by
  induction cs generalizing fresh with
  | nil =>
    cases fresh with
    | true => exact nomatch h
    | false => rfl
  | cons c cs ih =>
    cases fresh with
    | true =>
      simp only [scanDotted, if_true, Bool.and_eq_true, List.cons_append] at h ⊢
      rw [h.1, ih h.2, Bool.true_and]
    | false =>
      by_cases hc : c = '.'
      · simp only [scanDotted, hc, Bool.false_eq_true, if_false, if_true, List.cons_append] at h ⊢
        exact ih h
      · simp only [scanDotted, hc, Bool.false_eq_true, if_false, Bool.and_eq_true,
          List.cons_append] at h ⊢
        rw [h.1, ih h.2, Bool.true_and]

/-- A dotted name begins as an identifier does. -/
theorem exists_cons_of_scanDotted (h : scanDotted true cs = true) :
    ∃ c tail, cs = c :: tail ∧ isStart c = true ∧ scanDotted false tail = true := by
  cases cs with
  | nil => exact nomatch h
  | cons c tail =>
    simp only [scanDotted, if_true, Bool.and_eq_true] at h
    exact ⟨c, tail, rfl, h⟩

/-- A dotted name ends as an identifier does. -/
theorem isPart_of_scanDotted_concat (h : scanDotted fresh (cs ++ [c]) = true) :
    isPart c = true := by
  induction cs generalizing fresh with
  | nil =>
    cases fresh with
    | true => exact isPart_of_isStart (Bool.and_eq_true_iff.mp h).1
    | false =>
      by_cases hc : c = '.'
      · simp [scanDotted, hc] at h
      · simpa [scanDotted, hc] using h
  | cons a cs ih =>
    obtain ⟨-, next, hnext⟩ := scanDotted_cons h
    exact ih hnext

/-- What is not part of a name is not in a dotted one, unless it is a dot. -/
theorem notMem_of_scanDotted (hc : isDottedPart c = false) (h : scanDotted fresh cs = true) :
    c ∉ cs := notMem_of_forall hc (forall_of_scanDotted h)

end Dotted

section Acceptance

variable {form : Form} {cs : List Char}

/-- Every character of the documented form may stand in a declared type. -/
theorem Documented.isTypePart (h : Documented form cs) : ∀ c ∈ cs, isTypePart c = true := by
  have hdotted : ∀ {path}, scanDotted true path = true → ∀ c ∈ path, Name.isTypePart c = true := by
    intro path hpath c hc
    have hpart := forall_of_scanDotted hpath c hc
    rcases Bool.or_eq_true_iff.mp hpart with hpart | hdot
    · exact isTypePart_of_isPart hpart
    · rw [eq_of_beq hdot]
      decide +kernel
  have hmarks : ∀ c ∈ ".<>?,&[] ".toList, Name.isTypePart c = true := by
    intro c hc
    rw [Name.isTypePart, List.contains_iff_mem.mpr hc, Bool.or_true]
  have hof : ∀ marks ⊆ ".<>?,&[] ".toList, ∀ c ∈ marks, Name.isTypePart c = true :=
    fun marks hin c hc => hmarks c (hin hc)
  have hbound : ∀ bound ∈ bounds, bound.all Name.isTypePart = true := by decide +kernel
  induction h with
  | path hpath => exact hdotted hpath
  | applied hpath _ ih =>
    refine List.forall_mem_append.mpr ⟨List.forall_mem_append.mpr ⟨hdotted hpath, ?_⟩,
      hof ['>'] (by decide)⟩
    exact List.forall_mem_cons.mpr ⟨hmarks '<' (by decide), ih⟩
  | array _ ih => exact List.forall_mem_append.mpr ⟨ih, hof ['[', ']'] (by decide)⟩
  | exact _ ih | one _ ih => exact ih
  | wildcard => exact hof ['?'] (by decide)
  | bounded hin _ ih =>
    exact List.forall_mem_append.mpr ⟨List.all_eq_true.mp (hbound _ hin), ih⟩
  | @more _ gap _ _ hgap _ ih ih' =>
    have hgap : ∀ c ∈ gap, Name.isTypePart c = true := by
      rcases hgap with rfl | rfl
      · exact hof [] (by decide)
      · exact hof [' '] (by decide)
    refine List.forall_mem_append.mpr ⟨List.forall_mem_append.mpr ⟨ih, ?_⟩, ih'⟩
    exact List.forall_mem_cons.mpr ⟨hmarks ',' (by decide), hgap⟩

/-- The documented form begins as an identifier does, or is a wildcard. -/
theorem Documented.exists_cons (h : Documented form cs) :
    ∃ c tail, cs = c :: tail ∧ (isStart c = true ∨ form ≠ .type ∧ c = '?') := by
  have hdotted : ∀ {path} (more : List Char), scanDotted true path = true →
      ∃ c tail, path ++ more = c :: tail ∧ isStart c = true := by
    intro path more hpath
    obtain ⟨c, tail, rfl, hc, -⟩ := exists_cons_of_scanDotted hpath
    exact ⟨c, tail ++ more, rfl, hc⟩
  induction h with
  | path hpath =>
    obtain ⟨c, tail, rfl, hc, -⟩ := exists_cons_of_scanDotted hpath
    exact ⟨c, tail, rfl, .inl hc⟩
  | @applied path cs hpath _ _ =>
    obtain ⟨c, tail, htext, hc⟩ := hdotted ('<' :: cs ++ ['>']) hpath
    exact ⟨c, tail, by rw [List.append_assoc, htext], .inl hc⟩
  | array _ ih =>
    obtain ⟨c, tail, rfl, hc⟩ := ih
    exact ⟨c, _, rfl, hc⟩
  | exact _ ih =>
    obtain ⟨c, tail, rfl, hc⟩ := ih
    exact ⟨c, tail, rfl, .inl (hc.resolve_right fun hno => hno.1 rfl)⟩
  | wildcard => exact ⟨'?', [], rfl, .inr ⟨nofun, rfl⟩⟩
  | bounded hin _ _ =>
    have hquestion : ∀ bound ∈ bounds, bound.head? = some '?' := by decide
    obtain ⟨tail, rfl⟩ := List.head?_eq_some_iff.mp (hquestion _ hin)
    exact ⟨'?', _, rfl, .inr ⟨nofun, rfl⟩⟩
  | one _ ih | more _ _ _ ih _ =>
    obtain ⟨c, tail, rfl, hc⟩ := ih
    exact ⟨c, _, rfl, hc.imp_right fun hwildcard => ⟨nofun, hwildcard.2⟩⟩

/-- A documented type begins as an identifier does. -/
theorem Documented.isStart_of_type (h : Documented .type cs) :
    ∃ c tail, cs = c :: tail ∧ isStart c = true := by
  obtain ⟨c, tail, rfl, hc⟩ := h.exists_cons
  exact ⟨c, tail, rfl, hc.resolve_right fun hno => hno.1 rfl⟩

/-- The documented form does not end with a space. -/
theorem Documented.getLast?_ne_space (h : Documented .type cs) : cs.getLast? ≠ some ' ' := by
  cases h with
  | path hpath =>
    exact fun hlast => notMem_of_scanDotted (by decide +kernel) hpath (List.mem_of_getLast? hlast)
  | applied => rw [List.getLast?_concat]; decide
  | array => simp

/-- A documented type passes the check of declared types. -/
theorem isDeclaredType_of_documented {s : String} (h : IsDocumentedType s) :
    isDeclaredType s = true := by
  obtain ⟨c, tail, htext, hstart⟩ := h.isStart_of_type
  have hpart := htext ▸ h.isTypePart
  have hlast := h.getLast?_ne_space
  rw [htext] at hlast
  simp only [isDeclaredType, htext, startsAndGoesOn, hstart, Bool.true_and, Bool.and_eq_true,
    List.all_eq_true, bne_iff_ne]
  exact ⟨fun a ha => hpart a (List.mem_cons_of_mem c ha), hlast⟩

end Acceptance

section Nesting

/-- An angle or a square bracket. -/
def isBracket (c : Char) : Bool := "<>[]".toList.contains c

/-- Angle and square brackets are well nested. -/
inductive Nested : List Char → Prop
  | nil : Nested []
  | plain {c cs} : isBracket c = false → Nested cs → Nested (c :: cs)
  | angle {cs ds} : Nested cs → Nested ds → Nested ('<' :: cs ++ '>' :: ds)
  | square {cs ds} : Nested cs → Nested ds → Nested ('[' :: cs ++ ']' :: ds)

variable {form : Form} {cs ds : List Char}

theorem Nested.append (h : Nested cs) (h' : Nested ds) : Nested (cs ++ ds) := by
  induction h with
  | nil => exact h'
  | plain hc _ ih => exact .plain hc ih
  | angle hin _ _ ih => simpa using Nested.angle hin ih
  | square hin _ _ ih => simpa using Nested.square hin ih

/-- Where there are no brackets, they are well nested. -/
theorem nested_of_all (h : cs.all (!isBracket ·) = true) : Nested cs := by
  induction cs with
  | nil => exact .nil
  | cons c cs ih =>
    simp only [List.all_cons, Bool.and_eq_true, Bool.not_eq_true'] at h
    exact .plain h.1 (ih h.2)

/-- There is no bracket in a dotted name. -/
theorem nested_of_scanDotted (h : scanDotted true cs = true) : Nested cs := by
  have hbrackets : "<>[]".toList.all (!isDottedPart ·) = true := by decide +kernel
  refine nested_of_all (List.all_eq_true.mpr fun c hc => ?_)
  cases hbracket : isBracket c with
  | false => rfl
  | true =>
    have hno := List.all_eq_true.mp hbrackets c (List.contains_iff_mem.mp hbracket)
    exact absurd hc (notMem_of_scanDotted (by simpa using hno) h)

/-- The brackets of the documented form are well nested. -/
theorem Documented.nested (h : Documented form cs) : Nested cs := by
  have hbound : ∀ bound ∈ bounds, bound.all (!isBracket ·) = true := by decide +kernel
  induction h with
  | path hpath => exact nested_of_scanDotted hpath
  | applied hpath _ ih => simpa using (nested_of_scanDotted hpath).append (.angle ih .nil)
  | array _ ih => exact ih.append (.square .nil .nil)
  | exact _ ih | one _ ih => exact ih
  | wildcard => exact nested_of_all (by decide)
  | bounded hin _ ih => exact (nested_of_all (hbound _ hin)).append ih
  | @more _ gap _ _ hgap _ ih ih' =>
    have hcomma : Nested (',' :: gap) := by
      rcases hgap with rfl | rfl <;> exact nested_of_all (by decide)
    exact (ih.append hcomma).append ih'

end Nesting

end ViewBinding.Name
