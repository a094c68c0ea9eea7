import ViewBinding.Proofs.Json.Grammar

/-!
# What readers answer

A reader is told by the texts that it takes something off and by those that it refuses, wherever
they stand in a document. What follows a value begins with a blank, a comma or a closing bracket, so
a number is read to its end. Texts and integers are read as they are spelled, and no other number is
ever read as an integer.
-/

namespace ViewBinding.Json

namespace Reader

variable {α β : Type} {read x : Reader α} {f : α → Reader β} {cs mid rest : List Char} {a : α}
  {b : β}

/-- From the front of a text a reader takes a result and leaves the rest. -/
def Gives (read : Reader α) (cs : List Char) (a : α) (rest : List Char) : Prop :=
  ∀ offset, ∃ offset', read ⟨cs, offset⟩ = .ok (a, ⟨rest, offset'⟩)

/-- A reader takes nothing off the front of a text. -/
def Refuses (read : Reader α) (cs : List Char) : Prop :=
  ∀ offset, ∃ problem, read ⟨cs, offset⟩ = .error problem

/-- A reader takes a result off the front of a text, or refuses it if there is none. -/
def Answers (read : Reader α) (cs : List Char) (answer : Option α) (rest : List Char) : Prop :=
  match answer with
  | some a => Gives read cs a rest
  | none => Refuses read cs

/-- From the front of a text a reader goes on as another does from the rest. -/
def Continues (read : Reader α) (cs : List Char) (next : Reader α) (rest : List Char) : Prop :=
  ∀ offset, ∃ offset', read ⟨cs, offset⟩ = next ⟨rest, offset'⟩

/-- Whatever a reader takes off the front of a text has a property. -/
def Returns (read : Reader α) (cs : List Char) (P : α → Prop) : Prop :=
  ∀ offset a c, read ⟨cs, offset⟩ = .ok (a, c) → P a

section Rules

theorem bind_of_ok {c c' : Cursor} (h : x c = .ok (a, c')) : (x >>= f) c = f a c' := by
  change (x c >>= fun r => f r.1 r.2) = _
  rw [h]
  rfl

theorem bind_of_error {c : Cursor} {problem : Problem} (h : x c = .error problem) :
    (x >>= f) c = .error problem := by
  change (x c >>= fun r => f r.1 r.2) = _
  rw [h]
  rfl

theorem Continues.refl (read : Reader α) (cs : List Char) : Continues read cs read cs :=
  fun offset => ⟨offset, rfl⟩

theorem Continues.trans {read next last : Reader α} (h : Continues read cs next mid)
    (h' : Continues next mid last rest) : Continues read cs last rest := by
  intro offset
  obtain ⟨offset', hread⟩ := h offset
  obtain ⟨offset'', hnext⟩ := h' offset'
  exact ⟨offset'', hread.trans hnext⟩

/-- A reader answers what the one that it goes on with does. -/
theorem Continues.answers {read next : Reader α} {answer : Option α}
    (h : Continues read cs next mid) (h' : Answers next mid answer rest) :
    Answers read cs answer rest := by
  cases answer with
  | some a =>
    intro offset
    obtain ⟨offset', hread⟩ := h offset
    obtain ⟨offset'', hnext⟩ := h' offset'
    exact ⟨offset'', hread.trans hnext⟩
  | none =>
    intro offset
    obtain ⟨offset', hread⟩ := h offset
    obtain ⟨problem, hnext⟩ := h' offset'
    exact ⟨problem, hread.trans hnext⟩

theorem Continues.gives {next : Reader α} (h : Continues read cs next mid)
    (h' : Gives next mid a rest) : Gives read cs a rest :=
  show Answers read cs (some a) rest from h.answers h'

theorem Continues.refuses {next : Reader α} (h : Continues read cs next mid)
    (h' : Refuses next mid) : Refuses read cs :=
  show Answers read cs none mid from h.answers h'

theorem Continues.returns {next : Reader α} {P : α → Prop} (h : Continues read cs next mid)
    (h' : Returns next mid P) : Returns read cs P := by
  intro offset a c hread
  obtain ⟨offset', hnext⟩ := h offset
  exact h' offset' a c (hnext.symm.trans hread)

theorem Gives.pure (a : α) (cs : List Char) : Gives (pure a) cs a cs := fun offset => ⟨offset, rfl⟩

/-- After one reader has taken a result, it is gone on with the next. -/
theorem Gives.continues (h : Gives x cs a mid) : Continues (x >>= f) cs (f a) mid := by
  intro offset
  obtain ⟨offset', hx⟩ := h offset
  exact ⟨offset', bind_of_ok hx⟩

theorem Gives.bind (h : Gives x cs a mid) (h' : Gives (f a) mid b rest) :
    Gives (x >>= f) cs b rest := h.continues.gives h'

/-- What is refused first is refused altogether. -/
theorem Refuses.bind (h : Refuses x cs) : Refuses (x >>= f) cs :=
  fun offset => (h offset).imp fun _ => bind_of_error

/-- What is refused after anything that is taken is refused altogether. -/
theorem Returns.bind_refuses {P : α → Prop} (h : Returns x cs P)
    (h' : ∀ a, P a → ∀ rest, Refuses (f a) rest) : Refuses (x >>= f) cs := by
  intro offset
  cases hx : x ⟨cs, offset⟩ with
  | error problem => exact ⟨problem, bind_of_error hx⟩
  | ok r =>
    obtain ⟨a, rest, offset'⟩ := r
    obtain ⟨problem, hf⟩ := h' a (h offset a _ hx) rest offset'
    exact ⟨problem, (bind_of_ok hx).trans hf⟩

/-- What the last reader returns is returned altogether. -/
theorem returns_bind {P : β → Prop} (h : ∀ a rest, Returns (f a) rest P) :
    Returns (x >>= f) cs P := by
  intro offset b c hread
  cases hx : x ⟨cs, offset⟩ with
  | error problem => exact nomatch (bind_of_error hx).symm.trans hread
  | ok r =>
    obtain ⟨a, rest, offset'⟩ := r
    exact h a rest offset' b c ((bind_of_ok hx).symm.trans hread)

end Rules

section Basic

variable {P : α → Prop}

theorem refuses_fail (fault : Fault) (cs : List Char) : Refuses (fail fault : Reader α) cs :=
  fun _ => ⟨_, rfl⟩

theorem returns_fail (fault : Fault) (cs : List Char) : Returns (fail fault) cs P := nofun

theorem returns_failNext (fault : Fault) (cs : List Char) : Returns (failNext fault) cs P := nofun

theorem returns_failAt (fault : Fault) (offset : Nat) (cs : List Char) :
    Returns (failAt fault offset) cs P := nofun

theorem returns_pure (h : P a) (cs : List Char) : Returns (pure a) cs P := by
  rintro offset a' c ⟨⟩
  exact h

theorem gives_next? (cs : List Char) : Gives next? cs cs.head? cs := fun offset => ⟨offset, rfl⟩

theorem gives_advance (c : Char) (cs : List Char) : Gives advance (c :: cs) () cs :=
  fun _ => ⟨_, rfl⟩

theorem gives_takeWhile (p : Char → Bool) (cs : List Char) :
    Gives (takeWhile p) cs (cs.takeWhile p) (cs.dropWhile p) := fun _ => ⟨_, rfl⟩

theorem gives_remaining (cs : List Char) : Gives remaining cs cs.length cs :=
  fun offset => ⟨offset, rfl⟩

/-- What satisfies a condition is taken off in front of what does not begin with such. -/
theorem gives_takeWhile_append {p : Char → Bool} {taken : List Char} (h : ∀ c ∈ taken, p c = true)
    (hrest : ∀ c, rest.head? = some c → p c = false) :
    Gives (takeWhile p) (taken ++ rest) taken rest := by
  have hstop : rest.takeWhile p = [] ∧ rest.dropWhile p = rest := by
    cases rest with
    | nil => exact ⟨rfl, rfl⟩
    | cons c rest => simp [hrest c rfl]
  have hgives := gives_takeWhile p (taken ++ rest)
  rwa [List.takeWhile_append_of_pos h, List.dropWhile_append_of_pos h, hstop.1, hstop.2,
    List.append_nil] at hgives

/-- Blanks are skipped up to a character that is none, or to the end. -/
theorem gives_skipBlank {blanks : List Char} (h : IsBlank blanks)
    (hrest : ∀ c, rest.head? = some c → isBlank c = false) :
    Gives skipBlank (blanks ++ rest) rest.head? rest :=
  (gives_takeWhile_append h hrest).bind (gives_next? rest)

/-- A word is read where it stands. -/
theorem gives_word (cs rest : List Char) : Gives (word cs) (cs ++ rest) () rest := by
  induction cs with
  | nil => exact .pure () rest
  | cons c cs ih =>
    unfold word
    refine (gives_next? _).bind ?_
    simp only [List.cons_append, List.head?_cons, if_true]
    exact (gives_advance c _).bind ih

end Basic

section Texts

variable {c : Char} {n : Nat}

/-- Four hexadecimal digits are read. -/
theorem gives_hexQuad {ds : List Char} (h : hexQuad? ds = some n) (rest : List Char) :
    Gives hexQuad (ds ++ rest) n rest := by
  intro offset
  obtain ⟨a, b, c, d, rfl⟩ : ∃ a b c d, ds = [a, b, c, d] := by
    unfold hexQuad? at h
    split at h
    · exact ⟨_, _, _, _, rfl⟩
    · exact nomatch h
  have hlong : ¬byteLength (([a, b, c, d] ++ rest).take 4) < 4 := by
    have ha := a.utf8Size_pos
    have hb := b.utf8Size_pos
    have hc := c.utf8Size_pos
    have hd := d.utf8Size_pos
    have hparts : String.ofList (([a, b, c, d] ++ rest).take 4) = String.singleton a ++
        String.singleton b ++ String.singleton c ++ String.singleton d := by
      simp [← String.toList_inj]
    simp only [byteLength, hparts, String.utf8ByteSize_append, String.utf8ByteSize_singleton]
    omega
  have hquad : hexQuad? (([a, b, c, d] ++ rest).take 4) = some n := h
  have hget : (get : Reader Cursor) ⟨[a, b, c, d] ++ rest, offset⟩ =
    .ok (⟨[a, b, c, d] ++ rest, offset⟩, ⟨[a, b, c, d] ++ rest, offset⟩) := rfl
  refine ⟨offset + 4, ?_⟩
  unfold hexQuad
  rw [bind_of_ok hget]
  dsimp only
  rw [if_neg hlong, hquad]
  rfl

/-- The letter before four digits is no other escape. -/
theorem ne_of_escapeLetter? {e : Char} (h : escapeLetter? e = some c) : e ≠ 'u' := by
  rintro rfl
  exact nomatch h

/-- A character that is escaped is read after its backslash. -/
theorem gives_escape (h : CharSpelled ('\\' :: cs) c) (rest : List Char) :
    Gives escape (cs ++ rest) c rest := by
  unfold escape
  generalize hs : '\\' :: cs = all at h
  cases h with
  | plain _ _ hback => exact absurd (List.cons.inj hs).1.symm hback
  | @letter e c hletter =>
    obtain ⟨-, rfl⟩ := List.cons.inj hs
    have hletters := ne_of_escapeLetter? hletter
    refine (gives_next? _).bind ?_
    simp only [List.cons_append, List.head?_cons, hletter]
    exact (gives_advance _ _).bind (.pure c rest)
  | @quad ds n hquad hplain =>
    obtain ⟨-, rfl⟩ := List.cons.inj hs
    refine (gives_next? _).bind ((gives_advance _ _).bind ?_)
    unfold unicodeEscape
    refine (gives_hexQuad hquad rest).bind ?_
    rw [if_neg (by omega), if_neg (by omega)]
    exact .pure _ rest
  | @pair ds es n m hlead hn htrail hm =>
    obtain ⟨-, rfl⟩ := List.cons.inj hs
    have hglue : ∀ (expected : Char) (more : List Char),
        Gives (surrogateGlue expected) (expected :: more) () more := by
      intro expected more
      unfold surrogateGlue
      refine (gives_next? _).bind ?_
      simp only [List.head?_cons, if_true]
      exact gives_advance expected more
    rw [List.cons_append, List.append_assoc, List.cons_append, List.cons_append]
    refine (gives_next? _).bind ((gives_advance _ _).bind ?_)
    unfold unicodeEscape
    refine (gives_hexQuad hlead _).bind ?_
    rw [if_neg (by omega), if_pos hn]
    refine (hglue '\\' _).bind ((hglue 'u' _).bind ((gives_hexQuad htrail rest).bind ?_))
    rw [if_pos hm]
    exact .pure _ rest

/-- One more character is read in front of others. -/
theorem gives_textChars_succ {fuel : Nat} {ds xs : List Char} (hc : CharSpelled cs c)
    (hmore : Gives (textChars fuel) ds xs rest) :
    Gives (textChars (fuel + 1)) (cs ++ ds) (c :: xs) rest := by
  have hescape : ∀ {cs}, CharSpelled ('\\' :: cs) c →
      Gives (textChars (fuel + 1)) ('\\' :: cs ++ ds) (c :: xs) rest := by
    intro cs hc
    unfold textChars
    exact (gives_next? _).bind ((gives_advance _ _).bind ((gives_escape hc _).bind
      (hmore.bind (.pure _ rest))))
  cases hc with
  | plain hcontrol hquote hback =>
    unfold textChars
    refine (gives_next? _).bind ?_
    simp only [List.cons_append, List.nil_append, List.head?_cons]
    rw [if_neg (by simp [hcontrol])]
    exact (gives_advance _ _).bind (hmore.bind (.pure _ rest))
  | letter hletter => exact hescape (.letter hletter)
  | quad hquad hplain => exact hescape (.quad hquad hplain)
  | pair hlead hn htrail hm => exact hescape (.pair hlead hn htrail hm)

/-- The characters of a text are read up to the closing quote. -/
theorem gives_textChars {xs : List Char} (h : CharsSpelled cs xs) {fuel : Nat}
    (hfuel : xs.length < fuel) (rest : List Char) :
    Gives (textChars fuel) (cs ++ '"' :: rest) xs rest := by
  induction h generalizing fuel with
  | nil =>
    obtain ⟨fuel, rfl⟩ := Nat.exists_eq_add_of_lt hfuel
    unfold textChars
    exact (gives_next? _).bind ((gives_advance _ _).bind (.pure [] rest))
  | cons hc _ ih =>
    cases fuel with
    | zero => exact absurd hfuel (Nat.not_lt_zero _)
    | succ fuel =>
      rw [List.append_assoc]
      exact gives_textChars_succ hc (ih (Nat.lt_of_succ_lt_succ hfuel))

/-- The spelling of a text is no shorter than the text. -/
theorem length_le_of_charsSpelled {xs : List Char} (h : CharsSpelled cs xs) :
    xs.length ≤ cs.length := by
  induction h with
  | nil => exact Nat.le_refl 0
  | @cons cs c ds xs hc _ ih =>
    have hpos : 0 < cs.length := List.length_pos_iff.mpr (by cases hc <;> simp)
    rw [List.length_append, List.length_cons]
    omega

/-- A text is read after its opening quote. -/
theorem gives_textBody {s : String} (h : CharsSpelled cs s.toList) (rest : List Char) :
    Gives textBody (cs ++ '"' :: rest) s rest := by
  have hlength := length_le_of_charsSpelled h
  unfold textBody
  refine (gives_remaining _).bind ((gives_textChars h ?_ rest).bind ?_)
  · rw [List.length_append]
    omega
  · rw [String.ofList_toList]
    exact .pure s rest

end Texts

/-- What follows a value begins with a blank, a comma or a closing bracket, if there is anything. -/
def Follows (rest : List Char) : Prop :=
  ∀ c, rest.head? = some c → isBlank c = true ∨ c = ',' ∨ c = ']' ∨ c = '\x7d'

/-- Is a number no integer? -/
def IsDecimal (n : Numeral) : Prop := ∃ negative x, n = .decimal negative x

section Decimals

variable {negative : Bool} {significand dropped : Nat} {start : Int}

theorem returns_scaled : Returns (scaled negative significand start) cs IsDecimal := by
  unfold scaled
  split
  · exact returns_pure ⟨_, _, rfl⟩ cs
  · exact returns_fail _ cs

/-- A number with an exponent is no integer. -/
theorem returns_exponent :
    Returns (exponent negative significand start) cs IsDecimal := by
  unfold exponent
  refine returns_bind fun _ _ => returns_bind fun down _ => returns_bind fun next _ => ?_
  split
  · exact returns_fail _ _
  · split
    · refine returns_bind fun before _ => returns_bind fun ds _ => ?_
      split
      · exact returns_scaled
      · split
        · exact returns_failAt _ _ _
        · exact returns_pure ⟨_, _, rfl⟩ _
    · exact returns_failNext _ _

theorem returns_exponentOrEnd :
    Returns (exponentOrEnd negative significand start) cs IsDecimal := by
  unfold exponentOrEnd
  refine returns_bind fun next _ => ?_
  split
  · exact returns_exponent
  · exact returns_exponent
  · exact returns_scaled

/-- Nor is one with a fraction. -/
theorem returns_fraction :
    Returns (fraction negative significand start) cs IsDecimal := by
  unfold fraction
  refine returns_bind fun _ _ => returns_bind fun ds _ => ?_
  split
  · refine returns_bind fun next _ => ?_
    split
    · exact returns_failNext _ _
    · exact returns_failNext _ _
  · exact returns_exponentOrEnd

/-- Nor is one with more digits than fit 64 bits. -/
theorem returns_afterLongDigits :
    Returns (afterLongDigits negative significand dropped) cs IsDecimal := by
  unfold afterLongDigits
  refine returns_bind fun next _ => ?_
  split
  · exact returns_fraction
  · exact returns_exponent
  · exact returns_exponent
  · exact returns_scaled

end Decimals

section Numbers

variable {negative : Bool} {significand : Nat} {n : Int} {ds tail : List Char}

/-- What follows a value does not go on with a number. -/
theorem Follows.ends_number (h : Follows rest) {c : Char} (hc : rest.head? = some c) :
    c.isDigit = false ∧ c ≠ '.' ∧ c ≠ 'e' ∧ c ≠ 'E' := by
  rcases h c hc with hblank | rfl | rfl | rfl
  · simp only [isBlank, Bool.or_eq_true, beq_iff_eq] at hblank
    rcases hblank with ((rfl | rfl) | rfl) | rfl <;> decide
  all_goals decide

/-- Digits make a number no smaller. -/
theorem le_foldl_digits (ds : List Char) (n : Nat) :
    n ≤ ds.foldl (fun n d => n * 10 + digitValue d) n := by
  induction ds generalizing n with
  | nil => exact Nat.le_refl n
  | cons d ds ih =>
    have hstep : n ≤ n * 10 + digitValue d := by omega
    exact Nat.le_trans hstep (ih _)

/-- Digits are accumulated to the end if the number fits. -/
theorem accumulate_of_lt {limit n : Nat}
    (h : ds.foldl (fun n d => n * 10 + digitValue d) n < limit) :
    accumulate limit n ds = (ds.foldl (fun n d => n * 10 + digitValue d) n, []) := by
  induction ds generalizing n with
  | nil => rfl
  | cons d ds ih =>
    have hle := le_foldl_digits ds (n * 10 + digitValue d)
    rw [List.foldl_cons] at h ⊢
    unfold accumulate
    rw [if_pos (Nat.lt_of_le_of_lt hle h), ih h]

/-- Some digits are left if the number does not fit. -/
theorem accumulate_of_not_lt {limit n : Nat} (hstart : n < limit)
    (h : ¬ds.foldl (fun n d => n * 10 + digitValue d) n < limit) :
    ∃ m d left, accumulate limit n ds = (m, d :: left) := by
  induction ds generalizing n with
  | nil => exact absurd hstart h
  | cons d ds ih =>
    unfold accumulate
    by_cases hfits : n * 10 + digitValue d < limit
    · rw [if_pos hfits]
      exact ih hfits h
    · rw [if_neg hfits]
      exact ⟨n, d, ds, rfl⟩

/-- After the digits of a whole number it is gone on with their value if it fits 64 bits, and as far
as it does otherwise. -/
theorem continues_numeral (negative : Bool) (h : IsWhole ds)
    (htail : ∀ c, tail.head? = some c → c.isDigit = false) :
    (decimalValue ds < UInt64.size ∧
      Continues (numeral negative) (ds ++ tail) (afterDigits negative (decimalValue ds)) tail) ∨
    (¬decimalValue ds < UInt64.size ∧ ∃ m dropped,
      Continues (numeral negative) (ds ++ tail) (afterLongDigits negative m dropped) tail) := by
  obtain ⟨d, more, rfl⟩ := List.exists_cons_of_ne_nil h.digits.1
  have hdigit := h.digits.2 d (List.mem_cons_self ..)
  unfold numeral
  by_cases hzero : d = '0'
  · subst hzero
    obtain rfl : more = [] := (List.cons.inj (h.leading rfl)).2
    refine .inl ⟨by decide, (gives_next? _).continues.trans ((gives_advance _ _).continues.trans
      ((gives_next? tail).continues.trans ?_))⟩
    cases hhead : tail.head? with
    | none => exact .refl _ _
    | some c =>
      simp only [htail c hhead, Bool.false_eq_true, if_false]
      exact .refl _ _
  · have hdigits : Gives digits (d :: more ++ tail) (d :: more) tail :=
      gives_takeWhile_append h.digits.2 htail
    have hafter : ∀ {n left}, accumulate UInt64.size 0 (d :: more) = (n, left) →
        Continues (numeral negative) (d :: more ++ tail)
          (if left.isEmpty then afterDigits negative n
            else afterLongDigits negative n left.length) tail := by
      intro n left haccumulate
      unfold numeral
      refine (gives_next? _).continues.trans ?_
      simp only [List.cons_append, List.head?_cons, hdigit, if_true]
      refine hdigits.continues.trans ?_
      rw [haccumulate]
      cases left <;> exact .refl _ _
    by_cases hfits : decimalValue (d :: more) < UInt64.size
    · exact .inl ⟨hfits, hafter (accumulate_of_lt hfits)⟩
    · obtain ⟨m, x, left, haccumulate⟩ := accumulate_of_not_lt (by decide) hfits
      exact .inr ⟨hfits, m, _, hafter haccumulate⟩

/-- In front of what follows a value, a number ends with its digits. -/
theorem continues_afterDigits (h : Follows rest) :
    Continues (afterDigits negative significand) rest (wholeNumber negative significand) rest := by
  unfold afterDigits
  refine (gives_next? rest).continues.trans ?_
  split
  · rename_i hhead
    exact absurd rfl (h.ends_number hhead).2.1
  · rename_i hhead
    exact absurd rfl (h.ends_number hhead).2.2.1
  · rename_i hhead
    exact absurd rfl (h.ends_number hhead).2.2.2
  · exact .refl _ _

/-- An integer that fits is read. -/
theorem gives_numeral (h : IsWhole ds) (hn : wholeInteger? negative (decimalValue ds) = some n)
    (hrest : Follows rest) : Gives (numeral negative) (ds ++ rest) (.integer n) rest := by
  have htail := fun c (hc : rest.head? = some c) => (hrest.ends_number hc).1
  have hwhole : Gives (wholeNumber negative (decimalValue ds)) rest (.integer n) rest ∧
      decimalValue ds < UInt64.size := by
    unfold wholeInteger? at hn
    unfold wholeNumber
    cases negative with
    | false =>
      rw [if_neg Bool.false_ne_true] at hn
      split at hn
      · rename_i hfits
        obtain rfl := Option.some.inj hn
        exact ⟨.pure _ rest, hfits⟩
      · exact nomatch hn
    | true =>
      rw [if_pos rfl] at hn
      split at hn
      · exact nomatch hn
      · rename_i hfits
        obtain rfl := Option.some.inj hn
        rw [if_neg (by simp), if_neg hfits]
        have hsize : UInt64.size = 18446744073709551616 := rfl
        exact ⟨.pure _ rest, by omega⟩
  rcases continues_numeral negative h htail with ⟨-, hdigits⟩ | ⟨hlarge, -⟩
  · exact (hdigits.trans (continues_afterDigits hrest)).gives hwhole.1
  · exact absurd hwhole.2 hlarge

/-- Any other number is read as no integer. -/
theorem returns_numeral {fraction exponent : List Char} (h : IsWhole ds)
    (hfraction : IsFraction fraction) (hexponent : IsExponent exponent)
    (hnone : fraction = [] → exponent = [] → wholeInteger? negative (decimalValue ds) = none)
    (hrest : Follows rest) :
    Returns (numeral negative) (ds ++ (fraction ++ (exponent ++ rest))) IsDecimal := by
  have htail : ∀ c, (fraction ++ (exponent ++ rest)).head? = some c → c.isDigit = false := by
    intro c hc
    cases hfraction with
    | some => exact Option.some.inj hc ▸ rfl
    | none =>
      cases hexponent with
      | none => exact (hrest.ends_number hc).1
      | some he =>
        obtain rfl := Option.some.inj hc
        rcases he with rfl | rfl <;> rfl
  rcases continues_numeral negative h htail with ⟨hfits, hdigits⟩ | ⟨-, m, k, hdigits⟩
  · refine hdigits.returns ?_
    have hafter : ∀ (c : Char) (more : List Char), c = '.' ∨ c = 'e' ∨ c = 'E' →
        Returns (afterDigits negative (decimalValue ds)) (c :: more) IsDecimal := by
      intro c more hc
      unfold afterDigits
      refine (gives_next? _).continues.returns ?_
      rcases hc with rfl | rfl | rfl
      · exact returns_fraction
      · exact returns_exponent
      · exact returns_exponent
    cases hfraction with
    | some => exact hafter _ _ (.inl rfl)
    | none =>
      cases hexponent with
      | some he => exact hafter _ _ (.inr he)
      | none =>
        refine (continues_afterDigits hrest).returns ?_
        have hinteger := hnone rfl rfl
        unfold wholeInteger? at hinteger
        unfold wholeNumber
        cases negative with
        | false =>
          rw [if_neg Bool.false_ne_true, if_pos hfits] at hinteger
          exact nomatch hinteger
        | true =>
          rw [if_pos rfl] at hinteger
          split at hinteger
          · rename_i hlarge
            rw [if_neg (by simp), if_pos hlarge]
            exact returns_scaled
          · exact nomatch hinteger
  · exact hdigits.returns returns_afterLongDigits

end Numbers

end Reader

end ViewBinding.Json
