import Mathlib.Data.List.Forall2
import ViewBinding.Json.Decoder
import ViewBinding.Proofs.Json.Reading

/-!
# What values decode to

A decoder takes a value off the front of a document if it is of the type wanted, and refuses it
otherwise, however the value is spelled: texts, integers of 32 bits, values that may be `null`, and
lists of what is decoded.
-/

namespace ViewBinding.Json

namespace Value

variable {α : Type}

/-- A text. -/
def text? : Value → Option String
  | .text s => some s
  | _ => none

/-- A boolean. -/
def boolean? : Value → Option Bool
  | .boolean b => some b
  | _ => none

/-- An integer of 32 bits. -/
def int32? : Value → Option Int
  | .number (.integer n) => if -2147483648 ≤ n ∧ n ≤ 2147483647 then some n else none
  | _ => none

/-- A value or `null`. -/
def optional? (decode : Value → Option α) : Value → Option (Option α)
  | .null => some none
  | v => (decode v).map some

/-- A list of values. -/
def list? (decode : Value → Option α) : Value → Option (List α)
  | .list vs => vs.mapM decode
  | _ => none

/-- The value is the text. -/
def IsText (v : Value) (s : String) : Prop := v = .text s

/-- The value is the integer, which fits 32 bits. -/
def IsInt32 (v : Value) (n : Int) : Prop :=
  v = .number (.integer n) ∧ -2147483648 ≤ n ∧ n ≤ 2147483647

/-- The value is a list whose items relate to these in order. -/
def IsList (R : Value → α → Prop) (v : Value) (as : List α) : Prop :=
  ∃ vs, v = .list vs ∧ List.Forall₂ R vs as

/-- The value is an object whose members relate to this. -/
def IsObject (R : List (String × Value) → α → Prop) (v : Value) (a : α) : Prop :=
  ∃ ms, v = .object ms ∧ R ms a

/-- Do the items satisfy a condition, if the value is a list? -/
def ForItems (P : Value → Prop) (v : Value) : Prop := ∀ vs, v = .list vs → ∀ item ∈ vs, P item

variable {v : Value} {c : Char}

theorem OpensWith.eq_null (h : v.OpensWith 'n') : v = .null := by
  cases v with
  | null => rfl
  | boolean b => cases b <;> simp [OpensWith] at h
  | _ => simp [OpensWith] at h

theorem OpensWith.exists_text (h : v.OpensWith '"') : ∃ s, v = .text s := by
  cases v with
  | text s => exact ⟨s, rfl⟩
  | boolean b => cases b <;> simp [OpensWith] at h
  | _ => simp [OpensWith] at h

theorem OpensWith.exists_boolean (h : v.OpensWith c) (hc : c = 't' ∨ c = 'f') :
    ∃ b, v = .boolean b := by
  cases v with
  | boolean b => exact ⟨b, rfl⟩
  | _ => rcases hc with rfl | rfl <;> simp [OpensWith] at h

theorem OpensWith.exists_list (h : v.OpensWith '[') : ∃ vs, v = .list vs := by
  cases v with
  | list vs => exact ⟨vs, rfl⟩
  | boolean b => cases b <;> simp [OpensWith] at h
  | _ => simp [OpensWith] at h

theorem OpensWith.exists_number (h : v.OpensWith c) (hc : c = '-' ∨ c.isDigit = true) :
    ∃ n, v = .number n := by
  cases v with
  | number n => exact ⟨n, rfl⟩
  | boolean b => cases b <;> rcases hc with rfl | hc <;> simp_all [OpensWith]
  | _ => rcases hc with rfl | hc <;> simp_all [OpensWith]

/-- What may be `null` decodes as before if it is not. -/
theorem optional?_of_ne_null (h : v ≠ .null) (decode : Value → Option α) :
    v.optional? decode = (decode v).map some := by
  cases v with
  | null => exact absurd rfl h
  | _ => rfl

theorem text?_eq_some_iff (v : Value) (s : String) : v.text? = some s ↔ v.IsText s := by
  cases v <;> simp [text?, IsText]

theorem int32?_eq_some_iff (v : Value) (n : Int) : v.int32? = some n ↔ v.IsInt32 n := by
  constructor
  · intro h
    unfold int32? at h
    split at h
    · split at h
      · rename_i hn
        obtain rfl := Option.some.inj h
        exact ⟨rfl, hn⟩
      · exact nomatch h
    · exact nomatch h
  · rintro ⟨rfl, hn⟩
    exact if_pos hn

/-- Items decode one after the other. -/
theorem mapM_eq_some_iff {decode : Value → Option α} {R : Value → α → Prop}
    (h : ∀ v a, decode v = some a ↔ R v a) {vs : List Value} {as : List α} :
    vs.mapM decode = some as ↔ List.Forall₂ R vs as := by
  induction vs generalizing as with
  | nil => simp [List.forall₂_nil_left_iff, eq_comm]
  | cons v vs ih =>
    rw [List.mapM_cons]
    constructor
    · intro has
      obtain ⟨a, ha, has⟩ := Option.bind_eq_some_iff.mp has
      obtain ⟨more, hmore, has⟩ := Option.bind_eq_some_iff.mp has
      obtain rfl : a :: more = as := Option.some.inj has
      exact .cons ((h v a).mp ha) (ih.mp hmore)
    · rintro (_ | ⟨ha, hmore⟩)
      rw [(h _ _).mpr ha, ih.mpr hmore]
      rfl

/-- A list decodes to what its items do. -/
theorem list?_eq_some_iff {decode : Value → Option α} {R : Value → α → Prop}
    (h : ∀ v a, decode v = some a ↔ R v a) (v : Value) (as : List α) :
    v.list? decode = some as ↔ v.IsList R as := by
  cases v <;> simp [list?, IsList, mapM_eq_some_iff h]

end Value

theorem IsBlank.nil : IsBlank [] := nofun

section Separation

variable {α : Type} {P : List Char → α → Prop} {cs : List Char} {as : List α}

/-- What is separated begins as its first part does. -/
theorem Separated.exists_cons {Q : Char → Prop} (h : Separated P cs as)
    (hP : ∀ {cs a}, P cs a → ∃ c tail, cs = c :: tail ∧ Q c) : ∃ c tail, cs = c :: tail ∧ Q c := by
  cases h with
  | one ha | cons ha =>
    obtain ⟨c, tail, rfl, hc⟩ := hP ha
    exact ⟨c, _, rfl, hc⟩

/-- There are no more parts than characters. -/
theorem Separated.length_le (h : Separated P cs as) (hP : ∀ {cs a}, P cs a → cs ≠ []) :
    as.length ≤ cs.length := by
  induction h with
  | one ha =>
    have hpos := List.length_pos_iff.mpr (hP ha)
    simp only [List.length_append, List.length_cons, List.length_nil]
    omega
  | cons ha _ _ _ ih =>
    have hpos := List.length_pos_iff.mpr (hP ha)
    simp only [List.length_append, List.length_cons]
    omega

end Separation

namespace Reader

variable {α β : Type} {read x : Reader α} {f : α → Reader β} {decode : Value → Option α}
  {domain : Value → Prop} {blanks cs mid rest tail : List Char} {v : Value} {c : Char}

section Answering

variable {answer : Option α}

/-- One answer after another. -/
theorem Answers.bind {next : α → Option β} (h : Answers x cs answer mid)
    (h' : ∀ a, answer = some a → Answers (f a) mid (next a) rest) :
    Answers (x >>= f) cs (answer.bind next) rest := by
  cases answer with
  | some a => exact (Gives.continues h).answers (h' a rfl)
  | none => exact Refuses.bind h

theorem Answers.map (g : α → β) (h : Answers x cs answer rest) :
    Answers (g <$> x) cs (answer.map g) rest := by
  rw [map_eq_pure_bind, Option.map_eq_bind]
  exact h.bind fun a _ => Gives.pure (g a) rest

end Answering

section Blanks

theorem Follows.append (h : IsBlank blanks) (hrest : Follows rest) : Follows (blanks ++ rest) := by
  intro c hc
  cases blanks with
  | nil => exact hrest c hc
  | cons b _ =>
    obtain rfl : b = c := Option.some.inj hc
    exact .inl (h b (List.mem_cons_self ..))

theorem follows_cons (h : c = ',' ∨ c = ']' ∨ c = '\x7d') : Follows (c :: rest) :=
  fun _ hc => Option.some.inj hc ▸ .inr h

/-- Blanks are skipped up to a character that is none. -/
theorem gives_skipBlank_cons (h : IsBlank blanks) (hc : isBlank c = false) :
    Gives skipBlank (blanks ++ c :: tail) (some c) (c :: tail) :=
  gives_skipBlank h fun _ hd => Option.some.inj hd ▸ hc

/-- A value is read from its first character on. -/
theorem continues_value {read : Char → Reader α} (h : IsBlank blanks) (hc : isBlank c = false) :
    Continues (value read) (blanks ++ c :: tail) (read c) (c :: tail) := by
  unfold value
  exact (gives_skipBlank_cons h hc).continues

end Blanks

/-- Wherever a value is spelled, after blanks and in front of what may follow it, a reader answers
what the value decodes to. This is told of the values that satisfy a condition. -/
def Decodes (read : Reader α) (decode : Value → Option α) (domain : Value → Prop) : Prop :=
  ∀ ⦃blanks cs v rest⦄, IsBlank blanks → Spelled cs v → domain v → Follows rest →
    Answers read (blanks ++ (cs ++ rest)) (decode v) rest

/-- A value of another type is refused. -/
theorem refuses_wrongType (wanted : String) (c : Char) (cs : List Char) :
    Refuses (wrongType wanted c : Reader α) cs :=
  Returns.bind_refuses (fun _ _ _ _ => trivial) fun _ _ _ => refuses_fail _ _

/-- A value is refused if a reader refuses whatever begins as it does. -/
theorem refuses_value {read : Char → Reader α} (hblanks : IsBlank blanks) (hs : Spelled cs v)
    (h : ∀ c, v.OpensWith c → ∀ cs, Refuses (read c) cs) :
    Refuses (value read) (blanks ++ (cs ++ rest)) := by
  obtain ⟨c, tail, rfl, hopens⟩ := hs.exists_cons
  exact (continues_value hblanks hopens.isBlank_eq_false).refuses (h c hopens _)

section Scalars

/-- Texts are read, and nothing else is. -/
theorem decodes_text : Decodes text Value.text? fun _ => True := by
  intro blanks cs v rest hblanks hs _ _
  unfold text
  by_cases hv : ∃ s, v = .text s
  · obtain ⟨s, rfl⟩ := hv
    obtain ⟨hchars⟩ := spelled_text_iff.mp hs
    rw [List.append_assoc]
    exact (continues_value hblanks (by decide)).gives
      ((gives_advance '"' _).bind (gives_textBody hchars rest))
  · have hnone : v.text? = none := by
      cases v with
      | text s => exact absurd ⟨s, rfl⟩ hv
      | _ => rfl
    rw [hnone]
    refine refuses_value hblanks hs fun c hopens cs => ?_
    have hc : c ≠ '"' := by
      rintro rfl
      exact hv hopens.exists_text
    simp only
    exact refuses_wrongType _ _ _

/-- Booleans are read, and nothing else is. -/
theorem decodes_boolean : Decodes boolean Value.boolean? fun _ => True := by
  intro blanks cs v rest hblanks hs _ _
  unfold boolean
  by_cases hv : ∃ b, v = .boolean b
  · obtain ⟨b, rfl⟩ := hv
    obtain rfl := spelled_boolean_iff.mp hs
    cases b with
    | true =>
      exact (continues_value hblanks (by decide)).gives ((gives_advance 't' _).bind
        ((gives_word "rue".toList rest).bind (.pure true rest)))
    | false =>
      exact (continues_value hblanks (by decide)).gives ((gives_advance 'f' _).bind
        ((gives_word "alse".toList rest).bind (.pure false rest)))
  · have hnone : v.boolean? = none := by
      cases v with
      | boolean b => exact absurd ⟨b, rfl⟩ hv
      | _ => rfl
    rw [hnone]
    refine refuses_value hblanks hs fun c hopens cs => ?_
    obtain ⟨htrue, hfalse⟩ := not_or.mp fun hc => hv (hopens.exists_boolean hc)
    simp only
    exact refuses_wrongType _ _ _

/-- A number is read after its sign. -/
theorem continues_int32 {negative : Bool} {ds : List Char} (hblanks : IsBlank blanks)
    (h : IsWhole ds) (rest : List Char) :
    Continues int32 (blanks ++ (writtenSign negative ++ ds ++ rest))
      (numeral negative >>= int32OfNumeral) (ds ++ rest) := by
  unfold int32
  cases negative with
  | true => exact (continues_value hblanks (by decide)).trans (gives_advance '-' _).continues
  | false =>
    obtain ⟨d, more, rfl⟩ := List.exists_cons_of_ne_nil h.digits.1
    have hd := h.digits.2 d (List.mem_cons_self ..)
    obtain ⟨hblank, -, -, -, -, -, -, hsign⟩ := ne_of_isDigit hd
    refine (continues_value hblanks hblank).trans ?_
    simp only [hd, if_true]
    exact .refl _ _

/-- Integers of 32 bits are read, and nothing else is. -/
theorem decodes_int32 : Decodes int32 Value.int32? fun _ => True := by
  intro blanks cs v rest hblanks hs _ hrest
  by_cases hv : ∃ n, v = .number n
  · obtain ⟨n, rfl⟩ := hv
    cases spelled_number_iff.mp hs with
    | @integer negative ds n hwhole hinteger =>
      refine (continues_int32 hblanks hwhole rest).answers
        ((gives_numeral hwhole hinteger hrest).continues.answers ?_)
      unfold int32OfNumeral Value.int32?
      by_cases hn : -2147483648 ≤ n ∧ n ≤ 2147483647
      · simp only [if_pos hn]
        exact .pure n rest
      · simp only [if_neg hn]
        exact refuses_fail _ _
    | @decimal negative ds fraction exponent x hwhole hfraction hexponent hnone =>
      rw [List.append_assoc _ exponent, List.append_assoc _ fraction]
      refine (continues_int32 hblanks hwhole _).refuses ((returns_numeral hwhole hfraction hexponent
        hnone hrest).bind_refuses ?_)
      rintro - ⟨negative, x, rfl⟩ rest
      exact refuses_fail _ _
  · have hnone : v.int32? = none := by
      cases v with
      | number n => exact absurd ⟨n, rfl⟩ hv
      | _ => rfl
    rw [hnone]
    unfold int32
    refine refuses_value hblanks hs fun c hopens cs => ?_
    have hc : ¬(c = '-' ∨ c.isDigit = true) := fun hc => hv (hopens.exists_number hc)
    obtain ⟨hsign, hdigit⟩ := not_or.mp hc
    simp only [if_neg hdigit]
    exact refuses_wrongType _ _ _

end Scalars

/-- Where a type of values is read, `null` may stand instead. -/
theorem decodes_optional (h : Decodes read decode domain) :
    Decodes (optional read) (Value.optional? decode) domain := by
  intro blanks cs v rest hblanks hs hv hrest
  obtain ⟨c, tail, rfl, hopens⟩ := hs.exists_cons
  have hskip : Gives skipBlank (blanks ++ c :: (tail ++ rest)) (some c) (c :: (tail ++ rest)) :=
    gives_skipBlank_cons hblanks hopens.isBlank_eq_false
  unfold optional
  by_cases hnull : v = .null
  · subst hnull
    obtain ⟨rfl, rfl⟩ := List.cons.inj (spelled_null_iff.mp hs)
    exact hskip.bind ((gives_advance 'n' _).bind
      ((gives_word "ull".toList rest).bind (.pure none rest)))
  · have hc : c ≠ 'n' := by
      rintro rfl
      exact hnull hopens.eq_null
    rw [Value.optional?_of_ne_null hnull]
    refine hskip.continues.answers ?_
    split
    · rename_i hn
      exact absurd (Option.some.inj hn) hc
    · exact (h .nil hs hv hrest).map some

section Lists

variable {vs : List Value} {after before : List Char}

/-- The end of a list is read after its last item. -/
theorem gives_nextItem_end (h : IsBlank after) (rest : List Char) :
    Gives nextItem (after ++ ']' :: rest) false rest :=
  (gives_skipBlank_cons h (by decide)).bind ((gives_advance ']' rest).bind (.pure false rest))

/-- The comma in front of an item is read. -/
theorem gives_nextItem (h : IsBlank after) (hbefore : IsBlank before) (hblank : isBlank c = false)
    (hc : c ≠ ']') :
    Gives nextItem (after ++ ',' :: (before ++ c :: tail)) true (c :: tail) := by
  refine (gives_skipBlank_cons h (by decide)).bind ((gives_advance ',' _).bind
    ((gives_skipBlank_cons hbefore hblank).bind ?_))
  simp only
  exact .pure true _

/-- No item begins as a list ends. -/
theorem exists_cons_of_separated (h : Separated Spelled cs vs) :
    ∃ c tail, cs = c :: tail ∧ isBlank c = false ∧ c ≠ ']' := by
  refine h.exists_cons fun {cs v} hv => ?_
  obtain ⟨c, tail, rfl, hopens⟩ := hv.exists_cons
  refine ⟨c, tail, rfl, hopens.isBlank_eq_false, ?_⟩
  rintro rfl
  cases v with
  | boolean b => cases b <;> simp [Value.OpensWith] at hopens
  | _ => simp [Value.OpensWith] at hopens

/-- The items of a list are read one after the other. -/
theorem answers_items (h : Decodes read decode domain) (hs : Separated Spelled cs vs)
    (hvs : ∀ v ∈ vs, domain v) {fuel : Nat} (hfuel : vs.length ≤ fuel) (rest : List Char) :
    Answers (items read fuel) (cs ++ ']' :: rest) (vs.mapM decode) rest := by
  induction hs generalizing fuel with
  | @one cs v after hv hafter =>
    obtain ⟨fuel, rfl⟩ := Nat.exists_eq_succ_of_ne_zero (Nat.ne_zero_of_lt hfuel)
    rw [List.append_assoc]
    have hdecode : [v].mapM decode = (decode v).bind fun a => some [a] := by simp
    rw [hdecode]
    unfold items
    refine (h .nil hv (hvs v (List.mem_cons_self ..))
      (.append hafter (follows_cons (.inr (.inl rfl))))).bind fun a _ => ?_
    exact (gives_nextItem_end hafter rest).bind (.pure [a] rest)
  | @cons cs v after before ds more hv hafter hbefore hmore ih =>
    obtain ⟨fuel, rfl⟩ := Nat.exists_eq_succ_of_ne_zero (Nat.ne_zero_of_lt hfuel)
    obtain ⟨c, tail, rfl, hblank, hc⟩ := exists_cons_of_separated hmore
    have hdecode : (v :: more).mapM decode =
        (decode v).bind fun a => (more.mapM decode).bind fun as => some (a :: as) := by
      rw [List.mapM_cons]
      rfl
    rw [hdecode, show cs ++ after ++ ',' :: before ++ c :: tail ++ ']' :: rest =
      cs ++ (after ++ ',' :: (before ++ c :: (tail ++ ']' :: rest))) by simp]
    unfold items
    refine (h .nil hv (hvs v (List.mem_cons_self ..))
      (.append hafter (follows_cons (.inl rfl)))).bind fun a _ => ?_
    refine (gives_nextItem hafter hbefore hblank hc).continues.answers ?_
    refine (ih (fun w hw => hvs w (List.mem_cons_of_mem v hw)) (Nat.le_of_succ_le_succ hfuel)).bind
      fun as _ => Gives.pure (a :: as) rest

/-- What a list holds is read after its bracket. -/
theorem continues_list (h : IsBlank blanks) (inner : List Char) :
    Continues (list read) (blanks ++ '[' :: inner)
      (do if ← firstItem then items read ((← remaining) + 1) else pure []) inner := by
  unfold list
  exact (continues_value h (by decide)).trans (gives_advance '[' inner).continues

/-- A list is read if its items are, and nothing else is. -/
theorem decodes_list (h : Decodes read decode domain) :
    Decodes (list read) (Value.list? decode) (Value.ForItems domain) := by
  intro blanks cs v rest hblanks hs hv _
  by_cases hlist : ∃ vs, v = .list vs
  · obtain ⟨vs, rfl⟩ := hlist
    cases hs with
    | @emptyList inner hinner =>
      have hfirst : Gives firstItem (inner ++ ']' :: rest) false rest :=
        (gives_skipBlank_cons hinner (by decide)).bind
          ((gives_advance ']' rest).bind (.pure false rest))
      rw [List.append_assoc]
      exact (continues_list hblanks _).gives (hfirst.bind (.pure [] rest))
    | @list before cs vs hbefore hs =>
      obtain ⟨c, tail, rfl, hblank, hc⟩ := exists_cons_of_separated hs
      have hfirst : Gives firstItem (before ++ c :: (tail ++ ']' :: rest)) true
          (c :: (tail ++ ']' :: rest)) := by
        refine (gives_skipBlank_cons hbefore hblank).bind ?_
        simp only
        exact .pure true _
      have hlength := hs.length_le Spelled.ne_nil
      rw [show '[' :: before ++ c :: tail ++ [']'] ++ rest =
        '[' :: (before ++ c :: (tail ++ ']' :: rest)) by simp]
      refine (continues_list hblanks _).answers (hfirst.continues.answers
        ((gives_remaining _).continues.answers (answers_items h hs (hv vs rfl) ?_ rest)))
      simp only [List.length_cons, List.length_append] at hlength ⊢
      omega
  · have hnone : v.list? decode = none := by
      cases v with
      | list vs => exact absurd ⟨vs, rfl⟩ hlist
      | _ => rfl
    rw [hnone]
    unfold list
    refine refuses_value hblanks hs fun c hopens cs => ?_
    have hc : c ≠ '[' := by
      rintro rfl
      exact hlist hopens.exists_list
    simp only
    exact refuses_wrongType _ _ _

end Lists

theorem IsBlank.follows (h : IsBlank blanks) : Follows blanks :=
  fun c hc => .inl (h c (List.mem_of_mem_head? hc))

/-- A document that spells a value decodes as the value does. -/
theorem decode_eq_ok_iff (h : Decodes read decode domain) {document : String}
    (hdocument : DocumentSpelled document v) (hv : domain v) {a : α} :
    Json.decode read document = .ok a ↔ decode v = some a := by
  obtain @⟨before, cs, _, after, hbefore, hs, hafter, hparts⟩ := hdocument
  have hread := h hbefore hs hv (IsBlank.follows hafter)
  have hanswers : Answers read.document document.toList (decode v) [] := by
    rw [hparts, List.append_assoc, ← Option.bind_fun_some (decode v)]
    refine hread.bind fun a _ => ?_
    have hskip : Gives skipBlank (after ++ []) none [] := gives_skipBlank hafter nofun
    rw [List.append_nil] at hskip
    exact hskip.bind (.pure a [])
  unfold Json.decode Cursor.start
  cases hdecode : decode v with
  | some b =>
    rw [hdecode] at hanswers
    obtain ⟨offset, hb⟩ := hanswers 0
    rw [hb]
    simp
  | none =>
    rw [hdecode] at hanswers
    obtain ⟨problem, hproblem⟩ := hanswers 0
    rw [hproblem]
    simp

end Reader

end ViewBinding.Json
