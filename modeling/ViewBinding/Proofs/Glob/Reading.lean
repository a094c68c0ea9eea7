import ViewBinding.Proofs.Glob.Spelling

/-!
# How patterns are read

A text is a pattern if it can be read token by token: runs of stars have one star, or two if they
are a whole component, and every set is closed. A pattern for paths has to be a pattern in each of
its components as well. The components of a pattern are patterns themselves unless a set in it lists
a slash, for such a set is divided between two components.
-/

namespace ViewBinding.Glob

/-- Is a character named by an item of a set, as the item or as an end of the range? -/
def SetItem.names (i : SetItem) (c : Char) : Bool :=
  match i with
  | single x => x == c
  | range first last => first == c || last == c

/-- Is a token a set that lists a character? -/
def Token.lists (t : Token) (c : Char) : Bool :=
  match t with
  | oneOf items | noneOf items => items.any (·.names c)
  | _ => false

/-- The characters that an item of a set names are written in the set. -/
theorem mem_of_mem_setItems {cs : List Char} {i : SetItem} {c : Char} (hi : i ∈ setItems cs)
    (hc : i.names c = true) : c ∈ cs := by
  fun_induction setItems cs with
  | case1 a b rest ih =>
    rcases List.mem_cons.mp hi with rfl | hi
    · rcases (by simpa [SetItem.names] using hc : a = c ∨ b = c) with rfl | rfl <;> simp
    · simp [ih hi]
  | case2 a rest _ ih =>
    rcases List.mem_cons.mp hi with rfl | hi
    · simp [show a = c by simpa [SetItem.names] using hc]
    · simp [ih hi]
  | case3 => exact nomatch hi

/-- The characters that are written in a set are named by its items, but for a dash, which may make
a range. -/
theorem exists_mem_setItems {cs : List Char} {c : Char} (hc : c ∈ cs) (hdash : c ≠ '-') :
    ∃ i ∈ setItems cs, i.names c = true := by
  fun_induction setItems cs with
  | case1 a b rest ih =>
    have hcases : c = a ∨ c = b ∨ c ∈ rest := by simpa [hdash] using hc
    rcases hcases with rfl | rfl | hrest
    · exact ⟨_, List.mem_cons_self .., by simp [SetItem.names]⟩
    · exact ⟨_, List.mem_cons_self .., by simp [SetItem.names]⟩
    · obtain ⟨i, hi, hnames⟩ := ih hrest
      exact ⟨i, List.mem_cons_of_mem _ hi, hnames⟩
  | case2 a rest _ ih =>
    rcases List.mem_cons.mp hc with rfl | hrest
    · exact ⟨_, List.mem_cons_self .., by simp [SetItem.names]⟩
    · obtain ⟨i, hi, hnames⟩ := ih hrest
      exact ⟨i, List.mem_cons_of_mem _ hi, hnames⟩
  | case3 => exact nomatch hc

/-- A set lists the slashes that are written in it. -/
theorem any_names_setItems {cs : List Char} :
    (setItems cs).any (·.names '/') = true ↔ '/' ∈ cs := by
  rw [List.any_eq_true]
  constructor
  · rintro ⟨i, hi, hc⟩
    exact mem_of_mem_setItems hi hc
  · exact fun hc => exists_mem_setItems hc (by decide)

/-- The tokens of a text that follows a character, or nothing. -/
inductive Reads : Option Char → List Char → List Token → Prop
  | done {before} : Reads before [] []
  | run {before rest ts} : rest.head? ≠ some '*' → Reads (some '*') rest ts →
      Reads before ('*' :: rest) (.anyRun :: ts)
  | last {before} : before = none ∨ before = some '/' → Reads before ['*', '*'] [.anyComponents]
  | components {before rest ts} : before = none ∨ before = some '/' → Reads (some '/') rest ts →
      Reads before ('*' :: '*' :: '/' :: rest) (.anyComponents :: ts)
  | oneOf {before first inner rest ts} : first ≠ '!' → ']' ∉ inner → Reads (some ']') rest ts →
      Reads before ('[' :: first :: (inner ++ ']' :: rest))
        (.oneOf (setItems (first :: inner)) :: ts)
  | noneOf {before first inner rest ts} : ']' ∉ inner → Reads (some ']') rest ts →
      Reads before ('[' :: '!' :: first :: (inner ++ ']' :: rest))
        (.noneOf (setItems (first :: inner)) :: ts)
  | any {before rest ts} : Reads (some '?') rest ts → Reads before ('?' :: rest) (.anyChar :: ts)
  | char {before c rest ts} : c ≠ '*' → c ≠ '[' → c ≠ '?' → Reads (some c) rest ts →
      Reads before (c :: rest) (.char c :: ts)

section Tokens

variable {before : Option Char} {position fuel : Nat} {cs rest : List Char} {token : Token}
  {taken : Nat} {ts : List Token}

/-- The items of a set end at its first closing bracket. -/
theorem takeWhile_bracket {inner : List Char} (h : ']' ∉ inner) (rest : List Char) :
    (inner ++ ']' :: rest).takeWhile (· ≠ ']') = inner := by
  rw [List.takeWhile_append_of_pos, List.takeWhile_cons_of_neg (by simp), List.append_nil]
  intro c hc
  simpa using fun he : c = ']' => h (he ▸ hc)

/-- A set that is closed is divided there. -/
theorem exists_split_bracket (h : rest.contains ']' = true) :
    ∃ inner after, rest = inner ++ ']' :: after ∧ ']' ∉ inner ∧
      rest.takeWhile (· ≠ ']') = inner := by
  obtain ⟨inner, after, rfl, hinner⟩ := List.eq_append_cons_of_mem (List.contains_iff_mem.mp h)
  exact ⟨inner, after, rfl, hinner, takeWhile_bracket hinner after⟩

/-- What is read as a set: its items, up to the closing bracket. -/
theorem set?_cases (h : set? cs = some (token, taken)) :
    (∃ first inner, first ≠ '!' ∧ ']' ∉ inner ∧ cs = first :: (inner ++ ']' :: cs.drop taken) ∧
      token = .oneOf (setItems (first :: inner))) ∨
    ∃ first inner, ']' ∉ inner ∧ cs = '!' :: first :: (inner ++ ']' :: cs.drop taken) ∧
      token = .noneOf (setItems (first :: inner)) := by
  unfold set? at h
  split at h
  · rename_i first rest
    split at h
    · rename_i hclosed
      obtain ⟨inner, after, rfl, hinner, htake⟩ := exists_split_bracket hclosed
      simp only [htake] at h
      obtain ⟨rfl, rfl⟩ := Prod.mk.inj (Option.some.inj h)
      exact .inr ⟨first, inner, hinner, by simp, rfl⟩
    · exact nomatch h
  · rename_i first rest _
    split at h
    · rename_i hclosed
      obtain ⟨hfirst, hclosed⟩ := Bool.and_eq_true_iff.mp hclosed
      obtain ⟨inner, after, rfl, hinner, htake⟩ := exists_split_bracket hclosed
      simp only [htake] at h
      obtain ⟨rfl, rfl⟩ := Prod.mk.inj (Option.some.inj h)
      exact .inl ⟨first, inner, of_decide_eq_true hfirst, hinner, by simp, rfl⟩
    · exact nomatch h
  · exact nomatch h

/-- A set is read back from its items. -/
theorem set?_oneOf {first : Char} {inner : List Char} (hfirst : first ≠ '!') (hinner : ']' ∉ inner)
    (rest : List Char) : set? (first :: (inner ++ ']' :: rest)) =
      some (.oneOf (setItems (first :: inner)), inner.length + 2) := by
  have htake : (inner ++ ']' :: rest).takeWhile (· ≠ ']') = inner := takeWhile_bracket hinner rest
  unfold set?
  split
  · rename_i heq
    exact absurd (List.cons.inj heq).1 hfirst
  · rename_i heq
    obtain ⟨rfl, rfl⟩ := List.cons.inj heq
    simp only [htake]
    simp [hfirst]
  · rename_i heq
    exact nomatch heq

/-- So is a set of characters that are not accepted. -/
theorem set?_noneOf {first : Char} {inner : List Char} (hinner : ']' ∉ inner) (rest : List Char) :
    set? ('!' :: first :: (inner ++ ']' :: rest)) =
      some (.noneOf (setItems (first :: inner)), inner.length + 3) := by
  have htake : (inner ++ ']' :: rest).takeWhile (· ≠ ']') = inner := takeWhile_bracket hinner rest
  simp only [set?, htake]
  simp

/-- No star follows where the next character is another one. -/
theorem takeWhile_star (h : rest.head? ≠ some '*') :
    rest.takeWhile (· = '*') = [] ∧ rest.dropWhile (· = '*') = rest := by
  cases rest with
  | nil => exact ⟨rfl, rfl⟩
  | cons c rest =>
    have hc : c ≠ '*' := fun he => h (by rw [he, List.head?_cons])
    simp [hc]

/-- After a star there are none, one or more. -/
theorem stars_cases (rest : List Char) : rest.head? ≠ some '*' ∨
    (∃ left, rest = '*' :: left ∧ left.head? ≠ some '*') ∨
      2 < 1 + (rest.takeWhile (· = '*')).length := by
  by_cases hfirst : rest.head? = some '*'
  · obtain ⟨left, rfl⟩ := List.head?_eq_some_iff.mp hfirst
    by_cases hsecond : left.head? = some '*'
    · obtain ⟨left, rfl⟩ := List.head?_eq_some_iff.mp hsecond
      refine .inr (.inr ?_)
      simp
      omega
    · exact .inr (.inl ⟨left, rfl, hsecond⟩)
  · exact .inl hfirst

/-- What is read without a fault are the tokens of the text. -/
theorem reads_of_tokens (h : tokens before position fuel cs = .ok ts) (hfuel : cs.length ≤ fuel) :
    Reads before cs ts := by
  induction fuel generalizing before position cs ts with
  | zero =>
    obtain rfl := List.length_eq_zero_iff.mp (Nat.le_zero.mp hfuel)
    obtain rfl := Except.ok.inj h
    exact .done
  | succ fuel ih =>
    have hmore : ∀ {token before' position' left ts'},
        (token :: ·) <$> tokens before' position' fuel left = .ok ts' → left.length ≤ fuel →
        ∃ more, ts' = token :: more ∧ Reads before' left more := by
      intro token before' position' left ts' hread hshort
      cases hmore : tokens before' position' fuel left with
      | error e =>
        rw [hmore] at hread
        cases hread
      | ok more =>
        rw [hmore] at hread
        exact ⟨more, (Except.ok.inj hread).symm, ih hmore hshort⟩
    unfold tokens at h
    split at h
    · rename_i hzero
      cases hzero
    · obtain rfl := Except.ok.inj h
      exact .done
    · rename_i rest heq
      obtain rfl := Nat.succ.inj heq
      rw [List.length_cons] at hfuel
      dsimp only at h
      rcases stars_cases rest with hhead | ⟨left, rfl, hhead⟩ | hmany
      · obtain ⟨htake, hdrop⟩ := takeWhile_star hhead
        rw [htake, hdrop] at h
        obtain ⟨more, rfl, hreads⟩ := hmore h (Nat.le_of_succ_le_succ hfuel)
        exact .run hhead hreads
      · obtain ⟨htake, hdrop⟩ := takeWhile_star hhead
        rw [List.length_cons] at hfuel
        simp only [decide_true, List.takeWhile_cons_of_pos, List.dropWhile_cons_of_pos, htake,
          hdrop, List.length_singleton, Nat.reduceAdd, Nat.lt_irrefl, if_false, if_true] at h
        split at h
        · rename_i hbefore
          split at h
          · obtain rfl := Except.ok.inj h
            exact .last hbefore
          · rw [List.length_cons] at hfuel
            obtain ⟨more, rfl, hreads⟩ := hmore h (by omega)
            exact .components hbefore hreads
          · cases h
        · cases h
      · rw [if_pos hmany] at h
        cases h
    · rename_i rest heq
      obtain rfl := Nat.succ.inj heq
      rw [List.length_cons] at hfuel
      split at h
      · cases h
      · rename_i token taken hset
        have hshort : (rest.drop taken).length ≤ fuel := by
          rw [List.length_drop]
          omega
        obtain ⟨more, rfl, hreads⟩ := hmore h hshort
        rcases set?_cases hset with ⟨first, inner, hfirst, hinner, hrest, rfl⟩ |
          ⟨first, inner, hinner, hrest, rfl⟩
        · rw [hrest]
          exact .oneOf hfirst hinner hreads
        · rw [hrest]
          exact .noneOf hinner hreads
    · rename_i rest heq
      obtain rfl := Nat.succ.inj heq
      obtain ⟨more, rfl, hreads⟩ := hmore h (Nat.le_of_succ_le_succ hfuel)
      exact .any hreads
    · rename_i c rest hstar hbracket hmark heq
      obtain rfl := Nat.succ.inj heq
      obtain ⟨more, rfl, hreads⟩ := hmore h (Nat.le_of_succ_le_succ hfuel)
      exact .char hstar hbracket hmark hreads

/-- A bound for a text is one more than a bound for what follows its first character. -/
theorem exists_fuel {c : Char} (h : (c :: cs).length ≤ fuel) :
    ∃ left, fuel = left + 1 ∧ cs.length ≤ left :=
  ⟨fuel - 1, (Nat.sub_add_cancel (Nat.le_trans (Nat.le_add_left ..) h)).symm, Nat.le_pred_of_lt h⟩

/-- The tokens of a text are read without a fault. -/
theorem Reads.tokens_eq (h : Reads before cs ts) (hfuel : cs.length ≤ fuel) :
    tokens before position fuel cs = .ok ts := by
  induction h generalizing position fuel with
  | done => cases fuel <;> rfl
  | @run before rest ts hhead _ ih =>
    obtain ⟨fuel, rfl, hshort⟩ := exists_fuel hfuel
    obtain ⟨htake, hdrop⟩ := takeWhile_star hhead
    rw [tokens.eq_def]
    simp only [htake, hdrop]
    rw [ih hshort]
    rfl
  | last hbefore =>
    obtain ⟨fuel, rfl, -⟩ := exists_fuel hfuel
    rw [tokens.eq_def]
    simp [hbefore]
  | @components before rest ts hbefore _ ih =>
    obtain ⟨fuel, rfl, hshort⟩ := exists_fuel hfuel
    have hrest : rest.length ≤ fuel := by
      simp only [List.length_cons] at hshort
      omega
    rw [tokens.eq_def]
    simp [hbefore, ih hrest]
  | @oneOf before first inner rest ts hfirst hinner _ ih =>
    obtain ⟨fuel, rfl, hshort⟩ := exists_fuel hfuel
    have hrest : rest.length ≤ fuel := by
      simp only [List.length_cons, List.length_append] at hshort
      omega
    rw [tokens.eq_def]
    simp [set?_oneOf hfirst hinner, ih hrest]
  | @noneOf before first inner rest ts hinner _ ih =>
    obtain ⟨fuel, rfl, hshort⟩ := exists_fuel hfuel
    have hrest : rest.length ≤ fuel := by
      simp only [List.length_cons, List.length_append] at hshort
      omega
    rw [tokens.eq_def]
    simp [set?_noneOf hinner, ih hrest]
  | any _ ih =>
    obtain ⟨fuel, rfl, hshort⟩ := exists_fuel hfuel
    rw [tokens.eq_def]
    simp [ih hshort]
  | char hstar hbracket hmark _ ih =>
    obtain ⟨fuel, rfl, hshort⟩ := exists_fuel hfuel
    rw [tokens.eq_def]
    simp [ih hshort]

/-- A pattern has the tokens of its text. -/
theorem parse_eq_ok_iff {s : String} {p : Pattern} :
    Pattern.parse s = .ok p ↔ Reads none s.toList p.tokens := by
  unfold Pattern.parse
  constructor
  · intro h
    cases hread : tokens none 0 (s.toList.length + 1) s.toList with
    | error e =>
      rw [hread] at h
      exact nomatch h
    | ok ts =>
      rw [hread] at h
      obtain rfl := Except.ok.inj h
      exact reads_of_tokens hread (Nat.le_succ _)
  · intro h
    rw [h.tokens_eq (Nat.le_succ _)]
    rfl

end Tokens

section Slashes

variable {before : Option Char} {cs ds : List Char} {ts us : List Token}

/-- A component begins at the beginning of a text as it does after a slash. -/
theorem Reads.congr {before' : Option Char} (h : Reads before cs ts)
    (hsame : before = none ∨ before = some '/' → before' = none ∨ before' = some '/') :
    Reads before' cs ts := by
  cases h with
  | done => exact .done
  | run hhead hrest => exact .run hhead hrest
  | last hbefore => exact .last (hsame hbefore)
  | components hbefore hrest => exact .components (hsame hbefore) hrest
  | oneOf hfirst hinner hrest => exact .oneOf hfirst hinner hrest
  | noneOf hinner hrest => exact .noneOf hinner hrest
  | any hrest => exact .any hrest
  | char hstar hbracket hmark hrest => exact .char hstar hbracket hmark hrest

/-- Texts on both sides of a slash are read one after the other. -/
theorem Reads.append (h : Reads before cs ts) (h' : Reads none ds us) :
    ∃ vs, Reads before (cs ++ '/' :: ds) vs ∧ ∀ t ∈ vs, t ∈ ts ∨ t ∈ us ∨ t = .char '/' := by
  have hafter : Reads (some '/') ds us := h'.congr fun _ => .inr rfl
  -- Each token is read as before, and its tail by induction.
  have hcons : ∀ {token : Token} {ts vs : List Token},
      (∀ t ∈ vs, t ∈ ts ∨ t ∈ us ∨ t = .char '/') →
      ∀ t ∈ token :: vs, t ∈ token :: ts ∨ t ∈ us ∨ t = .char '/' := by
    intro token ts vs hvs t ht
    rcases List.mem_cons.mp ht with rfl | ht
    · exact .inl (List.mem_cons_self ..)
    · exact (hvs t ht).imp_left (List.mem_cons_of_mem _)
  induction h with
  | done =>
    refine ⟨_, .char (by decide) (by decide) (by decide) hafter, fun t ht => ?_⟩
    exact .inr ((List.mem_cons.mp ht).symm.imp_right id)
  | @run before rest ts hhead hrest ih =>
    obtain ⟨vs, hvs, hin⟩ := ih
    refine ⟨_, .run ?_ hvs, hcons hin⟩
    cases rest with
    | nil => simp
    | cons c rest => exact hhead
  | last hbefore =>
    refine ⟨_, .components hbefore hafter, fun t ht => ?_⟩
    exact (List.mem_cons.mp ht).imp (fun ht => List.mem_singleton.mpr ht) .inl
  | components hbefore _ ih =>
    obtain ⟨vs, hvs, hin⟩ := ih
    exact ⟨_, .components hbefore hvs, hcons hin⟩
  | @oneOf before first inner rest ts hfirst hinner _ ih =>
    obtain ⟨vs, hvs, hin⟩ := ih
    refine ⟨_, ?_, hcons hin⟩
    simpa using Reads.oneOf hfirst hinner hvs
  | @noneOf before first inner rest ts hinner _ ih =>
    obtain ⟨vs, hvs, hin⟩ := ih
    refine ⟨_, ?_, hcons hin⟩
    simpa using Reads.noneOf hinner hvs
  | any _ ih =>
    obtain ⟨vs, hvs, hin⟩ := ih
    exact ⟨_, .any hvs, hcons hin⟩
  | char hstar hbracket hmark _ ih =>
    obtain ⟨vs, hvs, hin⟩ := ih
    exact ⟨_, .char hstar hbracket hmark hvs, hcons hin⟩

/-- A text without a slash has no set that lists one. -/
theorem Reads.lists_eq_false (h : Reads before cs ts) (hslash : '/' ∉ cs) :
    ∀ t ∈ ts, t.lists '/' = false := by
  have hset : ∀ {chars : List Char}, '/' ∉ chars → (setItems chars).any (·.names '/') = false :=
    fun hnone => Bool.not_eq_true _ ▸ any_names_setItems.not.mpr hnone
  induction h with
  | done => exact nofun
  | run _ _ ih | any _ ih | char _ _ _ _ ih =>
    rw [List.forall_mem_cons]
    exact ⟨rfl, ih fun hin => hslash (List.mem_cons_of_mem _ hin)⟩
  | last => simp [Token.lists]
  | components => simp at hslash
  | @oneOf before first inner rest ts _ _ _ ih =>
    rw [List.forall_mem_cons]
    simp only [List.mem_cons, List.mem_append, not_or] at hslash
    exact ⟨hset (by simp [hslash]), ih (by simp [hslash])⟩
  | @noneOf before first inner rest ts _ _ ih =>
    rw [List.forall_mem_cons]
    simp only [List.mem_cons, List.mem_append, not_or] at hslash
    exact ⟨hset (by simp [hslash]), ih (by simp [hslash])⟩

/-- What is taken off the front of a text without reaching its first slash is taken off what stands
before the slash. -/
theorem exists_append_of_notMem (front : List Char) {rest : List Char}
    (h : front ++ rest = cs ++ '/' :: ds) (hfront : '/' ∉ front) :
    ∃ cs', cs = front ++ cs' ∧ rest = cs' ++ '/' :: ds := by
  rcases List.append_eq_append_iff.mp h with ⟨more, rfl, rfl⟩ | ⟨more, rfl, hmore⟩
  · exact ⟨more, rfl, rfl⟩
  · cases more with
    | nil => exact ⟨[], by simp, hmore.symm⟩
    | cons c more =>
      obtain ⟨rfl, -⟩ := List.cons.inj hmore
      simp at hfront

/-- A text whose sets list no slash is read in parts at its first slash. -/
theorem Reads.cut {vs : List Token} (h : Reads before (cs ++ '/' :: ds) vs) (hcs : '/' ∉ cs)
    (hlists : ∀ t ∈ vs, t.lists '/' = false) :
    (∃ ts, Reads before cs ts) ∧ ∃ us, Reads none ds us ∧ ∀ u ∈ us, u ∈ vs := by
  have hset : ∀ {chars : List Char}, (setItems chars).any (·.names '/') = false → '/' ∉ chars :=
    fun hnone hin => Bool.false_ne_true (hnone.symm.trans (any_names_setItems.mpr hin))
  have hafter : ∀ {rest ts}, Reads (some '/') rest ts → Reads none rest ts :=
    fun hrest => hrest.congr fun _ => .inl rfl
  generalize hall : cs ++ '/' :: ds = all at h
  induction h generalizing cs with
  | done => simp at hall
  | @run before rest ts hhead _ ih =>
    obtain ⟨cs, rfl, rfl⟩ := exists_append_of_notMem ['*'] hall.symm (by decide)
    obtain ⟨⟨ts', hts⟩, us, hus, hin⟩ := ih (by simpa using hcs)
      (fun t ht => hlists t (List.mem_cons_of_mem _ ht)) rfl
    refine ⟨⟨_, .run ?_ hts⟩, us, hus, fun u hu => List.mem_cons_of_mem _ (hin u hu)⟩
    cases cs with
    | nil => simp
    | cons c cs => exact hhead
  | last =>
    obtain ⟨cs, -, hrest⟩ := exists_append_of_notMem ['*', '*'] hall.symm (by decide)
    simp at hrest
  | @components before rest ts hbefore hrest _ =>
    obtain ⟨left, rfl, hleft⟩ := exists_append_of_notMem ['*', '*'] hall.symm (by decide)
    cases left with
    | nil =>
      obtain ⟨-, rfl⟩ := List.cons.inj hleft
      exact ⟨⟨_, .last hbefore⟩, ts, hafter hrest, fun u hu => List.mem_cons_of_mem _ hu⟩
    | cons c left =>
      obtain ⟨rfl, -⟩ := List.cons.inj hleft
      simp at hcs
  | @oneOf before first inner rest ts hfirst hinner _ ih =>
    have hnone := hset (hlists _ (List.mem_cons_self ..))
    obtain ⟨cs, rfl, rfl⟩ := exists_append_of_notMem ('[' :: first :: (inner ++ [']']))
      (by simpa using hall.symm) (by simpa using hnone)
    obtain ⟨⟨ts', hts⟩, us, hus, hin⟩ := ih (fun hin => hcs (List.mem_append_right _ hin))
      (fun t ht => hlists t (List.mem_cons_of_mem _ ht)) rfl
    refine ⟨⟨.oneOf (setItems (first :: inner)) :: ts', ?_⟩, us, hus,
      fun u hu => List.mem_cons_of_mem _ (hin u hu)⟩
    simpa using Reads.oneOf hfirst hinner hts
  | @noneOf before first inner rest ts hinner _ ih =>
    have hnone := hset (hlists _ (List.mem_cons_self ..))
    obtain ⟨cs, rfl, rfl⟩ := exists_append_of_notMem
      ('[' :: '!' :: first :: (inner ++ [']'])) (by simpa using hall.symm) (by simpa using hnone)
    obtain ⟨⟨ts', hts⟩, us, hus, hin⟩ := ih (fun hin => hcs (List.mem_append_right _ hin))
      (fun t ht => hlists t (List.mem_cons_of_mem _ ht)) rfl
    refine ⟨⟨.noneOf (setItems (first :: inner)) :: ts', ?_⟩, us, hus,
      fun u hu => List.mem_cons_of_mem _ (hin u hu)⟩
    simpa using Reads.noneOf hinner hts
  | any _ ih =>
    obtain ⟨cs, rfl, rfl⟩ := exists_append_of_notMem ['?'] hall.symm (by decide)
    obtain ⟨⟨ts', hts⟩, us, hus, hin⟩ := ih (by simpa using hcs)
      (fun t ht => hlists t (List.mem_cons_of_mem _ ht)) rfl
    exact ⟨⟨_, .any hts⟩, us, hus, fun u hu => List.mem_cons_of_mem _ (hin u hu)⟩
  | @char before c rest ts hstar hbracket hmark hrest ih =>
    cases cs with
    | nil =>
      obtain ⟨rfl, rfl⟩ := List.cons.inj hall
      exact ⟨⟨[], .done⟩, ts, hafter hrest, fun u hu => List.mem_cons_of_mem _ hu⟩
    | cons d cs =>
      obtain ⟨rfl, rfl⟩ := List.cons.inj hall
      obtain ⟨⟨ts', hts⟩, us, hus, hin⟩ := ih (fun hin => hcs (List.mem_cons_of_mem _ hin))
        (fun t ht => hlists t (List.mem_cons_of_mem _ ht)) rfl
      exact ⟨⟨_, .char hstar hbracket hmark hts⟩, us, hus,
        fun u hu => List.mem_cons_of_mem _ (hin u hu)⟩

end Slashes

/-- Is a text a pattern? -/
def IsPattern (s : String) : Prop := ∃ p, Pattern.parse s = .ok p

/-- A text is a pattern if it can be read. -/
theorem isPattern_iff {s : String} : IsPattern s ↔ ∃ ts, Reads none s.toList ts :=
  ⟨fun ⟨_, hp⟩ => ⟨_, parse_eq_ok_iff.mp hp⟩, fun ⟨ts, hts⟩ => ⟨⟨ts⟩, parse_eq_ok_iff.mpr hts⟩⟩

/-- Nothing is a pattern. -/
theorem isPattern_empty : IsPattern "" := isPattern_iff.mpr ⟨[], .done⟩

section Components

variable {pieces : List String} {base : Path} {s text : String}

/-- A text that is joined from patterns is a pattern, and none of its sets lists a slash. -/
theorem reads_join (hne : pieces ≠ []) (hslash : ∀ piece ∈ pieces, '/' ∉ piece.toList)
    (h : ∀ piece ∈ pieces, IsPattern piece) :
    ∃ ts, Reads none (Text.join '/' pieces).toList ts ∧ ∀ t ∈ ts, t.lists '/' = false := by
  induction pieces with
  | nil => exact absurd rfl hne
  | cons piece pieces ih =>
    obtain ⟨ts, hts⟩ := isPattern_iff.mp (h piece (List.mem_cons_self ..))
    have hlists := hts.lists_eq_false (hslash piece (List.mem_cons_self ..))
    by_cases hlast : pieces = []
    · subst hlast
      exact ⟨ts, by rwa [Text.join_singleton], hlists⟩
    · obtain ⟨us, hus, hmore⟩ := ih hlast (fun t ht => hslash t (List.mem_cons_of_mem _ ht))
        fun t ht => h t (List.mem_cons_of_mem _ ht)
      obtain ⟨vs, hvs, hin⟩ := hts.append hus
      refine ⟨vs, by simpa [Text.join_cons _ _ hlast] using hvs, fun t ht => ?_⟩
      rcases hin t ht with ht | ht | rfl
      · exact hlists t ht
      · exact hmore t ht
      · rfl

/-- The pieces of a pattern none of whose sets lists a slash are patterns. -/
theorem isPattern_of_reads_join {ts : List Token} (hslash : ∀ piece ∈ pieces, '/' ∉ piece.toList)
    (h : Reads none (Text.join '/' pieces).toList ts) (hlists : ∀ t ∈ ts, t.lists '/' = false) :
    ∀ piece ∈ pieces, IsPattern piece := by
  induction pieces generalizing ts with
  | nil => exact nofun
  | cons piece pieces ih =>
    rw [List.forall_mem_cons] at hslash ⊢
    by_cases hlast : pieces = []
    · subst hlast
      rw [Text.join_singleton] at h
      exact ⟨isPattern_iff.mpr ⟨ts, h⟩, nofun⟩
    · have hjoin : (Text.join '/' (piece :: pieces)).toList =
          piece.toList ++ '/' :: (Text.join '/' pieces).toList := by
        simp [Text.join_cons _ _ hlast]
      rw [hjoin] at h
      obtain ⟨hfirst, us, hus, hin⟩ := h.cut hslash.1 hlists
      exact ⟨isPattern_iff.mpr hfirst, ih hslash.2 hus fun u hu => hlists u (hin u hu)⟩

/-- The pieces of a text are patterns if and only if the text is one and lists no slash in a
set. -/
theorem forall_isPattern_split_iff : (∀ piece ∈ Text.split '/' s, IsPattern piece) ↔
    ∃ p, Pattern.parse s = .ok p ∧ ∀ t ∈ p.tokens, t.lists '/' = false := by
  have hslash : ∀ piece ∈ Text.split '/' s, '/' ∉ piece.toList :=
    fun _ => Text.notMem_of_mem_split
  constructor
  · intro h
    obtain ⟨ts, hts, hlists⟩ := reads_join (Text.split_ne_nil '/' s) hslash h
    rw [Text.join_split] at hts
    exact ⟨⟨ts⟩, parse_eq_ok_iff.mpr hts, hlists⟩
  · rintro ⟨p, hp, hlists⟩
    exact isPattern_of_reads_join hslash (by rwa [Text.join_split, ← parse_eq_ok_iff]) hlists

/-- Reading texts one after the other succeeds if each can be read. -/
theorem exists_mapM_eq_ok {α β ε : Type} {f : α → Except ε β} {xs : List α} :
    (∃ ys, xs.mapM f = .ok ys) ↔ ∀ x ∈ xs, ∃ y, f x = .ok y := by
  induction xs with
  | nil => exact ⟨fun _ => nofun, fun _ => ⟨[], rfl⟩⟩
  | cons x xs ih =>
    rw [List.forall_mem_cons, ← ih]
    constructor
    · rintro ⟨ys, hys⟩
      obtain ⟨y, more, hx, hxs, -⟩ := mapM_cons_eq_ok hys
      exact ⟨⟨y, hx⟩, more, hxs⟩
    · rintro ⟨⟨y, hx⟩, more, hxs⟩
      exact ⟨y :: more, by rw [List.mapM_cons, hx, hxs]; rfl⟩

/-- A condition that holds of nothing holds of all pieces if it holds of those that count. -/
theorem forall_split_iff {P : String → Prop} (hempty : P "") :
    (∀ piece ∈ Text.split '/' text, P piece) ↔
      ∀ piece ∈ PathPattern.splitTerminated text, P piece := by
  rcases PathPattern.split_eq_or text with hsplit | hsplit
  · simp [hsplit, or_imp, forall_and, hempty]
  · rw [hsplit]

/-- A text is a pattern for paths if and only if all its pieces are patterns. -/
theorem exists_pathPattern_iff : (∃ q, PathPattern.parse text = .ok q) ↔
    ∀ piece ∈ Text.split '/' text, IsPattern piece := by
  have hpieces : (∀ piece ∈ Text.split '/' text, IsPattern piece) ↔
      ∃ components, (PathPattern.piecesOf text).mapM Pattern.parse = .ok components := by
    rw [forall_split_iff isPattern_empty, PathPattern.splitTerminated_eq, exists_mapM_eq_ok]
    split
    · rw [List.singleton_append, List.forall_mem_cons]
      exact and_iff_right isPattern_empty
    · exact Iff.rfl
  constructor
  · rintro ⟨q, hq⟩
    exact hpieces.mpr ⟨_, (PathPattern.parse_eq_ok hq).2⟩
  · intro h
    obtain ⟨p, hp, -⟩ := forall_isPattern_split_iff.mp h
    obtain ⟨components, hcomponents⟩ := hpieces.mp h
    rw [PathPattern.piecesOf, PathPattern.afterRoot] at hcomponents
    unfold PathPattern.parse
    simp only [hp, bind, Except.bind, beq_iff_eq, hcomponents]
    exact ⟨_, rfl⟩

/-- A text below a path is a pattern for paths if and only if the pieces of both are patterns; what
begins with a slash is one on its own. -/
theorem exists_pathPattern_join_iff : (∃ q, PathPattern.parse (base.join s).text = .ok q) ↔
    (s.toList.head? ≠ some '/' → ∀ piece ∈ Text.split '/' base.text, IsPattern piece) ∧
      ∀ piece ∈ Text.split '/' s, IsPattern piece := by
  rw [exists_pathPattern_iff]
  by_cases hhead : s.toList.head? = some '/'
  · simp [Path.join, hhead]
  · rw [forall_split_iff isPattern_empty, forall_split_iff isPattern_empty,
      forall_split_iff isPattern_empty, PathPattern.splitTerminated_join hhead]
    simp only [List.mem_append, or_imp, forall_and]
    exact and_congr_left' ⟨fun h _ => h, fun h => h hhead⟩

end Components

end ViewBinding.Glob
