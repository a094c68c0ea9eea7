import ViewBinding.Proofs.Text.Lines

/-!
# Brackets and margins

The braces and parentheses of a text are read from its beginning: one that opens comes on top of
those that are open, and one that closes has to close the one on top. Lines have a margin of blanks,
which is to be as wide as the braces that are open before the line demand.
-/

namespace ViewBinding.Text

/-- The kinds of brackets that are read. -/
inductive Bracket where
  | brace
  | parenthesis
  deriving DecidableEq, Repr

namespace Bracket

/-- The bracket that a character opens. -/
def opened? (c : Char) : Option Bracket :=
  if c = '\x7b' then some brace else if c = '(' then some parenthesis else none

/-- The bracket that a character closes. -/
def closed? (c : Char) : Option Bracket :=
  if c = '\x7d' then some brace else if c = ')' then some parenthesis else none

/-- The brackets that are open after a character, the innermost first. There is no answer after one
that closes another bracket than the innermost. -/
def read (opened : List Bracket) (c : Char) : Option (List Bracket) :=
  match opened? c with
  | some b => some (b :: opened)
  | none =>
    match closed? c with
    | some b => if opened.head? = some b then some opened.tail else none
    | none => some opened

end Bracket

/-- The brackets that are open after a text, if these were open before it. -/
def nest (opened : List Bracket) (s : String) : Option (List Bracket) :=
  s.toList.foldlM Bracket.read opened

/-- The parts of a text are read one after the other. -/
theorem nest_append (opened : List Bracket) (s t : String) :
    nest opened (s ++ t) = (nest opened s).bind fun next => nest next t := by
  rw [nest, String.toList_append, List.foldlM_append]
  rfl

/-- The characters that a class of bracketless characters on one line leaves out. -/
def LeavesOut (p : Char → Bool) : Prop :=
  p '\n' = false ∧ p '\x7b' = false ∧ p '\x7d' = false ∧ p '(' = false ∧ p ')' = false

instance (p : Char → Bool) : Decidable (LeavesOut p) :=
  inferInstanceAs (Decidable (_ ∧ _))

/-- Reading a character of such a class changes nothing. -/
theorem LeavesOut.read_eq {p : Char → Bool} (hp : LeavesOut p) {c : Char} (hc : p c = true)
    (opened : List Bracket) : Bracket.read opened c = some opened := by
  obtain ⟨-, hopening, hclosing, hleft, hright⟩ := hp
  have hne : c ≠ '\x7b' ∧ c ≠ '\x7d' ∧ c ≠ '(' ∧ c ≠ ')' := by
    refine ⟨?_, ?_, ?_, ?_⟩ <;> rintro rfl <;> simp_all
  have hopened : Bracket.opened? c = none := by simp [Bracket.opened?, hne]
  have hclosed : Bracket.closed? c = none := by simp [Bracket.closed?, hne]
  simp only [Bracket.read, hopened, hclosed]

/-- A text that begins with a stop begins with a character outside the class. -/
theorem stops_iff {p : Char → Bool} {s : String} :
    stops p s = true ↔ ∃ c, s.toList.head? = some c ∧ p c = false := by
  rw [stops]
  cases s.toList.head? <;> simp

/-- A part of a line that is read from these open brackets to those. -/
structure Takes (opened : List Bracket) (s : String) (next : List Bracket) : Prop where
  isLine : IsLine s
  nest_eq : nest opened s = some next

/-- Two parts of a line are read one after the other. -/
theorem Takes.append {opened inner next : List Bracket} {s t : String}
    (hs : Takes opened s inner) (ht : Takes inner t next) : Takes opened (s ++ t) next where
  isLine := hs.isLine.append ht.isLine
  nest_eq := by rw [nest_append, hs.nest_eq, Option.bind_some, ht.nest_eq]

/-- A part of a line that closes what it opens, and nothing else. -/
def Flat (s : String) : Prop := ∀ opened, Takes opened s opened

/-- Two flat parts of a line are flat together. -/
theorem Flat.append {s t : String} (hs : Flat s) (ht : Flat t) : Flat (s ++ t) :=
  fun opened => (hs opened).append (ht opened)

/-- A text of characters from a class without brackets and line breaks is flat. -/
theorem flat_of_forall {p : Char → Bool} (hp : LeavesOut p) {s : String}
    (h : ∀ c ∈ s.toList, p c = true) : Flat s := by
  intro opened
  refine ⟨isLine_of_forall hp.1 h, ?_⟩
  rw [nest]
  revert h
  generalize s.toList = cs
  intro h
  induction cs with
  | nil => rfl
  | cons c cs ih =>
    rw [List.foldlM_cons, hp.read_eq (h c (List.mem_cons_self ..))]
    exact ih fun a ha => h a (List.mem_cons_of_mem _ ha)

/-- The number of blanks that a line begins with. -/
def margin (l : String) : Nat := (l.toList.takeWhile (· == ' ')).length

/-- Does a line begin, after its margin, by closing a brace? -/
def closesFirst (l : String) : Bool := (l.toList.dropWhile (· == ' ')).head? == some '\x7d'

/-- The margin of a line that follows these brackets is four blanks for each brace among them, but
for the brace that the line begins by closing. -/
def IsIndented (opened : List Bracket) (l : String) : Prop :=
  margin l + (if closesFirst l then 4 else 0) = 4 * opened.count .brace

/-- Every line that is not empty is indented by the braces that are open before it. -/
def Indented (ls : List String) : Prop :=
  ∀ before l after, ls = before ++ l :: after → l ≠ "" →
    ∃ opened, nest [] (unlines before) = some opened ∧ IsIndented opened l

/-- No lines are indented. -/
theorem indented_nil : Indented [] := by
  intro before l after h
  cases before <;> exact nomatch h

/-- One more line is indented if it is by what is open after the others. -/
theorem Indented.concat {ls : List String} {l : String} {opened : List Bracket} (h : Indented ls)
    (hnest : nest [] (unlines ls) = some opened) (hl : l ≠ "" → IsIndented opened l) :
    Indented (ls ++ [l]) := by
  intro before m after hsplit hm
  rcases List.eq_nil_or_concat after with rfl | ⟨rest, last, rfl⟩
  · obtain ⟨rfl, hlast⟩ := List.append_inj' hsplit rfl
    obtain rfl := List.singleton_inj.mp hlast
    exact ⟨opened, hnest, hl hm⟩
  · rw [List.concat_eq_append, ← List.cons_append, ← List.append_assoc] at hsplit
    exact h before m rest (List.append_inj' hsplit rfl).1 hm

end ViewBinding.Text
