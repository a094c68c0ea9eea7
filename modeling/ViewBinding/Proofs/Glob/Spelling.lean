import ViewBinding.FileTree.Walk
import ViewBinding.Proofs.Glob.Expansion
import ViewBinding.Proofs.Path.Components

/-!
# How expansions are spelled

An expansion is spelled anew: it goes on, by the texts that its components stand for, from the root
or from a dot that is not written. So below a base whose characters all stand for themselves, a
pattern expands to paths that are written under the base, but for a dot in front of it.
-/

namespace ViewBinding

open Workspace

namespace Glob

/-- A character that stands for itself in a pattern. -/
def IsPlain (c : Char) : Prop := c ≠ '*' ∧ c ≠ '?' ∧ c ≠ '['

instance : DecidablePred IsPlain :=
  fun c => inferInstanceAs (Decidable (c ≠ '*' ∧ c ≠ '?' ∧ c ≠ '['))

/-- The pattern for one text. -/
def Pattern.ofText (s : String) : Pattern := ⟨s.toList.map .char⟩

section Texts

variable {s name : String} {p : Pattern}

@[simp] theorem literal?_ofText (s : String) : (Pattern.ofText s).literal? = some s := by
  refine Option.map_eq_some_iff.mpr ⟨s.toList, ?_, String.ofList_toList⟩
  unfold Pattern.ofText
  generalize s.toList = cs
  induction cs with
  | nil => rfl
  | cons c cs ih =>
    rw [List.map_cons, List.mapM_cons, ih]
    rfl

/-- Plain characters are read as they are. -/
theorem tokens_of_plain {before : Option Char} {position fuel : Nat} {cs : List Char}
    (h : ∀ c ∈ cs, IsPlain c) (hfuel : cs.length ≤ fuel) :
    tokens before position fuel cs = .ok (cs.map .char) := by
  induction fuel generalizing before position cs with
  | zero =>
    obtain rfl := List.length_eq_zero_iff.mp (Nat.le_zero.mp hfuel)
    rfl
  | succ fuel ih =>
    cases cs with
    | nil => rfl
    | cons c rest =>
      obtain ⟨hstar, hmark, hbracket⟩ := h c (List.mem_cons_self ..)
      have hrest : tokens (some c) (position + 1) fuel rest = .ok (rest.map .char) :=
        ih (fun x hx => h x (List.mem_cons_of_mem _ hx)) (Nat.le_of_succ_le_succ hfuel)
      rw [tokens.eq_def]
      simp [hrest]

theorem parse_of_plain (h : ∀ c ∈ s.toList, IsPlain c) : Pattern.parse s = .ok (.ofText s) := by
  rw [Pattern.parse, tokens_of_plain h (Nat.le_succ _)]
  rfl

/-- A pattern with a single text was read from that text. -/
theorem eq_of_literal? (h : Pattern.parse s = .ok p) (hname : p.literal? = some name) :
    name = s := by
  unfold Pattern.parse at h
  cases hread : tokens none 0 (s.toList.length + 1) s.toList with
  | error e =>
    rw [hread] at h
    exact nomatch h
  | ok ts =>
    rw [hread] at h
    obtain rfl := Except.ok.inj h
    obtain rfl : ts = _ := tokens_of_literal? hname
    exact (String.toList_inj.mp (eq_of_tokens_eq_map hread (Nat.le_succ _))).symm

/-- Tokens that match nothing match a single character as well. -/
theorem matchesAll_singleton {ts : List Token} (hne : ts ≠ [])
    (h : Pattern.matchesAll ts [] = true) (c : Char) : Pattern.matchesAll ts [c] = true := by
  cases ts with
  | nil => exact absurd rfl hne
  | cons token more =>
    cases token with
    | anyRun =>
      simp only [Pattern.matchesAll, Pattern.suffixes, List.any_cons, List.any_nil] at h ⊢
      simp_all
    | anyComponents =>
      simp only [Pattern.matchesAll, Pattern.componentSuffixes,
        Pattern.componentSuffixes.afterSlashes, List.any_cons, List.any_nil] at h ⊢
      split <;> simp_all
    | char x => simp [Pattern.matchesAll] at h
    | anyChar => simp [Pattern.matchesAll] at h
    | oneOf items => simp [Pattern.matchesAll] at h
    | noneOf items => simp [Pattern.matchesAll] at h

/-- A component that goes up nowhere stands for no dot, unless it is a plain one: one that matches a
dot and has more to match matches two dots. -/
theorem dotsOf_eq_nil (hp : p.Descends) (hnone : p.literal? = none) : dotsOf p = [] := by
  refine List.eq_nil_iff_forall_not_mem.mpr fun name hname => ?_
  obtain rfl := eq_dot_of_mem_dotsOf hp hname
  unfold dotsOf at hname
  split at hname
  · rename_i hbegins
    have hdot : p.isMatch "." = true := (List.mem_filter.mp hname).2
    have hdots := hp.dots hbegins
    obtain ⟨ts⟩ := p
    obtain ⟨more, rfl⟩ := List.head?_eq_some_iff.mp (beq_iff_eq.mp hbegins)
    have hmore : more ≠ [] := by
      rintro rfl
      exact nomatch hnone
    have hrest : Pattern.matchesAll more [] = true := by
      simpa [Pattern.isMatch, Pattern.matchesAll, Token.accepts] using hdot
    have htwo : Pattern.matchesAll more ['.'] = false := by
      simpa [Pattern.isMatch, Pattern.matchesAll, Token.accepts] using hdots
    rw [matchesAll_singleton hmore hrest] at htwo
    exact nomatch htwo
  · exact nomatch hname

end Texts

section Pieces

namespace PathPattern

variable {s text : String}

/-- Of the pieces of a text all are taken, but for one that is empty at the end. -/
theorem split_eq_or (s : String) : Text.split '/' s = splitTerminated s ++ [""] ∨
    Text.split '/' s = splitTerminated s := by
  unfold splitTerminated
  dsimp only
  split
  · rename_i hlast
    obtain ⟨front, hfront⟩ := List.getLast?_eq_some_iff.mp hlast
    exact .inl (by rw [hfront, List.dropLast_concat])
  · exact .inr rfl

/-- A piece of a pattern is a piece of its text. -/
theorem mem_split_of_mem_splitTerminated {piece : String} (h : piece ∈ splitTerminated s) :
    piece ∈ Text.split '/' s := by
  rcases split_eq_or s with hsplit | hsplit
  · exact hsplit ▸ List.mem_append_left _ h
  · exact hsplit ▸ h

/-- A text that is not empty has a piece. -/
theorem splitTerminated_ne_nil (h : s ≠ "") : splitTerminated s ≠ [] := by
  intro hnone
  rcases split_eq_or s with hsplit | hsplit
  · refine h ?_
    rw [← Text.join_split '/' s, hsplit, hnone, List.nil_append, Text.join_singleton]
  · exact Text.split_ne_nil '/' s (hsplit.trans hnone)

/-- The pieces around a slash. -/
theorem splitTerminated_append (text s : String) :
    splitTerminated (text ++ "/" ++ s) = Text.split '/' text ++ splitTerminated s := by
  have hsplit : Text.split '/' (text ++ "/" ++ s) = Text.split '/' text ++ Text.split '/' s :=
    Text.split_append '/' text s
  have hne := Text.split_ne_nil '/' s
  unfold splitTerminated
  dsimp only
  rw [hsplit, List.getLast?_append_of_ne_nil _ hne, List.dropLast_append_of_ne_nil hne]
  split <;> rfl

/-- A text ends with an empty piece only if it is empty or ends with a slash. -/
theorem splitTerminated_eq_split (hne : s ≠ "") (hlast : s.toList.getLast? ≠ some '/') :
    splitTerminated s = Text.split '/' s := by
  rcases split_eq_or s with hsplit | hsplit
  · have hjoin := Text.join_split '/' s
    rw [hsplit, Text.join_concat '/' (splitTerminated_ne_nil hne)] at hjoin
    exact absurd (by rw [← hjoin]; simp) hlast
  · exact hsplit.symm

/-- The pieces of a pattern below a path are those of the path and its own. -/
theorem splitTerminated_join (h : s.toList.head? ≠ some '/') (p : Path) :
    splitTerminated (p.join s).text = splitTerminated p.text ++ splitTerminated s := by
  have hhead : (s.toList.head? == some '/') = false := by simpa using h
  unfold Path.join
  rw [hhead, if_neg Bool.false_ne_true]
  by_cases hempty : p.text = ""
  · rw [if_pos (by simp [hempty]), hempty, String.empty_append]
    rfl
  · by_cases hlast : p.text.toList.getLast? = some '/'
    · obtain ⟨init, hinit⟩ := List.getLast?_eq_some_iff.mp hlast
      have htext : p.text = String.ofList init ++ "/" := by
        rw [← String.toList_inj, hinit]
        simp
      have hfront : splitTerminated (String.ofList init ++ "/" ++ "") = _ ++ [] :=
        splitTerminated_append (String.ofList init) ""
      rw [String.append_empty, List.append_nil] at hfront
      rw [if_pos (by simp [hlast]), htext, splitTerminated_append, hfront]
    · rw [if_neg (by simp [hempty, hlast]), splitTerminated_append,
        splitTerminated_eq_split hempty hlast]

/-- A slash that a text begins with makes a piece that is no component. -/
theorem splitTerminated_eq (text : String) : splitTerminated text =
    (if text.toList.head? = some '/' then [""] else []) ++ piecesOf text := by
  unfold piecesOf afterRoot
  split
  · rename_i hroot
    obtain ⟨rest, hrest⟩ := List.head?_eq_some_iff.mp hroot
    have htext : text = "" ++ "/" ++ String.ofList rest := by
      rw [← String.toList_inj, hrest]
      simp
    rw [hrest, List.tail_cons]
    conv_lhs => rw [htext, splitTerminated_append]
    rfl
  · rfl

/-- The texts of a pattern below a base: those of the base and its own. -/
theorem piecesOf_join (h : s.toList.head? ≠ some '/') (p : Path) :
    piecesOf (p.join s).text = piecesOf p.text ++ splitTerminated s := by
  have hjoin := splitTerminated_join h p
  rw [splitTerminated_eq (p.join s).text, splitTerminated_eq p.text, List.append_assoc] at hjoin
  simp only [Path.head?_join h] at hjoin
  exact List.append_cancel_left hjoin

/-- The pieces of a path that are not idle are its names. -/
theorem filter_piecesOf (p : Path) : (piecesOf p.text).filter (!Path.isIdle ·) = p.names := by
  have hnames : (splitTerminated p.text).filter (!Path.isIdle ·) = p.names := by
    unfold Path.names
    rcases split_eq_or p.text with hsplit | hsplit
    · rw [hsplit, List.filter_append]
      exact (List.append_nil _).symm
    · rw [hsplit]
  rw [← hnames, splitTerminated_eq, List.filter_append]
  split <;> rfl

/-- No piece of a pattern holds a slash. -/
theorem slash_notMem_of_mem_piecesOf {piece : String} (h : piece ∈ piecesOf text) :
    '/' ∉ piece.toList := slash_notMem_of_mem_splitTerminated h

/-- The characters of a piece are characters of the text. -/
theorem mem_of_mem_piecesOf {piece : String} {c : Char} (h : piece ∈ piecesOf text)
    (hc : c ∈ piece.toList) : c ∈ text.toList := by
  have hpiece : piece ∈ splitTerminated text :=
    splitTerminated_eq text ▸ List.mem_append_right _ h
  exact Text.mem_of_mem_split (mem_split_of_mem_splitTerminated hpiece) hc

end PathPattern

end Pieces

/-- A path as it is gone on from: a dot is not written. -/
def undotted (path : Path) : Path := if path.isDot then ⟨""⟩ else path

section Undotted

variable {path : Path} {name : String}

/-- A step is written after the path without its dot. -/
theorem step_eq_join (path : Path) (name : String) :
    step path name = (undotted path).join name := by
  unfold step undotted
  split
  · simp [Path.join]
  · rfl

/-- A path without its dot goes on by the same names, and begins where the path does. -/
theorem names_undotted (path : Path) : (undotted path).names = path.names ∧
    ((undotted path).text.toList.head? = some '/' ↔ path.text.toList.head? = some '/') := by
  unfold undotted
  split
  · rename_i hdot
    obtain ⟨hnames, hhead⟩ := names_of_isDot hdot
    exact ⟨by rw [hnames]; rfl, iff_of_false nofun hhead⟩
  · exact ⟨rfl, Iff.rfl⟩

/-- Steps do not write a dot in front. -/
theorem anchor_undotted_step (h : '/' ∉ name.toList)
    (hpath : (undotted path).pieces.anchor ≠ .current) :
    (undotted (step path name)).pieces.anchor ≠ .current := by
  rw [step_eq_join]
  generalize undotted path = front at hpath
  rw [undotted]
  split
  · decide
  · rename_i hdot
    by_cases hempty : front.text = ""
    · -- A name after nothing begins with a dot only if it is one.
      intro hanchor
      have hjoin : front.join name = ⟨name⟩ := by simp [Path.join, hempty]
      rw [hjoin] at hdot hanchor
      refine hdot (isDot_iff.mpr ⟨hanchor, ?_⟩)
      rw [Path.names_eq]
      unfold Path.pieces at hanchor ⊢
      rw [Text.split_of_notMem h] at hanchor ⊢
      split at hanchor
      · simp at hanchor
      · rename_i hcons
        obtain ⟨rfl, rfl⟩ := List.cons.inj hcons
        rfl
      · simp at hanchor
    · rwa [Path.anchor_join (Path.head?_ne_of_notMem h) front fun hne => absurd hne hempty]

variable {pieces : List String}

/-- Steps go on by the pieces that are not idle, and begin where the path does. -/
theorem names_foldl_step (h : ∀ s ∈ pieces, '/' ∉ s.toList) (path : Path) :
    (pieces.foldl step path).names = path.names ++ pieces.filter (!Path.isIdle ·) ∧
      ((pieces.foldl step path).text.toList.head? = some '/' ↔
        path.text.toList.head? = some '/') := by
  induction pieces generalizing path with
  | nil => exact ⟨(List.append_nil _).symm, Iff.rfl⟩
  | cons s pieces ih =>
    have hs := h s (List.mem_cons_self ..)
    obtain ⟨hnames, hhead⟩ := names_step hs path
    obtain ⟨hmore, hbegins⟩ := ih (fun t ht => h t (List.mem_cons_of_mem _ ht)) (step path s)
    refine ⟨?_, hbegins.trans hhead⟩
    rw [List.foldl_cons, hmore, hnames, Path.names_of_notMem hs, List.append_assoc]
    cases hidle : Path.isIdle s <;> simp [hidle]

/-- Steps one after the other do not write a dot in front. -/
theorem anchor_undotted_foldl_step (h : ∀ s ∈ pieces, '/' ∉ s.toList)
    (hpath : (undotted path).pieces.anchor ≠ .current) :
    (undotted (pieces.foldl step path)).pieces.anchor ≠ .current := by
  induction pieces generalizing path with
  | nil => exact hpath
  | cons s pieces ih =>
    exact ih (fun t ht => h t (List.mem_cons_of_mem _ ht))
      (anchor_undotted_step (h s (List.mem_cons_self ..)) hpath)

end Undotted

/-- A base as what lies below it is spelled by an expansion. -/
def spelled (base : Path) : Path :=
  undotted ((PathPattern.piecesOf base.text).foldl step (PathPattern.startOf base.text))

section Spelled

variable (base : Path)

/-- A base is spelled with its names, and begins where it did. -/
theorem names_spelled : (spelled base).names = base.names ∧
    ((spelled base).text.toList.head? = some '/' ↔ base.text.toList.head? = some '/') := by
  have hslash : ∀ s ∈ PathPattern.piecesOf base.text, '/' ∉ s.toList :=
    fun _ => PathPattern.slash_notMem_of_mem_piecesOf
  obtain ⟨hnames, hhead⟩ := names_foldl_step hslash (PathPattern.startOf base.text)
  obtain ⟨hsame, hbegins⟩ := names_undotted
    ((PathPattern.piecesOf base.text).foldl step (PathPattern.startOf base.text))
  have hstart : (PathPattern.startOf base.text).names = [] ∧
      ((PathPattern.startOf base.text).text.toList.head? = some '/' ↔
        base.text.toList.head? = some '/') := by
    unfold PathPattern.startOf
    split
    · rename_i hroot
      exact ⟨by decide, iff_of_true rfl hroot⟩
    · rename_i hplain
      exact ⟨by decide, iff_of_false nofun hplain⟩
  exact ⟨by rw [spelled, hsame, hnames, hstart.1, PathPattern.filter_piecesOf, List.nil_append],
    hbegins.trans (hhead.trans hstart.2)⟩

/-- A base is spelled without a dot in front. -/
theorem anchor_spelled : (spelled base).pieces.anchor ≠ .current := by
  refine anchor_undotted_foldl_step (fun _ => PathPattern.slash_notMem_of_mem_piecesOf) ?_
  unfold PathPattern.startOf
  split <;> decide

/-- A base that begins with no dot is spelled as it begins. -/
theorem anchor_spelled_eq {base : Path} (h : base.pieces.anchor ≠ .current) :
    (spelled base).pieces.anchor = base.pieces.anchor := by
  have hspelled := anchor_spelled base
  have hroot : (spelled base).pieces.anchor = .root ↔ base.pieces.anchor = .root := by
    rw [Path.anchor_eq_root_iff, (names_spelled base).2, Path.anchor_eq_root_iff]
  cases hanchor : base.pieces.anchor <;> cases hother : (spelled base).pieces.anchor <;> simp_all

/-- A base that is not empty and begins with no dot is not spelled as nothing. -/
theorem text_spelled_ne {base : Path} (h : base.pieces.anchor ≠ .current) (hne : base.text ≠ "") :
    (spelled base).text ≠ "" := by
  intro hempty
  have hspelled : spelled base = ⟨""⟩ := Path.eq_of_text hempty
  have hanchor := anchor_spelled_eq h
  have hnames := (names_spelled base).1
  rw [hspelled] at hanchor hnames
  exact hne (Path.text_of_names_nil hanchor.symm hnames.symm)

end Spelled

/-- A piece that an expansion may go on by: it goes up nowhere, and is idle only if it is one of
these texts. -/
structure Adds (texts : List String) (s : String) : Prop where
  slash : '/' ∉ s.toList
  not_dots : s ≠ ".."
  idle : Path.isIdle s = true → s ∈ texts

/-- A name that is gone into may be added. -/
theorem adds_of_enters {texts : List String} {s : String} (h : Path.IsName s ∧ Enters s) :
    Adds texts s := by
  obtain ⟨hname, henters⟩ := h
  refine ⟨hname.2, henters.not_dots, fun hidle => ?_⟩
  simp [Path.isIdle, hname.1, henters.not_dot] at hidle

/-- Is a path written under another, by pieces that may be added? -/
def WrittenUnder (front : Path) (texts : List String) (path : Path) : Prop :=
  ∃ pieces, (∀ s ∈ pieces, Adds texts s) ∧ path = under front pieces

section Written

variable {front path : Path} {texts : List String} {name : String}

/-- A path is under itself. -/
theorem WrittenUnder.refl (front : Path) (texts : List String) : WrittenUnder front texts front :=
  ⟨[], nofun, rfl⟩

/-- A step goes on under the path that it is under. -/
theorem WrittenUnder.step (h : WrittenUnder front texts (undotted path)) (hname : Adds texts name) :
    WrittenUnder front texts (step path name) := by
  obtain ⟨pieces, hpieces, hpath⟩ := h
  refine ⟨pieces ++ [name], fun s hs => ?_, ?_⟩
  · rcases List.mem_append.mp hs with hs | hs
    · exact hpieces s hs
    · exact List.mem_singleton.mp hs ▸ hname
  · rw [step_eq_join, hpath, under, under, List.foldl_append]
    rfl

/-- Under a path that begins with no dot, a dot is written only if the path is empty. -/
theorem WrittenUnder.undotted (h : WrittenUnder front texts path)
    (hfront : front.pieces.anchor ≠ .current) : WrittenUnder front texts (undotted path) := by
  rw [Glob.undotted]
  split
  · rename_i hdot
    obtain ⟨pieces, hpieces, rfl⟩ := h
    by_cases hempty : front.text = ""
    · exact (congrArg Path.mk hempty : front = ⟨""⟩) ▸ .refl front texts
    · -- After something, a path begins as that does.
      have hanchor := Path.anchor_foldl_join (fun s hs => (hpieces s hs).slash) hempty
      exact absurd (hanchor.symm.trans (isDot_iff.mp hdot).1) hfront
  · exact h

end Written

section Expansions

variable {w : Workspace} {wantsDirectory : Bool} {fuel : Nat} {rest : List Pattern}
  {path r base : Path} {s : String} {pattern : PathPattern}

/-- Texts in front of a pattern are gone through, one step each. -/
theorem exists_mem_onward {texts : List String}
    (h : r ∈ onward w wantsDirectory fuel (texts.map .ofText ++ rest) path) :
    ∃ fuel', r ∈ onward w wantsDirectory fuel' rest (texts.foldl step path) := by
  induction texts generalizing fuel path with
  | nil => exact ⟨fuel, h⟩
  | cons text texts ih =>
    have hexpand : r ∈ expandFrom w wantsDirectory fuel
        (.ofText text :: (texts.map .ofText ++ rest)) path := h
    cases fuel with
    | zero => simp [expandFrom] at hexpand
    | succ fuel =>
      rcases mem_expandFrom_succ.mp hexpand with ⟨name, hname, -, hr⟩ | ⟨hnone, -⟩
      · obtain rfl := Option.some.inj ((literal?_ofText text).symm.trans hname)
        exact ih hr
      · simp at hnone

/-- Plain texts are read as they are, one after the other. -/
theorem mapM_parse_append {texts more : List String} {components : List Pattern}
    (hplain : ∀ text ∈ texts, ∀ c ∈ text.toList, IsPlain c)
    (h : (texts ++ more).mapM Pattern.parse = .ok components) :
    ∃ rest, more.mapM Pattern.parse = .ok rest ∧ components = texts.map .ofText ++ rest := by
  have htexts : texts.mapM Pattern.parse = .ok (texts.map .ofText) := by
    clear h
    induction texts with
    | nil => rfl
    | cons text texts ih =>
      rw [List.mapM_cons, parse_of_plain (hplain text (List.mem_cons_self ..)),
        ih fun t ht => hplain t (List.mem_cons_of_mem _ ht)]
      rfl
  rw [List.mapM_append, htexts] at h
  cases hmore : more.mapM Pattern.parse with
  | error e =>
    rw [hmore] at h
    exact nomatch h
  | ok rest =>
    rw [hmore] at h
    exact ⟨rest, rfl, (Except.ok.inj h).symm⟩

/-- What a text is expanded to goes on from the directory that its components begin in. -/
theorem mem_onward_of_mem_expand (h : PathPattern.parse (base.join s).text = .ok pattern)
    (hbase : ∀ c ∈ base.text.toList, IsPlain c) (hs : s.toList.head? ≠ some '/')
    (hr : r ∈ pattern.expand w) : ∃ rest fuel,
      (PathPattern.splitTerminated s).mapM Pattern.parse = .ok rest ∧
      r ∈ onward w pattern.wantsDirectory fuel rest
        ((PathPattern.piecesOf base.text).foldl step (PathPattern.startOf base.text)) := by
  obtain ⟨hstart, hread⟩ := PathPattern.parse_eq_ok h
  have hsame : PathPattern.startOf (base.join s).text = PathPattern.startOf base.text := by
    simp only [PathPattern.startOf, Path.head?_join hs]
  rw [PathPattern.piecesOf_join hs] at hread
  obtain ⟨rest, hrest, hcomponents⟩ := mapM_parse_append
    (fun text htext c hc => hbase c (PathPattern.mem_of_mem_piecesOf htext hc)) hread
  unfold PathPattern.expand at hr
  dsimp only at hr
  split at hr
  · simp at hr
  · rename_i hne
    rw [hcomponents] at hne
    rw [hstart, hsame, hcomponents, ← onward_of_ne_nil (by simpa using hne)] at hr
    obtain ⟨fuel, hr⟩ := exists_mem_onward hr
    exact ⟨rest, fuel, hrest, hr⟩

/-- A component that is read from one of these texts, and goes up nowhere, is gone on by. -/
theorem leadsOn_of_parse {front : Path} {texts : List String} {piece : String} {p : Pattern}
    (hp : p.Descends) (hparse : Pattern.parse piece = .ok p) (hpiece : piece ∈ texts) :
    p.LeadsOn (fun path => WrittenUnder front texts (undotted path))
      (WrittenUnder front texts) where
  named hpath hname :=
    have ⟨hslash, hdots⟩ := hp.literal hname
    hpath.step ⟨hslash, hdots, fun _ => eq_of_literal? hparse hname ▸ hpiece⟩
  dotted _ hnone hname := by
    rw [dotsOf_eq_nil hp hnone] at hname
    exact nomatch hname

/-- A text that is not empty has a component to read. -/
theorem ne_nil_of_mapM_parse (hne : s ≠ "")
    (h : (PathPattern.splitTerminated s).mapM Pattern.parse = .ok rest) : rest ≠ [] := by
  obtain ⟨piece, more, hpieces⟩ :=
    List.exists_cons_of_ne_nil (PathPattern.splitTerminated_ne_nil hne)
  rw [hpieces] at h
  obtain ⟨p, ps, -, -, rfl⟩ := mapM_cons_eq_ok h
  exact List.cons_ne_nil p ps

/-- What a pattern below a plain base expands to is written under the base as it is spelled. -/
theorem writtenUnder_of_mem_expand (hw : w.Plain)
    (h : PathPattern.parse (base.join s).text = .ok pattern)
    (hbase : ∀ c ∈ base.text.toList, IsPlain c) (hs : s.toList.head? ≠ some '/') (hne : s ≠ "")
    (hdown : ∀ piece ∈ Text.split '/' s, ∀ p, Pattern.parse piece = .ok p →
      beginsWithDot p = true → p.isMatch ".." = false)
    (hr : r ∈ pattern.expand w) : WrittenUnder (spelled base) (Text.split '/' s) r := by
  obtain ⟨rest, fuel, hrest, hr⟩ := mem_onward_of_mem_expand h hbase hs hr
  rw [onward_of_ne_nil (ne_nil_of_mapM_parse hne hrest)] at hr
  have hleads : ∀ p ∈ rest, p.LeadsOn
      (fun path => WrittenUnder (spelled base) (Text.split '/' s) (undotted path))
      (WrittenUnder (spelled base) (Text.split '/' s)) := by
    intro p hp
    obtain ⟨piece, hpiece, hparse⟩ := exists_of_mem_mapM hrest p hp
    have hpiece := PathPattern.mem_split_of_mem_splitTerminated hpiece
    have hslash := slash_notMem_of_parse hparse (Text.notMem_of_mem_split hpiece)
    exact leadsOn_of_parse ⟨hslash, hdown piece hpiece p hparse⟩ hparse hpiece
  exact (of_mem_expandFrom w pattern.wantsDirectory _ _
    (fun _ hpath => hpath.undotted (anchor_spelled base))
    (fun _ _ hpath hname => hpath.step (adds_of_enters (isName_of_mem_list hw hname)))
    fuel).1 rest _ hleads (.refl (spelled base) _) r hr

end Expansions

end Glob

end ViewBinding
