import ViewBinding.Glob.Expand
import ViewBinding.Proofs.FileTree.Growing

/-!
# What a pattern expands to

A pattern whose components go up nowhere expands to paths below the directory that it begins in. In
a tree that has only grown it may stand for more, but only for what is new: a path to something that
was there before is among the expansions exactly if it was among them before.
-/

namespace ViewBinding

open Workspace

namespace Glob

/-- A set is no plain character. -/
theorem ne_char_of_set? {cs : List Char} {token : Token} {taken : Nat}
    (h : set? cs = some (token, taken)) (c : Char) : token ≠ .char c := by
  unfold set? at h
  rintro rfl
  split at h
  · split at h
    · exact nomatch (Prod.mk.inj (Option.some.inj h)).1
    · exact nomatch h
  · dsimp only at h
    split at h
    · exact nomatch (Prod.mk.inj (Option.some.inj h)).1
    · exact nomatch h
  · exact nomatch h

/-- What is read in one step: `**` at the end, or a token and what follows it. A plain character
takes nothing along. -/
theorem tokens_cons_cases {before : Option Char} {position fuel : Nat} {c : Char} {rest : List Char}
    {ts : List Token} (h : tokens before position (fuel + 1) (c :: rest) = .ok ts) :
    ts = [.anyComponents] ∨ ∃ token more before' position' left, ts = token :: more ∧
      tokens before' position' fuel left = .ok more ∧ (∀ x ∈ left, x ∈ rest) ∧
      (token = .char c ∧ left = rest ∨ ∀ x, token ≠ .char x) := by
  -- All branches but one read a token and go on; only what they go on with differs.
  have hcons : ∀ {token before' position' left},
      (token :: ·) <$> tokens before' position' fuel left = .ok ts → (∀ x ∈ left, x ∈ rest) →
      (token = .char c ∧ left = rest ∨ ∀ x, token ≠ .char x) → ∃ token more before' position' left,
        ts = token :: more ∧ tokens before' position' fuel left = .ok more ∧
        (∀ x ∈ left, x ∈ rest) ∧ (token = .char c ∧ left = rest ∨ ∀ x, token ≠ .char x) := by
    intro token before' position' left hread hleft htoken
    cases hmore : tokens before' position' fuel left with
    | error e =>
      rw [hmore] at hread
      exact nomatch hread
    | ok more =>
      rw [hmore] at hread
      obtain rfl := (Except.ok.inj hread).symm
      exact ⟨token, more, before', position', left, rfl, hmore, hleft, htoken⟩
  unfold tokens at h
  split at h
  · rename_i hzero
    exact nomatch hzero
  · rename_i hnil _
    exact nomatch hnil
  · rename_i hfuel hchars
    obtain rfl := Nat.succ.inj hfuel
    obtain ⟨rfl, rfl⟩ := List.cons.inj hchars
    have hdrop : ∀ x ∈ rest.dropWhile (· = '*'), x ∈ rest :=
      fun x hx => (List.dropWhile_sublist _).subset hx
    revert h hdrop
    generalize rest.dropWhile (· = '*') = left
    intro h hdrop
    dsimp only at h
    split at h
    · exact nomatch h
    · split at h
      · split at h
        · split at h
          · exact .inl (Except.ok.inj h).symm
          · exact .inr (hcons h (fun x hx => hdrop x (List.mem_cons_of_mem _ hx)) (.inr nofun))
          · exact nomatch h
        · exact nomatch h
      · exact .inr (hcons h hdrop (.inr nofun))
  · rename_i hfuel hchars
    obtain rfl := Nat.succ.inj hfuel
    obtain ⟨rfl, rfl⟩ := List.cons.inj hchars
    split at h
    · exact nomatch h
    · rename_i token taken hset
      exact .inr (hcons h (fun x hx => (List.drop_sublist _ _).subset hx)
        (.inr (ne_char_of_set? hset)))
  · rename_i hfuel hchars
    obtain rfl := Nat.succ.inj hfuel
    obtain ⟨rfl, rfl⟩ := List.cons.inj hchars
    exact .inr (hcons h (fun _ => id) (.inr nofun))
  · rename_i hfuel hchars
    obtain rfl := Nat.succ.inj hfuel
    obtain ⟨rfl, rfl⟩ := List.cons.inj hchars
    exact .inr (hcons h (fun _ => id) (.inl ⟨rfl, rfl⟩))

/-- The plain characters of a pattern are among those that it was read from. -/
theorem mem_of_char_mem_tokens {before : Option Char} {position fuel : Nat} {cs : List Char}
    {ts : List Token} (h : tokens before position fuel cs = .ok ts) {c : Char}
    (hc : Token.char c ∈ ts) : c ∈ cs := by
  induction fuel generalizing before position cs ts with
  | zero =>
    obtain rfl := Except.ok.inj h
    exact nomatch hc
  | succ fuel ih =>
    cases cs with
    | nil =>
      obtain rfl := Except.ok.inj h
      exact nomatch hc
    | cons first rest =>
      rcases tokens_cons_cases h with rfl | ⟨token, more, _, _, left, rfl, hread, hleft, htoken⟩
      · exact absurd (List.mem_singleton.mp hc) nofun
      · rcases List.mem_cons.mp hc with hfirst | hmore
        · rcases htoken with ⟨rfl, -⟩ | hother
          · obtain rfl := Token.char.inj hfirst
            exact List.mem_cons_self ..
          · exact absurd hfirst.symm (hother c)
        · exact List.mem_cons_of_mem _ (hleft c (ih hread hmore))

/-- Plain characters are read from themselves alone. -/
theorem eq_of_tokens_eq_map {before : Option Char} {position fuel : Nat} {cs chars : List Char}
    (h : tokens before position fuel cs = .ok (chars.map .char)) (hfuel : cs.length ≤ fuel) :
    cs = chars := by
  induction fuel generalizing before position cs chars with
  | zero =>
    obtain rfl := List.length_eq_zero_iff.mp (Nat.le_zero.mp hfuel)
    exact (List.map_eq_nil_iff.mp (Except.ok.inj h).symm).symm
  | succ fuel ih =>
    cases cs with
    | nil => exact (List.map_eq_nil_iff.mp (Except.ok.inj h).symm).symm
    | cons first rest =>
      rcases tokens_cons_cases h with hlast | ⟨token, more, _, _, left, hts, hread, -, htoken⟩
      · obtain ⟨c, -, hc⟩ := List.mem_map.mp (hlast ▸ List.mem_singleton_self Token.anyComponents)
        exact nomatch hc
      · obtain ⟨c, chars, rfl, rfl, rfl⟩ := List.map_eq_cons_iff.mp hts
        rcases htoken with ⟨hsame, rfl⟩ | hother
        · rw [Token.char.inj hsame, ih hread (Nat.le_of_succ_le_succ hfuel)]
        · exact absurd rfl (hother c)

section Components

/-- A component that stands for names in a directory: it holds no slash, and does not stand for the
directory above. -/
structure Pattern.Descends (p : Pattern) : Prop where
  slash : Token.char '/' ∉ p.tokens
  dots : beginsWithDot p = true → p.isMatch ".." = false

/-- A pattern with a single text is made of its characters. -/
theorem tokens_of_literal? {p : Pattern} {name : String} (h : p.literal? = some name) :
    p.tokens = name.toList.map .char := by
  obtain ⟨cs, hcs, rfl⟩ := Option.map_eq_some_iff.mp h
  rw [String.toList_ofList]
  revert hcs
  generalize p.tokens = tokens
  clear h
  intro hcs
  induction tokens generalizing cs with
  | nil =>
    obtain rfl := Option.some.inj hcs
    rfl
  | cons token tokens ih =>
    rw [List.mapM_cons] at hcs
    obtain ⟨first, hfirst, hread⟩ := Option.bind_eq_some_iff.mp hcs
    obtain ⟨rest, hrest, hsome⟩ := Option.bind_eq_some_iff.mp hread
    obtain rfl := Option.some.inj hsome
    split at hfirst
    · obtain rfl := Option.some.inj hfirst
      rw [List.map_cons, ← ih rest hrest]
    · exact nomatch hfirst

/-- A single text of a component that goes up nowhere is a name or idle. -/
theorem Pattern.Descends.literal {p : Pattern} (h : p.Descends) {name : String}
    (hname : p.literal? = some name) : '/' ∉ name.toList ∧ name ≠ ".." := by
  have htokens := tokens_of_literal? hname
  refine ⟨fun hslash => h.slash ?_, ?_⟩
  · rw [htokens]
    exact List.mem_map_of_mem hslash
  · rintro rfl
    obtain ⟨tokens⟩ := p
    obtain rfl : tokens = [.char '.', .char '.'] := htokens
    exact absurd (h.dots rfl) (by decide)

/-- What is left after leading `**` components is among the components. -/
theorem mem_of_mem_lastRecursive {ps : List Pattern} {p : Pattern} (h : p ∈ lastRecursive ps) :
    p ∈ ps := by
  fun_induction lastRecursive ps with
  | case1 p' q rest hrec ih => exact List.mem_cons_of_mem _ (ih h)
  | case2 => exact h
  | case3 => exact h

end Components

section Steps

variable {w : Workspace} {path : Path} {name : String}

/-- A path stands for the current directory if it begins with a dot and goes on by no names. -/
theorem isDot_iff : path.isDot = true ↔ path.pieces.anchor = .current ∧ path.names = [] := by
  rw [Path.isDot, beq_iff_eq, Path.components, Path.names_eq]
  have hplain : ∀ body : List String, body.map Path.componentOf ≠ [.current] := by
    intro body hbody
    obtain ⟨piece, -, hpiece⟩ := List.mem_map.mp (hbody ▸ List.mem_singleton_self Component.current)
    unfold Path.componentOf at hpiece
    split at hpiece <;> exact nomatch hpiece
  cases path.pieces.anchor with
  | root => simp [Path.Anchor.components]
  | plain => simpa [Path.Anchor.components] using hplain _
  | current => simp [Path.Anchor.components]

/-- A path that stands for the current directory has no names, and does not begin at the root. -/
theorem names_of_isDot (h : path.isDot = true) :
    path.names = [] ∧ path.text.toList.head? ≠ some '/' :=
  have ⟨hanchor, hnames⟩ := isDot_iff.mp h
  ⟨hnames, Path.head?_ne_of_anchor (by rw [hanchor]; decide)⟩

/-- A step to a name goes on by it, and begins where the path does. -/
theorem names_step (h : '/' ∉ name.toList) (path : Path) :
    (step path name).names = path.names ++ Path.names ⟨name⟩ ∧
      ((step path name).text.toList.head? = some '/' ↔ path.text.toList.head? = some '/') := by
  have hhead := Path.head?_ne_of_notMem h
  unfold step
  split
  · rename_i hdot
    obtain ⟨hnames, hplain⟩ := names_of_isDot hdot
    exact ⟨by rw [hnames]; rfl, iff_of_false hhead hplain⟩
  · exact ⟨Path.names_join hhead path, Path.head?_join hhead path⟩

/-- A step to a name that goes up nowhere leads below a path. -/
theorem placeOf_step (hpath : path.Descends) (h : '/' ∉ name.toList) (hdots : name ≠ "..") :
    (step path name).Descends ∧ w.placeOf (step path name) = w.placeOf path ++ Path.names ⟨name⟩ :=
  have ⟨hnames, hhead⟩ := names_step h path
  placeOf_of_names_eq hpath hnames hhead (Path.dots_notMem_names h hdots)

/-- A name that is listed in a plain tree is one that is gone into. -/
theorem isName_of_mem_list (hw : w.Plain) (hname : name ∈ w.list path) :
    Path.IsName name ∧ Enters name := by
  obtain ⟨p, -, hin⟩ := mem_list_iff_entry.mp hname
  exact hw.tree.named _ (FileTree.mem_names.mp hin) name (by simp)

/-- A step to a name that is listed in a plain tree leads to the place of that name. -/
theorem placeOf_step_of_mem_list (hw : w.Plain) (hpath : path.Descends)
    (hname : name ∈ w.list path) :
    (step path name).Descends ∧ w.placeOf (step path name) = w.placeOf path ++ [name] := by
  obtain ⟨hname, henters⟩ := isName_of_mem_list hw hname
  have hstep := placeOf_step (w := w) hpath hname.2 henters.not_dots
  rwa [Path.names_of_isName hname henters.not_dot] at hstep

end Steps

section Expanding

variable {w : Workspace} {wantsDirectory : Bool} {fuel : Nat} {p : Pattern} {rest : List Pattern}
  {path r : Path}

/-- What the components after the first match from the path that the first leads to. -/
def onward (w : Workspace) (wantsDirectory : Bool) (fuel : Nat) (rest : List Pattern)
    (next : Path) : List Path :=
  if rest.isEmpty then result w wantsDirectory next else expandFrom w wantsDirectory fuel rest next

@[simp] theorem onward_nil :
    onward w wantsDirectory fuel [] path = result w wantsDirectory path := rfl

theorem onward_of_ne_nil (h : rest ≠ []) :
    onward w wantsDirectory fuel rest path = expandFrom w wantsDirectory fuel rest path := by
  rw [onward, if_neg (by simpa using h)]

/-- The dots that a component may stand for. -/
def dotsOf (p : Pattern) : List String :=
  if beginsWithDot p then ["..", "."].filter p.isMatch else []

/-- A component that goes up nowhere stands for one dot at most. -/
theorem eq_dot_of_mem_dotsOf {name : String} (hp : p.Descends) (h : name ∈ dotsOf p) :
    name = "." := by
  unfold dotsOf at h
  split at h
  · rename_i hbegins
    obtain ⟨hin, hmatch⟩ := List.mem_filter.mp h
    rcases List.mem_cons.mp hin with rfl | hin
    · rw [hp.dots hbegins] at hmatch
      exact nomatch hmatch
    · exact List.mem_singleton.mp hin
  · exact nomatch h

/-- Is there what a plain component names? -/
def leads (w : Workspace) (path : Path) (name : String) : Bool :=
  if name = "." ∨ name = ".." then w.isDirectory path else w.holds (step path name)

/-- What components match from a directory: the paths onward from what a plain one names, or from
all that another one matches. -/
theorem mem_expandFrom_succ :
    r ∈ expandFrom w wantsDirectory (fuel + 1) (p :: rest) path ↔
      (∃ name, p.literal? = some name ∧ leads w path name = true ∧
        r ∈ onward w wantsDirectory fuel rest (step path name)) ∨
      p.literal? = none ∧ w.isDirectory path = true ∧
        ((∃ name ∈ dotsOf p, r ∈ onward w wantsDirectory fuel rest (path.join name)) ∨
          ∃ name ∈ w.list path,
            r ∈ visit w wantsDirectory fuel (p :: rest) name (step path name)) := by
  rw [expandFrom]
  cases hliteral : p.literal? with
  | some name =>
    simp only [Option.some.injEq, exists_eq_left', reduceCtorEq, false_and, or_false]
    by_cases hleads : leads w path name = true
    · rw [if_neg (by simpa [leads] using hleads)]
      simp only [hleads, true_and]
      rfl
    · rw [if_pos (by simpa [leads] using hleads)]
      simp [hleads]
  | none =>
    simp only [reduceCtorEq, false_and, exists_false, false_or, true_and]
    by_cases hdirectory : w.isDirectory path = true
    · simp only [hdirectory, Bool.not_true, Bool.false_eq_true, if_false, true_and,
        List.mem_append, List.mem_flatMap]
      rfl
    · simp [hdirectory]

/-- What components match at an entry of a directory: `**` may stand for the entry or go on below
it, any other component has to match its name. -/
theorem mem_visit_succ {name : String} :
    r ∈ visit w wantsDirectory (fuel + 1) (p :: rest) name path ↔
      (p.isRecursive = true ∧
        ((lastRecursive (p :: rest)).tail = [] ∧ w.isDirectory path = true ∧ r = path ∨
          (lastRecursive (p :: rest)).tail ≠ [] ∧
            r ∈ visit w wantsDirectory fuel (lastRecursive (p :: rest)).tail name path ∨
          w.isDirectory path = true ∧
            r ∈ expandFrom w wantsDirectory fuel (lastRecursive (p :: rest)) path)) ∨
      p.isRecursive = false ∧ p.isMatch name = true ∧
        r ∈ onward w wantsDirectory fuel rest path := by
  rw [visit]
  cases hrecursive : p.isRecursive with
  | true =>
    simp only [if_true, true_and, reduceCtorEq, false_and, or_false]
    generalize lastRecursive (p :: rest) = ps
    by_cases htail : ps.tail = []
    · by_cases hdirectory : w.isDirectory path = true <;> simp [htail, hdirectory]
    · by_cases hdirectory : w.isDirectory path = true <;> simp [htail, hdirectory]
  | false =>
    by_cases hmatch : p.isMatch name = true
    · simp only [hmatch, Bool.false_eq_true, if_false, Bool.not_true, false_and, false_or, true_and]
      rfl
    · simp [hmatch]

/-- A name in a directory that a component matches is gone on from. -/
theorem mem_expandFrom_of_isMatch {name : String} (hliteral : p.literal? = none)
    (hrecursive : p.isRecursive = false) (hname : name ∈ w.list path)
    (hmatch : p.isMatch name = true)
    (hr : r ∈ onward w wantsDirectory fuel rest (step path name)) :
    r ∈ expandFrom w wantsDirectory (fuel + 2) (p :: rest) path := by
  obtain ⟨place, hplace, -⟩ := mem_list_iff_entry.mp hname
  exact mem_expandFrom_succ.mpr (.inr ⟨hliteral, isDirectory_iff_entry.mpr ⟨place, hplace⟩,
    .inr ⟨name, hname, mem_visit_succ.mpr (.inr ⟨hrecursive, hmatch, hr⟩)⟩⟩)

end Expanding

/-- Does a component lead from paths that are gone on from to paths that are reached? -/
structure Pattern.LeadsOn (From To : Path → Prop) (p : Pattern) : Prop where
  named : ∀ {path name}, From path → p.literal? = some name → To (step path name)
  dotted : ∀ {path name}, From path → p.literal? = none → name ∈ dotsOf p → To (path.join name)

section Reaching

variable {w : Workspace} {wantsDirectory : Bool} {path next r : Path}

/-- A result is the path that was matched, as far as it is what was asked for. -/
theorem mem_result : r ∈ result w wantsDirectory path ↔
    r = path ∧ (wantsDirectory = true → w.isDirectory path = true) := by
  unfold result
  cases wantsDirectory <;> cases w.isDirectory path <;> simp

/-- Whatever holds of the paths that each component and each name in a directory lead to holds of
what components match. -/
theorem of_mem_expandFrom (w : Workspace) (wantsDirectory : Bool) (From To : Path → Prop)
    (honward : ∀ path, To path → From path)
    (hlisted : ∀ path name, From path → name ∈ w.list path → To (step path name)) (fuel : Nat) :
    (∀ ps path, (∀ p ∈ ps, p.LeadsOn From To) → From path →
      ∀ r ∈ expandFrom w wantsDirectory fuel ps path, To r) ∧
    ∀ ps name path, (∀ p ∈ ps, p.LeadsOn From To) → To path →
      ∀ r ∈ visit w wantsDirectory fuel ps name path, To r := by
  -- The two go on with each other on less fuel, so the induction is about both.
  induction fuel with
  | zero => exact ⟨by simp [expandFrom], by simp [visit]⟩
  | succ fuel ih =>
    obtain ⟨ihExpand, ihVisit⟩ := ih
    have hrest : ∀ rest next, (∀ p ∈ rest, p.LeadsOn From To) → To next →
        ∀ r ∈ onward w wantsDirectory fuel rest next, To r := by
      intro rest next hrest hnext r hr
      unfold onward at hr
      split at hr
      · obtain ⟨rfl, -⟩ := mem_result.mp hr
        exact hnext
      · exact ihExpand rest next hrest (honward next hnext) r hr
    constructor
    · intro ps path hps hpath r hr
      cases ps with
      | nil => simp [expandFrom] at hr
      | cons p rest =>
        have hp := hps p (List.mem_cons_self ..)
        have hmore : ∀ q ∈ rest, q.LeadsOn From To := fun q hq => hps q (List.mem_cons_of_mem _ hq)
        rcases mem_expandFrom_succ.mp hr with ⟨name, hname, -, hr⟩ |
          ⟨hnone, -, ⟨name, hname, hr⟩ | ⟨name, hname, hr⟩⟩
        · exact hrest rest _ hmore (hp.named hpath hname) r hr
        · exact hrest rest _ hmore (hp.dotted hpath hnone hname) r hr
        · exact ihVisit _ name _ hps (hlisted path name hpath hname) r hr
    · intro ps name path hps hpath r hr
      cases ps with
      | nil => simp [visit] at hr
      | cons p rest =>
        have hlast : ∀ q ∈ lastRecursive (p :: rest), q.LeadsOn From To :=
          fun q hq => hps q (mem_of_mem_lastRecursive hq)
        rcases mem_visit_succ.mp hr with ⟨-, ⟨-, -, rfl⟩ | ⟨-, hr⟩ | ⟨-, hr⟩⟩ | ⟨-, -, hr⟩
        · exact hpath
        · exact ihVisit _ name path (fun q hq => hlast q (List.mem_of_mem_tail hq)) hpath r hr
        · exact ihExpand _ path hlast (honward path hpath) r hr
        · exact hrest rest path (fun q hq => hps q (List.mem_cons_of_mem _ hq)) hpath r hr

end Reaching

/-- A path that goes up nowhere and leads to or below the place of another. -/
def LeadsBelow (w : Workspace) (path r : Path) : Prop :=
  r.Descends ∧ w.placeOf path <+: w.placeOf r

section Below

variable {w : Workspace} {wantsDirectory : Bool} {path next r : Path}

/-- What lies below a path that goes on from another lies below that one. -/
theorem LeadsBelow.of_step {more : List String} (h : LeadsBelow w next r)
    (hplace : w.placeOf next = w.placeOf path ++ more) : LeadsBelow w path r :=
  ⟨h.1, (hplace ▸ List.prefix_append ..).trans h.2⟩

/-- A path is below itself. -/
theorem LeadsBelow.refl (h : path.Descends) : LeadsBelow w path path := ⟨h, List.prefix_rfl⟩

/-- What goes on from a path below another is below that one. -/
theorem LeadsBelow.onward {more : List String} (h : LeadsBelow w path next)
    (hr : r.Descends ∧ w.placeOf r = w.placeOf next ++ more) : LeadsBelow w path r :=
  ⟨hr.1, h.2.trans (hr.2 ▸ List.prefix_append ..)⟩

/-- A component that goes up nowhere leads below the paths that it goes on from. -/
theorem Pattern.Descends.leadsOn {p : Pattern} (h : p.Descends) :
    p.LeadsOn (LeadsBelow w path) (LeadsBelow w path) where
  named hpath hname :=
    let ⟨hslash, hdots⟩ := h.literal hname
    hpath.onward (placeOf_step hpath.1 hslash hdots)
  dotted hpath _ hname := by
    obtain rfl := eq_dot_of_mem_dotsOf h hname
    exact hpath.onward (placeOf_join hpath.1 (by decide) (by decide))

/-- Components that go up nowhere match paths below the directory that they begin in. -/
theorem leadsBelow_of_mem (hw : w.Plain) (fuel : Nat) :
    (∀ ps path, (∀ p ∈ ps, p.Descends) → path.Descends →
      ∀ r ∈ expandFrom w wantsDirectory fuel ps path, LeadsBelow w path r) ∧
    ∀ ps name path, (∀ p ∈ ps, p.Descends) → path.Descends →
      ∀ r ∈ visit w wantsDirectory fuel ps name path, LeadsBelow w path r := by
  have hreached : ∀ path, _ := fun path => of_mem_expandFrom w wantsDirectory
    (LeadsBelow w path) (LeadsBelow w path) (fun _ => id)
    (fun _ _ hnext hname => hnext.onward (placeOf_step_of_mem_list hw hnext.1 hname)) fuel
  exact ⟨fun ps path hps hpath =>
      (hreached path).1 ps path (fun p hp => (hps p hp).leadsOn) (.refl hpath),
    fun ps name path hps hpath =>
      (hreached path).2 ps name path (fun p hp => (hps p hp).leadsOn) (.refl hpath)⟩

end Below

/-- Do components match a path in one workspace exactly if they match it in another? -/
structure Agree (w w' : Workspace) (wantsDirectory : Bool) (r : Path) (fuel : Nat) : Prop where
  mem_expandFrom_iff : ∀ ps path, (∀ p ∈ ps, p.Descends) → path.Descends →
    (r ∈ expandFrom w' wantsDirectory fuel ps path ↔ r ∈ expandFrom w wantsDirectory fuel ps path)
  mem_visit_iff : ∀ ps name path, (∀ p ∈ ps, p.Descends) → path.Descends →
    (r ∈ visit w' wantsDirectory fuel ps name path ↔ r ∈ visit w wantsDirectory fuel ps name path)

section Growing

variable {w w' : Workspace} {wantsDirectory : Bool} {r path : Path} {fuel : Nat} {p : Pattern}
  {rest : List Pattern}

/-- What is matched by no components or by those after the first. -/
theorem Agree.mem_onward_iff (hagree : Agree w w' wantsDirectory r fuel) (h : w.Later w')
    (hr : w.Has r) (hrest : ∀ p ∈ rest, p.Descends) (hpath : path.Descends) :
    (r ∈ onward w' wantsDirectory fuel rest path ↔ r ∈ onward w wantsDirectory fuel rest path) ∧
      (r ∈ onward w wantsDirectory fuel rest path → LeadsBelow w path r) := by
  unfold onward
  split
  · rw [mem_result, mem_result]
    refine ⟨and_congr_right ?_, ?_⟩
    · rintro rfl
      rw [h.isDirectory_eq hpath hr]
    · rintro ⟨rfl, -⟩
      exact .refl hpath
  · exact ⟨hagree.mem_expandFrom_iff rest path hrest hpath,
      (leadsBelow_of_mem h.before fuel).1 rest path hrest hpath r⟩

/-- What is matched at the entries of a directory. -/
theorem Agree.mem_listed_iff (hagree : Agree w w' wantsDirectory r fuel) (h : w.Later w')
    (hr : w.Has r) (hps : ∀ q ∈ p :: rest, q.Descends) (hpath : path.Descends) (name : String) :
    (name ∈ w'.list path ∧ r ∈ visit w' wantsDirectory fuel (p :: rest) name (step path name) ↔
      name ∈ w.list path ∧
        r ∈ visit w wantsDirectory fuel (p :: rest) name (step path name)) ∧
    (name ∈ w.list path ∧ r ∈ visit w wantsDirectory fuel (p :: rest) name (step path name) →
      LeadsBelow w path r) := by
  have hbelow : ∀ {u : Workspace}, name ∈ u.list path → u.Plain → u.here = w.here →
      (step path name).Descends ∧ w.placeOf (step path name) = w.placeOf path ++ [name] := by
    intro u hname hu hhere
    have hstep := placeOf_step_of_mem_list hu hpath hname
    rwa [placeOf_congr hhere, placeOf_congr hhere] at hstep
  have hvisit : ∀ {u : Workspace}, name ∈ u.list path → u.Plain → u.here = w.here →
      (r ∈ visit w' wantsDirectory fuel (p :: rest) name (step path name) ↔
        r ∈ visit w wantsDirectory fuel (p :: rest) name (step path name)) ∧
      (r ∈ visit w wantsDirectory fuel (p :: rest) name (step path name) →
        (name ∈ w'.list path ↔ name ∈ w.list path) ∧ LeadsBelow w path r) := by
    intro u hname hu hhere
    obtain ⟨hnext, hplace⟩ := hbelow hname hu hhere
    refine ⟨hagree.mem_visit_iff _ name _ hps hnext, fun hin => ?_⟩
    have hreach := (leadsBelow_of_mem h.before fuel).2 _ name _ hps hnext r hin
    have hknown := h.before.has_of_above hr hreach.2
    unfold Workspace.Has at hknown
    rw [hplace] at hknown
    exact ⟨h.mem_list_iff hpath hknown, hreach.of_step hplace⟩
  refine ⟨⟨fun ⟨hname, hin⟩ => ?_, fun ⟨hname, hin⟩ => ?_⟩, fun ⟨hname, hin⟩ => ?_⟩
  · obtain ⟨hsame, hlisted⟩ := hvisit hname h.after h.here
    have hin := hsame.mp hin
    exact ⟨(hlisted hin).1.mp hname, hin⟩
  · obtain ⟨hsame, hlisted⟩ := hvisit hname h.before rfl
    exact ⟨(hlisted hin).1.mpr hname, hsame.mpr hin⟩
  · exact ((hvisit hname h.before rfl).2 hin).2

/-- One more step of matching from a directory. -/
theorem Agree.expand_succ (hagree : Agree w w' wantsDirectory r fuel) (h : w.Later w')
    (hr : w.Has r) (hps : ∀ q ∈ p :: rest, q.Descends) (hpath : path.Descends) :
    r ∈ expandFrom w' wantsDirectory (fuel + 1) (p :: rest) path ↔
      r ∈ expandFrom w wantsDirectory (fuel + 1) (p :: rest) path := by
  have hp := hps p (List.mem_cons_self ..)
  have hrest : ∀ q ∈ rest, q.Descends := fun q hq => hps q (List.mem_cons_of_mem _ hq)
  -- Whatever lies on the way to the path had an entry, so it is answered as before.
  have hknown : ∀ {path}, LeadsBelow w path r → w.Has path := fun hbelow =>
    h.before.has_of_above hr hbelow.2
  rw [mem_expandFrom_succ, mem_expandFrom_succ]
  refine or_congr (exists_congr fun name => and_congr_right fun hname => ?_)
    (and_congr_right fun _ => ?_)
  · obtain ⟨hslash, hdots⟩ := hp.literal hname
    obtain ⟨hnext, hplace⟩ := placeOf_step (w := w) hpath hslash hdots
    obtain ⟨hsame, hbelow⟩ := hagree.mem_onward_iff h hr hrest hnext
    rw [hsame]
    refine and_congr_left fun hin => ?_
    unfold leads
    rw [h.isDirectory_eq hpath (hknown ((hbelow hin).of_step hplace)),
      h.holds_eq hnext (hknown (hbelow hin))]
  · have hdot : ∀ name ∈ dotsOf p, (r ∈ onward w' wantsDirectory fuel rest (path.join name) ↔
          r ∈ onward w wantsDirectory fuel rest (path.join name)) ∧
        (r ∈ onward w wantsDirectory fuel rest (path.join name) → LeadsBelow w path r) := by
      intro name hname
      obtain rfl := eq_dot_of_mem_dotsOf hp hname
      have hjoin : (path.join ".").Descends ∧ _ :=
        placeOf_join (w := w) hpath (by decide) (by decide)
      obtain ⟨hsame, hbelow⟩ := hagree.mem_onward_iff h hr hrest hjoin.1
      exact ⟨hsame, fun hin => (hbelow hin).of_step hjoin.2⟩
    rw [or_congr (exists_congr fun name => and_congr_right fun hname => (hdot name hname).1)
      (exists_congr fun name => (hagree.mem_listed_iff h hr hps hpath name).1)]
    refine and_congr_left fun hin => ?_
    have hbelow : LeadsBelow w path r := by
      rcases hin with ⟨name, hname, hin⟩ | ⟨name, hlisted⟩
      · exact (hdot name hname).2 hin
      · exact (hagree.mem_listed_iff h hr hps hpath name).2 hlisted
    rw [h.isDirectory_eq hpath (hknown hbelow)]

/-- One more step of matching at an entry. -/
theorem Agree.visit_succ (hagree : Agree w w' wantsDirectory r fuel) (h : w.Later w')
    (hr : w.Has r) (hps : ∀ q ∈ p :: rest, q.Descends) (hpath : path.Descends) (name : String) :
    r ∈ visit w' wantsDirectory (fuel + 1) (p :: rest) name path ↔
      r ∈ visit w wantsDirectory (fuel + 1) (p :: rest) name path := by
  have hlast : ∀ q ∈ lastRecursive (p :: rest), q.Descends :=
    fun q hq => hps q (mem_of_mem_lastRecursive hq)
  have hdirectory : LeadsBelow w path r → w'.isDirectory path = w.isDirectory path :=
    fun hbelow => h.isDirectory_eq hpath (h.before.has_of_above hr hbelow.2)
  rw [mem_visit_succ, mem_visit_succ]
  refine or_congr (and_congr_right fun _ => or_congr (and_congr_right fun _ => ?_) (or_congr
    (and_congr_right fun _ => ?_) ?_)) (and_congr_right fun _ => and_congr_right fun _ => ?_)
  · refine and_congr_left ?_
    rintro rfl
    rw [hdirectory (.refl hpath)]
  · exact hagree.mem_visit_iff _ name path (fun q hq => hlast q (List.mem_of_mem_tail hq)) hpath
  · rw [hagree.mem_expandFrom_iff _ path hlast hpath]
    refine and_congr_left fun hin => ?_
    rw [hdirectory ((leadsBelow_of_mem h.before fuel).1 _ path hlast hpath r hin)]
  · exact (hagree.mem_onward_iff h hr (fun q hq => hps q (List.mem_cons_of_mem _ hq)) hpath).1

/-- Towards a path that led to something, components match the same in a later tree. -/
theorem agree (h : w.Later w') (hr : w.Has r) (wantsDirectory : Bool) (fuel : Nat) :
    Agree w w' wantsDirectory r fuel := by
  induction fuel with
  | zero => exact ⟨by simp [expandFrom], by simp [visit]⟩
  | succ fuel ih =>
    refine ⟨fun ps path hps hpath => ?_, fun ps name path hps hpath => ?_⟩
    · cases ps with
      | nil => simp [expandFrom]
      | cons p rest => exact ih.expand_succ h hr hps hpath
    · cases ps with
      | nil => simp [visit]
      | cons p rest => exact ih.visit_succ h hr hps hpath name

end Growing

section Patterns

variable {pattern : PathPattern} {text : String}

/-- What is read from more than one text is read from the first and from the others. -/
theorem mapM_cons_eq_ok {α β ε : Type} {f : α → Except ε β} {x : α} {xs : List α} {ys : List β}
    (h : (x :: xs).mapM f = .ok ys) :
    ∃ y more, f x = .ok y ∧ xs.mapM f = .ok more ∧ ys = y :: more := by
  rw [List.mapM_cons] at h
  cases hx : f x with
  | error e =>
    rw [hx] at h
    exact nomatch h
  | ok first =>
    cases hxs : xs.mapM f with
    | error e =>
      rw [hx, hxs] at h
      exact nomatch h
    | ok more =>
      rw [hx, hxs] at h
      exact ⟨first, more, rfl, rfl, (Except.ok.inj h).symm⟩

/-- What is read from these texts is read from one of them. -/
theorem exists_of_mem_mapM {α β ε : Type} {f : α → Except ε β} {xs : List α} {ys : List β}
    (h : xs.mapM f = .ok ys) : ∀ y ∈ ys, ∃ x ∈ xs, f x = .ok y := by
  induction xs generalizing ys with
  | nil =>
    obtain rfl := Except.ok.inj h
    exact nofun
  | cons x xs ih =>
    obtain ⟨first, more, hx, hxs, rfl⟩ := mapM_cons_eq_ok h
    intro y hy
    rcases List.mem_cons.mp hy with rfl | hy
    · exact ⟨x, List.mem_cons_self .., hx⟩
    · obtain ⟨z, hz, hread⟩ := ih hxs y hy
      exact ⟨z, List.mem_cons_of_mem _ hz, hread⟩

/-- The pieces of a text that a pattern is read from hold no slash. -/
theorem slash_notMem_of_mem_splitTerminated {piece : String}
    (h : piece ∈ PathPattern.splitTerminated text) : '/' ∉ piece.toList := by
  rw [PathPattern.splitTerminated] at h
  split at h
  · exact Text.notMem_of_mem_split (List.dropLast_subset _ h)
  · exact Text.notMem_of_mem_split h

/-- A pattern that was read from a text without a slash has none. -/
theorem slash_notMem_of_parse {p : Pattern} (h : Pattern.parse text = .ok p)
    (hslash : '/' ∉ text.toList) : Token.char '/' ∉ p.tokens := by
  intro htoken
  unfold Pattern.parse at h
  cases htokens : tokens none 0 (text.toList.length + 1) text.toList with
  | error e =>
    rw [htokens] at h
    exact nomatch h
  | ok ts =>
    rw [htokens] at h
    obtain rfl := Except.ok.inj h
    exact hslash (mem_of_char_mem_tokens htokens htoken)

/-- The directory that a pattern begins in. -/
def PathPattern.startOf (text : String) : Path :=
  ⟨if text.toList.head? = some '/' then "/" else "."⟩

/-- A text without the slash that it may begin with. -/
def PathPattern.afterRoot (text : String) : String :=
  if text.toList.head? = some '/' then String.ofList text.toList.tail else text

/-- The texts of the components of a pattern. -/
def PathPattern.piecesOf (text : String) : List String := splitTerminated (afterRoot text)

/-- The components of a pattern are read from its pieces. -/
theorem PathPattern.parse_eq_ok (h : parse text = .ok pattern) :
    pattern.start = startOf text ∧ (piecesOf text).mapM Pattern.parse = .ok pattern.components := by
  unfold parse at h
  cases hwhole : Pattern.parse text with
  | error e =>
    rw [hwhole] at h
    exact nomatch h
  | ok whole =>
    simp only [hwhole, bind, Except.bind, beq_iff_eq] at h
    split at h
    · exact nomatch h
    · rename_i components hread
      obtain rfl := Except.ok.inj h
      exact ⟨rfl, hread⟩

/-- A pattern that was read as a path begins at the root or in the current directory, and its
components hold no slash. -/
theorem of_parse_eq_ok (h : PathPattern.parse text = .ok pattern) :
    (pattern.start = ⟨"/"⟩ ∨ pattern.start = ⟨"."⟩) ∧
      ∀ p ∈ pattern.components, Token.char '/' ∉ p.tokens := by
  obtain ⟨hstart, hread⟩ := PathPattern.parse_eq_ok h
  refine ⟨?_, fun p hp => ?_⟩
  · rw [hstart, PathPattern.startOf]
    split
    · exact .inl rfl
    · exact .inr rfl
  · obtain ⟨piece, hpiece, hparse⟩ := exists_of_mem_mapM hread p hp
    exact slash_notMem_of_parse hparse (slash_notMem_of_mem_splitTerminated hpiece)

/-- A pattern none of whose components stands for the directory above. -/
def PathPattern.Descends (pattern : PathPattern) : Prop :=
  ∀ p ∈ pattern.components, beginsWithDot p = true → p.isMatch ".." = false

/-- Such a pattern, read as a path, begins in a path that goes up nowhere, and so do its
components. -/
theorem PathPattern.Descends.of_parse (hpattern : pattern.Descends)
    (h : PathPattern.parse text = .ok pattern) :
    pattern.start.Descends ∧ ∀ p ∈ pattern.components, p.Descends := by
  obtain ⟨hstart, hslash⟩ := of_parse_eq_ok h
  refine ⟨?_, fun p hp => ⟨hslash p hp, hpattern p hp⟩⟩
  rcases hstart with hstart | hstart
  · rw [hstart]
    decide
  · rw [hstart]
    decide

variable {w w' : Workspace} {r : Path}

/-- A pattern that goes up nowhere expands to paths that do not. -/
theorem descends_of_mem_expand (hw : w.Plain) (h : PathPattern.parse text = .ok pattern)
    (hpattern : pattern.Descends) (hr : r ∈ pattern.expand w) : r.Descends := by
  obtain ⟨hstart, hcomponents⟩ := hpattern.of_parse h
  unfold PathPattern.expand at hr
  dsimp only at hr
  split at hr
  · exact nomatch hr
  · exact ((leadsBelow_of_mem hw _).1 _ _ hcomponents hstart r hr).1

/-- What led to something is among the expansions in a later tree exactly if it was among them. -/
theorem mem_expand_iff (hlater : w.Later w') (h : PathPattern.parse text = .ok pattern)
    (hpattern : pattern.Descends) (hr : w.Has r) :
    r ∈ pattern.expand w' ↔ r ∈ pattern.expand w := by
  obtain ⟨hstart, hcomponents⟩ := hpattern.of_parse h
  unfold PathPattern.expand
  dsimp only
  split
  · exact Iff.rfl
  · exact (agree hlater hr _ _).mem_expandFrom_iff _ _ hcomponents hstart

end Patterns

end Glob

end ViewBinding
