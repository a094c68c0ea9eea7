import ViewBinding.Proofs.Model.Documents
import ViewBinding.Proofs.Name.DeclaredTypes

/-!
# Where marks stand

The check of declared types looks at each character alone. What it leaves open is where the marks
stand: the dots, brackets, commas, question marks and spaces. They are read from the beginning with
the number of lists of arguments that are open. The types of the documented form are those that
pass the check and whose marks fit. The field types of an accepted file pass the check, but their
marks need not fit.
-/

namespace ViewBinding.Name

section Marks

/-- A character that may stand in a declared type but in no name. -/
def isMark (c : Char) : Bool := ".<>?,&[] ".toList.contains c

/-- What may come next in a declared type. -/
inductive Stage where
  /-- An argument, or the whole type. -/
  | fresh
  /-- An argument after a comma, perhaps with a space before it. -/
  | gap
  /-- A piece of a name. -/
  | segment
  /-- Something inside a piece of a name, or after it. -/
  | inside
  /-- Something after arguments or an array suffix. -/
  | complete
  /-- The end of an array suffix. -/
  | opened
  /-- Something after a wildcard. -/
  | wildcard
  /-- The keyword of a wildcard with a bound. -/
  | bound
  /-- The rest of that keyword. -/
  | keyword (left : List Char)
  deriving DecidableEq

/-- A declared type that is being read: what may come next, and how many lists of arguments are
open. -/
structure TypeScan where
  stage : Stage
  depth : Nat
  deriving DecidableEq

namespace TypeScan

/-- A comma or the end of the arguments comes after an argument. -/
def afterArgument (depth : Nat) (c : Char) : Option TypeScan :=
  match depth with
  | 0 => none
  | outer + 1 =>
    if c = ',' then some ⟨.gap, outer + 1⟩
    else if c = '>' then some ⟨.complete, outer⟩
    else none

/-- Perhaps an array suffix comes after a type. -/
def afterType (depth : Nat) (c : Char) : Option TypeScan :=
  if c = '[' then some ⟨.opened, depth⟩ else afterArgument depth c

/-- A piece of a name begins. -/
def name (depth : Nat) (c : Char) : Option TypeScan :=
  if isStart c then some ⟨.inside, depth⟩ else none

/-- A wildcard or a type begins. -/
def argument (depth : Nat) (c : Char) : Option TypeScan :=
  if c = '?' ∧ depth ≠ 0 then some ⟨.wildcard, depth⟩ else name depth c

/-- Read one character. -/
def step (t : TypeScan) (c : Char) : Option TypeScan :=
  match t.stage with
  | .fresh => argument t.depth c
  | .gap => if c = ' ' then some ⟨.fresh, t.depth⟩ else argument t.depth c
  | .segment => name t.depth c
  | .inside =>
    if c = '.' then some ⟨.segment, t.depth⟩
    else if c = '<' then some ⟨.fresh, t.depth + 1⟩
    else if isMark c then afterType t.depth c
    else some t
  | .complete => afterType t.depth c
  | .opened => if c = ']' then some ⟨.complete, t.depth⟩ else none
  | .wildcard => if c = ' ' then some ⟨.bound, t.depth⟩ else afterArgument t.depth c
  | .bound =>
    if c = 'e' then some ⟨.keyword "xtends ".toList, t.depth⟩
    else if c = 's' then some ⟨.keyword "uper ".toList, t.depth⟩
    else none
  | .keyword [] => none
  | .keyword (a :: left) =>
    if c = a then some ⟨if left = [] then .segment else .keyword left, t.depth⟩ else none

/-- Read characters one after the other. -/
def run (t : TypeScan) (cs : List Char) : Option TypeScan := cs.foldlM step t

/-- A type may end after a name, after arguments and after an array suffix. -/
def ends (t : TypeScan) : Bool := t.depth == 0 && (t.stage == .inside || t.stage == .complete)

variable {t : TypeScan} {cs ds : List Char} {c : Char}

@[simp] theorem run_nil (t : TypeScan) : t.run [] = some t := rfl

@[simp] theorem run_cons (t : TypeScan) (c : Char) (cs : List Char) :
    t.run (c :: cs) = (t.step c).bind fun next => next.run cs := List.foldlM_cons ..

@[simp] theorem run_append (t : TypeScan) (cs ds : List Char) :
    t.run (cs ++ ds) = (t.run cs).bind fun next => next.run ds := List.foldlM_append ..

end TypeScan

/-- Do the marks of a declared type stand where the documented form has them? -/
def marksFit (s : String) : Bool := (TypeScan.run ⟨.fresh, 0⟩ s.toList).any TypeScan.ends

end Marks

section Completeness

variable {form : Form} {fresh : Bool} {d : Nat} {c : Char} {cs : List Char}

/-- No mark is part of an identifier. -/
theorem isMark_of_isPart (h : isPart c = true) : isMark c = false := by
  have hmarks : ".<>?,&[] ".toList.all (!isPart ·) = true := by decide +kernel
  rw [Bool.eq_false_iff]
  intro hmark
  have hno := List.all_eq_true.mp hmarks c (List.contains_iff_mem.mp hmark)
  simp [h] at hno

/-- A part of an identifier is not this mark. -/
theorem ne_of_isPart (h : isPart c = true) (mark : Char) (hmark : isMark mark = true) :
    c ≠ mark := by
  rintro rfl
  exact Bool.false_ne_true ((isMark_of_isPart h).symm.trans hmark)

/-- The first stage of a part of a type. -/
def Form.start : Form → Stage
  | .type => .segment
  | .argument | .arguments => .fresh

/-- The stages that a part of a type may end at. -/
def Form.stops : Form → List Stage
  | .type => [.inside, .complete]
  | .argument | .arguments => [.inside, .complete, .wildcard]

namespace TypeScan

/-- A name is read up to its end. -/
theorem run_of_scanDotted (h : scanDotted fresh cs = true) (d : Nat) :
    run ⟨if fresh then .segment else .inside, d⟩ cs = some ⟨.inside, d⟩ := by
  induction cs generalizing fresh with
  | nil =>
    cases fresh with
    | true => exact nomatch h
    | false => rfl
  | cons c cs ih =>
    cases fresh with
    | true =>
      simp only [scanDotted, if_true, Bool.and_eq_true] at h
      simpa [step, name, h.1] using ih h.2
    | false =>
      by_cases hc : c = '.'
      · simp only [scanDotted, hc, Bool.false_eq_true, if_false, if_true] at h
        simpa [step, hc] using ih h
      · simp only [scanDotted, hc, Bool.false_eq_true, if_false, Bool.and_eq_true] at h
        have hangle := ne_of_isPart h.1 '<' (by decide)
        simpa [step, hc, hangle, isMark_of_isPart h.1] using ih h.2

/-- Where an argument may begin, a type may. -/
theorem run_fresh_cons (h : isStart c = true) (cs : List Char) :
    run ⟨.fresh, d⟩ (c :: cs) = run ⟨.segment, d⟩ (c :: cs) := by
  have hquestion := ne_of_isPart (isPart_of_isStart h) '?' (by decide)
  simp [step, argument, hquestion]

/-- After a comma there may be a space. -/
theorem run_gap {gap : List Char} (hgap : gap = [] ∨ gap = [' '])
    (h : isStart c = true ∨ c = '?') (cs : List Char) :
    run ⟨.gap, d⟩ (gap ++ c :: cs) = run ⟨.fresh, d⟩ (c :: cs) := by
  rcases hgap with rfl | rfl
  · have hspace : c ≠ ' ' := by
      rcases h with h | rfl
      · exact ne_of_isPart (isPart_of_isStart h) ' ' (by decide)
      · decide
    simp [step, hspace]
  · have hspace : step ⟨.gap, d⟩ ' ' = some ⟨.fresh, d⟩ := rfl
    rw [List.singleton_append, run_cons, hspace, Option.bind_some]

/-- The beginning of a wildcard with a bound is read. -/
theorem run_bound {bound : List Char} (h : bound ∈ bounds) (hd : d ≠ 0) :
    run ⟨.fresh, d⟩ bound = some ⟨.segment, d⟩ := by
  simp only [bounds, List.mem_cons, List.not_mem_nil, or_false] at h
  rcases h with rfl | rfl <;> simp [step, argument, hd]

/-- An argument that has ended may be followed by another one, or by the end of the arguments. -/
theorem step_of_mem_stops {stage : Stage} (h : stage ∈ Form.arguments.stops) (d : Nat) :
    step ⟨stage, d + 1⟩ ',' = some ⟨.gap, d + 1⟩ ∧
      step ⟨stage, d + 1⟩ '>' = some ⟨.complete, d⟩ := by
  simp only [Form.stops, List.mem_cons, List.not_mem_nil, or_false] at h
  rcases h with rfl | rfl | rfl <;> simp [step, afterType, afterArgument, isMark]

/-- A type that has ended may be followed by an array suffix. -/
theorem run_suffix {stage : Stage} (h : stage ∈ Form.type.stops) (d : Nat) :
    run ⟨stage, d⟩ ['[', ']'] = some ⟨.complete, d⟩ := by
  simp only [Form.stops, List.mem_cons, List.not_mem_nil, or_false] at h
  rcases h with rfl | rfl <;> simp [step, afterType, isMark]

end TypeScan

open TypeScan

/-- What has the documented form is read up to its end, with as many lists open as before. -/
theorem Documented.run_eq (h : Documented form cs) (hd : form = .type ∨ d ≠ 0) :
    ∃ stage ∈ form.stops, run ⟨form.start, d⟩ cs = some ⟨stage, d⟩ := by
  have hstops : Form.type.stops ⊆ Form.argument.stops := by decide
  -- On the grammar: each rule runs over its parts in turn, and the depth is only needed where a
  -- wildcard or a comma is read.
  induction h generalizing d with
  | path hpath => exact ⟨.inside, by decide, run_of_scanDotted hpath d⟩
  | applied hpath _ ih =>
    obtain ⟨stage, hstage, hrun⟩ := ih (d := d + 1) (.inr (Nat.succ_ne_zero d))
    have hname : run ⟨.segment, d⟩ _ = some ⟨.inside, d⟩ := run_of_scanDotted hpath d
    have hopen : step ⟨.inside, d⟩ '<' = some ⟨.fresh, d + 1⟩ := rfl
    have hclose := (step_of_mem_stops hstage d).2
    simp only [Form.start] at hrun ⊢
    exact ⟨.complete, by decide, by simp [hname, hopen, hrun, hclose]⟩
  | array _ ih =>
    obtain ⟨stage, hstage, hrun⟩ := ih (.inl rfl)
    exact ⟨.complete, by decide, by rw [run_append, hrun, Option.bind_some, run_suffix hstage]⟩
  | exact h ih =>
    obtain ⟨stage, hstage, hrun⟩ := ih (.inl rfl)
    obtain ⟨c, tail, rfl, hc⟩ := h.isStart_of_type
    exact ⟨stage, hstops hstage, (run_fresh_cons hc tail).trans hrun⟩
  | wildcard =>
    have hd := hd.resolve_left nofun
    exact ⟨.wildcard, by decide, by simp [Form.start, step, argument, hd]⟩
  | bounded hin _ ih =>
    obtain ⟨stage, hstage, hrun⟩ := ih (.inl rfl)
    refine ⟨stage, hstops hstage, ?_⟩
    rw [Form.start, run_append, run_bound hin (hd.resolve_left nofun), Option.bind_some]
    exact hrun
  | one _ ih => exact ih (.inr (hd.resolve_left nofun))
  | more _ hgap h ih ih' =>
    have hd := hd.resolve_left nofun
    obtain ⟨stage, hstage, hrun⟩ := ih (.inr hd)
    obtain ⟨last, hlast, hrun'⟩ := ih' (.inr hd)
    obtain ⟨c, tail, rfl, hc⟩ := h.exists_cons
    obtain ⟨outer, rfl⟩ := Nat.exists_eq_succ_of_ne_zero hd
    refine ⟨last, hlast, ?_⟩
    rw [List.append_assoc, run_append, hrun, Option.bind_some, List.cons_append, run_cons,
      (step_of_mem_stops hstage outer).1, Option.bind_some, run_gap hgap (hc.imp_right And.right)]
    exact hrun'

end Completeness

section Soundness

/-- What stands in front of a type: nothing, or the beginning of a wildcard with a bound. -/
def Lead (d : Nat) (lead : List Char) : Prop := lead = [] ∨ d ≠ 0 ∧ lead ∈ bounds

/-- What stands in front of an argument: nothing, or the arguments before it and a comma. -/
def Begun (args : List Char) : Prop :=
  args = [] ∨ ∃ cs gap, Documented .arguments cs ∧ (gap = [] ∨ gap = [' ']) ∧
    args = cs ++ ',' :: gap

/-- What stands in front of a piece of a name: nothing, or the pieces before it and a dot. -/
def Dotted (path : List Char) : Prop :=
  path = [] ∨ ∃ before, scanDotted true before = true ∧ path = before ++ ['.']

/-- What was read when an argument, or the whole type, may begin: for each list of arguments that is
open, the name that it belongs to and the arguments before. -/
inductive Front : Nat → List Char → Prop
  | start : Front 0 []
  | inner {d front lead path args} : Front d front → Lead d lead → scanDotted true path = true →
      Begun args → Front (d + 1) (front ++ lead ++ path ++ '<' :: args)

/-- What was read when a stage is reached. -/
inductive TypeScan.Reads : TypeScan → List Char → Prop
  | fresh {d front} : Front d front → Reads ⟨.fresh, d⟩ front
  | gap {d front} : Front d front → Front d (front ++ [' ']) → Reads ⟨.gap, d⟩ front
  | segment {d front lead path} : Front d front → Lead d lead → Dotted path →
      Reads ⟨.segment, d⟩ (front ++ lead ++ path)
  | inside {d front lead path} : Front d front → Lead d lead → scanDotted true path = true →
      Reads ⟨.inside, d⟩ (front ++ lead ++ path)
  | complete {d front lead cs} : Front d front → Lead d lead → Documented .type cs →
      Reads ⟨.complete, d⟩ (front ++ lead ++ cs)
  | opened {d front lead cs} : Front d front → Lead d lead → Documented .type cs →
      Reads ⟨.opened, d⟩ (front ++ lead ++ cs ++ ['['])
  | wildcard {d front} : Front d front → d ≠ 0 → Reads ⟨.wildcard, d⟩ (front ++ ['?'])
  | bound {d front} : Front d front → d ≠ 0 → Reads ⟨.bound, d⟩ (front ++ ['?', ' '])
  | keyword {d front read left} : Front d front → d ≠ 0 → read ++ left ∈ bounds → left ≠ [] →
      Reads ⟨.keyword left, d⟩ (front ++ read)

variable {d : Nat} {c : Char} {cs lead path args front : List Char} {t next : TypeScan}

/-- A type becomes an argument with what stands in front of it. -/
theorem Lead.argument (h : Lead d lead) (hcs : Documented .type cs) :
    Documented .argument (lead ++ cs) := by
  rcases h with rfl | ⟨-, hin⟩
  · exact .exact hcs
  · exact .bounded hin hcs

/-- An argument goes on with the arguments in front of it. -/
theorem Begun.append (h : Begun args) (hcs : Documented .argument cs) :
    Documented .arguments (args ++ cs) := by
  rcases h with rfl | ⟨before, gap, hbefore, hgap, rfl⟩
  · exact .one hcs
  · exact .more hbefore hgap hcs

/-- A piece of a name goes on with the pieces in front of it. -/
theorem Dotted.concat (h : Dotted path) (hc : isStart c = true) :
    scanDotted true (path ++ [c]) = true := by
  rcases h with rfl | ⟨before, hbefore, rfl⟩
  · simp [scanDotted, hc]
  · rw [List.append_assoc, scanDotted_append hbefore]
    simp [scanDotted, hc]

namespace TypeScan

/-- After an argument there is another one, or the type that it is an argument of is complete. -/
theorem reads_afterArgument (hfront : Front d front) (hcs : Documented .argument cs)
    (h : afterArgument d c = some next) : next.Reads (front ++ cs ++ [c]) := by
  cases hfront with
  | start => exact nomatch h
  | @inner d front lead path args hfront hlead hpath hargs =>
    have hall := hargs.append hcs
    unfold afterArgument at h
    split_ifs at h with hcomma hclose
    · obtain rfl := Option.some.inj h
      -- The next argument may begin right after the comma, and after one space.
      have hopen : ∀ gap, gap = [] ∨ gap = [' '] →
          Front (d + 1) (front ++ lead ++ path ++ '<' :: (args ++ cs ++ ',' :: gap)) :=
        fun gap hgap => .inner hfront hlead hpath (.inr ⟨_, gap, hall, hgap, rfl⟩)
      rw [hcomma]
      exact .gap (by simpa using hopen [] (.inl rfl)) (by simpa using hopen [' '] (.inr rfl))
    · obtain rfl := Option.some.inj h
      rw [hclose]
      simpa using Reads.complete hfront hlead (.applied hpath hall)

/-- After a type there is an array suffix, or its end as an argument. -/
theorem reads_afterType (hfront : Front d front) (hlead : Lead d lead)
    (hcs : Documented .type cs) (h : afterType d c = some next) :
    next.Reads (front ++ lead ++ cs ++ [c]) := by
  unfold afterType at h
  split_ifs at h with hopen
  · obtain rfl := Option.some.inj h
    rw [hopen]
    exact .opened hfront hlead hcs
  · simpa using reads_afterArgument hfront (hlead.argument hcs) h

/-- A piece of a name begins after what may stand in front of it. -/
theorem reads_name (hfront : Front d front) (hlead : Lead d lead) (hpath : Dotted path)
    (h : name d c = some next) : next.Reads (front ++ lead ++ path ++ [c]) := by
  unfold name at h
  split_ifs at h with hstart
  obtain rfl := Option.some.inj h
  rw [List.append_assoc]
  exact .inside hfront hlead (hpath.concat hstart)

/-- An argument, or the whole type, begins with a wildcard or a name. -/
theorem reads_argument (hfront : Front d front) (h : argument d c = some next) :
    next.Reads (front ++ [c]) := by
  unfold argument at h
  split_ifs at h with hquestion
  · obtain rfl := Option.some.inj h
    rw [hquestion.1]
    exact .wildcard hfront hquestion.2
  · simpa using reads_name hfront (.inl rfl) (.inl rfl) h

/-- Reading one character keeps what is known of what was read. What may stand in a type and is no
mark is part of a name: here alone the check is needed. -/
theorem Reads.step (h : t.Reads cs) (hc : isTypePart c = true) (hstep : t.step c = some next) :
    next.Reads (cs ++ [c]) := by
  unfold TypeScan.step at hstep
  cases h with
  | fresh hfront => exact reads_argument hfront hstep
  | gap hfront hspace =>
    simp only at hstep
    split_ifs at hstep with hc
    · obtain rfl := Option.some.inj hstep
      rw [hc]
      exact .fresh hspace
    · exact reads_argument hfront hstep
  | segment hfront hlead hpath => exact reads_name hfront hlead hpath hstep
  | @inside d front lead path hfront hlead hpath =>
    simp only at hstep
    split_ifs at hstep with hdot hangle hmark
    · obtain rfl := Option.some.inj hstep
      rw [hdot, List.append_assoc]
      exact .segment hfront hlead (.inr ⟨path, hpath, rfl⟩)
    · obtain rfl := Option.some.inj hstep
      rw [hangle]
      exact .fresh (.inner hfront hlead hpath (.inl rfl))
    · exact reads_afterType hfront hlead (.path hpath) hstep
    · obtain rfl := Option.some.inj hstep
      have hpart : isPart c = true := (Bool.or_eq_true_iff.mp hc).resolve_right hmark
      have hlonger : scanDotted true (path ++ [c]) = true := by
        rw [scanDotted_append hpath]
        simp [scanDotted, hdot, hpart]
      rw [List.append_assoc]
      exact .inside hfront hlead hlonger
  | complete hfront hlead hcs => exact reads_afterType hfront hlead hcs hstep
  | opened hfront hlead hcs =>
    simp only at hstep
    split_ifs at hstep with hclose
    obtain rfl := Option.some.inj hstep
    rw [hclose]
    simpa using Reads.complete hfront hlead (.array hcs)
  | wildcard hfront hd =>
    simp only at hstep
    split_ifs at hstep with hspace
    · obtain rfl := Option.some.inj hstep
      rw [hspace]
      simpa using Reads.bound hfront hd
    · exact reads_afterArgument hfront .wildcard hstep
  | bound hfront hd =>
    simp only at hstep
    split_ifs at hstep with hextends hsuper
    · obtain rfl := Option.some.inj hstep
      rw [hextends, List.append_assoc]
      exact .keyword hfront hd (by decide) (by decide)
    · obtain rfl := Option.some.inj hstep
      rw [hsuper, List.append_assoc]
      exact .keyword hfront hd (by decide) (by decide)
  | @keyword d front read left hfront hd hin hne =>
    obtain ⟨a, left, rfl⟩ := List.exists_cons_of_ne_nil hne
    simp only at hstep
    split_ifs at hstep with hc hleft
    · obtain rfl := Option.some.inj hstep
      rw [hc, List.append_assoc]
      subst hleft
      simpa using Reads.segment hfront (.inr ⟨hd, hin⟩) (.inl rfl)
    · obtain rfl := Option.some.inj hstep
      rw [hc, List.append_assoc]
      exact .keyword hfront hd (by simpa using hin) hleft

/-- Reading characters keeps what is known of what was read. -/
theorem Reads.run (h : t.Reads cs) {ds : List Char} (hds : ∀ c ∈ ds, isTypePart c = true)
    (hrun : t.run ds = some next) : next.Reads (cs ++ ds) := by
  induction ds generalizing t cs with
  | nil =>
    obtain rfl := Option.some.inj hrun
    rwa [List.append_nil]
  | cons c ds ih =>
    obtain ⟨middle, hstep, hrest⟩ := Option.bind_eq_some_iff.mp ((run_cons t c ds).symm.trans hrun)
    have hmiddle := h.step (hds c (List.mem_cons_self ..)) hstep
    simpa using ih hmiddle (fun a ha => hds a (List.mem_cons_of_mem c ha)) hrest

/-- What was read when a type may end has the documented form. -/
theorem Reads.documented (h : t.Reads cs) (hends : t.ends = true) : Documented .type cs := by
  have hdepth : t.depth = 0 := eq_of_beq (Bool.and_eq_true_iff.mp hends).1
  have hstage := (Bool.and_eq_true_iff.mp hends).2
  have hfront : ∀ {front lead d}, Front d front → Lead d lead → d = 0 → front ++ lead = [] := by
    rintro front lead d hfront hlead rfl
    obtain rfl := hlead.resolve_right fun hno => hno.1 rfl
    cases hfront
    rfl
  cases h with
  | inside h hlead hpath =>
    rw [hfront h hlead hdepth]
    exact .path hpath
  | complete h hlead hcs =>
    rw [hfront h hlead hdepth]
    exact hcs
  | fresh | gap | segment | opened | wildcard | bound | keyword => exact nomatch hstage

/-- Where a square bracket or a dot is read: a bracket begins an array suffix, and a dot stands
after a piece of a name and before another one. -/
theorem Reads.stages_of_step (h : t.Reads cs) (hc : c = '[' ∨ c = '.')
    (hstep : t.step c = some next) :
    c = '[' ∧ next.stage = .opened ∨ c = '.' ∧ t.stage = .inside ∧ next.stage = .segment := by
  have hname : ∀ d, name d c = none := by
    rintro d
    rcases hc with rfl | rfl <;> exact if_neg (by decide +kernel)
  have hargument : ∀ d, argument d c = none := by
    intro d
    rcases hc with rfl | rfl <;> simpa [argument] using hname d
  have hafter : ∀ d, afterArgument d c = none := by
    rintro (_ | d) <;> rcases hc with rfl | rfl <;> rfl
  unfold TypeScan.step at hstep
  cases h with
  | fresh | gap | segment | wildcard => rcases hc with rfl | rfl <;> simp_all
  | @inside d =>
    rcases hc with rfl | rfl
    · obtain rfl : ⟨.opened, d⟩ = next := Option.some.inj hstep
      exact .inl ⟨rfl, rfl⟩
    · obtain rfl : ⟨.segment, d⟩ = next := Option.some.inj hstep
      exact .inr ⟨rfl, rfl, rfl⟩
  | @complete d =>
    rcases hc with rfl | rfl
    · obtain rfl : ⟨.opened, d⟩ = next := Option.some.inj hstep
      exact .inl ⟨rfl, rfl⟩
    · exact nomatch (hafter d).symm.trans hstep
  | opened | bound => rcases hc with rfl | rfl <;> exact nomatch hstep
  | @keyword d front read left _ _ hin hne =>
    obtain ⟨a, left, rfl⟩ := List.exists_cons_of_ne_nil hne
    have hno : ∀ bound ∈ bounds, '[' ∉ bound ∧ '.' ∉ bound := by decide
    have hother : c ≠ a := by
      rintro rfl
      have hmem : c ∈ read ++ c :: left := List.mem_append_right _ (List.mem_cons_self ..)
      rcases hc with rfl | rfl
      · exact (hno _ hin).1 hmem
      · exact (hno _ hin).2 hmem
    exact nomatch (if_neg hother).symm.trans hstep

end TypeScan

end Soundness

section Consequences

variable {s : String} {before after : List Char} {c : Char}

open TypeScan

/-- The types of the documented form are those that pass the check and whose marks fit. -/
theorem isDocumentedType_iff :
    IsDocumentedType s ↔ isDeclaredType s = true ∧ marksFit s = true := by
  constructor
  · intro h
    obtain ⟨stage, hstage, hrun⟩ := Documented.run_eq (d := 0) h (.inl rfl)
    obtain ⟨c, tail, htext, hc⟩ := h.isStart_of_type
    have hends : ∀ stage ∈ Form.type.stops, ends ⟨stage, 0⟩ = true := by decide
    refine ⟨isDeclaredType_of_documented h, ?_⟩
    rw [htext] at hrun
    rw [marksFit, htext, run_fresh_cons hc, show run ⟨.segment, 0⟩ _ = _ from hrun]
    exact hends stage hstage
  · rintro ⟨haccepted, hfits⟩
    obtain ⟨last, hrun, hends⟩ := Option.any_eq_true _ _ |>.mp hfits
    have hreads := (Reads.fresh .start).run (isTypePart_of_mem_declaredType haccepted) hrun
    exact hreads.documented hends

/-- Every character of a documented type is read. -/
theorem exists_step_of_documented (h : IsDocumentedType s)
    (htext : s.toList = before ++ c :: after) :
    ∃ t next last : TypeScan, t.Reads before ∧ t.step c = some next ∧
      next.run after = some last ∧ last.ends = true := by
  obtain ⟨haccepted, hfits⟩ := isDocumentedType_iff.mp h
  obtain ⟨last, hrun, hends⟩ := Option.any_eq_true _ _ |>.mp hfits
  have hparts := isTypePart_of_mem_declaredType haccepted
  rw [htext] at hrun hparts
  rw [run_append] at hrun
  obtain ⟨t, hbefore, hrun⟩ := Option.bind_eq_some_iff.mp hrun
  rw [run_cons] at hrun
  obtain ⟨next, hstep, hafter⟩ := Option.bind_eq_some_iff.mp hrun
  have hreads := (Reads.fresh .start).run (fun a ha => hparts a (List.mem_append_left _ ha)) hbefore
  exact ⟨t, next, last, hreads, hstep, hafter, hends⟩

/-- Every square bracket of a documented type is closed at once. -/
theorem head?_of_bracket (h : IsDocumentedType s) (htext : s.toList = before ++ '[' :: after) :
    after.head? = some ']' := by
  obtain ⟨t, ⟨stage, d⟩, last, hreads, hstep, hafter, hends⟩ := exists_step_of_documented h htext
  rcases hreads.stages_of_step (.inl rfl) hstep with ⟨-, rfl⟩ | ⟨hno, -⟩
  · cases after with
    | nil =>
      obtain rfl := Option.some.inj hafter
      simp [ends] at hends
    | cons a after =>
      obtain ⟨next, hclose, -⟩ := Option.bind_eq_some_iff.mp ((run_cons ..).symm.trans hafter)
      by_cases ha : a = ']'
      · rw [ha, List.head?_cons]
      · exact nomatch (if_neg ha).symm.trans hclose
  · exact nomatch hno

/-- Every dot of a documented type stands between two pieces of a name. -/
theorem pieces_of_dot (h : IsDocumentedType s) (htext : s.toList = before ++ '.' :: after) :
    (∃ c, before.getLast? = some c ∧ isPart c = true) ∧
      ∃ c, after.head? = some c ∧ isStart c = true := by
  obtain ⟨⟨was, d⟩, ⟨stage, d'⟩, last, hreads, hstep, hafter, hends⟩ :=
    exists_step_of_documented h htext
  rcases hreads.stages_of_step (.inr rfl) hstep with ⟨hno, -⟩ | ⟨-, rfl, rfl⟩
  · exact nomatch hno
  constructor
  · cases hreads with
    | @inside _ front lead path _ _ hpath =>
      rcases List.eq_nil_or_concat path with rfl | ⟨pieces, c, rfl⟩
      · exact nomatch hpath
      · exact ⟨c, by simp, isPart_of_scanDotted_concat (List.concat_eq_append ▸ hpath)⟩
  · cases after with
    | nil =>
      obtain rfl := Option.some.inj hafter
      simp [ends] at hends
    | cons a after =>
      obtain ⟨next, hname, -⟩ := Option.bind_eq_some_iff.mp ((run_cons ..).symm.trans hafter)
      by_cases ha : isStart a = true
      · exact ⟨a, rfl, ha⟩
      · exact nomatch (if_neg ha).symm.trans hname

end Consequences

/-- A type has the documented form exactly if it passes the check and its marks fit. Then its
brackets are well nested, every square bracket is closed at once, and every dot stands between two
pieces of a name. No model file is accepted with a field whose type does not pass the check; so the
type of a field of an accepted file has the documented form as far as its marks fit. -/
theorem declaredTypes_documented (s : String) :
    (isDeclaredType s = true ∧ marksFit s = true ↔ IsDocumentedType s) ∧
    (IsDocumentedType s → Nested s.toList ∧
      (∀ before after, s.toList = before ++ '[' :: after → after.head? = some ']') ∧
      ∀ before after, s.toList = before ++ '.' :: after →
        (∃ c, before.getLast? = some c ∧ isPart c = true) ∧
          ∃ c, after.head? = some c ∧ isStart c = true) ∧
    ∀ content m, ModelFile.parse content = .ok m →
      ∀ c ∈ m.classes, ∀ f ∈ c.fields, f.declaredType = s →
        isDeclaredType s = true ∧ (marksFit s = true → IsDocumentedType s) := by
  refine ⟨isDocumentedType_iff.symm, fun h => ?_, fun content m hparse c hc f hf hs => ?_⟩
  · exact ⟨h.nested, fun _ _ => head?_of_bracket h, fun _ _ => pieces_of_dot h⟩
  · have hclass := List.findSome?_eq_none_iff.mp (ModelFile.parse_eq_ok_iff.mp hparse).2 c hc
    obtain ⟨-, -, hfields, -⟩ := ClassDeclaration.fault?_eq_none_iff.mp hclass
    have haccepted : isDeclaredType s = true := hs ▸ (hfields f hf).2
    exact ⟨haccepted, fun hfits => isDocumentedType_iff.mpr ⟨haccepted, hfits⟩⟩

/-- A file with a field of this type. -/
def fileWithType (declaredType : String) : String :=
  "\x7b\"classes\":[\x7b\"name\":\"A\",\"fields\":[\x7b\"name\":\"x\",\"type\":\"" ++
    declaredType ++ "\"\x7d]\x7d]\x7d"

/-- A generic type with a wildcard and an array suffix. -/
def listType : String := "java.util.List<? extends T>[]"

/-- It is accepted, and its marks fit. -/
theorem declaredTypes_documented_listType :
    ModelFile.parse (fileWithType listType) =
        .ok ⟨[{ name := "A", fields := [⟨"x", listType, none⟩] }]⟩ ∧
      IsDocumentedType listType ∧ Nested listType.toList ∧
      ∃ before after, listType.toList = before ++ '[' :: after ∧ after.head? = some ']' := by
  obtain ⟨-, hforms, hfiles⟩ := declaredTypes_documented listType
  have hparse : ModelFile.parse (fileWithType listType) =
      .ok ⟨[{ name := "A", fields := [⟨"x", listType, none⟩] }]⟩ := by decide +kernel
  have hdocumented := (hfiles _ _ hparse _ (List.mem_singleton.mpr rfl) ⟨"x", listType, none⟩
    (List.mem_singleton.mpr rfl) rfl).2 (by decide +kernel)
  obtain ⟨hnested, hclosed, -⟩ := hforms hdocumented
  have htext : listType.toList = "java.util.List<? extends T>".toList ++ '[' :: [']'] := by decide
  exact ⟨hparse, hdocumented, hnested, _, _, htext, hclosed _ _ htext⟩

/-- A type with an empty piece and an open bracket is accepted as well, though it has not the
documented form. -/
theorem parse_unclosedType :
    ModelFile.parse (fileWithType "a..b[") =
        .ok ⟨[{ name := "A", fields := [⟨"x", "a..b[", none⟩] }]⟩ ∧
      isDeclaredType "a..b[" = true ∧ ¬IsDocumentedType "a..b[" := by
  refine ⟨by decide +kernel, by decide +kernel, fun h => ?_⟩
  have hfits := (isDocumentedType_iff.mp h).2
  revert hfits
  decide +kernel

end ViewBinding.Name
