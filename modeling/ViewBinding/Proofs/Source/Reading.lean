import Mathlib
import ViewBinding.Proofs.Round.Acceptance
import ViewBinding.Proofs.Source.Layout

/-!
# Reading generated sources back

The text of a binding tells which binding it is. The body of the generated method is a sequence of
statements. The first line of a statement tells what it does, its lines tell all its names and
ids, and no statement begins like the end of the body, so the statements can be read back one after
another.
-/

namespace ViewBinding

open Text Name

namespace Text

/-- A character of a decimal number. -/
def isDecimalPart (c : Char) : Bool := c == '-' || c.isDigit

/-- The decimal digits of a natural number are parts of a decimal number. -/
theorem isDecimalPart_of_mem_natRepr (n : Nat) : ∀ c ∈ n.repr.toList, isDecimalPart c = true := by
  intro c hc
  rw [Nat.toList_repr] at hc
  rw [isDecimalPart, Nat.isDigit_of_mem_toDigits (by decide) (by decide) hc, Bool.or_true]

/-- An integer is written with parts of a decimal number. -/
theorem isDecimalPart_of_mem_repr (n : Int) : ∀ c ∈ n.repr.toList, isDecimalPart c = true := by
  intro c hc
  rw [Int.repr_eq_if] at hc
  by_cases hn : 0 ≤ n
  · rw [if_pos hn] at hc
    exact isDecimalPart_of_mem_natRepr _ c hc
  · rw [if_neg hn, String.toList_append, List.mem_append] at hc
    rcases hc with hsign | hdigits
    · obtain rfl : c = '-' := by simpa using hsign
      rfl
    · exact isDecimalPart_of_mem_natRepr _ c hdigits

/-- An integer is written on one line. -/
theorem isLine_repr (n : Int) : IsLine n.repr :=
  isLine_of_forall (by decide) (isDecimalPart_of_mem_repr n)

end Text

namespace Name

/-- An identifier is written on one line. -/
theorem isLine_of_isIdentifier {s : String} (h : isIdentifier s = true) : IsLine s :=
  isLine_of_forall (by decide) (isPart_of_mem_identifier h)

/-- A declared type is written on one line. -/
theorem isLine_of_isDeclaredType {s : String} (h : isDeclaredType s = true) : IsLine s :=
  isLine_of_forall (by decide) (isTypePart_of_mem_declaredType h)

/-- A dotted name is written on one line. -/
theorem isLine_of_isQualified {s : String} (h : isQualified s = true) : IsLine s :=
  isLine_of_forall (by decide) (isDottedPart_of_mem_qualified h)

end Name

/-- A statement in the body of the generated method. -/
inductive Statement where
  | assign (field declaredType : String) (id : ResourceId)
  | click (method : String) (id : ResourceId)
  | longClick (method : String) (id : ResourceId)
  deriving DecidableEq, Repr

namespace Statement

/-- The lines of a statement. -/
def lines : Statement → List String
  | assign field declaredType id =>
    [Outline.indent 2 ("target." ++ field ++ " = (" ++ declaredType ++ ") target.findViewById(" ++
      toString id ++ ");")]
  | click method id => ListenerKind.click.block 2 method id
  | longClick method id => ListenerKind.longClick.block 2 method id

/-- What an assignment assigns. -/
def assignment? : Statement → Option (String × String × ResourceId)
  | assign field declaredType id => some (field, declaredType, id)
  | _ => none

/-- What a click registration registers. -/
def click? : Statement → Option (String × ResourceId)
  | click method id => some (method, id)
  | _ => none

/-- What a long-click registration registers. -/
def longClick? : Statement → Option (String × ResourceId)
  | longClick method id => some (method, id)
  | _ => none

/-- The names of a statement satisfy the spelling rules. -/
def Spelled : Statement → Prop
  | assign field declaredType _ =>
    isIdentifier field = true ∧ isDeclaredType declaredType = true
  | click method _ => isIdentifier method = true
  | longClick method _ => isIdentifier method = true

/-- Every line of a spelled statement is one. -/
theorem isLine_of_mem_lines {s : Statement} (hs : s.Spelled) : ∀ l ∈ s.lines, IsLine l := by
  have hid := isLine_repr
  cases s with
  | assign field declaredType id =>
    have hfield := isLine_of_isIdentifier hs.1
    have htype := isLine_of_isDeclaredType hs.2
    unfold IsLine at *
    simp [lines, Outline.indent, Outline.step, hfield, htype, hid]
  | click method id =>
    have hmethod := isLine_of_isIdentifier hs
    unfold IsLine at *
    simp [lines, ListenerKind.block, ListenerKind.click, Outline.indent, Outline.step, hmethod, hid]
  | longClick method id =>
    have hmethod := isLine_of_isIdentifier hs
    unfold IsLine at *
    simp [lines, ListenerKind.block, ListenerKind.longClick, Outline.indent, Outline.step, hmethod,
      hid]

/-- An assignment is read back from its line: its field ends at the blank and its type at the
closing parenthesis. -/
theorem assign_inj {field field' declaredType declaredType' : String} {id id' : ResourceId}
    (hs : (assign field declaredType id).Spelled) (ht : (assign field' declaredType' id').Spelled)
    (h : (assign field declaredType id).lines = (assign field' declaredType' id').lines) :
    assign field declaredType id = assign field' declaredType' id' := by
  have hline := (List.cons.inj h).1
  simp only [Outline.indent, String.append_assoc, String.append_right_inj] at hline
  obtain ⟨hfield, hrest⟩ := cut_inj (p := isPart) (isPart_of_mem_identifier hs.1)
    (isPart_of_mem_identifier ht.1) (stops_append (by decide) _) (stops_append (by decide) _) hline
  rw [String.append_right_inj] at hrest
  obtain ⟨htype, hid⟩ := cut_inj (p := isTypePart) (isTypePart_of_mem_declaredType hs.2)
    (isTypePart_of_mem_declaredType ht.2) (stops_append (by decide) _)
    (stops_append (by decide) _) hrest
  simp only [String.append_right_inj, String.append_left_inj, Int.toString_eq_repr,
    Int.repr_inj] at hid
  rw [hfield, htype, hid]

/-- A registration is read back from its block. -/
theorem block_append_inj {kind : ListenerKind} {method method' : String} {id id' : ResourceId}
    {ls ms : List String} (h : kind.block 2 method id ++ ls = kind.block 2 method' id' ++ ms) :
    method = method' ∧ id = id' ∧ ls = ms := by
  simp only [ListenerKind.block, Outline.indent, List.cons_append, List.nil_append, List.map_cons,
    List.append_assoc, List.cons.injEq, String.append_assoc, String.append_right_inj,
    String.append_left_inj, Int.toString_eq_repr, true_and, List.append_cancel_left_eq] at h
  obtain ⟨hid, hmethod, hrest⟩ := h
  rw [Int.repr_inj] at hid
  exact ⟨hmethod, hid, hrest⟩

/-- An assignment goes on with a blank after the member of the target that it names, a registration
with a parenthesis. -/
theorem assign_append_ne_block {field declaredType method : String} {id id' : ResourceId}
    {kind : ListenerKind} {ls ms : List String} (hs : (assign field declaredType id).Spelled) :
    (assign field declaredType id).lines ++ ls ≠ kind.block 2 method id' ++ ms := by
  intro h
  have hline := (List.cons.inj h).1
  have hcall : "target.findViewById(" = "target." ++ ("findViewById" ++ "(") := rfl
  simp only [Outline.indent, hcall, String.append_assoc, String.append_right_inj] at hline
  have hmember : isIdentifier "findViewById" = true := by decide
  obtain ⟨-, hrest⟩ := cut_inj (p := isPart) (isPart_of_mem_identifier hs.1)
    (isPart_of_mem_identifier hmember) (stops_append (by decide) _) (stops_append (by decide) _)
    hline
  have hchars := congrArg String.toList hrest
  simp at hchars

/-- The kind of a registration is named after its id. -/
theorem click_ne_longClick {method method' : String} {id id' : ResourceId} {ls ms : List String} :
    ListenerKind.click.block 2 method id ++ ls ≠
      ListenerKind.longClick.block 2 method' id' ++ ms := by
  intro h
  have hline := (List.cons.inj h).1
  simp only [Outline.indent, String.append_assoc, String.append_right_inj] at hline
  obtain ⟨-, hrest⟩ := cut_inj (p := isDecimalPart) (isDecimalPart_of_mem_repr id)
    (isDecimalPart_of_mem_repr id') (stops_append (by decide) _) (stops_append (by decide) _) hline
  have hchars := congrArg String.toList hrest
  simp [ListenerKind.click, ListenerKind.longClick] at hchars

/-- The lines of a statement tell which statement it is and where it ends. -/
theorem lines_append_inj {s t : Statement} (hs : s.Spelled) (ht : t.Spelled) {ls ms : List String}
    (h : s.lines ++ ls = t.lines ++ ms) : s = t ∧ ls = ms := by
  cases s with
  | assign field declaredType id =>
    cases t with
    | assign field' declaredType' id' =>
      obtain ⟨hline, hrest⟩ := List.cons.inj h
      exact ⟨assign_inj hs ht (congrArg (· :: []) hline), hrest⟩
    | click method id' => exact absurd h (assign_append_ne_block hs)
    | longClick method id' => exact absurd h (assign_append_ne_block hs)
  | click method id =>
    cases t with
    | assign field' declaredType' id' => exact absurd h.symm (assign_append_ne_block ht)
    | click method' id' =>
      obtain ⟨hmethod, hid, hrest⟩ := block_append_inj h
      exact ⟨by rw [hmethod, hid], hrest⟩
    | longClick method' id' => exact absurd h click_ne_longClick
  | longClick method id =>
    cases t with
    | assign field' declaredType' id' => exact absurd h.symm (assign_append_ne_block ht)
    | click method' id' => exact absurd h.symm click_ne_longClick
    | longClick method' id' =>
      obtain ⟨hmethod, hid, hrest⟩ := block_append_inj h
      exact ⟨by rw [hmethod, hid], hrest⟩

/-- No statement begins like the end of the body. -/
theorem lines_append_ne_closing (s : Statement) (ls : List String) :
    s.lines ++ ls ≠ Binding.closingLines := by
  intro h
  cases s <;>
  · have hchars := congrArg String.toList (List.cons.inj h).1
    simp [Outline.indent, Outline.step] at hchars

/-- The statements of a body are read back one after another. -/
theorem flatMap_lines_inj {ss ts : List Statement} (hs : ∀ s ∈ ss, s.Spelled)
    (ht : ∀ t ∈ ts, t.Spelled)
    (h : ss.flatMap lines ++ Binding.closingLines = ts.flatMap lines ++ Binding.closingLines) :
    ss = ts := by
  induction ss generalizing ts with
  | nil =>
    cases ts with
    | nil => rfl
    | cons t ts =>
      rw [List.flatMap_cons, List.append_assoc] at h
      exact absurd h.symm (lines_append_ne_closing t _)
  | cons s ss ih =>
    cases ts with
    | nil =>
      rw [List.flatMap_cons, List.append_assoc] at h
      exact absurd h (lines_append_ne_closing s _)
    | cons t ts =>
      rw [List.flatMap_cons, List.flatMap_cons, List.append_assoc, List.append_assoc] at h
      obtain ⟨hst, hrest⟩ := lines_append_inj (hs s (List.mem_cons_self ..))
        (ht t (List.mem_cons_self ..)) h
      rw [hst, ih (fun u hu => hs u (List.mem_cons_of_mem _ hu))
        (fun u hu => ht u (List.mem_cons_of_mem _ hu)) hrest]

end Statement

namespace Binding

/-- The name, type and view of each assignment, in their order. -/
def assignments (b : Binding) : List (String × String × ResourceId) :=
  b.viewFields.map fun f => (f.field.name, f.field.declaredType, f.id)

/-- The statements of the generated method. -/
def statements (b : Binding) : List Statement :=
  b.assignments.map (fun a => .assign a.1 a.2.1 a.2.2) ++
  ((ListenerKind.registrations b.clicks).map (fun r => .click r.1 r.2) ++
    (ListenerKind.registrations b.longClicks).map fun r => .longClick r.1 r.2)

/-- The body is written statement by statement. -/
theorem bodyLines_eq_flatMap (b : Binding) :
    b.bodyLines = b.statements.flatMap Statement.lines := by
  simp only [bodyLines, statements, assignments, List.flatMap_append, List.flatMap_map,
    List.append_assoc]
  rw [List.map_eq_flatMap]
  rfl

/-- The method of a registration is that of a listener. -/
theorem exists_of_mem_registrations {ls : List Listener} {r : String × ResourceId}
    (h : r ∈ ListenerKind.registrations ls) : ∃ l ∈ ls, r.1 = l.method.name := by
  obtain ⟨l, hl, hr⟩ := List.mem_flatMap.mp h
  obtain ⟨id, -, rfl⟩ := List.mem_map.mp hr
  exact ⟨l, hl, rfl⟩

/-- Every statement of a spelled binding is spelled. -/
theorem Spelled.statements {b : Binding} {package : String} (h : b.Spelled package) :
    ∀ s ∈ b.statements, s.Spelled := by
  intro s hs
  simp only [Binding.statements, assignments, List.mem_append, List.mem_map] at hs
  rcases hs with ⟨_, ⟨f, hf, rfl⟩, rfl⟩ | ⟨r, hr, rfl⟩ | ⟨r, hr, rfl⟩
  · exact h.viewFields f hf
  · obtain ⟨l, hl, hname⟩ := exists_of_mem_registrations hr
    show isIdentifier r.1 = true
    rw [hname]
    exact h.clicks l hl
  · obtain ⟨l, hl, hname⟩ := exists_of_mem_registrations hr
    show isIdentifier r.1 = true
    rw [hname]
    exact h.longClicks l hl

/-- The lines above the class are lines if the package is one. -/
theorem isLine_of_mem_preambleLines {package : String} (h : IsLine package) :
    ∀ l ∈ preambleLines package, IsLine l := by
  unfold IsLine at *
  cases hempty : package.isEmpty <;> simp [preambleLines, hempty, h]

/-- The lines of a spelled binding down to the layout call are lines. -/
theorem Spelled.isLine_of_mem_openingLines {b : Binding} {package : String}
    (h : b.Spelled package) : ∀ l ∈ b.openingLines, IsLine l := by
  have howner := isLine_of_isQualified h.owner
  have hsimple := isLine_of_isIdentifier h.simpleName
  have hid := isLine_repr b.layoutId
  unfold IsLine at *
  simp [openingLines, className, Source.nameSuffix, Outline.indent, Outline.step, howner, hsimple,
    hid]

/-- Every line of the source of a spelled binding is one. -/
theorem Spelled.isLine_of_mem_sourceLines {b : Binding} {package : String}
    (h : b.Spelled package) : ∀ l ∈ b.sourceLines package, IsLine l := by
  have hpackage : IsLine package := by
    rcases h.package with rfl | hp
    · exact List.not_mem_nil
    · exact isLine_of_isQualified hp
  intro l hl
  simp only [sourceLines, bodyLines_eq_flatMap, List.mem_append, List.mem_flatMap] at hl
  rcases hl with ((hpreamble | hopening) | ⟨s, hs, hbody⟩) | hclosing
  · exact isLine_of_mem_preambleLines hpackage l hpreamble
  · exact h.isLine_of_mem_openingLines l hopening
  · exact Statement.isLine_of_mem_lines (h.statements s hs) l hbody
  · revert hclosing l
    simp [closingLines, IsLine, Outline.indent, Outline.step]

/-- The lines above the class tell the package and where they end. -/
theorem preambleLines_append_inj {p q : String} {ls ms : List String}
    (h : preambleLines p ++ ls = preambleLines q ++ ms) : p = q ∧ ls = ms := by
  cases hp : p.isEmpty with
  | false =>
    cases hq : q.isEmpty with
    | false => simpa [preambleLines, hp, hq] using h
    | true => simp [preambleLines, hp, hq] at h
  | true =>
    cases hq : q.isEmpty with
    | false => simp [preambleLines, hp, hq] at h
    | true =>
      have hrest : ls = ms := by simpa [preambleLines, hp, hq] using h
      rw [String.isEmpty_iff] at hp hq
      exact ⟨hp.trans hq.symm, hrest⟩

/-- The opening lines tell the owner, its simple name and the layout. -/
theorem openingLines_append_inj {b c : Binding} {ls ms : List String}
    (h : b.openingLines ++ ls = c.openingLines ++ ms) :
    b.owner.id = c.owner.id ∧ b.owner.simpleName = c.owner.simpleName ∧
      b.layoutId = c.layoutId ∧ ls = ms := by
  simp only [openingLines, List.cons_append, List.nil_append, List.cons.injEq, Outline.indent,
    String.append_assoc, String.append_right_inj, String.append_left_inj, className,
    Int.toString_eq_repr, Int.repr_inj, true_and] at h
  obtain ⟨hclass, howner, hlayout, hrest⟩ := h
  rw [howner, String.append_left_inj] at hclass
  exact ⟨howner, hclass, hlayout, hrest⟩

/-- The assignments are those among the statements. -/
theorem filterMap_assignment?_statements (b : Binding) :
    b.statements.filterMap Statement.assignment? = b.assignments := by
  simp [statements, Statement.assignment?, Function.comp_def]

/-- The click registrations are those among the statements. -/
theorem filterMap_click?_statements (b : Binding) :
    b.statements.filterMap Statement.click? = ListenerKind.registrations b.clicks := by
  simp [statements, Statement.click?, Function.comp_def]

/-- The long-click registrations are those among the statements. -/
theorem filterMap_longClick?_statements (b : Binding) :
    b.statements.filterMap Statement.longClick? = ListenerKind.registrations b.longClicks := by
  simp [statements, Statement.longClick?, Function.comp_def]

/-- The statements tell the assignments and the registrations of each kind. -/
theorem statements_inj {b c : Binding} : b.statements = c.statements ↔
    b.assignments = c.assignments ∧
    ListenerKind.registrations b.clicks = ListenerKind.registrations c.clicks ∧
    ListenerKind.registrations b.longClicks = ListenerKind.registrations c.longClicks := by
  constructor
  · intro h
    rw [← filterMap_assignment?_statements, ← filterMap_click?_statements,
      ← filterMap_longClick?_statements, h]
    exact ⟨filterMap_assignment?_statements c, filterMap_click?_statements c,
      filterMap_longClick?_statements c⟩
  · rintro ⟨hassign, hclick, hlong⟩
    rw [statements, statements, hassign, hclick, hlong]

/-- Equal texts have equal lines down to the layout call, and equal bodies after it. -/
theorem opening_of_text_eq {b c : Binding} {p q : String} (hb : b.Spelled p) (hc : c.Spelled q)
    (h : (b.source p).text = (c.source q).text) :
    p = q ∧ b.owner.id = c.owner.id ∧ b.owner.simpleName = c.owner.simpleName ∧
      b.layoutId = c.layoutId ∧ b.bodyLines ++ closingLines = c.bodyLines ++ closingLines := by
  rw [text_source, text_source] at h
  have hlines := unlines_inj hb.isLine_of_mem_sourceLines hc.isLine_of_mem_sourceLines h
  simp only [sourceLines, List.append_assoc] at hlines
  obtain ⟨hpackage, hclass⟩ := preambleLines_append_inj hlines
  exact ⟨hpackage, openingLines_append_inj hclass⟩

/-- Two spelled bindings are rendered to the same text exactly if they say the same: the package,
the owner, the layout, the assignments, and the registrations of each kind. -/
theorem text_source_eq_iff {b c : Binding} {p q : String} (hb : b.Spelled p) (hc : c.Spelled q) :
    (b.source p).text = (c.source q).text ↔
      p = q ∧ b.owner.id = c.owner.id ∧ b.owner.simpleName = c.owner.simpleName ∧
        b.layoutId = c.layoutId ∧ b.assignments = c.assignments ∧
        ListenerKind.registrations b.clicks = ListenerKind.registrations c.clicks ∧
        ListenerKind.registrations b.longClicks = ListenerKind.registrations c.longClicks := by
  constructor
  · intro h
    obtain ⟨hpackage, howner, hsimple, hlayout, hbody⟩ := opening_of_text_eq hb hc h
    rw [bodyLines_eq_flatMap, bodyLines_eq_flatMap] at hbody
    have hstatements := Statement.flatMap_lines_inj hb.statements hc.statements hbody
    exact ⟨hpackage, howner, hsimple, hlayout, statements_inj.mp hstatements⟩
  · rintro ⟨rfl, howner, hsimple, hlayout, hstatements⟩
    rw [text_source, text_source, sourceLines, sourceLines, bodyLines_eq_flatMap,
      bodyLines_eq_flatMap, statements_inj.mpr hstatements, openingLines, openingLines, className,
      className, howner, hsimple, hlayout]

/-- A screen with a field that is called like the look-up of views, and these click listeners. -/
def lookupScreen (clicks : List Listener) : Binding where
  owner := ⟨"app.Home", "Home", .package "app", some 1⟩
  layoutId := 1
  viewFields := [⟨⟨"findViewById", "app.Home", "Map<?, ? extends T>[]", some (-2)⟩, -2⟩]
  clicks := clicks

/-- One method with two ids is rendered like two methods of one name, and unlike one without ids. -/
theorem text_source_lookupScreen :
    ((lookupScreen [⟨⟨"save", "app.Home", none, none⟩, [3, -4]⟩]).source "app").text =
      ((lookupScreen [⟨⟨"save", "app.Home", none, none⟩, [3]⟩,
        ⟨⟨"save", "app.Home", none, none⟩, [-4]⟩]).source "app").text ∧
    ((lookupScreen [⟨⟨"save", "app.Home", none, none⟩, [3, -4]⟩]).source "app").text ≠
      ((lookupScreen [⟨⟨"save", "app.Home", none, none⟩, []⟩]).source "app").text := by
  have hspelled : ∀ clicks : List Listener, (∀ l ∈ clicks, isIdentifier l.method.name = true) →
      (lookupScreen clicks).Spelled "app" := by
    intro clicks hclicks
    have howner : isQualified "app.Home" = true := by decide
    have hsimple : isIdentifier "Home" = true := by decide
    refine ⟨.inr (by decide), howner, hsimple, ?_, hclicks, nofun⟩
    intro f hf
    obtain rfl := List.mem_singleton.mp hf
    exact ⟨by decide, by decide⟩
  constructor
  · rw [text_source_eq_iff (hspelled _ (by decide)) (hspelled _ (by decide))]
    decide
  · rw [ne_eq, text_source_eq_iff (hspelled _ (by decide)) (hspelled _ (by decide))]
    decide

end Binding

end ViewBinding
