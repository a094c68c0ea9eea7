import ViewBinding.Proofs.Source.Reading
import ViewBinding.Proofs.Text.Brackets

/-!
# Blocks of generated sources

A line of an outline either closes all brackets that it opens, or opens one brace more and a block
with it, or begins by closing the brace of the innermost block. An outline that is written by such
lines is as deep as there are open braces, so its lines are indented by them. Names and declared
types hold no brackets, so the source of every spelled binding is written in this way, and closes
what it opens.
-/

namespace ViewBinding

open Text Name

namespace Outline

/-- A character that a line may not begin with, unless it closes a block. -/
def isMargin (c : Char) : Bool := c == ' ' || c == '\x7d'

/-- A line that closes what it opens, and nothing else. -/
structure Whole (s : String) : Prop where
  flat : Flat s
  begins : stops isMargin s = true

/-- The outline is written line by line, and these brackets are open after it. A line that opens a
block leaves one more brace open, a line that closes one begins with its brace, and there is always
a block left to close. -/
inductive Written : List Bracket → Outline → Prop
  | empty : Written [] {}
  | blank {opened : List Bracket} {o : Outline} (h : Written opened o) : Written opened o.blank
  | line {opened : List Bracket} {o : Outline} {s : String} (h : Written opened o) (hs : Whole s) :
    Written opened (o.line s)
  | opening {opened inner : List Bracket} {o : Outline} {s : String} (h : Written opened o)
    (hs : Takes opened s inner) (hbegins : stops isMargin s = true)
    (hbrace : inner.count .brace = opened.count .brace + 1) : Written inner (o.opening s)
  | closing {opened outer : List Bracket} {o : Outline} {s : String} (h : Written opened o)
    (hs : Takes opened s outer) (hbegins : stops (· != '\x7d') s = true)
    (hbrace : opened.count .brace = outer.count .brace + 1) (hdepth : 0 < o.depth) :
    Written outer (o.closing s)

section Margins

/-- The blanks in front of a line. -/
theorem toList_indent_empty (depth : Nat) :
    (indent depth "").toList = List.replicate (4 * depth) ' ' := by
  induction depth with
  | zero => rfl
  | succ depth ih =>
    have hnext : indent (depth + 1) "" = step ++ indent depth "" := by
      rw [indent, List.replicate_succ, String.join_cons, String.append_assoc]
      rfl
    rw [hnext, String.toList_append, ih, Nat.mul_succ, Nat.add_comm, List.replicate_add]
    rfl

/-- An indented line is the blanks in front of it and the line. -/
theorem indent_eq_append (depth : Nat) (s : String) : indent depth s = indent depth "" ++ s := by
  simp [indent]

/-- Nothing but blanks is in front of a line. -/
theorem beq_of_mem_indent_empty {depth : Nat} {c : Char} (hc : c ∈ (indent depth "").toList) :
    (c == ' ') = true := by
  rw [toList_indent_empty] at hc
  exact beq_iff_eq.mpr (List.eq_of_mem_replicate hc)

/-- Blanks are flat. -/
theorem flat_indent_empty (depth : Nat) : Flat (indent depth "") := by
  have hblank : LeavesOut (· == ' ') := by decide
  exact flat_of_forall hblank fun _ => beq_of_mem_indent_empty

/-- An indented line is read as the line is. -/
theorem takes_indent {opened next : List Bracket} {s : String} (h : Takes opened s next)
    (depth : Nat) : Takes opened (indent depth s) next := by
  rw [indent_eq_append]
  exact (flat_indent_empty depth opened).append h

variable {s : String} (depth : Nat)

/-- The margin of an indented line is what it is indented by, if it begins with no blank. -/
theorem margin_indent (h : stops (· == ' ') s = true) : margin (indent depth s) = 4 * depth := by
  have hblanks : ∀ c ∈ (indent depth "").toList, (c == ' ') = true :=
    fun _ => beq_of_mem_indent_empty
  rw [margin, indent_eq_append, takeWhile_append_stops hblanks h, toList_indent_empty,
    List.length_replicate]

/-- After its margin, an indented line begins as the line does. -/
theorem closesFirst_indent (h : stops (· == ' ') s = true) :
    closesFirst (indent depth s) = (s.toList.head? == some '\x7d') := by
  rw [closesFirst, indent_eq_append, String.toList_append,
    List.dropWhile_append_of_pos fun _ => beq_of_mem_indent_empty]
  cases hs : s.toList with
  | nil => rfl
  | cons c cs =>
    have hc : (c == ' ') = false := by simpa [stops, hs] using h
    rw [List.dropWhile_cons_of_neg (by simp [hc])]

/-- A line that begins with neither a blank nor a closing brace is indented by the open braces if
it stands as deep as there are of them. -/
theorem isIndented_indent {opened : List Bracket} (h : stops isMargin s = true) :
    IsIndented opened (indent (opened.count .brace) s) := by
  obtain ⟨c, hc, hmargin⟩ := stops_iff.mp h
  rw [isMargin, Bool.or_eq_false_iff] at hmargin
  have hblank : stops (· == ' ') s = true := by simp [stops, hc, hmargin.1]
  have hfirst : closesFirst (indent (opened.count .brace) s) = false := by
    rw [closesFirst_indent _ hblank, hc]
    exact hmargin.2
  rw [IsIndented, margin_indent _ hblank, hfirst]
  rfl

/-- A line that begins with a closing brace is indented by the open braces if it stands one less
deep than there are of them. -/
theorem isIndented_indent_closing {opened : List Bracket} (h : stops (· != '\x7d') s = true)
    (hcount : opened.count .brace = depth + 1) : IsIndented opened (indent depth s) := by
  have hhead : s.toList.head? = some '\x7d' := by
    obtain ⟨c, hc, hbrace⟩ := stops_iff.mp h
    rw [hc, bne_eq_false_iff_eq.mp hbrace]
  have hblank : stops (· == ' ') s = true := by simp [stops, hhead]
  have hfirst : closesFirst (indent depth s) = true := by
    rw [closesFirst_indent _ hblank, hhead]
    rfl
  rw [IsIndented, margin_indent _ hblank, hfirst, hcount]
  rfl

end Margins

/-- What is laid out: the lines of an outline, indented by the brackets that they leave open, of
which the braces are as many as the outline is deep. -/
structure Laid (ls : List String) (opened : List Bracket) (o : Outline) : Prop where
  text : o.text = unlines ls
  lines : ∀ l ∈ ls, IsLine l
  nest : nest [] o.text = some opened
  indented : Indented ls
  depth : o.depth = opened.count .brace

/-- One more line is laid out if it is indented by what is open before it. -/
theorem Laid.put {ls : List String} {opened next : List Bracket} {o : Outline}
    (h : Laid ls opened o) {l : String} (hl : Takes opened l next)
    (hindented : l ≠ "" → IsIndented opened l) :
    Laid (ls ++ [l]) next (o.put [l] (next.count .brace)) where
  text := by rw [text_put, h.text, unlines_append]
  lines := by
    intro m hm
    rcases List.mem_append.mp hm with hin | hlast
    · exact h.lines m hin
    · exact List.mem_singleton.mp hlast ▸ hl.isLine
  nest := by
    have hbreak : Text.nest next "\n" = some next := rfl
    rw [text_put, nest_append, h.nest, Option.bind_some, unlines_cons, unlines_nil,
      String.append_empty, nest_append, hl.nest_eq, Option.bind_some, hbreak]
  indented := h.indented.concat (h.text ▸ h.nest) hindented
  depth := rfl

/-- What is written line by line is laid out. -/
theorem Written.exists_laid {opened : List Bracket} {o : Outline} (h : Written opened o) :
    ∃ ls, Laid ls opened o := by
  induction h with
  | empty => exact ⟨[], rfl, nofun, rfl, indented_nil, rfl⟩
  | blank _ ih =>
    obtain ⟨ls, hls⟩ := ih
    refine ⟨ls ++ [""], ?_⟩
    rw [blank_eq_put, hls.depth]
    exact hls.put ⟨List.not_mem_nil, rfl⟩ fun hne => absurd rfl hne
  | @line opened o s _ hs ih =>
    obtain ⟨ls, hls⟩ := ih
    refine ⟨ls ++ [indent o.depth s], ?_⟩
    rw [line_eq_put, hls.depth]
    exact hls.put (takes_indent (hs.flat opened) _) fun _ => isIndented_indent hs.begins
  | @opening opened inner o s _ hs hbegins hbrace ih =>
    obtain ⟨ls, hls⟩ := ih
    refine ⟨ls ++ [indent o.depth s], ?_⟩
    rw [opening_eq_put, hls.depth, ← hbrace]
    exact hls.put (takes_indent hs _) fun _ => isIndented_indent hbegins
  | @closing opened outer o s _ hs hbegins hbrace _ ih =>
    obtain ⟨ls, hls⟩ := ih
    have hdepth : o.depth - 1 = outer.count .brace := by rw [hls.depth, hbrace, Nat.add_sub_cancel]
    refine ⟨ls ++ [indent (o.depth - 1) s], ?_⟩
    rw [closing_eq_put, hdepth]
    exact hls.put (takes_indent hs _) fun _ => isIndented_indent_closing _ hbegins hbrace

/-- What is written line by line is as deep as there are open braces. -/
theorem Written.depth_eq {opened : List Bracket} {o : Outline} (h : Written opened o) :
    o.depth = opened.count .brace := by
  obtain ⟨ls, hls⟩ := h.exists_laid
  exact hls.depth

/-- A brace that is open can be closed. -/
theorem Written.close {opened outer : List Bracket} {o : Outline} {s : String}
    (h : Written opened o) (hs : Takes opened s outer) (hbegins : stops (· != '\x7d') s = true)
    (hbrace : opened.count .brace = outer.count .brace + 1) : Written outer (o.closing s) := by
  have hdepth : 0 < o.depth := by
    rw [h.depth_eq, hbrace]
    exact Nat.succ_pos _
  exact h.closing hs hbegins hbrace hdepth

/-- Lines that close what they open can follow one another. -/
theorem Written.lines {opened : List Bracket} {o : Outline} (h : Written opened o)
    {ss : List String} (hs : ∀ s ∈ ss, Whole s) : Written opened (o.lines ss) := by
  rw [Outline.lines]
  induction ss generalizing o with
  | nil => exact h
  | cons s ss ih =>
    have hfirst := h.line (hs s (List.mem_cons_self ..))
    exact ih hfirst fun t ht => hs t (List.mem_cons_of_mem _ ht)

/-- The mark of an implementation is a whole line. -/
theorem whole_override : Whole "@Override" := ⟨fun _ => ⟨by decide, rfl⟩, by decide⟩

end Outline

section Words

/-- An identifier is flat. -/
theorem flat_of_isIdentifier {s : String} (h : isIdentifier s = true) : Flat s := by
  have hclass : LeavesOut isPart := by decide
  exact flat_of_forall hclass (isPart_of_mem_identifier h)

/-- A dotted name is flat. -/
theorem flat_of_isQualified {s : String} (h : isQualified s = true) : Flat s := by
  have hclass : LeavesOut isDottedPart := by decide
  exact flat_of_forall hclass (isDottedPart_of_mem_qualified h)

/-- A declared type is flat. -/
theorem flat_of_isDeclaredType {s : String} (h : isDeclaredType s = true) : Flat s := by
  have hclass : LeavesOut isTypePart := by decide
  exact flat_of_forall hclass (isTypePart_of_mem_declaredType h)

/-- An integer is written flat. -/
theorem flat_toString (n : Int) : Flat (toString n) := by
  have hclass : LeavesOut isDecimalPart := by decide
  exact flat_of_forall hclass (isDecimalPart_of_mem_repr n)

end Words

namespace ListenerKind

/-- The words of a kind leave no bracket open. -/
structure Balanced (kind : ListenerKind) : Prop where
  setter : Flat kind.setter
  interface : Flat kind.interface
  signature : Outline.Whole kind.signature
  answer : ∀ s ∈ kind.answer, Outline.Whole s

/-- The words of click listeners leave no bracket open. -/
theorem balanced_click : click.Balanced where
  setter _ := ⟨by decide, rfl⟩
  interface _ := ⟨by decide, rfl⟩
  signature := ⟨fun _ => ⟨by decide, rfl⟩, by decide⟩
  answer := nofun

/-- The words of long-click listeners leave no bracket open. -/
theorem balanced_longClick : longClick.Balanced where
  setter _ := ⟨by decide, rfl⟩
  interface _ := ⟨by decide, rfl⟩
  signature := ⟨fun _ => ⟨by decide, rfl⟩, by decide⟩
  answer := by
    intro s hs
    obtain rfl := List.mem_singleton.mp hs
    exact ⟨fun _ => ⟨by decide, rfl⟩, by decide⟩

variable {kind : ListenerKind} {opened : List Bracket} {o : Outline}

/-- The call of a method is a whole line. -/
theorem whole_call {method : String} (h : isIdentifier method = true) :
    Outline.Whole ("target." ++ method ++ "(v);") where
  flat opened := by
    have htarget : Takes opened "target." opened := ⟨by decide, rfl⟩
    have hargument : Takes opened "(v);" opened := ⟨by decide, rfl⟩
    exact (htarget.append (flat_of_isIdentifier h opened)).append hargument
  begins := stops_append (stops_append (by decide) _) _

/-- The beginning of a registration leaves a parenthesis and a brace open. -/
theorem Balanced.takes_setter (hkind : kind.Balanced) (id : ResourceId) :
    Takes opened ("target.findViewById(" ++ toString id ++ ")." ++ kind.setter ++
      "(new " ++ kind.interface ++ "() \x7b") (.brace :: .parenthesis :: opened) := by
  have hfind : Takes opened "target.findViewById(" (.parenthesis :: opened) := ⟨by decide, rfl⟩
  have hfound : Takes (.parenthesis :: opened) ")." opened := ⟨by decide, rfl⟩
  have hnew : Takes opened "(new " (.parenthesis :: opened) := ⟨by decide, rfl⟩
  have hbody : Takes (.parenthesis :: opened) "() \x7b" (.brace :: .parenthesis :: opened) :=
    ⟨by decide, rfl⟩
  have hview := (hfind.append (flat_toString id _)).append hfound
  exact (((hview.append (hkind.setter _)).append hnew).append (hkind.interface _)).append hbody

/-- A registration begins with a line outside all margins. -/
theorem begins_setter (id : ResourceId) : stops Outline.isMargin ("target.findViewById(" ++
    toString id ++ ")." ++ kind.setter ++ "(new " ++ kind.interface ++ "() \x7b") = true := by
  simp only [String.append_assoc]
  exact stops_append (by decide) _

/-- A registration closes what it opens. -/
theorem Balanced.written_register (hkind : kind.Balanced) {method : String}
    (hmethod : isIdentifier method = true) (h : Outline.Written opened o) (id : ResourceId) :
    Outline.Written opened (kind.register method o id) := by
  -- A parenthesis and a brace are open inside the listener, and one more brace inside its handler.
  have hsignature : Takes (.brace :: .parenthesis :: opened) (kind.signature ++ " \x7b")
      (.brace :: .brace :: .parenthesis :: opened) :=
    (hkind.signature.flat _).append ⟨by decide, rfl⟩
  have hhandled : Takes (.brace :: .brace :: .parenthesis :: opened) "\x7d"
      (.brace :: .parenthesis :: opened) := ⟨by decide, rfl⟩
  have hlistening : Takes (.brace :: .parenthesis :: opened) "\x7d);" opened := ⟨by decide, rfl⟩
  have hbody : ∀ s ∈ ("target." ++ method ++ "(v);") :: kind.answer, Outline.Whole s := by
    intro s hs
    rcases List.mem_cons.mp hs with rfl | hanswer
    · exact whole_call hmethod
    · exact hkind.answer s hanswer
  have hlistener := h.opening (hkind.takes_setter id) (begins_setter id) (by simp)
  have hhandler := (hlistener.line Outline.whole_override).opening hsignature
    (stops_append hkind.signature.begins _) List.count_cons_self
  have hinside := (hhandler.lines hbody).close hhandled (by decide) List.count_cons_self
  exact hinside.close hlistening (by decide) (by simp)

/-- Registering spelled listeners closes what it opens. -/
theorem Balanced.written_registerAll (hkind : kind.Balanced) {ls : List Listener}
    (hls : ∀ l ∈ ls, isIdentifier l.method.name = true) (h : Outline.Written opened o) :
    Outline.Written opened (ls.foldl kind.registerAll o) := by
  have hids : ∀ (method : String) (ids : List ResourceId) (o : Outline),
      isIdentifier method = true → Outline.Written opened o →
        Outline.Written opened (ids.foldl (kind.register method) o) := by
    intro method ids
    induction ids with
    | nil => exact fun _ _ h => h
    | cons id ids ih => exact fun _ hmethod h => ih _ hmethod (hkind.written_register hmethod h id)
  induction ls generalizing o with
  | nil => exact h
  | cons l ls ih =>
    have hfirst := hids _ l.ids _ (hls l (List.mem_cons_self ..)) h
    exact ih (fun m hm => hls m (List.mem_cons_of_mem _ hm)) hfirst

/-- A registration puts three lines around the call, the call and the answer, and two lines. -/
theorem length_block (kind : ListenerKind) (depth : Nat) (method : String) (id : ResourceId) :
    (kind.block depth method id).length = 6 + kind.answer.length := by
  simp only [block, List.length_append, List.length_map, List.length_cons, List.length_nil]
  omega

/-- There is one registration for each id. -/
theorem length_registrations (ls : List Listener) :
    (registrations ls).length = (ls.map (·.ids.length)).sum := by
  simp [registrations, List.length_flatMap]

/-- Registrations put as many lines each. -/
theorem length_flatMap_block (kind : ListenerKind) (depth : Nat) (ls : List Listener) :
    ((registrations ls).flatMap fun r => kind.block depth r.1 r.2).length =
      (6 + kind.answer.length) * (ls.map (·.ids.length)).sum := by
  simp only [List.length_flatMap, length_block, List.map_const', List.sum_replicate_nat,
    length_registrations, Nat.mul_comm]

end ListenerKind

namespace Binding

variable {b : Binding} {package : String}

/-- The assignment of a spelled field is a whole line. -/
theorem whole_assignment {f : ViewField} (hname : isIdentifier f.field.name = true)
    (htype : isDeclaredType f.field.declaredType = true) : Outline.Whole f.assignment where
  flat opened := by
    have htarget : Takes opened "target." opened := ⟨by decide, rfl⟩
    have hcast : Takes opened " = (" (.parenthesis :: opened) := ⟨by decide, rfl⟩
    have hfind : Takes (.parenthesis :: opened) ") target.findViewById("
        (.parenthesis :: opened) := ⟨by decide, rfl⟩
    have hfound : Takes (.parenthesis :: opened) ");" opened := ⟨by decide, rfl⟩
    have hassigned := (htarget.append (flat_of_isIdentifier hname opened)).append hcast
    have hview := (hassigned.append (flat_of_isDeclaredType htype _)).append hfind
    exact (hview.append (flat_toString f.id _)).append hfound
  begins := by
    rw [ViewField.assignment]
    simp only [String.append_assoc]
    exact stops_append (by decide) _

/-- The name of a package is written on a whole line. -/
theorem whole_package (h : isQualified package = true) :
    Outline.Whole ("package " ++ package ++ ";") where
  flat opened := by
    have hkeyword : Takes opened "package " opened := ⟨by decide, rfl⟩
    have hend : Takes opened ";" opened := ⟨by decide, rfl⟩
    exact (hkeyword.append (flat_of_isQualified h opened)).append hend
  begins := stops_append (stops_append (by decide) _) _

/-- The lines above the class are written outside all blocks. -/
theorem written_preamble (h : package = "" ∨ isQualified package = true) :
    Outline.Written [] (preamble package) := by
  have hnotice : ∀ s ∈ "// Generated by viewbind. Do not modify." ::
      (if package.isEmpty then [] else ["package " ++ package ++ ";"]), Outline.Whole s := by
    intro s hs
    rcases List.mem_cons.mp hs with rfl | hnamed
    · exact ⟨fun _ => ⟨by decide, rfl⟩, by decide⟩
    · by_cases hempty : package.isEmpty
      · rw [if_pos hempty] at hnamed
        exact absurd hnamed List.not_mem_nil
      · rw [if_neg hempty] at hnamed
        obtain rfl := List.mem_singleton.mp hnamed
        have hne : package ≠ "" := fun heq => hempty (String.isEmpty_iff.mpr heq)
        exact whole_package (h.resolve_left hne)
  have himports : ∀ s ∈ ["import " ++ Source.viewClass ++ ";",
      "import " ++ Source.binderInterface ++ ";"], Outline.Whole s := by
    intro s hs
    rcases List.mem_pair.mp hs with rfl | rfl
    all_goals exact ⟨fun _ => ⟨by decide, rfl⟩, by decide⟩
  exact ((Outline.Written.empty.lines hnotice).blank.lines himports).blank

/-- The beginning of the class leaves a brace open. -/
theorem Spelled.takes_class (h : b.Spelled package) : Takes [] ("public class " ++ b.className ++
    " implements ViewBinder<" ++ b.owner.id ++ "> \x7b") [.brace] := by
  have hclass : Takes [] "public class " [] := ⟨by decide, rfl⟩
  have hsuffix : Takes [] Source.nameSuffix [] := ⟨by decide, rfl⟩
  have himplements : Takes [] " implements ViewBinder<" [] := ⟨by decide, rfl⟩
  have hbody : Takes [] "> \x7b" [.brace] := ⟨by decide, rfl⟩
  have hname := (flat_of_isIdentifier h.simpleName []).append hsuffix
  exact (((hclass.append hname).append himplements).append
    (flat_of_isQualified h.owner [])).append hbody

/-- The beginning of the method leaves another brace open. -/
theorem Spelled.takes_method (h : b.Spelled package) : Takes [.brace]
    ("public void bind(final " ++ b.owner.id ++ " target) \x7b") [.brace, .brace] := by
  have hmethod : Takes [.brace] "public void bind(final " [.parenthesis, .brace] :=
    ⟨by decide, rfl⟩
  have hbody : Takes [.parenthesis, .brace] " target) \x7b" [.brace, .brace] := ⟨by decide, rfl⟩
  exact (hmethod.append (flat_of_isQualified h.owner _)).append hbody

/-- The layout call is a whole line. -/
theorem whole_layout (id : ResourceId) :
    Outline.Whole ("target.setContentView(" ++ toString id ++ ");") where
  flat opened := by
    have hcall : Takes opened "target.setContentView(" (.parenthesis :: opened) :=
      ⟨by decide, rfl⟩
    have hend : Takes (.parenthesis :: opened) ");" opened := ⟨by decide, rfl⟩
    exact (hcall.append (flat_toString id _)).append hend
  begins := stops_append (stops_append (by decide) _) _

/-- The source of a spelled binding closes all that it opens. -/
theorem Spelled.written_outline (h : b.Spelled package) :
    Outline.Written [] (b.outline package) := by
  have hclass := (written_preamble h.package).opening h.takes_class
    (by simp only [String.append_assoc]; exact stops_append (by decide) _) (by decide)
  have hmethod := (hclass.line Outline.whole_override).opening h.takes_method
    (stops_append (stops_append (by decide) _) _) (by decide)
  have hassignments : ∀ s ∈ b.viewFields.map (·.assignment), Outline.Whole s := by
    intro s hs
    obtain ⟨f, hf, rfl⟩ := List.mem_map.mp hs
    exact whole_assignment (h.viewFields f hf).1 (h.viewFields f hf).2
  have hfields := (hmethod.line (whole_layout b.layoutId)).lines hassignments
  have hclicks := ListenerKind.balanced_click.written_registerAll h.clicks hfields
  have hlongClicks := ListenerKind.balanced_longClick.written_registerAll h.longClicks hclicks
  have hbound : Takes [.brace, .brace] "\x7d" [.brace] := ⟨by decide, rfl⟩
  have hend : Takes [.brace] "\x7d" [] := ⟨by decide, rfl⟩
  exact (hlongClicks.close hbound (by decide) (by decide)).close hend (by decide) (by decide)

/-- The number of lines of a source: those around the method's body, the package, one for each view
field, six for each id of a click listener and seven for each id of a long-click listener. -/
theorem length_sourceLines (b : Binding) (package : String) :
    (b.sourceLines package).length = 11 + (if package = "" then 0 else 1) + b.viewFields.length +
      6 * (b.clicks.map (·.ids.length)).sum + 7 * (b.longClicks.map (·.ids.length)).sum := by
  have hpreamble : (preambleLines package).length = 5 + if package = "" then 0 else 1 := by
    by_cases hempty : package = "" <;> simp [preambleLines, hempty]
  have hclicks := ListenerKind.length_flatMap_block .click 2 b.clicks
  have hlongClicks := ListenerKind.length_flatMap_block .longClick 2 b.longClicks
  have hanswers : ListenerKind.click.answer.length = 0 ∧ ListenerKind.longClick.answer.length = 1 :=
    ⟨rfl, rfl⟩
  rw [hanswers.1] at hclicks
  rw [hanswers.2] at hlongClicks
  simp only [sourceLines, openingLines, bodyLines, closingLines, List.length_append,
    List.length_cons, List.length_nil, List.length_map, hpreamble, hclicks, hlongClicks]
  omega

/-- The source of a spelled binding is well nested: no brace or parenthesis is closed that is not
the innermost open one, and none is left open. No block is closed where none is open, and none is
open at the end. Every line that is not empty is indented by the braces open before it, and the
number of lines is that of the preamble, the openings and closings, the view fields and the
registrations. -/
theorem blocks_source (h : b.Spelled package) :
    nest [] (b.source package).text = some [] ∧
    Outline.Written [] (b.outline package) ∧ (b.outline package).depth = 0 ∧
    ∃ ls, (b.source package).text = unlines ls ∧ (∀ l ∈ ls, IsLine l) ∧ Indented ls ∧
      ls.length = 11 + (if package = "" then 0 else 1) + b.viewFields.length +
        6 * (b.clicks.map (·.ids.length)).sum + 7 * (b.longClicks.map (·.ids.length)).sum := by
  have hwritten := h.written_outline
  obtain ⟨ls, hls⟩ := hwritten.exists_laid
  have hlines : ls = b.sourceLines package :=
    unlines_inj hls.lines h.isLine_of_mem_sourceLines (hls.text.symm.trans (b.text_source package))
  refine ⟨hls.nest, hwritten, hls.depth, ls, hls.text, hls.lines, hls.indented, ?_⟩
  rw [hlines, length_sourceLines]

/-- A screen with a field of an array type, a click listener for two views and a long-click listener
for one. -/
def listeningScreen : Binding where
  owner := ⟨"app.Home", "Home", .package "app", some 1⟩
  layoutId := 1
  viewFields := [⟨⟨"rows", "app.Home", "Map<?, ? extends T>[]", some (-2)⟩, -2⟩]
  clicks := [⟨⟨"save", "app.Home", none, none⟩, [3, -4]⟩]
  longClicks := [⟨⟨"drop", "app.Home", none, none⟩, [5]⟩]

/-- This screen has a source of twelve lines for the class in its package, one for the field, twelve
for the click listener and seven for the long-click listener. -/
theorem blocks_source_listeningScreen :
    listeningScreen.Spelled "app" ∧
    nest [] (listeningScreen.source "app").text = some [] ∧
    ∃ ls, (listeningScreen.source "app").text = unlines ls ∧ Indented ls ∧ ls.length = 32 := by
  have hspelled : listeningScreen.Spelled "app" := by
    have howner : isQualified "app.Home" = true := by decide
    have hsimple : isIdentifier "Home" = true := by decide
    refine ⟨.inr (by decide), howner, hsimple, ?_, by decide, by decide⟩
    intro f hf
    obtain rfl := List.mem_singleton.mp hf
    exact ⟨by decide, by decide⟩
  obtain ⟨hnest, -, -, ls, htext, -, hindented, hlength⟩ := blocks_source hspelled
  exact ⟨hspelled, hnest, ls, htext, hindented, hlength⟩

end Binding

end ViewBinding
