import ViewBinding.Proofs.Text.Lines
import ViewBinding.Source.Generated

/-!
# Layout of generated sources

A generated source is a list of lines: a preamble, the two openings and the layout call, one line
for each view field, one block of lines for each registration, and the two closings. Every step of
an outline puts lines at its end and leaves it at a depth, so the whole text is the text of this
list.
-/

namespace ViewBinding

open Text

namespace Outline

/-- A line inside open blocks. -/
def indent (depth : Nat) (s : String) : String := String.join (List.replicate depth step) ++ s

/-- The outline with lines at its end, at a depth. -/
def put (o : Outline) (ls : List String) (depth : Nat) : Outline :=
  ⟨o.text ++ unlines ls, depth⟩

@[simp] theorem depth_put (o : Outline) (ls : List String) (depth : Nat) :
    (o.put ls depth).depth = depth := rfl

theorem text_put (o : Outline) (ls : List String) (depth : Nat) :
    (o.put ls depth).text = o.text ++ unlines ls := rfl

@[simp] theorem put_put (o : Outline) (ls ms : List String) (d e : Nat) :
    (o.put ls d).put ms e = o.put (ls ++ ms) e := by
  simp [put, unlines_append, String.append_assoc]

theorem put_nil (o : Outline) : o.put [] o.depth = o := by
  simp [put]

theorem line_eq_put (o : Outline) (s : String) : o.line s = o.put [indent o.depth s] o.depth := by
  simp [line, put, indent, String.append_assoc]

theorem lines_eq_put (o : Outline) (ss : List String) :
    o.lines ss = o.put (ss.map (indent o.depth)) o.depth := by
  rw [lines]
  induction ss generalizing o with
  | nil => exact o.put_nil.symm
  | cons s ss ih => rw [List.foldl_cons, ih, line_eq_put, depth_put, put_put]; rfl

theorem blank_eq_put (o : Outline) : o.blank = o.put [""] o.depth := by
  simp [blank, put]

theorem opening_eq_put (o : Outline) (s : String) :
    o.opening s = o.put [indent o.depth s] (o.depth + 1) := by
  rw [opening, line_eq_put]
  rfl

theorem closing_eq_put (o : Outline) (s : String) :
    o.closing s = o.put [indent (o.depth - 1) s] (o.depth - 1) := by
  rw [closing, line_eq_put]
  rfl

end Outline

namespace ListenerKind

/-- The lines that register a method on a view, inside open blocks. -/
def block (kind : ListenerKind) (depth : Nat) (method : String) (id : ResourceId) : List String :=
  [Outline.indent depth ("target.findViewById(" ++ toString id ++ ")." ++ kind.setter ++
      "(new " ++ kind.interface ++ "() \x7b"),
    Outline.indent (depth + 1) "@Override",
    Outline.indent (depth + 1) (kind.signature ++ " \x7b")] ++
  (("target." ++ method ++ "(v);") :: kind.answer).map (Outline.indent (depth + 2)) ++
  [Outline.indent (depth + 1) "\x7d", Outline.indent depth "\x7d);"]

/-- A registration puts its block and comes back to its depth. -/
theorem register_eq_put (kind : ListenerKind) (method : String) (o : Outline) (id : ResourceId) :
    kind.register method o id = o.put (kind.block o.depth method id) o.depth := by
  simp only [register, Outline.opening_eq_put, Outline.line_eq_put, Outline.lines_eq_put,
    Outline.closing_eq_put, Outline.depth_put, Outline.put_put, Nat.add_sub_cancel]
  simp [block]

/-- The method and view of each registration of listeners, in their order. -/
def registrations (ls : List Listener) : List (String × ResourceId) :=
  ls.flatMap fun l => l.ids.map (l.method.name, ·)

/-- Registering listeners puts one block for each registration. -/
theorem foldl_registerAll_eq_put (kind : ListenerKind) (ls : List Listener) (o : Outline) :
    ls.foldl kind.registerAll o =
      o.put ((registrations ls).flatMap fun r => kind.block o.depth r.1 r.2) o.depth := by
  have hids : ∀ (method : String) (ids : List ResourceId) (o : Outline),
      ids.foldl (kind.register method) o =
        o.put ((ids.map (method, ·)).flatMap fun r => kind.block o.depth r.1 r.2) o.depth := by
    intro method ids
    induction ids with
    | nil => exact fun o => o.put_nil.symm
    | cons id ids ih =>
      intro o
      rw [List.foldl_cons, ih, register_eq_put, Outline.depth_put, Outline.put_put]
      rfl
  induction ls generalizing o with
  | nil => exact o.put_nil.symm
  | cons l ls ih =>
    rw [List.foldl_cons, ih, registerAll, hids, Outline.depth_put, Outline.put_put,
      registrations, registrations, List.flatMap_cons, List.flatMap_append]

end ListenerKind

namespace Binding

/-- The lines above the class. -/
def preambleLines (package : String) : List String :=
  "// Generated by viewbind. Do not modify." ::
    (if package.isEmpty then [] else ["package " ++ package ++ ";"]) ++
    ["", "import android.view.View;", "import com.viewbind.ViewBinder;", ""]

/-- The lines from the beginning of the class to the layout call. -/
def openingLines (b : Binding) : List String :=
  ["public class " ++ b.className ++ " implements ViewBinder<" ++ b.owner.id ++ "> \x7b",
    Outline.indent 1 "@Override",
    Outline.indent 1 ("public void bind(final " ++ b.owner.id ++ " target) \x7b"),
    Outline.indent 2 ("target.setContentView(" ++ toString b.layoutId ++ ");")]

/-- The lines of the view fields and the registrations. -/
def bodyLines (b : Binding) : List String :=
  b.viewFields.map (fun f => Outline.indent 2 f.assignment) ++
  ((ListenerKind.registrations b.clicks).flatMap fun r => ListenerKind.click.block 2 r.1 r.2) ++
  (ListenerKind.registrations b.longClicks).flatMap fun r => ListenerKind.longClick.block 2 r.1 r.2

/-- The lines that close what is open. -/
def closingLines : List String := [Outline.indent 1 "\x7d", "\x7d"]

/-- The whole list of lines. -/
def sourceLines (b : Binding) (package : String) : List String :=
  preambleLines package ++ b.openingLines ++ b.bodyLines ++ closingLines

/-- The preamble is written outside all blocks. -/
theorem preamble_eq_put (package : String) :
    preamble package = Outline.put {} (preambleLines package) 0 := by
  simp only [preamble, Outline.lines_eq_put, Outline.blank_eq_put, Outline.depth_put,
    Outline.put_put]
  cases h : package.isEmpty <;>
    simp [preambleLines, h, Outline.indent, Source.viewClass, Source.binderInterface]

/-- A binding is written as its lines, and all its blocks are closed at the end. -/
theorem outline_eq_put (b : Binding) (package : String) :
    b.outline package = Outline.put {} (b.sourceLines package) 0 := by
  simp only [outline, preamble_eq_put, Outline.opening_eq_put, Outline.line_eq_put,
    Outline.lines_eq_put, Outline.closing_eq_put, ListenerKind.foldl_registerAll_eq_put,
    Outline.depth_put, Outline.put_put]
  simp [sourceLines, openingLines, bodyLines, closingLines, Outline.indent, Function.comp_def]

/-- The text of a binding is the text of its lines. -/
theorem text_source (b : Binding) (package : String) :
    (b.source package).text = unlines (b.sourceLines package) := by
  rw [source, outline_eq_put, Outline.text_put, String.empty_append]

end Binding

end ViewBinding
