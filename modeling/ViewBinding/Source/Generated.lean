import ViewBinding.Round.Binding
import ViewBinding.Source.Outline

/-!
# Generated sources

The source of one binding class. It sets the layout, then assigns every view field, then registers
every click listener and every long-click listener: one registration for each id, all calling the
method that carries the marker.
-/

namespace ViewBinding

/-- A generated class: its package (empty for the unnamed one), its simple name and its text. -/
structure Source where
  package : String
  simpleName : String
  text : String
  deriving DecidableEq, Repr

namespace Source

/-- What follows the owner's simple name in the name of its binding class. -/
def nameSuffix : String := "_ViewBinding"

/-- The interface that every binding class implements. -/
def binderInterface : String := "com.viewbind.ViewBinder"

/-- The class that every view extends. -/
def viewClass : String := "android.view.View"

/-- The full name under which the source is filed. -/
def qualifiedName (s : Source) : String := Name.qualify s.package s.simpleName

end Source

/-- The words of a listener registration that depend on its kind. -/
structure ListenerKind where
  setter : String
  interface : String
  signature : String
  /-- What the handler answers, if its method has a result. -/
  answer : List String

namespace ListenerKind

/-- Click listeners have no result. -/
def click : ListenerKind where
  setter := "setOnClickListener"
  interface := "View.OnClickListener"
  signature := "public void onClick(View v)"
  answer := []

/-- Long-click listeners report the event as handled. -/
def longClick : ListenerKind where
  setter := "setOnLongClickListener"
  interface := "View.OnLongClickListener"
  signature := "public boolean onLongClick(View v)"
  answer := ["return true;"]

/-- Register one method on one view. -/
def register (kind : ListenerKind) (method : String) (o : Outline) (id : ResourceId) : Outline :=
  o |>.opening ("target.findViewById(" ++ toString id ++ ")." ++ kind.setter ++
      "(new " ++ kind.interface ++ "() \x7b")
    |>.line "@Override"
    |>.opening (kind.signature ++ " \x7b")
    |>.lines (("target." ++ method ++ "(v);") :: kind.answer)
    |>.closing "\x7d"
    |>.closing "\x7d);"

/-- Register a method on every view it listens to. -/
def registerAll (kind : ListenerKind) (o : Outline) (l : Listener) : Outline :=
  l.ids.foldl (kind.register l.method.name) o

end ListenerKind

/-- The assignment of a view to a field. -/
def ViewField.assignment (f : ViewField) : String :=
  "target." ++ f.field.name ++ " = (" ++ f.field.declaredType ++ ") target.findViewById(" ++
    toString f.id ++ ");"

namespace Binding

/-- The simple name of the binding class. -/
def className (b : Binding) : String := b.owner.simpleName ++ Source.nameSuffix

/-- The lines above the class: a notice, the package if it is named, the imports. -/
def preamble (package : String) : Outline :=
  Outline.lines {} ("// Generated by viewbind. Do not modify." ::
      if package.isEmpty then [] else ["package " ++ package ++ ";"])
    |>.blank
    |>.lines ["import " ++ Source.viewClass ++ ";", "import " ++ Source.binderInterface ++ ";"]
    |>.blank

/-- The whole text of the binding class. -/
def outline (b : Binding) (package : String) : Outline :=
  preamble package
    |>.opening ("public class " ++ b.className ++ " implements ViewBinder<" ++ b.owner.id ++
      "> \x7b")
    |>.line "@Override"
    |>.opening ("public void bind(final " ++ b.owner.id ++ " target) \x7b")
    |>.line ("target.setContentView(" ++ toString b.layoutId ++ ");")
    |>.lines (b.viewFields.map (·.assignment))
    |> b.clicks.foldl ListenerKind.click.registerAll
    |> b.longClicks.foldl ListenerKind.longClick.registerAll
    |>.closing "\x7d"
    |>.closing "\x7d"

/-- The source of a binding in the package that encloses its owner. -/
def source (b : Binding) (package : String) : Source where
  package := package
  simpleName := b.className
  text := (b.outline package).text

end Binding

end ViewBinding
