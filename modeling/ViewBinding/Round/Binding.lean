import ViewBinding.Round.Element
import ViewBinding.Table

/-!
# Bindings

A class is bound when it carries a content view. View ids, click ids and long-click ids are found
independently and joined to their bound class by its id. A marker whose class is not bound cannot
be generated anywhere; it is set aside as dropped, for the caller to report.
-/

namespace ViewBinding

/-- A field bound to a view. -/
structure ViewField where
  field : FieldElement
  id : ResourceId
  deriving DecidableEq, Repr

/-- A method that listens to views; one registration is generated for each id. -/
structure Listener where
  method : MethodElement
  ids : List ResourceId
  deriving DecidableEq, Repr

/-- Everything that goes into the binding class of one owner. -/
structure Binding where
  owner : ClassElement
  layoutId : ResourceId
  viewFields : List ViewField := []
  clicks : List Listener := []
  longClicks : List Listener := []
  deriving DecidableEq, Repr

/-- A marker on a member of a class that is not bound. -/
structure DroppedMarker where
  marker : Marker
  element : String
  owner : ClassId
  deriving DecidableEq, Repr

/-- One binding for each bound class and the markers that no binding took, in discovery order. -/
structure Collection where
  bindings : List Binding := []
  dropped : List DroppedMarker := []
  deriving DecidableEq, Repr

/-- A collection in the making. The bindings are found again by their positions, which are kept
under the ids of their owners. -/
structure Collector extends Collection where
  /-- The positions of the bindings, under the ids of their owners. -/
  index : Table ClassId Nat := []
  deriving DecidableEq, Repr

namespace Collector

/-- Start a binding for a marked class whose id has none yet. -/
def addClass (c : Collector) (e : ClassElement) : Collector :=
  match e.contentView with
  | none => c
  | some layoutId =>
    if (c.index.get? e.id).isSome then c
    else { c with
      index := c.index.insert e.id c.bindings.length
      bindings := c.bindings ++ [{ owner := e, layoutId }] }

/-- Change the binding at the position of a class, or set the marker aside if the class has no
position. At a position without a binding nothing is changed. -/
def update (c : Collector) (owner : ClassId) (marker : Marker) (element : String)
    (change : Binding → Binding) : Collector :=
  match c.index.get? owner with
  | some position =>
    match c.bindings[position]? with
    | some b => { c with bindings := c.bindings.set position (change b) }
    | none => c
  | none => { c with dropped := c.dropped ++ [⟨marker, element, owner⟩] }

/-- Join a marked field to its class. -/
def addViewField (c : Collector) (f : FieldElement) : Collector :=
  match f.viewId with
  | none => c
  | some id =>
    c.update f.owner .viewId f.name fun b => { b with viewFields := b.viewFields ++ [⟨f, id⟩] }

/-- Join a method with click ids to its class. -/
def addClick (c : Collector) (m : MethodElement) : Collector :=
  match m.onClick with
  | none => c
  | some ids =>
    c.update m.owner .onClick m.name fun b => { b with clicks := b.clicks ++ [⟨m, ids⟩] }

/-- Join a method with long-click ids to its class. -/
def addLongClick (c : Collector) (m : MethodElement) : Collector :=
  match m.onLongClick with
  | none => c
  | some ids =>
    c.update m.owner .onLongClick m.name fun b =>
      { b with longClicks := b.longClicks ++ [⟨m, ids⟩] }

end Collector

namespace Round

/-- Collect the classes of a round, then its view ids, clicks and long clicks. An element that is
offered without its marker is passed over. -/
def collector (round : Round) : Collector :=
  let bound := round.contentViewClasses.foldl Collector.addClass {}
  let viewed := round.viewIdFields.foldl Collector.addViewField bound
  let clicked := round.clickMethods.foldl Collector.addClick viewed
  round.longClickMethods.foldl Collector.addLongClick clicked

/-- The bindings of a round and the markers that none of them took. -/
def collect (round : Round) : Collection := round.collector.toCollection

end Round

end ViewBinding
