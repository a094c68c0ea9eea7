import Mathlib.Data.List.Perm.Basic
import ViewBinding.Proofs.Round.Collection
import ViewBinding.Proofs.Round.Flattening

/-!
# Regrouping what was flattened

Flattening scatters the members of all classes over three lists, and collecting groups them by the
canonical names of their classes. No two declarations share a canonical name, so collecting finds
for every class exactly the members it declared: one binding for each declaration with a content
view, and the markers of the other declarations set aside, kind by kind.
-/

namespace ViewBinding

/-- The markers that members carry, in the order in which they are collected. -/
def Marker.ofMembers : List Marker := [.viewId, .onClick, .onLongClick]

/-- The markers of one kind that a binding took from members, in its order. -/
def Binding.markers (b : Binding) : Marker → List DroppedMarker
  | .contentView => []
  | .viewId => b.viewFields.map fun f => ⟨.viewId, f.field.name, f.field.owner⟩
  | .onClick => b.clicks.map fun l => ⟨.onClick, l.method.name, l.method.owner⟩
  | .onLongClick => b.longClicks.map fun l => ⟨.onLongClick, l.method.name, l.method.owner⟩

namespace ClassDeclaration

/-- The view fields that a declaration marks, in its order. -/
def viewFields (c : ClassDeclaration) : List ViewField :=
  c.fields.filterMap fun f =>
    f.viewId.map fun id => ⟨⟨f.name, c.canonicalName, f.declaredType, f.viewId⟩, id⟩

/-- The click listeners that a declaration marks, in its order. -/
def clicks (c : ClassDeclaration) : List Listener :=
  c.methods.filterMap fun m =>
    m.onClick.map fun ids => ⟨⟨m.name, c.canonicalName, m.onClick, m.onLongClick⟩, ids⟩

/-- The long-click listeners that a declaration marks, in its order. -/
def longClicks (c : ClassDeclaration) : List Listener :=
  c.methods.filterMap fun m =>
    m.onLongClick.map fun ids => ⟨⟨m.name, c.canonicalName, m.onClick, m.onLongClick⟩, ids⟩

/-- The binding that a declaration asks for by its content view. -/
def binding? (c : ClassDeclaration) : Option Binding :=
  c.contentView.map fun layoutId =>
    { owner := c.element, layoutId, viewFields := c.viewFields, clicks := c.clicks
      longClicks := c.longClicks }

/-- The markers of one kind that a declaration has on its members, in its order. -/
def markers (c : ClassDeclaration) : Marker → List DroppedMarker
  | .contentView => []
  | .viewId => c.fields.filterMap fun f =>
    f.viewId.map fun _ => ⟨.viewId, f.name, c.canonicalName⟩
  | .onClick => c.methods.filterMap fun m =>
    m.onClick.map fun _ => ⟨.onClick, m.name, c.canonicalName⟩
  | .onLongClick => c.methods.filterMap fun m =>
    m.onLongClick.map fun _ => ⟨.onLongClick, m.name, c.canonicalName⟩

/-- Flattened fields know their class. -/
theorem owner_of_mem_fieldElements (c : ClassDeclaration) {f : FieldElement}
    (h : f ∈ c.fieldElements) : f.owner = c.canonicalName := by
  obtain ⟨d, -, rfl⟩ := List.mem_map.mp h
  rfl

/-- Flattened methods know their class. -/
theorem owner_of_mem_methodElements (c : ClassDeclaration) {m : MethodElement}
    (h : m ∈ c.methodElements) : m.owner = c.canonicalName := by
  obtain ⟨d, -, rfl⟩ := List.mem_map.mp h
  rfl

/-- Setting aside all view ids of a class gives its markers of that kind. -/
theorem filterMap_drop?_viewIds (c : ClassDeclaration) :
    c.fieldElements.filterMap Collection.viewIdPass.drop? = c.markers .viewId := by
  simp [fieldElements, markers, MemberPass.drop?, Collection.viewIdPass, Function.comp_def]

/-- Setting aside all click ids of a class gives its markers of that kind. -/
theorem filterMap_drop?_clicks (c : ClassDeclaration) :
    c.methodElements.filterMap Collection.clickPass.drop? = c.markers .onClick := by
  simp [methodElements, markers, MemberPass.drop?, Collection.clickPass, Function.comp_def]

/-- Setting aside all long-click ids of a class gives its markers of that kind. -/
theorem filterMap_drop?_longClicks (c : ClassDeclaration) :
    c.methodElements.filterMap Collection.longClickPass.drop? = c.markers .onLongClick := by
  simp [methodElements, markers, MemberPass.drop?, Collection.longClickPass, Function.comp_def]

/-- Taking all view ids of a class gives its view fields. -/
theorem filterMap_item?_viewIds (c : ClassDeclaration) :
    c.fieldElements.filterMap Collection.viewIdPass.item? = c.viewFields := by
  simp only [fieldElements, List.filterMap_map]
  rfl

/-- Taking all click ids of a class gives its click listeners. -/
theorem filterMap_item?_clicks (c : ClassDeclaration) :
    c.methodElements.filterMap Collection.clickPass.item? = c.clicks := by
  simp only [methodElements, List.filterMap_map]
  rfl

/-- Taking all long-click ids of a class gives its long-click listeners. -/
theorem filterMap_item?_longClicks (c : ClassDeclaration) :
    c.methodElements.filterMap Collection.longClickPass.item? = c.longClicks := by
  simp only [methodElements, List.filterMap_map]
  rfl

/-- The binding of a declaration takes all its markers. -/
theorem markers_of_binding? {c : ClassDeclaration} {b : Binding} (h : c.binding? = some b)
    (kind : Marker) : b.markers kind = c.markers kind := by
  obtain ⟨layoutId, -, rfl⟩ := Option.map_eq_some_iff.mp h
  cases kind <;> simp [Binding.markers, markers, viewFields, clicks, longClicks,
    List.map_filterMap, Function.comp_def]

end ClassDeclaration

section Grouping

variable {κ α β : Type} {key : α → κ} {owner : β → κ} {members : α → List β}

/-- Among the members of all items, those of one item are found by its key. -/
theorem filter_flatMap_members [DecidableEq κ]
    (howner : ∀ a, ∀ x ∈ members a, owner x = key a) {as : List α}
    (hnodup : (as.map key).Nodup) {a : α} (ha : a ∈ as) :
    (as.flatMap members).filter (fun x => owner x == key a) = members a := by
  have hmine : ∀ b, key b = key a →
      (members b).filter (fun x => owner x == key a) = members b := by
    intro b hb
    rw [List.filter_eq_self]
    intro x hx
    rw [howner b x hx, hb, beq_self_eq_true]
  have hother : ∀ b, key b ≠ key a → (members b).filter (fun x => owner x == key a) = [] := by
    intro b hb
    rw [List.filter_eq_nil_iff]
    intro x hx
    simpa [howner b x hx] using hb
  induction as with
  | nil => exact absurd ha List.not_mem_nil
  | cons b as ih =>
    rw [List.map_cons, List.nodup_cons] at hnodup
    rw [List.flatMap_cons, List.filter_append]
    rcases List.mem_cons.mp ha with rfl | hin
    · have hrest : (as.flatMap members).filter (fun x => owner x == key a) = [] := by
        rw [List.filter_flatMap, List.flatMap_eq_nil_iff]
        intro b hb
        exact hother b fun he => hnodup.1 (he ▸ List.mem_map_of_mem hb)
      rw [hmine a rfl, hrest, List.append_nil]
    · have hne : key b ≠ key a := fun he => hnodup.1 (he ▸ List.mem_map_of_mem hin)
      rw [hother b hne, ih hnodup.2 hin, List.nil_append]

/-- A test that looks only at keys keeps the members of the items that pass it. -/
theorem filter_flatMap_of_key (howner : ∀ a, ∀ x ∈ members a, owner x = key a) (as : List α)
    (test : κ → Bool) (keep : α → Bool) (htest : ∀ a ∈ as, test (key a) = keep a) :
    (as.flatMap members).filter (fun x => test (owner x)) = (as.filter keep).flatMap members := by
  induction as with
  | nil => rfl
  | cons a as ih =>
    have hrest := ih fun b hb => htest b (List.mem_cons_of_mem _ hb)
    have hhead : (members a).filter (fun x => test (owner x)) =
        if keep a then members a else [] := by
      rw [← htest a (List.mem_cons_self ..)]
      by_cases h : test (key a) = true
      · rw [if_pos h, List.filter_eq_self]
        exact fun x hx => (howner a x hx).symm ▸ h
      · rw [if_neg h, List.filter_eq_nil_iff]
        exact fun x hx => (howner a x hx).symm ▸ h
    rw [List.flatMap_cons, List.filter_append, hhead, hrest, List.filter_cons]
    by_cases h : keep a = true
    · rw [if_pos h, if_pos h, List.flatMap_cons]
    · rw [if_neg h, if_neg h, List.nil_append]

/-- Leaving out first what contributes nothing makes no difference to the contributions. -/
theorem filterMap_filter_of_marked {item? : β → Option α} {marked : β → Bool}
    (hmarked : ∀ x, marked x = (item? x).isSome) (xs : List β) (test : β → Bool) :
    ((xs.filter marked).filter test).filterMap item? = (xs.filter test).filterMap item? := by
  have hsame : ∀ x, (if marked x = true then if test x = true then item? x else none else none) =
      if test x = true then item? x else none := by
    intro x
    cases he : item? x with
    | none => simp
    | some e => simp [hmarked, he]
  simp only [List.filterMap_filter, hsame]

end Grouping

namespace MemberPass

variable {α β : Type} (pass : MemberPass α β) {marked : α → Bool}
  (hmarked : ∀ x, marked x = (pass.item? x).isSome) {cs : List ClassDeclaration}
  {members : ClassDeclaration → List α}
  (howner : ∀ c, ∀ x ∈ members c, pass.owner x = c.canonicalName)

include hmarked howner

/-- From the members of all declarations, a pass takes for one of them just its own. -/
theorem taken_members (hnodup : (cs.map (·.canonicalName)).Nodup) {c : ClassDeclaration}
    (hc : c ∈ cs) :
    pass.taken ((cs.flatMap members).filter marked) c.canonicalName =
      (members c).filterMap pass.item? := by
  rw [taken, filterMap_filter_of_marked hmarked, filter_flatMap_members howner hnodup hc]

/-- From the members of all declarations, a pass sets aside those of unbound ones. -/
theorem dropped_members {binds : ClassId → Bool}
    (hbinds : ∀ c ∈ cs, binds c.canonicalName = c.contentView.isSome) :
    (((cs.flatMap members).filter marked).filter fun x => !binds (pass.owner x)).filterMap
        pass.drop? =
      (cs.filter (·.contentView.isNone)).flatMap fun c => (members c).filterMap pass.drop? := by
  have hdrop : ∀ x, marked x = (pass.drop? x).isSome := by
    intro x
    rw [hmarked, drop?, Option.isSome_map]
  have hkeep := filter_flatMap_of_key howner cs (fun id => !binds id)
    (fun c => c.contentView.isNone) fun c hc => by simp [hbinds c hc]
  rw [filterMap_filter_of_marked hdrop, hkeep, List.filterMap_flatMap]

end MemberPass

/-- The bindings that declarations ask for take the markers of those with a content view. -/
theorem flatMap_markers_filterMap_binding? (cs : List ClassDeclaration) :
    (cs.filterMap (·.binding?)).flatMap (fun b => Marker.ofMembers.flatMap b.markers) =
      (cs.filter (·.contentView.isSome)).flatMap fun c => Marker.ofMembers.flatMap c.markers := by
  induction cs with
  | nil => rfl
  | cons c cs ih =>
    cases hv : c.contentView with
    | none =>
      have hb : c.binding? = none := by rw [ClassDeclaration.binding?, hv, Option.map_none]
      rw [List.filterMap_cons_none hb, List.filter_cons_of_neg (by simp [hv]), ih]
    | some layoutId =>
      obtain ⟨b, hb⟩ : ∃ b, c.binding? = some b := by simp [ClassDeclaration.binding?, hv]
      have hsame : b.markers = c.markers := funext fun kind => c.markers_of_binding? hb kind
      rw [List.filterMap_cons_some hb, List.filter_cons_of_pos (by simp [hv]), List.flatMap_cons,
        List.flatMap_cons, ih, hsame]

/-- Markers listed kind by kind and class by class are the same up to their order. -/
theorem perm_flatMap_ofMembers (cs : List ClassDeclaration) :
    (Marker.ofMembers.flatMap fun kind => cs.flatMap (·.markers kind)).Perm
      (cs.flatMap fun c => Marker.ofMembers.flatMap c.markers) := by
  simp only [Marker.ofMembers, List.flatMap_cons, List.flatMap_nil, List.append_nil]
  have hlast := List.flatMap_append_perm cs (·.markers .onClick) (·.markers .onLongClick)
  exact (hlast.append_left _).trans (List.flatMap_append_perm cs _ _)

namespace Program

variable {cs : List ClassDeclaration} (hnodup : (cs.map (·.canonicalName)).Nodup)

include hnodup

/-- What the classes of a program start: a binding for each declaration with a content view. -/
theorem bound_ofDeclarations :
    (ofDeclarations cs).round.bound =
      { bindings := cs.filterMap fun c => Collection.start? c.element } := by
  have hsub : (((cs.map (·.element)).filter (·.contentView.isSome)).map (·.id)).Nodup := by
    rw [← ids_ofDeclarations] at hnodup
    exact hnodup.sublist (List.filter_sublist.map _)
  have hmarked : ∀ e : ClassElement, e.contentView.isSome = (Collection.start? e).isSome :=
    fun e => (Option.isSome_map).symm
  have hstart := filterMap_filter_of_marked hmarked (cs.map (·.element)) (fun _ => true)
  rw [Round.bound]
  simp only [round, classes_ofDeclarations]
  rw [Collection.foldl_addClass hsub {} fun _ _ => rfl]
  simpa [List.filterMap_map, Function.comp_def] using hstart

/-- A declaration is bound exactly if it has a content view. -/
theorem binds_bound_ofDeclarations {c : ClassDeclaration} (hc : c ∈ cs) :
    (ofDeclarations cs).round.bound.binds c.canonicalName = c.contentView.isSome := by
  rw [bound_ofDeclarations hnodup]
  rw [Bool.eq_iff_iff, Collection.binds, List.any_eq_true]
  simp only [List.mem_filterMap]
  constructor
  · rintro ⟨b, ⟨d, hd, hs⟩, hid⟩
    obtain ⟨layoutId, hv, rfl⟩ := Option.map_eq_some_iff.mp hs
    have he : d = c := List.inj_on_of_nodup_map hnodup hd hc (beq_iff_eq.mp hid)
    rw [← he, show d.contentView = some layoutId from hv]
    rfl
  · intro h
    obtain ⟨layoutId, hv⟩ := Option.isSome_iff_exists.mp h
    refine ⟨{ owner := c.element, layoutId }, ⟨c, hc, ?_⟩, by simp [ClassDeclaration.element]⟩
    exact Option.map_eq_some_iff.mpr ⟨layoutId, hv, rfl⟩

/-- The binding that a declaration starts is completed to the binding that it asks for. -/
theorem complete_start? {c : ClassDeclaration} (hc : c ∈ cs) :
    (Collection.start? c.element).map (ofDeclarations cs).round.complete = c.binding? := by
  have hfields : Collection.viewIdPass.taken (ofDeclarations cs).round.viewIdFields
      c.canonicalName = c.viewFields :=
    (Collection.viewIdPass.taken_members (fun f => (Option.isSome_map).symm)
      (fun d f hf => d.owner_of_mem_fieldElements hf) hnodup hc).trans c.filterMap_item?_viewIds
  have hclicks : Collection.clickPass.taken (ofDeclarations cs).round.clickMethods
      c.canonicalName = c.clicks :=
    (Collection.clickPass.taken_members (fun m => (Option.isSome_map).symm)
      (fun d m hm => d.owner_of_mem_methodElements hm) hnodup hc).trans c.filterMap_item?_clicks
  have hlongClicks : Collection.longClickPass.taken (ofDeclarations cs).round.longClickMethods
      c.canonicalName = c.longClicks :=
    (Collection.longClickPass.taken_members (fun m => (Option.isSome_map).symm)
      (fun d m hm => d.owner_of_mem_methodElements hm) hnodup hc).trans
      c.filterMap_item?_longClicks
  simp only [Collection.start?, Option.map_map, ClassDeclaration.binding?]
  refine congrArg (fun f => Option.map f c.contentView) (funext fun layoutId => ?_)
  change Binding.mk _ _ _ _ _ = _
  simp only [List.nil_append]
  rw [show c.element.id = c.canonicalName from rfl, hfields, hclicks, hlongClicks]

/-- The bindings of a program are those that its declarations ask for. -/
theorem bindings_collect_ofDeclarations :
    (ofDeclarations cs).round.collect.bindings = cs.filterMap (·.binding?) := by
  rw [Round.bindings_collect, bound_ofDeclarations hnodup, List.map_filterMap]
  exact List.filterMap_congr fun c hc => complete_start? hnodup hc

/-- The markers set aside are those of declarations without a content view, kind by kind. -/
theorem dropped_collect_ofDeclarations :
    (ofDeclarations cs).round.collect.dropped =
      Marker.ofMembers.flatMap fun kind =>
        (cs.filter (·.contentView.isNone)).flatMap (·.markers kind) := by
  have hbinds : ∀ c ∈ cs, (ofDeclarations cs).round.bound.binds c.canonicalName =
      c.contentView.isSome := fun c hc => binds_bound_ofDeclarations hnodup hc
  have hfields := Collection.viewIdPass.dropped_members (fun f => (Option.isSome_map).symm)
    (fun d f hf => d.owner_of_mem_fieldElements hf) hbinds
  have hclicks := Collection.clickPass.dropped_members (fun m => (Option.isSome_map).symm)
    (fun d m hm => d.owner_of_mem_methodElements hm) hbinds
  have hlongClicks := Collection.longClickPass.dropped_members
    (fun m => (Option.isSome_map).symm) (fun d m hm => d.owner_of_mem_methodElements hm) hbinds
  simp only [ClassDeclaration.filterMap_drop?_viewIds, ClassDeclaration.filterMap_drop?_clicks,
    ClassDeclaration.filterMap_drop?_longClicks] at hfields hclicks hlongClicks
  simp only [Marker.ofMembers, List.flatMap_cons, List.flatMap_nil, List.append_nil]
  rw [← hfields, ← hclicks, ← hlongClicks, Round.dropped_collect,
    congrArg Collection.dropped (bound_ofDeclarations hnodup), List.append_assoc]
  rfl

/-- No two bindings of a program have the same owner. -/
theorem nodup_owners_ofDeclarations :
    ((ofDeclarations cs).round.collect.bindings.map (·.owner.id)).Nodup := by
  have howner : ∀ c ∈ cs, (c.binding?.map (·.owner.id)) =
      if c.contentView.isSome then some c.canonicalName else none := by
    intro c _
    cases h : c.contentView <;> simp [ClassDeclaration.binding?, ClassDeclaration.element, h]
  rw [bindings_collect_ofDeclarations hnodup, List.map_filterMap, List.filterMap_congr howner]
  rw [← List.filterMap_filter, List.filterMap_eq_map']
  exact hnodup.sublist (List.filter_sublist.map _)

/-- Every marker on a member is taken by a binding or set aside, and none is both or twice. -/
theorem perm_markers_ofDeclarations :
    (cs.flatMap fun c => Marker.ofMembers.flatMap c.markers).Perm
      (((ofDeclarations cs).round.collect.bindings.flatMap fun b =>
        Marker.ofMembers.flatMap b.markers) ++ (ofDeclarations cs).round.collect.dropped) := by
  have hparts := List.filter_append_perm (fun c : ClassDeclaration => c.contentView.isSome) cs
  rw [bindings_collect_ofDeclarations hnodup, flatMap_markers_filterMap_binding?,
    dropped_collect_ofDeclarations hnodup]
  refine (hparts.flatMap_right _).symm.trans ?_
  rw [List.flatMap_append]
  simp only [Option.not_isSome]
  exact (perm_flatMap_ofMembers _).symm.append_left _

end Program

/-- Collecting a round undoes flattening its files. There is one binding for each declaration with
a content view, in order, and it holds that declaration's own marked members; the markers of the
other declarations are set aside, kind by kind. Every marker ends in one place. -/
theorem collect_ofFiles {files : List LoadedFile} {p : Program}
    (h : Program.ofFiles files = .ok p) :
    p.round.collect.bindings = (declarations files).filterMap (·.binding?) ∧
    (p.round.collect.bindings.map (·.owner.id)).Nodup ∧
    p.round.collect.dropped =
      (Marker.ofMembers.flatMap fun kind =>
        ((declarations files).filter (·.contentView.isNone)).flatMap (·.markers kind)) ∧
    ((declarations files).flatMap fun c => Marker.ofMembers.flatMap c.markers).Perm
      ((p.round.collect.bindings.flatMap fun b => Marker.ofMembers.flatMap b.markers) ++
        p.round.collect.dropped) := by
  obtain ⟨hnodup, rfl⟩ := Program.ofFiles_eq_ok_iff.mp h
  exact ⟨Program.bindings_collect_ofDeclarations hnodup,
    Program.nodup_owners_ofDeclarations hnodup,
    Program.dropped_collect_ofDeclarations hnodup,
    Program.perm_markers_ofDeclarations hnodup⟩

/-- Two files: a bound screen nested in a class of the other file, which is not bound. -/
def nestedFiles : List LoadedFile := [
  ⟨"inner", ⟨[
    { name := "Screen", enclosingClass := some "app.Shell", contentView := some 7
      fields := [⟨"title", "TextView", some 8⟩, ⟨"count", "int", none⟩]
      methods := [⟨"onSave", some [9, 10], none⟩, ⟨"onHold", some [], some [9]⟩] }]⟩⟩,
  ⟨"outer", ⟨[
    { name := "Shell", package := some "app"
      fields := [⟨"title", "TextView", some 11⟩]
      methods := [⟨"onTap", none, some [12]⟩] }]⟩⟩]

/-- The nested screen keeps its own members, and the markers of its outer class are set aside. -/
theorem collect_nestedFiles :
    ∃ p, Program.ofFiles nestedFiles = .ok p ∧
      p.round.collect.bindings.map (fun b => (b.owner.id, b.layoutId)) =
        [("app.Shell.Screen", 7)] ∧
      p.round.collect.dropped =
        [⟨.viewId, "title", "app.Shell"⟩, ⟨.onLongClick, "onTap", "app.Shell"⟩] := by
  have hp : Program.ofFiles nestedFiles =
      .ok (Program.ofDeclarations (declarations nestedFiles)) :=
    Program.ofFiles_eq_ok_iff.mpr ⟨by decide, rfl⟩
  obtain ⟨hbindings, -, hdropped, -⟩ := collect_ofFiles hp
  refine ⟨_, hp, ?_, ?_⟩
  · rw [hbindings]
    decide
  · rw [hdropped]
    decide

end ViewBinding
