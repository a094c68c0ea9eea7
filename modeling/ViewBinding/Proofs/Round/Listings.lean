import Mathlib.Data.List.Induction
import ViewBinding.Proofs.Round.Regrouping

/-!
# Listings of any round

A host may list elements without a marker, a class id several times, and the same element more than
once. The first listing of an id that carries a content view starts its binding, later ones change
nothing, and every marked listing of a member then goes to the binding of its class, or is set
aside if there is none.
-/

namespace ViewBinding

namespace Round

variable (round : Round)

/-- The listings of classes that carry a content view. -/
def markedClasses : List ClassElement :=
  round.contentViewClasses.filter (·.contentView.isSome)

/-- The round with more classes listed after its own. -/
def listingMore (more : List ClassElement) : Round :=
  { round with contentViewClasses := round.contentViewClasses ++ more }

/-- The marked listings of fields that lie in a class. -/
def viewFieldsOf (id : ClassId) : List ViewField :=
  (round.viewIdFields.filter (·.owner == id)).filterMap fun f => f.viewId.map (⟨f, ·⟩)

/-- The listings of methods that lie in a class and carry ids of one kind. -/
def listenersOf (methods : List MethodElement) (ids? : MethodElement → Option (List ResourceId))
    (id : ClassId) : List Listener :=
  (methods.filter (·.owner == id)).filterMap fun m => (ids? m).map (⟨m, ·⟩)

/-- The markers of one kind that members are listed with. -/
def listedMarkers : Marker → List DroppedMarker
  | .contentView => []
  | .viewId => round.viewIdFields.filterMap fun f =>
    f.viewId.map fun _ => ⟨.viewId, f.name, f.owner⟩
  | .onClick => round.clickMethods.filterMap fun m =>
    m.onClick.map fun _ => ⟨.onClick, m.name, m.owner⟩
  | .onLongClick => round.longClickMethods.filterMap fun m =>
    m.onLongClick.map fun _ => ⟨.onLongClick, m.name, m.owner⟩

end Round

namespace Collection

/-- What a collection holds when only classes have been listed: for each id of a marked listing, in
order, the binding that its first marked listing starts. -/
structure StartedBy (marked : List ClassElement) (c : Collection) : Prop where
  ids : c.bindings.map (·.owner.id) = (marked.map (·.id)).eraseDups
  nodup : (c.bindings.map (·.owner.id)).Nodup
  first : ∀ b ∈ c.bindings, marked.find? (·.id == b.owner.id) = some b.owner
  start : ∀ b ∈ c.bindings, start? b.owner = some b
  dropped : c.dropped = []

/-- At the beginning nothing has been listed. -/
theorem startedBy_nil : StartedBy [] {} where
  ids := rfl
  nodup := List.nodup_nil
  first := nofun
  start := nofun
  dropped := rfl

namespace StartedBy

variable {marked : List ClassElement} {c : Collection} (h : StartedBy marked c) {e : ClassElement}

include h

/-- A class has a binding exactly if its id is that of a marked listing. -/
theorem binds_iff_mem {id : ClassId} : c.binds id = true ↔ id ∈ marked.map (·.id) := by
  rw [binds_iff, h.ids, List.mem_eraseDups]

/-- A later marked listing leaves the first listings first. -/
theorem first_concat {b : Binding} (hb : b ∈ c.bindings) :
    (marked ++ [e]).find? (·.id == b.owner.id) = some b.owner := by
  rw [List.find?_append, h.first b hb, Option.some_or]

/-- A marked listing of an id that has a binding changes nothing. -/
theorem addClass_of_binds {layoutId : ResourceId} (hv : e.contentView = some layoutId)
    (hbinds : c.binds e.id = true) : StartedBy (marked ++ [e]) (c.addClass e) := by
  have hadd : c.addClass e = c := by simp [addClass, hv, hbinds]
  have hold : [e.id].removeAll (marked.map (·.id)) = [] := by
    simpa [List.removeAll] using h.binds_iff_mem.mp hbinds
  rw [hadd]
  refine ⟨?_, h.nodup, fun b hb => h.first_concat hb, h.start, h.dropped⟩
  rw [List.map_append, List.map_singleton, List.eraseDups_append, hold, h.ids]
  exact (List.append_nil _).symm

/-- A marked listing of an id without a binding starts one. -/
theorem addClass_of_not_binds {layoutId : ResourceId} (hv : e.contentView = some layoutId)
    (hbinds : c.binds e.id = false) : StartedBy (marked ++ [e]) (c.addClass e) := by
  have hadd : c.addClass e =
      { c with bindings := c.bindings ++ [{ owner := e, layoutId }] } := by
    simp [addClass, hv, hbinds]
  have hfresh : e.id ∉ c.bindings.map (·.owner.id) := by
    rw [← binds_iff, hbinds]
    exact Bool.false_ne_true
  have hnew : e.id ∉ marked.map (·.id) := by
    rwa [h.ids, List.mem_eraseDups] at hfresh
  have hremove : [e.id].removeAll (marked.map (·.id)) = [e.id] := by
    simpa [List.removeAll] using hnew
  have hnone : marked.find? (·.id == e.id) = none := by
    rw [List.find?_eq_none]
    intro x hx hid
    exact hnew (beq_iff_eq.mp hid ▸ List.mem_map_of_mem hx)
  rw [hadd]
  refine ⟨?_, ?_, ?_, ?_, h.dropped⟩
  · rw [List.map_append, List.map_append, List.map_singleton, List.map_singleton,
      List.eraseDups_append, hremove, h.ids]
    rfl
  · rw [List.map_append, List.map_singleton, ← List.concat_eq_append]
    exact h.nodup.concat hfresh
  · intro b hb
    rcases List.mem_append.mp hb with hold | hlast
    · exact h.first_concat hold
    · obtain rfl := List.mem_singleton.mp hlast
      rw [List.find?_append, hnone, Option.none_or]
      simp
  · intro b hb
    rcases List.mem_append.mp hb with hold | hlast
    · exact h.start b hold
    · obtain rfl := List.mem_singleton.mp hlast
      rw [start?, hv, Option.map_some]

end StartedBy

/-- Listing classes starts the bindings of their marked listings. -/
theorem startedBy_foldl (es : List ClassElement) :
    StartedBy (es.filter (·.contentView.isSome)) (es.foldl addClass {}) := by
  induction es using List.reverseRecOn with
  | nil => exact startedBy_nil
  | append_singleton es e ih =>
    rw [List.foldl_concat, List.filter_append]
    cases hv : e.contentView with
    | none =>
      have hadd : (es.foldl addClass {}).addClass e = es.foldl addClass {} := by
        simp [addClass, hv]
      rw [hadd, List.filter_cons_of_neg (by simp [hv]), List.filter_nil, List.append_nil]
      exact ih
    | some layoutId =>
      rw [List.filter_cons_of_pos (by simp [hv]), List.filter_nil]
      cases hbinds : (es.foldl addClass {}).binds e.id with
      | true => exact ih.addClass_of_binds hv hbinds
      | false => exact ih.addClass_of_not_binds hv hbinds

end Collection

namespace MemberPass

variable {α β : Type} (pass : MemberPass α β)

/-- Choosing members by their class is choosing their markers by it. -/
theorem filterMap_drop?_filter (test : ClassId → Bool) (xs : List α) :
    (xs.filter fun x => test (pass.owner x)).filterMap pass.drop? =
      (xs.filterMap pass.drop?).filter fun m => test m.owner := by
  induction xs with
  | nil => rfl
  | cons x xs ih =>
    cases hitem : pass.item? x with
    | none =>
      have hdrop : pass.drop? x = none := by rw [drop?, hitem, Option.map_none]
      rw [List.filterMap_cons_none hdrop, ← ih]
      cases htest : test (pass.owner x) <;> simp [htest, hdrop]
    | some item =>
      have hdrop : pass.drop? x = some ⟨pass.marker, pass.element x, pass.owner x⟩ := by
        rw [drop?, hitem, Option.map_some]
      rw [List.filterMap_cons_some hdrop]
      cases htest : test (pass.owner x) <;> simp [htest, hdrop, ih]

/-- What a class takes from a pass carries the markers of its listed members. -/
theorem map_taken {mark : β → DroppedMarker}
    (hmark : ∀ x e, pass.item? x = some e → mark e = ⟨pass.marker, pass.element x, pass.owner x⟩)
    (xs : List α) (id : ClassId) :
    (pass.taken xs id).map mark = (xs.filterMap pass.drop?).filter fun m => m.owner == id := by
  have hsame : (fun x => (pass.item? x).map mark) = pass.drop? := by
    funext x
    rw [drop?]
    cases hitem : pass.item? x with
    | none => rfl
    | some e => rw [Option.map_some, Option.map_some, hmark x e hitem]
  rw [taken, List.map_filterMap, hsame, pass.filterMap_drop?_filter (· == id)]

end MemberPass

namespace Round

variable (round : Round)

/-- The classes of a round start the bindings of their marked listings. -/
theorem startedBy_bound : Collection.StartedBy round.markedClasses round.bound :=
  Collection.startedBy_foldl round.contentViewClasses

/-- Collecting members keeps the ids of the owners. -/
theorem ids_collect :
    round.collect.bindings.map (·.owner.id) = round.bound.bindings.map (·.owner.id) := by
  rw [bindings_collect, List.map_map]
  rfl

/-- Each id of a marked listing has a binding, in the order of the first such listings. -/
theorem ids_collect_eq_eraseDups :
    round.collect.bindings.map (·.owner.id) = (round.markedClasses.map (·.id)).eraseDups :=
  round.ids_collect.trans round.startedBy_bound.ids

/-- The bindings of further classes come after those of the classes before. -/
theorem ids_collect_listingMore (more : List ClassElement) :
    round.collect.bindings.map (·.owner.id) <+:
      (round.listingMore more).collect.bindings.map (·.owner.id) := by
  rw [ids_collect_eq_eraseDups, ids_collect_eq_eraseDups, markedClasses, markedClasses, listingMore,
    List.filter_append, List.map_append, List.eraseDups_append]
  exact List.prefix_append ..

/-- A position is found under an id exactly if the binding with this id stands there. -/
theorem get?_index_collector_iff (id : ClassId) (position : Nat) :
    round.collector.index.get? id = some position ↔
      ∃ b, round.collect.bindings[position]? = some b ∧ b.owner.id = id := by
  rw [round.indexed_collector.1.get?_index_eq_some_iff, List.getElem?_map, Option.map_eq_some_iff]
  rfl

/-- A position that is found stays the same when more classes are listed. -/
theorem get?_index_listingMore (more : List ClassElement) {id : ClassId} {position : Nat}
    (h : round.collector.index.get? id = some position) :
    (round.listingMore more).collector.index.get? id = some position := by
  rw [Collector.Indexed.get?_index_eq_some_iff (indexed_collector _).1] at h ⊢
  obtain ⟨rest, hrest⟩ := round.ids_collect_listingMore more
  change ((round.listingMore more).collect.bindings.map (·.owner.id))[position]? = some id
  rw [← hrest]
  exact (List.getElem?_append_left (List.getElem?_eq_some_iff.mp h).1).trans h

/-- The markers of a round are listed as the three passes read them. -/
theorem flatMap_listedMarkers : Marker.ofMembers.flatMap round.listedMarkers =
    round.viewIdFields.filterMap Collection.viewIdPass.drop? ++
      (round.clickMethods.filterMap Collection.clickPass.drop? ++
        round.longClickMethods.filterMap Collection.longClickPass.drop?) := by
  have hviewIds : Collection.viewIdPass.drop? =
      fun f => f.viewId.map fun _ => ⟨.viewId, f.name, f.owner⟩ :=
    funext fun f => Option.map_map _ _ f.viewId
  have hclicks : Collection.clickPass.drop? =
      fun m => m.onClick.map fun _ => ⟨.onClick, m.name, m.owner⟩ :=
    funext fun m => Option.map_map _ _ m.onClick
  have hlongClicks : Collection.longClickPass.drop? =
      fun m => m.onLongClick.map fun _ => ⟨.onLongClick, m.name, m.owner⟩ :=
    funext fun m => Option.map_map _ _ m.onLongClick
  simp [Marker.ofMembers, listedMarkers, hviewIds, hclicks, hlongClicks]

/-- The markers set aside are the listed ones whose class has no binding. -/
theorem dropped_collect_eq_filter : round.collect.dropped =
    (Marker.ofMembers.flatMap round.listedMarkers).filter
      fun m => m.owner ∉ round.collect.bindings.map (·.owner.id) := by
  have hbinds : ∀ m : DroppedMarker, (!round.bound.binds m.owner) =
      decide (m.owner ∉ round.collect.bindings.map (·.owner.id)) := by
    intro m
    rw [ids_collect, Bool.eq_iff_iff, Bool.not_eq_true', ← Bool.not_eq_true, Collection.binds_iff,
      decide_eq_true_iff]
  have hfields := Collection.viewIdPass.filterMap_drop?_filter (!round.bound.binds ·)
    round.viewIdFields
  have hclicks := Collection.clickPass.filterMap_drop?_filter (!round.bound.binds ·)
    round.clickMethods
  have hlongClicks := Collection.longClickPass.filterMap_drop?_filter (!round.bound.binds ·)
    round.longClickMethods
  refine Eq.trans ?_ (List.filter_congr fun m _ => hbinds m)
  rw [dropped_collect, round.startedBy_bound.dropped, List.nil_append, flatMap_listedMarkers,
    List.filter_append, List.filter_append, ← hfields, ← hclicks, ← hlongClicks, List.append_assoc]
  rfl

section Bindings

variable {round} {b : Binding} (hb : b ∈ round.collect.bindings)

include hb

/-- A binding is that of the first marked listing of its owner's id, with the marked listings of
members that lie in the owner. -/
theorem eq_of_mem_bindings :
    round.markedClasses.find? (·.id == b.owner.id) = some b.owner ∧
      b.owner.contentView = some b.layoutId ∧
      b.viewFields = round.viewFieldsOf b.owner.id ∧
      b.clicks = listenersOf round.clickMethods (·.onClick) b.owner.id ∧
      b.longClicks = listenersOf round.longClickMethods (·.onLongClick) b.owner.id := by
  rw [bindings_collect] at hb
  obtain ⟨started, hstarted, rfl⟩ := List.mem_map.mp hb
  have hfirst := round.startedBy_bound.first started hstarted
  obtain ⟨layoutId, hv, hstart⟩ :=
    Option.map_eq_some_iff.mp (round.startedBy_bound.start started hstarted)
  rw [← hstart] at hfirst ⊢
  exact ⟨hfirst, hv, rfl, rfl, rfl⟩

/-- The markers in a binding are the listed ones of its owner. -/
theorem flatMap_markers_of_mem_bindings : Marker.ofMembers.flatMap b.markers =
    (Marker.ofMembers.flatMap round.listedMarkers).filter fun m => m.owner == b.owner.id := by
  obtain ⟨-, -, hfields, hclicks, hlongClicks⟩ := eq_of_mem_bindings hb
  have hviewIds : b.markers .viewId = _ := (congrArg (List.map _) hfields).trans
    (Collection.viewIdPass.map_taken (fun f e he => by
      obtain ⟨id, -, rfl⟩ := Option.map_eq_some_iff.mp he
      rfl) round.viewIdFields b.owner.id)
  have honClicks : b.markers .onClick = _ := (congrArg (List.map _) hclicks).trans
    (Collection.clickPass.map_taken (fun m e he => by
      obtain ⟨ids, -, rfl⟩ := Option.map_eq_some_iff.mp he
      rfl) round.clickMethods b.owner.id)
  have honLongClicks : b.markers .onLongClick = _ := (congrArg (List.map _) hlongClicks).trans
    (Collection.longClickPass.map_taken (fun m e he => by
      obtain ⟨ids, -, rfl⟩ := Option.map_eq_some_iff.mp he
      rfl) round.longClickMethods b.owner.id)
  rw [flatMap_listedMarkers, List.filter_append, List.filter_append, ← hviewIds, ← honClicks,
    ← honLongClicks]
  simp [Marker.ofMembers]

/-- Every member of a binding lies in its owner. -/
theorem owner_of_mem_bindings : (∀ f ∈ b.viewFields, f.field.owner = b.owner.id) ∧
    ∀ l ∈ b.clicks ++ b.longClicks, l.method.owner = b.owner.id := by
  obtain ⟨-, -, hfields, hclicks, hlongClicks⟩ := eq_of_mem_bindings hb
  have hlisteners : ∀ methods ids?, ∀ l ∈ listenersOf methods ids? b.owner.id,
      l.method.owner = b.owner.id := by
    intro methods ids? l hl
    obtain ⟨m, hm, hsome⟩ := List.mem_filterMap.mp hl
    obtain ⟨ids, -, rfl⟩ := Option.map_eq_some_iff.mp hsome
    exact beq_iff_eq.mp (List.mem_filter.mp hm).2
  constructor
  · rw [hfields]
    intro f hf
    obtain ⟨e, he, hsome⟩ := List.mem_filterMap.mp hf
    obtain ⟨id, -, rfl⟩ := Option.map_eq_some_iff.mp hsome
    exact beq_iff_eq.mp (List.mem_filter.mp he).2
  · rw [hclicks, hlongClicks]
    intro l hl
    rcases List.mem_append.mp hl with hin | hin
    · exact hlisteners _ _ l hin
    · exact hlisteners _ _ l hin

end Bindings

end Round

/-- Items fall into groups by distinct keys, and those of no such key. -/
theorem perm_flatMap_filter_append {α κ : Type} [DecidableEq κ] (key : α → κ) {keys : List κ}
    (hnodup : keys.Nodup) (xs : List α) :
    xs.Perm ((keys.flatMap fun k => xs.filter fun x => key x == k) ++
      xs.filter fun x => key x ∉ keys) := by
  induction keys with
  | nil => simp
  | cons k keys ih =>
    rw [List.nodup_cons] at hnodup
    have hmine : (xs.filter fun x => key x ∉ keys).filter (fun x => key x == k) =
        xs.filter fun x => key x == k := by
      rw [List.filter_filter]
      refine List.filter_congr fun x _ => ?_
      by_cases hx : key x = k <;> simp [hx, hnodup.1]
    have hrest : (xs.filter fun x => key x ∉ keys).filter (fun x => !(key x == k)) =
        xs.filter fun x => key x ∉ k :: keys := by
      rw [List.filter_filter]
      refine List.filter_congr fun x _ => ?_
      by_cases hx : key x = k <;> simp [hx]
    have hsplit := List.filter_append_perm (fun x => key x == k) (xs.filter fun x => key x ∉ keys)
    rw [hmine, hrest] at hsplit
    refine (ih hnodup.2).trans ((hsplit.symm.append_left _).trans ?_)
    rw [List.flatMap_cons, ← List.append_assoc]
    exact List.perm_append_comm.append_right _

/-- Whatever a host lists, each id of a class that is listed with a content view has one binding, in
the order of the first such listings and with the owner and layout of that listing. It holds, of
each kind, the marked listings of members that lie in its owner, in their order and as often as they
are listed. The markers of all other members are set aside, kind by kind in their order, so every
marked listing of a member ends in one place. The index of the collector lists the ids of the owners
with their positions. What is found under an id is the position of the one binding with this id, and
further listings of classes do not move it. -/
theorem collect_of_round (round : Round) :
    round.collect.bindings.map (·.owner.id) = (round.markedClasses.map (·.id)).eraseDups ∧
    (round.collect.bindings.map (·.owner.id)).Nodup ∧
    (∀ b ∈ round.collect.bindings,
      round.markedClasses.find? (·.id == b.owner.id) = some b.owner ∧
      b.owner.contentView = some b.layoutId ∧
      b.viewFields = round.viewFieldsOf b.owner.id ∧
      b.clicks = Round.listenersOf round.clickMethods (·.onClick) b.owner.id ∧
      b.longClicks = Round.listenersOf round.longClickMethods (·.onLongClick) b.owner.id) ∧
    (∀ b ∈ round.collect.bindings, (∀ f ∈ b.viewFields, f.field.owner = b.owner.id) ∧
      ∀ l ∈ b.clicks ++ b.longClicks, l.method.owner = b.owner.id) ∧
    (round.collect.dropped = (Marker.ofMembers.flatMap round.listedMarkers).filter
      fun m => m.owner ∉ round.collect.bindings.map (·.owner.id)) ∧
    (Marker.ofMembers.flatMap round.listedMarkers).Perm
      ((round.collect.bindings.flatMap fun b => Marker.ofMembers.flatMap b.markers) ++
        round.collect.dropped) ∧
    round.collector.index = (round.collect.bindings.map (·.owner.id)).zipIdx ∧
    (∀ id position, round.collector.index.get? id = some position ↔
      ∃ b, round.collect.bindings[position]? = some b ∧ b.owner.id = id) ∧
    ∀ more id position, round.collector.index.get? id = some position →
      (round.listingMore more).collector.index.get? id = some position := by
  have hindexed := round.indexed_collector.1
  have hnodup : (round.collect.bindings.map (·.owner.id)).Nodup := hindexed.nodup
  have hmarkers : (round.collect.bindings.flatMap fun b => Marker.ofMembers.flatMap b.markers) =
      (round.collect.bindings.map (·.owner.id)).flatMap fun id =>
        (Marker.ofMembers.flatMap round.listedMarkers).filter fun m => m.owner == id := by
    rw [List.flatMap_map]
    exact List.flatMap_congr fun b hb => Round.flatMap_markers_of_mem_bindings hb
  refine ⟨round.ids_collect_eq_eraseDups, hnodup,
    fun b hb => Round.eq_of_mem_bindings hb, fun b hb => Round.owner_of_mem_bindings hb,
    round.dropped_collect_eq_filter, ?_, hindexed.index, round.get?_index_collector_iff,
    fun more _ _ => round.get?_index_listingMore more⟩
  rw [hmarkers, round.dropped_collect_eq_filter]
  exact perm_flatMap_filter_append DroppedMarker.owner hnodup _

end ViewBinding
