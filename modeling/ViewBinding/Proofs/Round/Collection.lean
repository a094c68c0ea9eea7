import ViewBinding.Proofs.Round.Indexing

/-!
# Collection by passes

A collection is made in four passes. The first starts the bindings; each of the other three looks
at one kind of member and either extends the binding of the member's class or sets the marker
aside. The index that finds the bindings is kept through all four. The three are one definition
with different data, and a whole pass is described by filters over the members it was offered: the
bindings keep their owners and their order, and each takes the marked members of its owner in the
order of the offer.
-/

namespace ViewBinding

/-- A pass over members: how a member is read, and how a binding takes what members offer. -/
structure MemberPass (α β : Type) where
  marker : Marker
  owner : α → ClassId
  element : α → String
  /-- What the member contributes to a binding, if it carries the marker. -/
  item? : α → Option β
  /-- Put contributions at the end of a binding. -/
  extend : List β → Binding → Binding
  extend_nil : ∀ b, extend [] b = b
  extend_extend : ∀ xs ys b, extend ys (extend xs b) = extend (xs ++ ys) b
  owner_extend : ∀ xs b, (extend xs b).owner = b.owner

namespace MemberPass

variable {α β : Type} (pass : MemberPass α β)

/-- The contributions that a class gets from members, in their order. -/
def taken (xs : List α) (id : ClassId) : List β :=
  (xs.filter fun x => pass.owner x == id).filterMap pass.item?

/-- The marker of a member, set aside. -/
def drop? (x : α) : Option DroppedMarker :=
  (pass.item? x).map fun _ => ⟨pass.marker, pass.element x, pass.owner x⟩

/-- Join one member to its class, by the index of a collector. -/
def join (c : Collector) (x : α) : Collector :=
  match pass.item? x with
  | none => c
  | some e => c.update (pass.owner x) pass.marker (pass.element x) (pass.extend [e])

/-- Join one member to its class. -/
def add (c : Collection) (x : α) : Collection :=
  match pass.item? x with
  | none => c
  | some e => c.update (pass.owner x) pass.marker (pass.element x) (pass.extend [e])

/-- The collection after a pass over these members. -/
def run (c : Collection) (xs : List α) : Collection where
  bindings := c.bindings.map fun b => pass.extend (pass.taken xs b.owner.id) b
  dropped := c.dropped ++ (xs.filter fun x => !c.binds (pass.owner x)).filterMap pass.drop?

/-- A pass starts no binding and ends none. -/
@[simp] theorem binds_run (c : Collection) (xs : List α) (id : ClassId) :
    (pass.run c xs).binds id = c.binds id := by
  simp only [run, Collection.binds, List.any_map, Function.comp_def, pass.owner_extend]

/-- What a pass sets aside comes after what was set aside before. -/
theorem dropped_run (c : Collection) (xs : List α) :
    (pass.run c xs).dropped =
      c.dropped ++ (xs.filter fun x => !c.binds (pass.owner x)).filterMap pass.drop? := rfl

/-- A pass over no members changes nothing. -/
theorem run_nil (c : Collection) : pass.run c [] = c := by
  simp [run, taken, pass.extend_nil]

/-- Without its marker a member contributes nothing. -/
theorem add_of_none {x : α} (h : pass.item? x = none) (c : Collection) :
    pass.add c x = pass.run c [x] := by
  have htaken : ∀ id, pass.taken [x] id = [] := by
    intro id
    rw [taken, List.filterMap_eq_nil_iff]
    intro y hy
    rw [List.mem_singleton.mp (List.mem_filter.mp hy).1, h]
  have hdrop : ([x].filter fun y => !c.binds (pass.owner y)).filterMap pass.drop? = [] := by
    rw [List.filterMap_eq_nil_iff]
    intro y hy
    rw [List.mem_singleton.mp (List.mem_filter.mp hy).1, drop?, h, Option.map_none]
  simp only [add, h, run, htaken, pass.extend_nil, List.map_id', hdrop, List.append_nil]

/-- A marked member extends the binding of its class, or its marker is set aside. -/
theorem add_of_some {x : α} {e : β} (h : pass.item? x = some e) (c : Collection) :
    pass.add c x = pass.run c [x] := by
  by_cases hb : c.binds (pass.owner x) = true
  · have hmap : ∀ b : Binding,
        (if b.owner.id = pass.owner x then pass.extend [e] b else b) =
          pass.extend (pass.taken [x] b.owner.id) b := by
      intro b
      by_cases ho : pass.owner x = b.owner.id
      · simp [taken, ho, h]
      · simp [taken, ho, Ne.symm ho, pass.extend_nil]
    simp [add, h, Collection.update, hb, run, hmap]
  · have hbinds : ∀ b ∈ c.bindings, pass.owner x ≠ b.owner.id := by
      intro b hm he
      exact hb (List.any_eq_true.mpr ⟨b, hm, by simp [he]⟩)
    have hkeep : c.bindings.map (fun b => pass.extend (pass.taken [x] b.owner.id) b) =
        c.bindings := by
      conv_rhs => rw [← List.map_id c.bindings]
      apply List.map_congr_left
      intro b hm
      simp [taken, hbinds b hm, pass.extend_nil]
    simp [add, h, Collection.update, hb, run, hkeep, drop?]

/-- Joining one member is the pass over that member alone. -/
theorem add_eq_run (c : Collection) (x : α) : pass.add c x = pass.run c [x] := by
  cases h : pass.item? x with
  | none => exact pass.add_of_none h c
  | some e => exact pass.add_of_some h c

/-- Two passes one after the other are one pass over all their members. -/
theorem run_run (c : Collection) (xs ys : List α) :
    pass.run (pass.run c xs) ys = pass.run c (xs ++ ys) := by
  have hbinds := pass.binds_run c xs
  simp only [run, taken, List.map_map, Function.comp_def, pass.owner_extend, pass.extend_extend,
    List.filter_append, List.filterMap_append, List.append_assoc] at hbinds ⊢
  simp only [hbinds]

/-- Joining members one by one makes the pass over all of them. -/
theorem foldl_add (c : Collection) (xs : List α) : xs.foldl pass.add c = pass.run c xs := by
  induction xs generalizing c with
  | nil => exact (pass.run_nil c).symm
  | cons x xs ih =>
    rw [List.foldl_cons, ih, add_eq_run, run_run]
    rfl

/-- Joining a member by the index keeps the index, and is what it is without one. -/
theorem join_eq_add {c : Collector} (h : c.Indexed) (x : α) :
    (pass.join c x).Indexed ∧ (pass.join c x).toCollection = pass.add c.toCollection x := by
  unfold join add
  cases pass.item? x with
  | none => exact ⟨h, rfl⟩
  | some e => exact h.update _ _ _ (pass.owner_extend [e])

/-- Joining members by the index keeps the index and makes the pass over all of them. -/
theorem foldl_join {c : Collector} (h : c.Indexed) (xs : List α) :
    (xs.foldl pass.join c).Indexed ∧
      (xs.foldl pass.join c).toCollection = pass.run c.toCollection xs := by
  rw [← foldl_add]
  exact h.foldl (fun _ x hc => pass.join_eq_add hc x) xs

end MemberPass

namespace Collection

/-- The pass over fields with view ids. -/
def viewIdPass : MemberPass FieldElement ViewField where
  marker := .viewId
  owner := (·.owner)
  element := (·.name)
  item? f := f.viewId.map fun id => ⟨f, id⟩
  extend fs b := { b with viewFields := b.viewFields ++ fs }
  extend_nil _ := by simp
  extend_extend _ _ _ := by simp
  owner_extend _ _ := rfl

/-- The pass over methods with click ids. -/
def clickPass : MemberPass MethodElement Listener where
  marker := .onClick
  owner := (·.owner)
  element := (·.name)
  item? m := m.onClick.map fun ids => ⟨m, ids⟩
  extend ls b := { b with clicks := b.clicks ++ ls }
  extend_nil _ := by simp
  extend_extend _ _ _ := by simp
  owner_extend _ _ := rfl

/-- The pass over methods with long-click ids. -/
def longClickPass : MemberPass MethodElement Listener where
  marker := .onLongClick
  owner := (·.owner)
  element := (·.name)
  item? m := m.onLongClick.map fun ids => ⟨m, ids⟩
  extend ls b := { b with longClicks := b.longClicks ++ ls }
  extend_nil _ := by simp
  extend_extend _ _ _ := by simp
  owner_extend _ _ := rfl

theorem addViewField_eq : Collector.addViewField = viewIdPass.join := by
  funext c f
  cases h : f.viewId <;> simp [Collector.addViewField, MemberPass.join, viewIdPass, h]

theorem addClick_eq : Collector.addClick = clickPass.join := by
  funext c m
  cases h : m.onClick <;> simp [Collector.addClick, MemberPass.join, clickPass, h]

theorem addLongClick_eq : Collector.addLongClick = longClickPass.join := by
  funext c m
  cases h : m.onLongClick <;> simp [Collector.addLongClick, MemberPass.join, longClickPass, h]

/-- The binding that a class starts, if it is marked. -/
def start? (e : ClassElement) : Option Binding :=
  e.contentView.map fun layoutId => { owner := e, layoutId }

/-- Classes with distinct ids that are not bound yet each start their binding, in order. -/
theorem foldl_addClass {es : List ClassElement} (hnodup : (es.map (·.id)).Nodup)
    (c : Collection) (hfree : ∀ e ∈ es, c.binds e.id = false) :
    es.foldl addClass c = { c with bindings := c.bindings ++ es.filterMap start? } := by
  induction es generalizing c with
  | nil => simp
  | cons e es ih =>
    rw [List.map_cons, List.nodup_cons] at hnodup
    have he := hfree e (List.mem_cons_self ..)
    have hrest : ∀ x ∈ es, c.binds x.id = false :=
      fun x hx => hfree x (List.mem_cons_of_mem _ hx)
    cases hv : e.contentView with
    | none =>
      have hadd : c.addClass e = c := by simp [addClass, hv]
      rw [List.foldl_cons, hadd, ih hnodup.2 c hrest, List.filterMap_cons]
      simp [start?, hv]
    | some layoutId =>
      have hadd : c.addClass e =
          { c with bindings := c.bindings ++ [{ owner := e, layoutId }] } := by
        simp [addClass, hv, he]
      have hfree' : ∀ x ∈ es, (c.addClass e).binds x.id = false := by
        intro x hx
        have hne : e.id ≠ x.id := fun h => hnodup.1 (h ▸ List.mem_map_of_mem hx)
        have hold := hrest x hx
        simp only [binds] at hold
        simp [hadd, binds, hold, hne]
      rw [List.foldl_cons, ih hnodup.2 _ hfree', hadd, List.filterMap_cons]
      simp [start?, hv]

end Collection

/-- The bindings that the classes of a round start. -/
def Round.bound (round : Round) : Collection :=
  round.contentViewClasses.foldl Collection.addClass {}

/-- A round is collected with an index, by the three passes over what its classes start. A collector
on the way is that of a round with fewer members, so it is indexed at all times. -/
theorem Round.indexed_collector (round : Round) :
    round.collector.Indexed ∧ round.collector.toCollection =
      Collection.longClickPass.run
        (Collection.clickPass.run
          (Collection.viewIdPass.run round.bound round.viewIdFields)
          round.clickMethods)
        round.longClickMethods := by
  obtain ⟨hbound, hstarted⟩ := Collector.indexed_empty.foldl
    (fun _ e hc => hc.addClass e) round.contentViewClasses
  obtain ⟨hviewed, hfields⟩ := Collection.viewIdPass.foldl_join hbound round.viewIdFields
  obtain ⟨hclicked, hclicks⟩ := Collection.clickPass.foldl_join hviewed round.clickMethods
  obtain ⟨hdone, hlongClicks⟩ := Collection.longClickPass.foldl_join hclicked round.longClickMethods
  rw [hclicks, hfields, hstarted] at hlongClicks
  unfold collector
  rw [Collection.addViewField_eq, Collection.addClick_eq, Collection.addLongClick_eq]
  exact ⟨hdone, hlongClicks⟩

/-- A round is collected by the three passes over what its classes start. -/
theorem Round.collect_eq_run (round : Round) :
    round.collect =
      Collection.longClickPass.run
        (Collection.clickPass.run
          (Collection.viewIdPass.run round.bound round.viewIdFields)
          round.clickMethods)
        round.longClickMethods :=
  round.indexed_collector.2

/-- The binding of an owner takes what the three passes offer it. -/
def Round.complete (round : Round) (b : Binding) : Binding :=
  { b with
    viewFields := b.viewFields ++ Collection.viewIdPass.taken round.viewIdFields b.owner.id
    clicks := b.clicks ++ Collection.clickPass.taken round.clickMethods b.owner.id
    longClicks := b.longClicks ++
      Collection.longClickPass.taken round.longClickMethods b.owner.id }

/-- The bindings of a round are those its classes start, each completed from the members. -/
theorem Round.bindings_collect (round : Round) :
    round.collect.bindings = round.bound.bindings.map round.complete := by
  rw [collect_eq_run]
  simp only [MemberPass.run, List.map_map]
  rfl

/-- The markers set aside are those of members without a bound class, pass after pass. -/
theorem Round.dropped_collect (round : Round) :
    round.collect.dropped = round.bound.dropped ++
      ((round.viewIdFields.filter fun f => !round.bound.binds f.owner).filterMap
          Collection.viewIdPass.drop? ++
        (round.clickMethods.filter fun m => !round.bound.binds m.owner).filterMap
          Collection.clickPass.drop? ++
        (round.longClickMethods.filter fun m => !round.bound.binds m.owner).filterMap
          Collection.longClickPass.drop?) := by
  simp only [collect_eq_run, MemberPass.dropped_run, MemberPass.binds_run, List.append_assoc]
  rfl

end ViewBinding
