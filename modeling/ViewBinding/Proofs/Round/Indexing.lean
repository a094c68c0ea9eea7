import Mathlib.Data.List.Nodup
import ViewBinding.Round.Binding

/-!
# The index of a collector

A collector finds a binding by the position that it keeps under the id of the owner. Positions never
change: bindings are only added at the end, and what joins a binding leaves it its owner. So the
index lists the owners' ids with their positions, each id once, and every position that is looked up
is that of the one binding with the id. With such an index a collector does what a search through
the bindings would do.
-/

namespace ViewBinding

namespace Collection

/-- Is there a binding for this class? -/
def binds (c : Collection) (id : ClassId) : Bool := c.bindings.any (·.owner.id == id)

/-- Start a binding for a marked class that has none yet. -/
def addClass (c : Collection) (e : ClassElement) : Collection :=
  match e.contentView with
  | none => c
  | some layoutId =>
    if c.binds e.id then c
    else { c with bindings := c.bindings ++ [{ owner := e, layoutId }] }

/-- Change the binding of a class, or set the marker aside if there is none. -/
def update (c : Collection) (owner : ClassId) (marker : Marker) (element : String)
    (change : Binding → Binding) : Collection :=
  if c.binds owner then
    { c with bindings := c.bindings.map fun b => if b.owner.id = owner then change b else b }
  else { c with dropped := c.dropped ++ [⟨marker, element, owner⟩] }

/-- A class has a binding exactly if its id is that of an owner. -/
theorem binds_iff {c : Collection} {id : ClassId} :
    c.binds id = true ↔ id ∈ c.bindings.map (·.owner.id) := by
  simp [binds]

end Collection

namespace Collector

/-- The index lists the ids of the owners with their positions, and no id twice. -/
structure Indexed (c : Collector) : Prop where
  nodup : (c.bindings.map (·.owner.id)).Nodup
  index : c.index = (c.bindings.map (·.owner.id)).zipIdx

/-- At the beginning there is nothing to find. -/
theorem indexed_empty : Indexed {} := ⟨List.nodup_nil, rfl⟩

namespace Indexed

variable {c : Collector} (h : c.Indexed)

include h

/-- The ids that are indexed are those of the owners. -/
theorem keys_index : c.index.keys = c.bindings.map (·.owner.id) := by
  rw [h.index]
  exact List.zipIdx_map_fst _ _

/-- A position is found under an id exactly if the owner with this id stands there. -/
theorem get?_index_eq_some_iff {id : ClassId} {position : Nat} :
    c.index.get? id = some position ↔ (c.bindings.map (·.owner.id))[position]? = some id := by
  rw [Table.get?_eq_some_iff (h.keys_index ▸ h.nodup), h.index, List.mk_mem_zipIdx_iff_getElem?]

/-- A position is found exactly for the classes that have a binding. -/
theorem isSome_get?_index (id : ClassId) : (c.index.get? id).isSome = c.binds id := by
  rw [Bool.eq_iff_iff, Table.isSome_get?, h.keys_index, Collection.binds_iff]

/-- Starting a binding keeps the index, and is what it is without one. -/
theorem addClass (e : ClassElement) :
    (c.addClass e).Indexed ∧ (c.addClass e).toCollection = c.toCollection.addClass e := by
  unfold Collector.addClass Collection.addClass
  cases e.contentView with
  | none => exact ⟨h, rfl⟩
  | some layoutId =>
    rw [h.isSome_get?_index]
    cases hbinds : c.binds e.id with
    | true => exact ⟨h, rfl⟩
    | false =>
      have hnew : e.id ∉ c.bindings.map (·.owner.id) := by
        rw [← Collection.binds_iff, hbinds]
        exact Bool.false_ne_true
      refine ⟨⟨?_, ?_⟩, rfl⟩
      · simpa using h.nodup.concat hnew
      · have hfree : e.id ∉ c.index.keys := h.keys_index ▸ hnew
        have hlast : c.index.insert e.id c.bindings.length =
            (c.bindings.map (·.owner.id)).zipIdx ++ [(e.id, c.bindings.length)] := by
          rw [Table.insert_of_notMem hfree, h.index]
        simp [hlast, List.zipIdx_append]

/-- At a position that is found there is a binding, and it is the only one with its id. -/
theorem exists_of_get?_index {owner : ClassId} {position : Nat}
    (hfound : c.index.get? owner = some position) :
    ∃ b, c.bindings[position]? = some b ∧ b.owner.id = owner ∧
      ∀ i x, c.bindings[i]? = some x → x.owner.id = owner → i = position := by
  have hat := h.get?_index_eq_some_iff.mp hfound
  obtain ⟨b, hb, hid⟩ : ∃ b, c.bindings[position]? = some b ∧ b.owner.id = owner := by
    simpa using hat
  refine ⟨b, hb, hid, fun i x hx hxid => ?_⟩
  have hother : (c.bindings.map (·.owner.id))[i]? = some owner := by
    rw [List.getElem?_map, hx, Option.map_some, hxid]
  exact Option.some.inj ((h.get?_index_eq_some_iff.mpr hother).symm.trans hfound)

/-- Changing a binding at the position that is found is changing the binding of the class. -/
theorem set_eq_map {owner : ClassId} {position : Nat} {b : Binding}
    (hfound : c.index.get? owner = some position) (hb : c.bindings[position]? = some b)
    (change : Binding → Binding) :
    c.bindings.set position (change b) =
      c.bindings.map fun x => if x.owner.id = owner then change x else x := by
  obtain ⟨found, hat, hid, honly⟩ := h.exists_of_get?_index hfound
  obtain rfl := Option.some.inj (hb.symm.trans hat)
  apply List.ext_getElem?
  intro i
  rw [List.getElem?_set, List.getElem?_map]
  by_cases hi : position = i
  · subst hi
    rw [if_pos rfl, if_pos (List.getElem?_eq_some_iff.mp hb).1, hb, Option.map_some, if_pos hid]
  · rw [if_neg hi]
    cases hx : c.bindings[i]? with
    | none => rfl
    | some x =>
      have hne : x.owner.id ≠ owner := fun he => hi (honly i x hx he).symm
      simp [hne]

/-- Changing a binding keeps the index if the owner stays, and is what it is without one. -/
theorem update (owner : ClassId) (marker : Marker) (element : String) {change : Binding → Binding}
    (hchange : ∀ b, (change b).owner = b.owner) :
    (c.update owner marker element change).Indexed ∧
      (c.update owner marker element change).toCollection =
        c.toCollection.update owner marker element change := by
  have hbinds := h.isSome_get?_index owner
  unfold Collector.update Collection.update
  rw [← hbinds]
  cases hfound : c.index.get? owner with
  | none => exact ⟨⟨h.nodup, h.index⟩, rfl⟩
  | some position =>
    -- A position that is found is never empty, so no marker is lost there.
    obtain ⟨b, hb, -⟩ := h.exists_of_get?_index hfound
    have hset := h.set_eq_map hfound hb change
    have hids : (c.bindings.map fun x => if x.owner.id = owner then change x else x).map
        (·.owner.id) = c.bindings.map (·.owner.id) := by
      rw [List.map_map]
      refine List.map_congr_left fun x _ => ?_
      by_cases hx : x.owner.id = owner <;> simp [hx, hchange]
    simp only [hb, hset]
    refine ⟨⟨?_, ?_⟩, rfl⟩
    · rw [hids]
      exact h.nodup
    · rw [hids]
      exact h.index

/-- Steps that keep the index and do what they do without one do so one after the other. -/
theorem foldl {α : Type} {step : Collector → α → Collector} {plain : Collection → α → Collection}
    (hstep : ∀ c x, c.Indexed →
      (step c x).Indexed ∧ (step c x).toCollection = plain c.toCollection x) (xs : List α) :
    (xs.foldl step c).Indexed ∧ (xs.foldl step c).toCollection = xs.foldl plain c.toCollection := by
  induction xs generalizing c with
  | nil => exact ⟨h, rfl⟩
  | cons x xs ih =>
    obtain ⟨hnext, hsame⟩ := hstep c x h
    rw [List.foldl_cons, List.foldl_cons, ← hsame]
    exact ih hnext

end Indexed

end Collector

end ViewBinding
