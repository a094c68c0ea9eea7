/-!
# Tables

A table is a list of keys with their values. A value put under a key replaces the one that was
there and keeps its place; a new key goes to the end. So the keys are in the order in which they
were first put, and no key is listed twice if tables are built from the empty one.
-/

namespace ViewBinding

/-- Keys with their values. -/
abbrev Table (κ α : Type) := List (κ × α)

namespace Table

variable {κ α : Type}

/-- The keys in order. -/
def keys (t : Table κ α) : List κ := t.map (·.1)

@[simp]
theorem keys_nil : keys ([] : Table κ α) = [] := rfl

@[simp]
theorem keys_cons (x : κ × α) (t : Table κ α) : keys (x :: t) = x.1 :: keys t := rfl

variable [DecidableEq κ]

/-- The value under a key. -/
def get? : Table κ α → κ → Option α
  | [], _ => none
  | (k, a) :: rest, key => if key = k then some a else get? rest key

/-- Put a value under a key, over the one that was there. -/
def insert (key : κ) (value : α) : Table κ α → Table κ α
  | [] => [(key, value)]
  | (k, a) :: rest => if key = k then (key, value) :: rest else (k, a) :: insert key value rest

/-- A key has a value exactly if it is listed. -/
theorem isSome_get? {t : Table κ α} {key : κ} : (t.get? key).isSome ↔ key ∈ t.keys := by
  induction t with
  | nil => simp [get?]
  | cons x rest ih =>
    by_cases h : key = x.1
    · simp [get?, h]
    · simp [get?, h, ih]

/-- A value that is found is listed. -/
theorem mem_of_get? {t : Table κ α} {key : κ} {value : α} (h : t.get? key = some value) :
    (key, value) ∈ t := by
  induction t with
  | nil => exact nomatch h
  | cons x rest ih =>
    unfold get? at h
    by_cases hkey : key = x.1
    · rw [if_pos hkey] at h
      rw [hkey, ← Option.some.inj h]
      exact List.mem_cons_self ..
    · rw [if_neg hkey] at h
      exact List.mem_cons_of_mem _ (ih h)

/-- If no key is listed twice, the values that are found are those that are listed. -/
theorem get?_eq_some_iff {t : Table κ α} (h : t.keys.Nodup) {key : κ} {value : α} :
    t.get? key = some value ↔ (key, value) ∈ t := by
  refine ⟨mem_of_get?, fun hin => ?_⟩
  induction t with
  | nil => exact absurd hin List.not_mem_nil
  | cons x rest ih =>
    rw [keys_cons, List.nodup_cons] at h
    unfold get?
    rcases List.mem_cons.mp hin with rfl | hin
    · exact if_pos rfl
    · have hne : key ≠ x.1 := fun he => h.1 (he ▸ List.mem_map_of_mem hin)
      rw [if_neg hne]
      exact ih h.2 hin

/-- What was put under a key is found under it. -/
@[simp]
theorem get?_insert_self (t : Table κ α) (key : κ) (value : α) :
    get? (insert key value t) key = some value := by
  induction t with
  | nil => simp [insert, get?]
  | cons x rest ih =>
    by_cases h : key = x.1
    · simp [insert, get?, h]
    · simp [insert, get?, h, ih]

/-- Putting a value changes nothing under other keys. -/
theorem get?_insert_of_ne {t : Table κ α} {key other : κ} {value : α} (h : other ≠ key) :
    get? (insert key value t) other = t.get? other := by
  induction t with
  | nil => simp [insert, get?, h]
  | cons x rest ih =>
    by_cases hx : key = x.1
    · subst hx
      simp [insert, get?, h]
    · by_cases ho : other = x.1
      · simp [insert, get?, hx, ho]
      · simp [insert, get?, hx, ho, ih]

/-- A value that is under a key already is put there without a change. -/
theorem insert_eq_self {t : Table κ α} {key : κ} {value : α} (h : t.get? key = some value) :
    t.insert key value = t := by
  induction t with
  | nil => exact nomatch h
  | cons x rest ih =>
    obtain ⟨k, a⟩ := x
    unfold get? at h
    unfold insert
    by_cases hkey : key = k
    · rw [if_pos hkey] at h ⊢
      rw [hkey, Option.some.inj h]
    · rw [if_neg hkey] at h ⊢
      rw [ih h]

/-- A value that is put over another one replaces it. -/
theorem insert_insert (t : Table κ α) (key : κ) (before value : α) :
    (t.insert key before).insert key value = t.insert key value := by
  induction t with
  | nil => simp [insert]
  | cons x rest ih =>
    obtain ⟨k, a⟩ := x
    by_cases hkey : key = k
    · simp [insert, hkey]
    · simp [insert, hkey, ih]

/-- A value under a new key goes to the end. -/
theorem insert_of_notMem {t : Table κ α} {key : κ} (h : key ∉ t.keys) (value : α) :
    t.insert key value = t ++ [(key, value)] := by
  induction t with
  | nil => rfl
  | cons x rest ih =>
    rw [keys_cons, List.mem_cons, not_or] at h
    rw [insert, if_neg h.1, ih h.2, List.cons_append]

/-- The keys after a value was put: a new key comes last. -/
theorem keys_insert (t : Table κ α) (key : κ) (value : α) :
    keys (insert key value t) = if key ∈ t.keys then t.keys else t.keys ++ [key] := by
  induction t with
  | nil => simp [insert]
  | cons x rest ih =>
    by_cases h : key = x.1
    · simp [insert, h]
    · by_cases hm : key ∈ keys rest
      · simp [insert, h, ih, hm]
      · simp [insert, h, ih, hm]

/-- Putting a value lists no key twice. -/
theorem nodup_keys_insert {t : Table κ α} (h : t.keys.Nodup) (key : κ) (value : α) :
    (keys (insert key value t)).Nodup := by
  rw [keys_insert]
  by_cases hm : key ∈ t.keys
  · rwa [if_pos hm]
  · rw [if_neg hm, List.nodup_append]
    refine ⟨h, by simp, ?_⟩
    intro a ha b hb he
    rw [List.mem_singleton] at hb
    exact hm (hb ▸ he ▸ ha)

end Table

end ViewBinding
