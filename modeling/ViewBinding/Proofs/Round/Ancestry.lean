import ViewBinding.Proofs.Round.Walking

/-!
# Ancestry

The classes around a class are found by following enclosing ids, with no memory of those that were
followed before. The walk to a package keeps such a memory so that it comes to an end in every
round. It does no more than that: an id that comes again comes again for ever, so the walk finds a
package whenever following the ids leads to one.
-/

namespace ViewBinding

namespace Round

variable (round : Round)

/-- The class that directly encloses a class, if it lies in one that the look-up finds. -/
def outer? (c : ClassElement) : Option ClassElement :=
  match c.enclosing with
  | .package _ => none
  | .type id => round.find? id

/-- The class that following this many enclosing ids leads to. -/
def outward? : Nat → ClassElement → Option ClassElement
  | 0, c => some c
  | n + 1, c => (round.outer? c).bind (outward? n)

/-- The walk from a class, when these ids have been entered, ends with this answer. Nothing bounds
the number of its steps. -/
inductive WalksTo : List ClassId → ClassElement → Option String → Prop
  | package {visited : List ClassId} {c : ClassElement} {package : String}
    (h : c.enclosing = .package package) : WalksTo visited c (some package)
  | again {visited : List ClassId} {c : ClassElement} {id : ClassId} (h : c.enclosing = .type id)
    (hseen : id ∈ visited) : WalksTo visited c none
  | missing {visited : List ClassId} {c : ClassElement} {id : ClassId} (h : c.enclosing = .type id)
    (hnew : id ∉ visited) (hd : round.find? id = none) : WalksTo visited c none
  | further {visited : List ClassId} {c d : ClassElement} {id : ClassId} {result : Option String}
    (h : c.enclosing = .type id) (hnew : id ∉ visited) (hd : round.find? id = some d)
    (hrest : WalksTo (id :: visited) d result) : WalksTo visited c result

variable {round} {c d e : ClassElement} {visited : List ClassId}

section Outward

/-- No class encloses one that lies in a package. -/
theorem outer?_of_package {package : String} (h : c.enclosing = .package package) :
    round.outer? c = none := by
  rw [outer?, h]

/-- The class around one that lies in a class is found by the look-up. -/
theorem outer?_of_type {id : ClassId} (h : c.enclosing = .type id) :
    round.outer? c = round.find? id := by
  rw [outer?, h]

/-- One step outwards from what lies in a class. -/
theorem outward?_succ (n : Nat) (c : ClassElement) :
    round.outward? (n + 1) c = (round.outer? c).bind (round.outward? n) := rfl

/-- Steps outwards are taken one part after the other. -/
theorem outward?_add (m n : Nat) (c : ClassElement) :
    round.outward? (m + n) c = (round.outward? m c).bind (round.outward? n) := by
  induction m generalizing c with
  | zero => rw [Nat.zero_add, outward?, Option.bind_some]
  | succ m ih =>
    rw [Nat.add_right_comm, outward?_succ, outward?_succ, Option.bind_assoc]
    exact congrArg _ (funext ih)

/-- If a number of steps can be taken, fewer can. -/
theorem isSome_outward?_of_le {m n : Nat} (hle : m ≤ n) (h : (round.outward? n c).isSome) :
    (round.outward? m c).isSome := by
  rw [← Nat.add_sub_cancel' hle, outward?_add] at h
  exact Option.isSome_of_isSome_bind h

/-- No step is taken from where there is none to take. -/
theorem outward?_eq_none_of_lt {m n : Nat} (hm : round.outward? m c = some d)
    (hd : round.outer? d = none) (hlt : m < n) : round.outward? n c = none := by
  obtain ⟨k, rfl⟩ := Nat.exists_eq_add_of_lt hlt
  rw [Nat.add_assoc, outward?_add, hm, Option.bind_some, outward?_succ, hd, Option.bind_none]

/-- Following the ids stops at one class only. -/
theorem outward?_stop_unique {m n : Nat} (hm : round.outward? m c = some d)
    (hd : round.outer? d = none) (hn : round.outward? n c = some e)
    (he : round.outer? e = none) : d = e := by
  rcases Nat.lt_trichotomy m n with hlt | rfl | hgt
  · rw [outward?_eq_none_of_lt hm hd hlt] at hn
    exact nomatch hn
  · exact Option.some.inj (hm.symm.trans hn)
  · rw [outward?_eq_none_of_lt hn he hgt] at hm
    exact nomatch hm

/-- Going round from a class to itself any number of times leads to it. -/
theorem outward?_mul {k : Nat} (h : round.outward? k d = some d) (n : Nat) :
    round.outward? (n * k) d = some d := by
  induction n with
  | zero => rw [Nat.zero_mul, outward?]
  | succ n ih => rw [Nat.succ_mul, outward?_add, ih, Option.bind_some, h]

/-- A chain that comes back to one of its classes goes on for ever. -/
theorem isSome_outward?_of_cycle {j k : Nat} (hd : round.outward? j c = some d) (hk : 0 < k)
    (hcycle : round.outward? k d = some d) (n : Nat) : (round.outward? n c).isSome := by
  have hround : round.outward? (j + n * k) c = some d := by
    rw [outward?_add, hd, Option.bind_some, outward?_mul hcycle]
  have hle : n ≤ j + n * k := Nat.le_add_left_of_le (Nat.le_mul_of_pos_right n hk)
  exact isSome_outward?_of_le hle (hround ▸ rfl)

end Outward

section Ends

/-- A class that lies in a package by way of others is led outwards to one that lies in it
directly. -/
theorem LiesIn.exists_outward? {package : String} {names : List String}
    (h : round.LiesIn c package names) :
    ∃ n d, round.outward? n c = some d ∧ d.enclosing = .package package := by
  induction h with
  | @package c package h => exact ⟨0, c, rfl, h⟩
  | type hencloses _ ih =>
    obtain ⟨id, hplace, hid⟩ := hencloses
    obtain ⟨n, e, hn, he⟩ := ih
    exact ⟨n + 1, e, by rw [outward?_succ, outer?_of_type hplace, hid, Option.bind_some, hn], he⟩

/-- An id on the chain of a class is named by a class that following the ids leads to. -/
theorem OnChain.exists_outward? {id : ClassId} (h : round.OnChain c id) :
    ∃ n d, round.outward? n c = some d ∧ d.enclosing = .type id := by
  induction h with
  | @next c id h => exact ⟨0, c, rfl, h⟩
  | further hencloses _ ih =>
    obtain ⟨outer, hplace, houter⟩ := hencloses
    obtain ⟨n, e, hn, he⟩ := ih
    exact ⟨n + 1, e,
      by rw [outward?_succ, outer?_of_type hplace, houter, Option.bind_some, hn], he⟩

/-- A walk that enters an id again goes round: every id that was entered leads to the class that
the walk has come to, so the one that is entered again leads back to itself. -/
theorem Loops.exists_cycle (h : round.Loops visited c)
    (hvisited : ∀ id ∈ visited, ∃ n d, round.find? id = some d ∧ round.outward? n d = some c) :
    ∃ j k d, round.outward? j c = some d ∧ 0 < k ∧ round.outward? k d = some d := by
  induction h with
  | @again visited c id h hseen =>
    obtain ⟨n, d, hd, hn⟩ := hvisited id hseen
    have hback : round.outward? 1 c = some d := by
      rw [outward?_succ, outer?_of_type h, hd, Option.bind_some, outward?]
    exact ⟨1, n + 1, d, hback, Nat.succ_pos n, by rw [outward?_add, hn, Option.bind_some, hback]⟩
  | @further visited c d id h _ hd _ ih =>
    have hstep : round.outward? 1 c = some d := by
      rw [outward?_succ, outer?_of_type h, hd, Option.bind_some, outward?]
    obtain ⟨j, k, e, hj, hk, he⟩ := ih fun seen hseen => by
      rcases List.mem_cons.mp hseen with rfl | hseen
      · exact ⟨0, d, hd, rfl⟩
      · obtain ⟨n, f, hf, hn⟩ := hvisited seen hseen
        exact ⟨n + 1, f, hf, by rw [outward?_add, hn, Option.bind_some, hstep]⟩
    exact ⟨1 + j, k, e, by rw [outward?_add, hstep, Option.bind_some, hj], hk, he⟩

/-- Where the walk enters an id again, following the ids goes on for ever. -/
theorem Loops.isSome_outward? (h : round.Loops [] c) (n : Nat) :
    (round.outward? n c).isSome := by
  obtain ⟨j, k, d, hj, hk, hd⟩ := h.exists_cycle nofun
  exact isSome_outward?_of_cycle hj hk hd n

/-- A class for which the walk finds no package is led to an id without a class, or for ever
outwards. -/
theorem missing_or_endless_of_packageOf?_eq_none (h : round.packageOf? c = none) :
    (∃ n d id, round.outward? n c = some d ∧ d.enclosing = .type id ∧ round.find? id = none) ∨
      ∀ n, (round.outward? n c).isSome := by
  rcases packageOf?_eq_none_iff.mp h with hloops | ⟨id, hchain, hid⟩
  · exact .inr hloops.isSome_outward?
  · obtain ⟨n, d, hn, hd⟩ := hchain.exists_outward?
    exact .inl ⟨n, d, id, hn, hd, hid⟩

/-- A chain that leads to a package leads neither to an id without a class nor on for ever. -/
theorem not_missing_or_endless {n : Nat} {package : String} (hn : round.outward? n c = some d)
    (hd : d.enclosing = .package package) :
    ¬((∃ n d id, round.outward? n c = some d ∧ d.enclosing = .type id ∧ round.find? id = none) ∨
      ∀ n, (round.outward? n c).isSome) := by
  have hstop : round.outer? d = none := outer?_of_package hd
  rintro (⟨m, e, id, hm, he, hid⟩ | hendless)
  · obtain rfl := outward?_stop_unique hn hstop hm ((outer?_of_type he).trans hid)
    rw [hd] at he
    exact nomatch he
  · have hnext := hendless (n + 1)
    rw [outward?_eq_none_of_lt hn hstop (Nat.lt_succ_self n)] at hnext
    exact nomatch hnext

end Ends

section Walks

/-- The walk has one answer. -/
theorem WalksTo.functional {result other : Option String} (h : round.WalksTo visited c result)
    (hother : round.WalksTo visited c other) : result = other := by
  induction h with
  | package h => cases hother <;> simp_all
  | again h hseen => cases hother <;> simp_all
  | missing h hnew hd => cases hother <;> simp_all
  | further h hnew hd _ ih =>
    cases hother with
    | package h' => simp_all
    | again h' hseen => simp_all
    | missing h' _ hd' => simp_all
    | further h' _ hd' hrest =>
      obtain rfl := Enclosing.type.inj (h.symm.trans h')
      obtain rfl := Option.some.inj (hd.symm.trans hd')
      exact ih hrest

/-- A package that is found within a number of steps is where the walk ends. -/
theorem walksTo_of_packageWithin {steps : Nat} {package : String}
    (h : round.packageWithin steps visited c = some package) :
    round.WalksTo visited c (some package) := by
  induction steps generalizing visited c with
  | zero =>
    cases hplace : c.enclosing with
    | package name =>
      obtain rfl : name = package := by simpa [round.packageWithin_package hplace] using h
      exact .package hplace
    | type id => simp [round.packageWithin_type_zero hplace] at h
  | succ steps ih =>
    cases hplace : c.enclosing with
    | package name =>
      obtain rfl : name = package := by simpa [round.packageWithin_package hplace] using h
      exact .package hplace
    | type id =>
      rw [round.packageWithin_type_succ hplace] at h
      by_cases hseen : id ∈ visited
      · rw [if_pos hseen] at h
        exact nomatch h
      · rw [if_neg hseen] at h
        obtain ⟨d, hd, hrest⟩ := Option.bind_eq_some_iff.mp h
        exact .further hplace hseen hd (ih hrest)

/-- A walk that enters an id again ends there, with no package. -/
theorem Loops.walksTo (h : round.Loops visited c) : round.WalksTo visited c none := by
  induction h with
  | again h hseen => exact .again h hseen
  | further h hnew hd _ ih => exact .further h hnew hd ih

/-- A walk towards an id without a class ends there or before, with no package. -/
theorem OnChain.walksTo {id : ClassId} (h : round.OnChain c id) (hid : round.find? id = none)
    (visited : List ClassId) : round.WalksTo visited c none := by
  induction h generalizing visited with
  | @next c id h =>
    by_cases hseen : id ∈ visited
    · exact .again h hseen
    · exact .missing h hseen hid
  | further hencloses _ ih =>
    obtain ⟨outer, hplace, houter⟩ := hencloses
    by_cases hseen : outer ∈ visited
    · exact .again hplace hseen
    · exact .further hplace hseen houter (ih hid _)

/-- From every class the walk comes to an end, with the answer for that class. -/
theorem walksTo_packageOf? (round : Round) (c : ClassElement) :
    round.WalksTo [] c (round.packageOf? c) := by
  cases h : round.packageOf? c with
  | some package => exact walksTo_of_packageWithin h
  | none =>
    rcases packageOf?_eq_none_iff.mp h with hloops | ⟨id, hchain, hid⟩
    · exact hloops.walksTo
    · exact hchain.walksTo hid []

end Walks

end Round

/-- In every round and from every class, the walk to a package comes to an end and has one answer.
The answer is a package exactly if following the enclosing ids leads to a class that lies in it; it
is none exactly if following them leads to an id without a class, or never ends. -/
theorem packageOf?_of_round (round : Round) (c : ClassElement) :
    (∀ result, round.WalksTo [] c result ↔ result = round.packageOf? c) ∧
    (∀ package, round.packageOf? c = some package ↔
      ∃ n d, round.outward? n c = some d ∧ d.enclosing = .package package) ∧
    (round.packageOf? c = none ↔
      (∃ n d id, round.outward? n c = some d ∧ d.enclosing = .type id ∧
        round.find? id = none) ∨
      ∀ n, (round.outward? n c).isSome) := by
  have hfound : ∀ package, round.packageOf? c = some package →
      ∃ n d, round.outward? n c = some d ∧ d.enclosing = .package package := by
    intro package h
    obtain ⟨names, hlies⟩ := Round.exists_liesIn_of_packageWithin h
    exact hlies.exists_outward?
  refine ⟨fun result => ⟨fun h => h.functional (round.walksTo_packageOf? c), ?_⟩,
    fun package => ⟨hfound package, ?_⟩,
    ⟨Round.missing_or_endless_of_packageOf?_eq_none, fun h => ?_⟩⟩
  · rintro rfl
    exact round.walksTo_packageOf? c
  · rintro ⟨n, d, hn, hd⟩
    cases h : round.packageOf? c with
    | none =>
      exact absurd (Round.missing_or_endless_of_packageOf?_eq_none h)
        (Round.not_missing_or_endless hn hd)
    | some other =>
      obtain ⟨m, e, hm, he⟩ := hfound other h
      obtain rfl := Round.outward?_stop_unique hn (Round.outer?_of_package hd) hm
        (Round.outer?_of_package he)
      rw [Enclosing.package.inj (he.symm.trans hd)]
  · cases hp : round.packageOf? c with
    | none => rfl
    | some package =>
      obtain ⟨n, d, hn, hd⟩ := hfound package hp
      exact absurd h (Round.not_missing_or_endless hn hd)

end ViewBinding
