import Mathlib.Data.List.Nodup
import ViewBinding.Proofs.Round.Acceptance

/-!
# Walking outwards

The walk from a class to its package enters one enclosing id after the other. It can end in three
ways: in a package, at an id under which the round has no class, or at an id that was entered
before. The classes that it leaves are distinct, so it is never the bound that ends it.
-/

namespace ViewBinding

namespace Round

variable (round : Round)

/-- One class lies directly in another: the look-up of its enclosing id finds that one. -/
def Encloses (outer inner : ClassElement) : Prop :=
  ∃ id, inner.enclosing = .type id ∧ round.find? id = some outer

/-- The ids of the enclosing classes of a class, as far out as the look-up leads. -/
inductive OnChain : ClassElement → ClassId → Prop
  | next {c : ClassElement} {id : ClassId} (h : c.enclosing = .type id) : OnChain c id
  | further {c d : ClassElement} {id : ClassId} (h : round.Encloses d c) (hd : OnChain d id) :
    OnChain c id

/-- Going outwards from a class, when these ids have been entered, enters an id again. -/
inductive Loops : List ClassId → ClassElement → Prop
  | again {visited : List ClassId} {c : ClassElement} {id : ClassId} (h : c.enclosing = .type id)
    (hseen : id ∈ visited) : Loops visited c
  | further {visited : List ClassId} {c d : ClassElement} {id : ClassId}
    (h : c.enclosing = .type id) (hnew : id ∉ visited) (hd : round.find? id = some d)
    (hrest : Loops (id :: visited) d) : Loops visited c

/-- A class lies in a package, with these simple names from the outermost class down to it. -/
inductive LiesIn : ClassElement → String → List String → Prop
  | package {c : ClassElement} {package : String} (h : c.enclosing = .package package) :
    LiesIn c package [c.simpleName]
  | type {c d : ClassElement} {package : String} {names : List String} (h : round.Encloses d c)
    (hd : LiesIn d package names) : LiesIn c package (names ++ [c.simpleName])

variable {round} {c : ClassElement} {steps : Nat} {visited : List ClassId}

/-- The names down to a class are at least its own. -/
theorem LiesIn.ne_nil {package : String} {names : List String}
    (h : round.LiesIn c package names) : names ≠ [] := by
  cases h <;> simp

/-- A package that the walk finds is one that the class lies in. -/
theorem exists_liesIn_of_packageWithin {package : String}
    (h : round.packageWithin steps visited c = some package) :
    ∃ names, round.LiesIn c package names := by
  induction steps generalizing visited c with
  | zero =>
    cases hc : c.enclosing with
    | package name =>
      obtain rfl : name = package := by simpa [round.packageWithin_package hc] using h
      exact ⟨_, .package hc⟩
    | type outer => simp [round.packageWithin_type_zero hc] at h
  | succ steps ih =>
    cases hc : c.enclosing with
    | package name =>
      obtain rfl : name = package := by simpa [round.packageWithin_package hc] using h
      exact ⟨_, .package hc⟩
    | type outer =>
      rw [round.packageWithin_type_succ hc] at h
      by_cases hseen : outer ∈ visited
      · rw [if_pos hseen] at h
        exact nomatch h
      · rw [if_neg hseen] at h
        obtain ⟨d, hd, hrest⟩ := Option.bind_eq_some_iff.mp h
        obtain ⟨names, hnames⟩ := ih hrest
        exact ⟨_, .type ⟨outer, hc, hd⟩ hnames⟩

/-- A walk that enters an id again finds no package. -/
theorem Loops.packageWithin_eq_none (h : round.Loops visited c) :
    round.packageWithin steps visited c = none := by
  induction h generalizing steps with
  | again hc hseen =>
    cases steps with
    | zero => exact round.packageWithin_type_zero hc _
    | succ steps => rw [round.packageWithin_type_succ hc, if_pos hseen]
  | further hc hnew hd _ ih =>
    cases steps with
    | zero => exact round.packageWithin_type_zero hc _
    | succ steps => rw [round.packageWithin_type_succ hc, if_neg hnew, hd, Option.bind_some, ih]

/-- A walk to an id without a class finds no package. -/
theorem OnChain.packageWithin_eq_none {id : ClassId} (h : round.OnChain c id)
    (hid : round.find? id = none) : round.packageWithin steps visited c = none := by
  induction h generalizing steps visited with
  | next hc =>
    cases steps with
    | zero => exact round.packageWithin_type_zero hc _
    | succ steps => simp [round.packageWithin_type_succ hc, hid]
  | further hencloses _ ih =>
    obtain ⟨outer, hc, hd⟩ := hencloses
    cases steps with
    | zero => exact round.packageWithin_type_zero hc _
    | succ steps =>
      rw [round.packageWithin_type_succ hc, hd, Option.bind_some, ih hid, ite_self]

/-- Classes of the round that name different enclosing ids are no more than all classes. -/
theorem length_le_of_left (left : List ClassElement) {ids : List ClassId}
    (hleft : ∀ d ∈ left, d ∈ round.classes)
    (hids : left.map (·.enclosing) = ids.map Enclosing.type) (hnodup : ids.Nodup) :
    ids.length ≤ round.classes.length := by
  have hdistinct : (left.map (·.enclosing)).Nodup :=
    hids ▸ hnodup.map fun _ _ => Enclosing.type.inj
  have hlength : left.length = ids.length := by simpa using congrArg List.length hids
  exact hlength ▸ (hdistinct.of_map _).length_le_of_subset hleft

/-- A walk among classes of the round that finds no package enters an id again or comes to one
without a class. The classes left so far name the ids entered after the first. -/
theorem loops_or_missing_of_left (left : List ClassElement) (ids : List ClassId) {first : ClassId}
    (hleft : ∀ d ∈ left, d ∈ round.classes)
    (hids : left.map (·.enclosing) = ids.map Enclosing.type) (hnodup : (ids ++ [first]).Nodup)
    (hc : c ∈ round.classes) (hsteps : steps + ids.length = round.classes.length)
    (h : round.packageWithin steps (ids ++ [first]) c = none) :
    round.Loops (ids ++ [first]) c ∨ ∃ id, round.OnChain c id ∧ round.find? id = none := by
  induction steps generalizing left ids c with
  | zero =>
    cases hplace : c.enclosing with
    | package name => simp [round.packageWithin_package hplace] at h
    | type outer =>
      by_cases hseen : outer ∈ ids ++ [first]
      · exact .inl (.again hplace hseen)
      · -- All classes have been left, so there is none to go on from.
        have hmore : (outer :: ids).length ≤ round.classes.length :=
          length_le_of_left (c :: left) (List.forall_mem_cons.mpr ⟨hc, hleft⟩)
            (by simp [hplace, hids])
            (List.nodup_cons.mpr ⟨fun hin => hseen (List.mem_append_left _ hin),
              (List.nodup_append.mp hnodup).1⟩)
        rw [List.length_cons] at hmore
        omega
  | succ steps ih =>
    cases hplace : c.enclosing with
    | package name => simp [round.packageWithin_package hplace] at h
    | type outer =>
      by_cases hseen : outer ∈ ids ++ [first]
      · exact .inl (.again hplace hseen)
      · rw [round.packageWithin_type_succ hplace, if_neg hseen] at h
        cases hd : round.find? outer with
        | none => exact .inr ⟨outer, .next hplace, hd⟩
        | some d =>
          rw [hd, Option.bind_some] at h
          have hrest := ih (c :: left) (outer :: ids)
            (List.forall_mem_cons.mpr ⟨hc, hleft⟩) (by simp [hplace, hids])
            (List.nodup_cons.mpr ⟨hseen, hnodup⟩) (round.mem_of_find? hd)
            (by rw [List.length_cons]; omega) h
          rcases hrest with hloops | ⟨id, hchain, hid⟩
          · exact .inl (.further hplace hseen hd hloops)
          · exact .inr ⟨id, .further ⟨outer, hplace, hd⟩ hchain, hid⟩

/-- A class has no package exactly if the walk from it enters an id again or comes to one without a
class. -/
theorem packageOf?_eq_none_iff :
    round.packageOf? c = none ↔
      round.Loops [] c ∨ ∃ id, round.OnChain c id ∧ round.find? id = none := by
  constructor
  · intro h
    cases hplace : c.enclosing with
    | package name => simp [packageOf?, round.packageWithin_package hplace] at h
    | type first =>
      rw [packageOf?, round.packageWithin_type_succ hplace, if_neg List.not_mem_nil] at h
      cases hd : round.find? first with
      | none => exact .inr ⟨first, .next hplace, hd⟩
      | some d =>
        rw [hd, Option.bind_some] at h
        have hrest := loops_or_missing_of_left [] [] nofun rfl
          (List.nodup_singleton first) (round.mem_of_find? hd) rfl h
        rcases hrest with hloops | ⟨id, hchain, hid⟩
        · exact .inl (.further hplace List.not_mem_nil hd hloops)
        · exact .inr ⟨id, .further ⟨first, hplace, hd⟩ hchain, hid⟩
  · rintro (hloops | ⟨id, hchain, hid⟩)
    · exact hloops.packageWithin_eq_none
    · exact hchain.packageWithin_eq_none hid

end Round

end ViewBinding
