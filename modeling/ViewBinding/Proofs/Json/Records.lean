import Mathlib.Data.List.Pairwise
import Mathlib.Tactic.MkIffOfInductiveProp
import ViewBinding.Proofs.Json.Decoding

/-!
# What objects decode to

A type of records is told by a schema: what each field takes and where a record keeps it. An object
is read if its keys are fields, each at most once, and every field that has to be there is; what is
read is then the record that the members describe, in whatever order they stand.
-/

namespace ViewBinding.Json

namespace Reader

variable {α : Type} {cs tail : List Char}

section Members

variable {ms : List (String × Value)} {after before : List Char} {k : String}

/-- Members begin with the quote of the first key. -/
theorem exists_cons_of_members (h : Separated (MemberSpelled Spelled) cs ms) :
    ∃ tail, cs = '"' :: tail := by
  obtain ⟨c, tail, rfl, rfl⟩ := h.exists_cons (Q := fun c => c = '"') fun {cs m} hm => by
    obtain ⟨tail, rfl⟩ := hm.exists_cons
    exact ⟨'"', tail, rfl, rfl⟩
  exact ⟨tail, rfl⟩

/-- The end of an object is read after its last member. -/
theorem gives_nextMember_end (h : IsBlank after) (rest : List Char) :
    Gives nextMember (after ++ '\x7d' :: rest) false rest :=
  (gives_skipBlank_cons h (by decide)).bind ((gives_advance '\x7d' rest).bind (.pure false rest))

/-- The comma in front of a member is read, and the quote of its key. -/
theorem gives_nextMember (h : IsBlank after) (hbefore : IsBlank before) (tail : List Char) :
    Gives nextMember (after ++ ',' :: (before ++ '"' :: tail)) true tail :=
  (gives_skipBlank_cons h (by decide)).bind ((gives_advance ',' _).bind
    ((gives_skipBlank_cons hbefore (by decide)).bind
      ((gives_advance '"' tail).bind (.pure true tail))))

/-- The colon after a key is read. -/
theorem gives_colon (h : IsBlank after) (tail : List Char) :
    Gives colon (after ++ ':' :: tail) () tail :=
  (gives_skipBlank_cons h (by decide)).bind (gives_advance ':' tail)

/-- A key that is refused is refused whatever follows. -/
theorem refuses_refuseKey (fault : Fault) (cs : List Char) :
    Refuses (refuseKey fault : Reader α) cs := by
  refine Returns.bind_refuses (fun _ _ _ _ => trivial) fun next _ rest => ?_
  split
  · exact Returns.bind_refuses (fun _ _ _ _ => trivial) fun _ _ rest => refuses_fail fault rest
  · exact refuses_fail fault rest

end Members

end Reader

open Reader

/-- A field of records with what it takes and where that is kept. -/
structure Slot (ρ : Type) where
  /-- The type of what is kept. -/
  Content : Type
  field : Field ρ
  decode : Value → Option Content
  /-- The values that the field is told of. -/
  domain : Value → Prop
  get : ρ → Content
  set : Content → ρ → ρ
  get_set : ∀ a r, get (set a r) = a
  reads : Decodes field.read (fun v => (decode v).map set) domain

namespace Slot

variable {ρ α : Type}

/-- The key of the field. -/
def key (s : Slot ρ) : String := s.field.key

section Kinds

variable {read : Reader α} {decode : Value → Option α} {domain : Value → Prop}

/-- A field whose value is decoded and kept. -/
def kept (key : String) (required : Bool) (h : Decodes read decode domain) (get : ρ → α)
    (set : α → ρ → ρ) (hset : ∀ a r, get (set a r) = a) : Slot ρ where
  Content := α
  field := ⟨key, required, set <$> read⟩
  decode := decode
  domain := domain
  get := get
  set := set
  get_set := hset
  reads _ _ _ _ hblanks hs hv hrest := (h hblanks hs hv hrest).map set

/-- A field that has to be there. -/
def mandatory (key : String) (h : Decodes read decode domain) (get : ρ → α) (set : α → ρ → ρ)
    (hset : ∀ a r, get (set a r) = a) : Slot ρ := kept key true h get set hset

/-- A field that may be absent. -/
def defaulted (key : String) (h : Decodes read decode domain) (get : ρ → α) (set : α → ρ → ρ)
    (hset : ∀ a r, get (set a r) = a) : Slot ρ := kept key false h get set hset

end Kinds

/-- Fields with different keys that are kept apart. -/
@[mk_iff]
structure Apart (s s' : Slot ρ) : Prop where
  key : s.key ≠ s'.key
  left : ∀ a r, s.get (s'.set a r) = s.get r
  right : ∀ a r, s'.get (s.set a r) = s'.get r

instance : Std.Symm (Apart (ρ := ρ)) := ⟨fun _ _ h => ⟨h.key.symm, h.right, h.left⟩⟩

/-- What the members of an object say about a field: it is there, or it is absent and has its
default. -/
def Holds (s : Slot ρ) (ms : List (String × Value)) (default a : s.Content) : Prop :=
  (∃ v, (s.key, v) ∈ ms ∧ s.decode v = some a) ∨
    s.key ∉ ms.map Prod.fst ∧ s.field.required = false ∧ a = default

end Slot

/-- The fields of a type of records, which are all that a record keeps. -/
structure Schema {ρ : Type} (t : RecordType ρ) where
  slots : List (Slot ρ)
  fields : t.fields = slots.map Slot.field
  apart : slots.Pairwise Slot.Apart
  ext : ∀ r r', (∀ s ∈ slots, s.get r = s.get r') → r = r'

namespace Schema

variable {ρ : Type} {t : RecordType ρ} (S : Schema t) {k : String} {s s' : Slot ρ}
  {ms : List (String × Value)} {r r₀ : ρ} {seen : List String}

/-- The field with a key. -/
def slot? (key : String) : Option (Slot ρ) := S.slots.find? (·.key == key)

/-- Store a member, if its key names a field that was not seen before. -/
def member? (r : ρ) (seen : List String) (m : String × Value) : Option (ρ × List String) :=
  (S.slot? m.1).bind fun s =>
    if m.1 ∈ seen then none else (s.decode m.2).map fun a => (s.set a r, m.1 :: seen)

/-- A record is whole if the fields that have to be there were seen. -/
def finish? (r : ρ) (seen : List String) : Option ρ :=
  if ∀ s ∈ S.slots, s.field.required = true → s.key ∈ seen then some r else none

/-- Store members one after the other. -/
def members? : ρ → List String → List (String × Value) → Option ρ
  | r, seen, [] => S.finish? r seen
  | r, seen, m :: ms => (S.member? r seen m).bind fun stored => members? stored.1 stored.2 ms

/-- The record that an object decodes to. -/
def decode? : Value → Option ρ
  | .object ms => S.members? t.blank [] ms
  | _ => none

/-- Objects whose members satisfy the conditions of their fields. Unknown keys are told of only
where they are refused. -/
def Domain (v : Value) : Prop :=
  ∃ ms, v = .object ms ∧ ∀ m ∈ ms, (t.closed = true ∨ ∃ s ∈ S.slots, s.key = m.1) ∧
    ∀ s ∈ S.slots, s.key = m.1 → s.domain m.2

/-- A record that the members of an object describe: their keys are fields, each at most once, and
every field holds what they say. -/
@[mk_iff]
structure Describes (ms : List (String × Value)) (r : ρ) : Prop where
  known : ms.map Prod.fst ⊆ S.slots.map Slot.key
  once : (ms.map Prod.fst).Nodup
  holds : ∀ s ∈ S.slots, s.Holds ms (s.get t.blank) (s.get r)

/-- Where unknown keys are refused, an object is told of if its known members are. -/
theorem domain_object (hclosed : t.closed = true)
    (h : ∀ m ∈ ms, ∀ s ∈ S.slots, s.key = m.1 → s.domain m.2) : S.Domain (.object ms) :=
  ⟨ms, rfl, fun m hm => ⟨.inl hclosed, h m hm⟩⟩

section Slots

theorem mem_of_slot? (h : S.slot? k = some s) : s ∈ S.slots := List.mem_of_find?_eq_some h

theorem key_of_slot? (h : S.slot? k = some s) : s.key = k := by
  simpa using List.find?_some h

/-- A key names one field. -/
theorem eq_of_key (hs : s ∈ S.slots) (hs' : s' ∈ S.slots) (h : s.key = s'.key) : s = s' := by
  by_contra hne
  exact (S.apart.forall hs hs' hne).key h

theorem slot?_key (hs : s ∈ S.slots) : S.slot? s.key = some s := by
  cases hfind : S.slot? s.key with
  | none => exact absurd (beq_self_eq_true s.key) (by simpa using List.find?_eq_none.mp hfind s hs)
  | some s' => rw [S.eq_of_key (S.mem_of_slot? hfind) hs (S.key_of_slot? hfind)]

/-- Storing into one field leaves the others. -/
theorem get_set_of_ne (hs : s ∈ S.slots) (hs' : s' ∈ S.slots) (h : s'.key ≠ s.key)
    (a : s.Content) (r : ρ) : s'.get (s.set a r) = s'.get r :=
  (S.apart.forall hs hs' fun heq => h (heq ▸ rfl)).right a r

theorem field?_eq (k : String) : t.field? k = (S.slot? k).map Slot.field := by
  unfold RecordType.field? slot?
  rw [S.fields, List.find?_map]
  rfl

end Slots

section Reading

variable {cs rest : List Char} {v : Value}

/-- A member is stored, or refused, as its key and its value say. -/
theorem answers_member {m : String × Value} (r : ρ) (seen : List String)
    (hm : MemberSpelled Spelled ('"' :: cs) m)
    (hknown : t.closed = true ∨ ∃ s ∈ S.slots, s.key = m.1)
    (hdomain : ∀ s ∈ S.slots, s.key = m.1 → s.domain m.2) (hrest : Follows rest) :
    Answers (t.member r seen) (cs ++ rest) (S.member? r seen m) rest := by
  generalize hall : '"' :: cs = all at hm
  obtain @⟨_, k, after, before, ds, v, @⟨ks, _, hk⟩, hafter, hbefore, hv⟩ := hm
  have hcs : cs ++ rest = ks ++ '"' :: (after ++ ':' :: (before ++ (ds ++ rest))) := by
    obtain rfl : cs = ks ++ '"' :: (after ++ ':' :: (before ++ ds)) := by simpa using hall
    simp
  rw [hcs]
  unfold RecordType.member member?
  refine (gives_textBody hk _).continues.answers ?_
  rw [S.field?_eq]
  cases hs : S.slot? k with
  | none =>
    have hclosed : t.closed = true := by
      refine hknown.resolve_right ?_
      rintro ⟨s, hmem, rfl⟩
      exact nomatch hs.symm.trans (S.slot?_key hmem)
    simp only [Option.map_none, Option.bind_none, if_pos hclosed]
    exact refuses_refuseKey _ _
  | some s =>
    simp only [Option.map_some, Option.bind_some]
    by_cases hseen : k ∈ seen
    · simp only [if_pos hseen]
      exact refuses_refuseKey _ _
    · simp only [if_neg hseen]
      refine (gives_colon hafter _).continues.answers ?_
      have hread := s.reads hbefore hv (hdomain s (S.mem_of_slot? hs) (S.key_of_slot? hs)) hrest
      have hstored := hread.map fun store => (store r, k :: seen)
      rwa [map_eq_pure_bind, Option.map_map] at hstored

/-- Every field that has to be there was seen, or the object is refused. -/
theorem answers_finish (cs : List Char) :
    Answers (t.finish r seen) cs (S.finish? r seen) cs := by
  unfold RecordType.finish finish?
  rw [S.fields, List.find?_map]
  cases hfind : S.slots.find? ((fun f => f.required && !seen.contains f.key) ∘ Slot.field) with
  | none =>
    have hall : ∀ s ∈ S.slots, s.field.required = true → s.key ∈ seen := by
      intro s hs hrequired
      simpa [hrequired, Slot.key] using List.find?_eq_none.mp hfind s hs
    rw [if_pos hall]
    exact .pure r cs
  | some s =>
    have hmissing := List.find?_some hfind
    simp only [Function.comp_apply, Bool.and_eq_true, Bool.not_eq_true', List.contains_eq_mem,
      decide_eq_false_iff_not] at hmissing
    have hnot : ¬∀ s ∈ S.slots, s.field.required = true → s.key ∈ seen :=
      fun hall => hmissing.2 (hall s (List.mem_of_find?_eq_some hfind) hmissing.1)
    rw [if_neg hnot]
    exact refuses_fail _ cs

/-- The members of an object are read one after the other. -/
theorem answers_members (hs : Separated (MemberSpelled Spelled) ('"' :: cs) ms)
    (hdomain : ∀ m ∈ ms, (t.closed = true ∨ ∃ s ∈ S.slots, s.key = m.1) ∧
      ∀ s ∈ S.slots, s.key = m.1 → s.domain m.2)
    {fuel : Nat} (hfuel : ms.length ≤ fuel) (rest : List Char) :
    Answers (t.members fuel r seen) (cs ++ '\x7d' :: rest) (S.members? r seen ms) rest := by
  generalize hall : '"' :: cs = all at hs
  induction hs generalizing cs r seen fuel with
  | @one _ m after hm hafter =>
    obtain ⟨fuel, rfl⟩ := Nat.exists_eq_succ_of_ne_zero (Nat.ne_zero_of_lt hfuel)
    obtain ⟨hknown, hvalue⟩ := hdomain _ (List.mem_cons_self ..)
    obtain ⟨first, rfl⟩ := hm.exists_cons
    obtain rfl : cs = first ++ after := by simpa using hall
    have hend : Follows (after ++ '\x7d' :: rest) := .append hafter (follows_cons (.inr (.inr rfl)))
    rw [List.append_assoc]
    unfold RecordType.members members?
    refine (S.answers_member r seen hm hknown hvalue hend).bind ?_
    rintro ⟨r, seen⟩ -
    exact (gives_nextMember_end hafter rest).continues.answers (S.answers_finish rest)
  | @cons _ m after before _ ms hm hafter hbefore hmore ih =>
    obtain ⟨fuel, rfl⟩ := Nat.exists_eq_succ_of_ne_zero (Nat.ne_zero_of_lt hfuel)
    obtain ⟨hknown, hvalue⟩ := hdomain _ (List.mem_cons_self ..)
    obtain ⟨first, rfl⟩ := hm.exists_cons
    obtain ⟨tail, rfl⟩ := exists_cons_of_members hmore
    obtain rfl : cs = first ++ (after ++ ',' :: (before ++ '"' :: tail)) := by simpa using hall
    have hnext : Follows (after ++ ',' :: (before ++ '"' :: (tail ++ '\x7d' :: rest))) :=
      .append hafter (follows_cons (.inl rfl))
    rw [show first ++ (after ++ ',' :: (before ++ '"' :: tail)) ++ '\x7d' :: rest =
      first ++ (after ++ ',' :: (before ++ '"' :: (tail ++ '\x7d' :: rest))) by simp]
    unfold RecordType.members members?
    refine (S.answers_member r seen hm hknown hvalue hnext).bind ?_
    rintro ⟨r, seen⟩ -
    exact (gives_nextMember hafter hbefore _).continues.answers
      (ih (fun m hm => hdomain m (List.mem_cons_of_mem _ hm)) (Nat.le_of_succ_le_succ hfuel) rfl)

/-- An object is read as what it decodes to. -/
theorem decodes_read : Decodes t.read S.decode? S.Domain := by
  intro blanks cs v rest hblanks hs hdomain _
  obtain ⟨ms, rfl, hdomain⟩ := hdomain
  have hopened : ∀ inner, Continues t.read (blanks ++ '\x7b' :: inner)
      (do if ← firstMember then t.members ((← remaining) + 1) t.blank [] else t.finish t.blank [])
      inner := by
    intro inner
    unfold RecordType.read
    exact (continues_value hblanks (by decide)).trans (gives_advance '\x7b' inner).continues
  cases hs with
  | @emptyObject inner hinner =>
    have hfirst : Gives firstMember (inner ++ '\x7d' :: rest) false rest :=
      (gives_skipBlank_cons hinner (by decide)).bind
        ((gives_advance '\x7d' rest).bind (.pure false rest))
    rw [List.append_assoc]
    exact (hopened _).answers (hfirst.continues.answers (S.answers_finish rest))
  | @object before _ ms hbefore hs =>
    obtain ⟨tail, rfl⟩ := exists_cons_of_members hs
    have hfirst : Gives firstMember (before ++ '"' :: (tail ++ '\x7d' :: rest)) true
        (tail ++ '\x7d' :: rest) :=
      (gives_skipBlank_cons hbefore (by decide)).bind ((gives_advance '"' _).bind (.pure true _))
    have hlength := hs.length_le fun {cs m} hm => by
      obtain ⟨tail, rfl⟩ := hm.exists_cons
      exact List.cons_ne_nil '"' tail
    rw [show '\x7b' :: before ++ '"' :: tail ++ ['\x7d'] ++ rest =
      '\x7b' :: (before ++ '"' :: (tail ++ '\x7d' :: rest)) by simp]
    refine (hopened _).answers (hfirst.continues.answers ((gives_remaining _).continues.answers
      (S.answers_members hs hdomain ?_ rest)))
    simp only [List.length_cons, List.length_append] at hlength ⊢
    omega

end Reading

section Describing

theorem finish?_eq_some_iff : S.finish? r₀ seen = some r ↔
    (∀ s ∈ S.slots, s.field.required = true → s.key ∈ seen) ∧ r₀ = r := by
  unfold finish?
  split
  · rename_i hall
    rw [Option.some.injEq]
    exact ⟨fun h => ⟨hall, h⟩, And.right⟩
  · rename_i hnot
    exact ⟨nofun, fun h => absurd h.1 hnot⟩

theorem member?_eq_some_iff {m : String × Value} {stored : ρ × List String} :
    S.member? r₀ seen m = some stored ↔ ∃ s ∈ S.slots, s.key = m.1 ∧ m.1 ∉ seen ∧
      ∃ a, s.decode m.2 = some a ∧ (s.set a r₀, m.1 :: seen) = stored := by
  unfold member?
  constructor
  · intro h
    obtain ⟨s, hs, h⟩ := Option.bind_eq_some_iff.mp h
    split at h
    · exact nomatch h
    · rename_i hseen
      exact ⟨s, S.mem_of_slot? hs, S.key_of_slot? hs, hseen, Option.map_eq_some_iff.mp h⟩
  · rintro ⟨s, hs, hkey, hseen, a, ha, rfl⟩
    rw [← hkey, S.slot?_key hs, hkey, Option.bind_some, if_neg hseen, ha]
    rfl

/-- What is stored, told of every field: a member has it, or it is as it was. -/
theorem members?_eq_some_iff : S.members? r₀ seen ms = some r ↔
    ms.map Prod.fst ⊆ S.slots.map Slot.key ∧ (ms.map Prod.fst).Nodup ∧
      (∀ k ∈ ms.map Prod.fst, k ∉ seen) ∧ ∀ s ∈ S.slots,
        (∃ v, (s.key, v) ∈ ms ∧ s.decode v = some (s.get r)) ∨
          s.key ∉ ms.map Prod.fst ∧ (s.field.required = true → s.key ∈ seen) ∧
            s.get r = s.get r₀ := by
  induction ms generalizing r₀ seen with
  | nil =>
    unfold members?
    rw [S.finish?_eq_some_iff]
    constructor
    · rintro ⟨hall, rfl⟩
      exact ⟨List.nil_subset _, List.nodup_nil, nofun,
        fun s hs => .inr ⟨List.not_mem_nil, hall s hs, rfl⟩⟩
    · rintro ⟨-, -, -, hslots⟩
      have hkept := fun s hs => (hslots s hs).resolve_left fun ⟨v, hv, _⟩ => List.not_mem_nil hv
      exact ⟨fun s hs => (hkept s hs).2.1, S.ext _ _ fun s hs => (hkept s hs).2.2.symm⟩
  | cons m ms ih =>
    obtain ⟨k, v⟩ := m
    unfold members?
    rw [Option.bind_eq_some_iff, List.map_cons]
    constructor
    · rintro ⟨stored, hstored, hms⟩
      obtain ⟨s, hs, rfl, hseen, a, ha, rfl⟩ := S.member?_eq_some_iff.mp hstored
      obtain ⟨hknown, hnodup, hunseen, hslots⟩ := ih.mp hms
      have hfresh : s.key ∉ ms.map Prod.fst := fun hin => hunseen _ hin (List.mem_cons_self ..)
      refine ⟨List.cons_subset.mpr ⟨List.mem_map_of_mem hs, hknown⟩,
        List.nodup_cons.mpr ⟨hfresh, hnodup⟩, List.forall_mem_cons.mpr ⟨hseen, fun k hk hin =>
          hunseen k hk (List.mem_cons_of_mem _ hin)⟩, fun s' hs' => ?_⟩
      by_cases hkey : s'.key = s.key
      · -- The field of the first member: the others cannot have it again.
        obtain rfl := S.eq_of_key hs' hs hkey
        rcases hslots s' hs' with ⟨w, hw, -⟩ | ⟨-, -, hget⟩
        · exact absurd (List.mem_map_of_mem hw) hfresh
        · exact .inl ⟨v, List.mem_cons_self .., by rw [hget, s'.get_set, ha]⟩
      · rcases hslots s' hs' with ⟨w, hw, hdecode⟩ | ⟨hnot, hrequired, hget⟩
        · exact .inl ⟨w, List.mem_cons_of_mem _ hw, hdecode⟩
        · refine .inr ⟨fun hin => hnot ((List.mem_cons.mp hin).resolve_left hkey),
            fun h => (List.mem_cons.mp (hrequired h)).resolve_left hkey, ?_⟩
          rw [hget, S.get_set_of_ne hs hs' hkey]
    · rintro ⟨hknown, hnodup, hunseen, hslots⟩
      obtain ⟨hin, hmore⟩ := List.cons_subset.mp hknown
      obtain ⟨s, hs, rfl⟩ := List.mem_map.mp hin
      obtain ⟨hfresh, hnodup⟩ := List.nodup_cons.mp hnodup
      obtain ⟨hseen, hunseen⟩ := List.forall_mem_cons.mp hunseen
      have hdecode : s.decode v = some (s.get r) := by
        rcases hslots s hs with ⟨w, hw, hdecode⟩ | ⟨hnot, -⟩
        · rcases List.mem_cons.mp hw with heq | hw
          · exact (Prod.mk.inj heq).2 ▸ hdecode
          · exact absurd (List.mem_map_of_mem hw) hfresh
        · exact absurd (List.mem_cons_self ..) hnot
      refine ⟨_, S.member?_eq_some_iff.mpr ⟨s, hs, rfl, hseen, _, hdecode, rfl⟩,
        ih.mpr ⟨hmore, hnodup, fun k hk hin => ?_, fun s' hs' => ?_⟩⟩
      · rcases List.mem_cons.mp hin with rfl | hin
        · exact hfresh hk
        · exact hunseen k hk hin
      · by_cases hkey : s'.key = s.key
        · obtain rfl := S.eq_of_key hs' hs hkey
          exact .inr ⟨hfresh, fun _ => List.mem_cons_self .., (s'.get_set _ _).symm⟩
        · rcases hslots s' hs' with ⟨w, hw, hdecode⟩ | ⟨hnot, hrequired, hget⟩
          · have hmore : (s'.key, w) ∈ ms :=
              (List.mem_cons.mp hw).resolve_left fun heq => hkey (Prod.mk.inj heq).1
            exact .inl ⟨w, hmore, hdecode⟩
          · refine .inr ⟨fun hin => hnot (List.mem_cons_of_mem _ hin),
              fun h => List.mem_cons_of_mem _ (hrequired h), ?_⟩
            rw [hget, S.get_set_of_ne hs hs' hkey]

/-- An object decodes to the records that its members describe. -/
theorem decode?_eq_some_iff {v : Value} : S.decode? v = some r ↔ v.IsObject S.Describes r := by
  have hobject : ∀ ms, S.members? t.blank [] ms = some r ↔ S.Describes ms r := by
    intro ms
    rw [S.members?_eq_some_iff]
    constructor
    · rintro ⟨hknown, honce, -, hslots⟩
      refine ⟨hknown, honce, fun s hs => (hslots s hs).imp id ?_⟩
      rintro ⟨hnot, hrequired, hget⟩
      exact ⟨hnot, Bool.eq_false_iff.mpr fun h => List.not_mem_nil (hrequired h), hget⟩
    · rintro ⟨hknown, honce, hholds⟩
      refine ⟨hknown, honce, fun _ _ => List.not_mem_nil, fun s hs => (hholds s hs).imp id ?_⟩
      rintro ⟨hnot, hoptional, hget⟩
      exact ⟨hnot, fun h => absurd h (Bool.eq_false_iff.mp hoptional), hget⟩
  cases v with
  | object ms => simp [decode?, Value.IsObject, hobject]
  | _ => simp [decode?, Value.IsObject]

end Describing

end Schema

section Told

variable {ρ α : Type} {read : Reader α} {decode : Value → Option α} {domain : Value → Prop}
  {R : Value → α → Prop} {key : String} {ms : List (String × Value)} {get : ρ → α}
  {set : α → ρ → ρ} {hset : ∀ a r, get (set a r) = a}

/-- A member that may be absent or `null`, and says nothing then. -/
inductive OptionalMember (R : Value → α → Prop) (key : String) (ms : List (String × Value)) :
    Option α → Prop
  | present {v a} : (key, v) ∈ ms → R v a → OptionalMember R key ms (some a)
  | null : (key, .null) ∈ ms → OptionalMember R key ms none
  | absent : key ∉ ms.map Prod.fst → OptionalMember R key ms none

/-- A list that may be absent, and is empty then. -/
inductive ListedMember (R : Value → α → Prop) (key : String) (ms : List (String × Value)) :
    List α → Prop
  | present {v as} : (key, v) ∈ ms → v.IsList R as → ListedMember R key ms as
  | absent : key ∉ ms.map Prod.fst → ListedMember R key ms []

namespace Slot

/-- A field of texts that has to be there holds the text of its member. -/
theorem holds_text_iff {get : ρ → String} {set : String → ρ → ρ}
    {hset : ∀ a r, get (set a r) = a} {default s : String} :
    (mandatory key decodes_text get set hset).Holds ms default s ↔ (key, .text s) ∈ ms := by
  constructor
  · rintro (⟨v, hv, hdecode⟩ | ⟨-, hoptional, -⟩)
    · obtain rfl := (Value.text?_eq_some_iff _ _).mp hdecode
      exact hv
    · exact absurd hoptional.symm Bool.false_ne_true
  · intro hv
    exact .inl ⟨_, hv, rfl⟩

/-- A field that may be `null` holds what its member says. -/
theorem holds_optional_iff {h : Decodes (optional read) (Value.optional? decode) domain}
    {get : ρ → Option α} {set : Option α → ρ → ρ} {hset : ∀ a r, get (set a r) = a}
    (hR : ∀ v a, decode v = some a ↔ R v a) (hnull : decode .null = none) {a : Option α} :
    (defaulted key h get set hset).Holds ms none a ↔ OptionalMember R key ms a := by
  constructor
  · rintro (⟨v, hv, hdecode⟩ | ⟨habsent, -, rfl⟩)
    · by_cases hn : v = .null
      · subst hn
        obtain rfl : none = a := Option.some.inj hdecode
        exact .null hv
      · obtain ⟨b, hb, rfl⟩ := Option.map_eq_some_iff.mp
          ((Value.optional?_of_ne_null hn decode).symm.trans hdecode)
        exact .present hv ((hR v b).mp hb)
    · exact .absent habsent
  · rintro (⟨hv, hb⟩ | hv | habsent)
    · rename_i v b
      have hdecode := (hR v b).mpr hb
      have hn : v ≠ .null := by
        rintro rfl
        exact nomatch hnull.symm.trans hdecode
      exact .inl ⟨v, hv,
        (Value.optional?_of_ne_null hn decode).trans (congrArg (Option.map some) hdecode)⟩
    · exact .inl ⟨.null, hv, rfl⟩
    · exact .inr ⟨habsent, rfl, rfl⟩

/-- A field of a list holds the items of its member. -/
theorem holds_listed_iff {h : Decodes (list read) (Value.list? decode) domain}
    {get : ρ → List α} {set : List α → ρ → ρ} {hset : ∀ a r, get (set a r) = a}
    (hR : ∀ v a, decode v = some a ↔ R v a) {as : List α} :
    (defaulted key h get set hset).Holds ms [] as ↔ ListedMember R key ms as := by
  constructor
  · rintro (⟨v, hv, hdecode⟩ | ⟨habsent, -, rfl⟩)
    · exact .present hv ((Value.list?_eq_some_iff hR _ _).mp hdecode)
    · exact .absent habsent
  · rintro (⟨hv, has⟩ | habsent)
    · exact .inl ⟨_, hv, (Value.list?_eq_some_iff hR _ _).mpr has⟩
    · exact .inr ⟨habsent, rfl, rfl⟩

end Slot

end Told

end ViewBinding.Json
