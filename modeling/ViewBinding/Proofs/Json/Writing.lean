import ViewBinding.Proofs.Json.Records

/-!
# What is written

A value is spelled as it is written: every character of a text with the escape that it needs, and
the items and members on lines of their own, which only adds blanks between them. This is told of
the values without numbers. The members that write a record describe it, and some of them describe
the record that has those fields only.
-/

namespace ViewBinding.Json

section Texts

/-- Two digits tell a control character. -/
theorem hexQuad?_digitChar (n : Nat) (h : n < 0x20) :
    hexQuad? ['0', '0', Nat.digitChar (n / 16), Nat.digitChar (n % 16)] = some n := by
  have hall : ∀ n < 0x20,
      hexQuad? ['0', '0', Nat.digitChar (n / 16), Nat.digitChar (n % 16)] = some n := by decide
  exact hall n h

/-- A character is written with the escape that it needs. -/
theorem charSpelled_writtenChar (c : Char) : CharSpelled (writtenChar c) c := by
  by_cases hescaped : c = '"' ∨ c = '\\' ∨ c = '\x08' ∨ c = '\x0c' ∨ c = '\n' ∨ c = '\r' ∨ c = '\t'
  · rcases hescaped with rfl | rfl | rfl | rfl | rfl | rfl | rfl <;> exact .letter rfl
  obtain ⟨hquote, hback, hb, hf, hn, hr, ht⟩ : c ≠ '"' ∧ c ≠ '\\' ∧ c ≠ '\x08' ∧ c ≠ '\x0c' ∧
      c ≠ '\n' ∧ c ≠ '\r' ∧ c ≠ '\t' := by simpa [not_or] using hescaped
  by_cases hcontrol : c.toNat < 0x20
  · have hquad := CharSpelled.quad (hexQuad?_digitChar c.toNat hcontrol) (by omega)
    rw [Char.ofNat_toNat] at hquad
    simpa [writtenChar, hquote, hback, hb, hf, hn, hr, ht, hcontrol] using hquad
  · have hplain := CharSpelled.plain (decide_eq_false hcontrol) hquote hback
    simpa [writtenChar, hquote, hback, hb, hf, hn, hr, ht, hcontrol] using hplain

theorem charsSpelled_writtenChar (cs : List Char) : CharsSpelled (cs.flatMap writtenChar) cs := by
  induction cs with
  | nil => exact .nil
  | cons c cs ih => exact .cons (charSpelled_writtenChar c) ih

/-- A text is spelled as it is written. -/
theorem textSpelled_writtenText (s : String) : TextSpelled (writtenText s) s :=
  .quoted (charsSpelled_writtenChar s.toList)

end Texts

section Lines

variable {α : Type} {P : List Char → α → Prop} {write : α → List Char} {before after : List Char}

theorem isBlank_newLine (depth : Nat) : IsBlank (newLine depth) := by
  intro c hc
  rcases List.mem_cons.mp hc with rfl | hc
  · rfl
  · exact (List.eq_of_mem_replicate hc) ▸ rfl

/-- What is written after the first item, each time after a comma and blanks, is separated. -/
theorem separated_flatMap (hbefore : IsBlank before) (hafter : IsBlank after) (a : α) (as : List α)
    (h : ∀ x ∈ a :: as, P (write x) x) :
    Separated P (write a ++ as.flatMap (fun x => ',' :: before ++ write x) ++ after) (a :: as) := by
  induction as generalizing a with
  | nil => simpa using Separated.one (h a (List.mem_cons_self ..)) hafter
  | cons b as ih =>
    have hmore := ih b fun x hx => h x (List.mem_cons_of_mem a hx)
    simpa using Separated.cons (h a (List.mem_cons_self ..)) .nil hbefore hmore

end Lines

namespace Value

/-- There is no number in the value. -/
inductive NumberFree : Value → Prop
  | null : NumberFree .null
  | boolean (b : Bool) : NumberFree (.boolean b)
  | text (s : String) : NumberFree (.text s)
  | list {vs} : (∀ v ∈ vs, NumberFree v) → NumberFree (.list vs)
  | object {ms} : (∀ m ∈ ms, NumberFree m.2) → NumberFree (.object ms)

theorem writtenItems_eq_flatMap (depth : Nat) (vs : List Value) :
    writtenItems depth vs = vs.flatMap fun v => ',' :: newLine depth ++ v.written depth := by
  induction vs with
  | nil => rfl
  | cons v vs ih => simp [writtenItems, ih]

/-- A member as it is written. -/
def writtenMember (depth : Nat) (m : String × Value) : List Char :=
  writtenText m.1 ++ ": ".toList ++ m.2.written depth

theorem writtenMembers_eq_flatMap (depth : Nat) (ms : List (String × Value)) :
    writtenMembers depth ms =
      ms.flatMap fun m => ',' :: newLine depth ++ writtenMember depth m := by
  induction ms with
  | nil => rfl
  | cons m ms ih => simp [writtenMembers, writtenMember, ih]

/-- A value without numbers is spelled as it is written, at any depth. -/
theorem NumberFree.spelled_written {v : Value} (h : v.NumberFree) (depth : Nat) :
    Spelled (v.written depth) v := by
  induction h generalizing depth with
  | null => exact .null
  | boolean b => exact .boolean b
  | text s => exact .text (textSpelled_writtenText s)
  | @list vs _ ih =>
    cases vs with
    | nil => exact .emptyList .nil
    | cons v vs =>
      have hitems := separated_flatMap (isBlank_newLine (depth + 1)) (isBlank_newLine depth) v vs
        fun w hw => ih w hw (depth + 1)
      have hlist := Spelled.list (isBlank_newLine (depth + 1)) hitems
      rw [← writtenItems_eq_flatMap] at hlist
      simpa [written] using hlist
  | @object ms _ ih =>
    cases ms with
    | nil => exact .emptyObject .nil
    | cons m ms =>
      have hspace : IsBlank [' '] := by simp [IsBlank, isBlank]
      have hmember : ∀ x ∈ m :: ms, MemberSpelled Spelled (writtenMember (depth + 1) x) x := by
        intro x hx
        have hx := MemberSpelled.mk (textSpelled_writtenText x.1) .nil hspace (ih x hx (depth + 1))
        simpa [writtenMember] using hx
      have hmembers := separated_flatMap (isBlank_newLine (depth + 1)) (isBlank_newLine depth) m ms
        hmember
      have hobject := Spelled.object (isBlank_newLine (depth + 1)) hmembers
      rw [← writtenMembers_eq_flatMap] at hobject
      simpa [written, writtenMember] using hobject

/-- A document without numbers spells the value that it was written from. -/
theorem NumberFree.documentSpelled {v : Value} (h : v.NumberFree) :
    DocumentSpelled v.document v :=
  .mk .nil (h.spelled_written 0) .nil (by simp [document])

end Value

section Parts

variable {ρ : Type} {t : RecordType ρ} (S : Schema t) {r part : ρ}
  {full ms : List (String × Value)}

/-- The members that write a record with every field. -/
structure Schema.Writes (full : List (String × Value)) (r : ρ) : Prop where
  keys : full.map Prod.fst = S.slots.map Slot.key
  decodes : ∀ s ∈ S.slots, ∀ v, (s.key, v) ∈ full → s.decode v = some (s.get r)

/-- Some of the members of a record, in any order, describe the record that has those fields. -/
theorem Schema.Writes.describes (h : S.Writes full r) (hms : ms ⊆ full)
    (honce : (ms.map Prod.fst).Nodup) (hoptional : ∀ s ∈ S.slots, s.field.required = false)
    (hpart : ∀ s ∈ S.slots,
      s.get part = if s.key ∈ ms.map Prod.fst then s.get r else s.get t.blank) :
    S.Describes ms part where
  known := h.keys ▸ List.map_subset Prod.fst hms
  once := honce
  holds s hs := by
    by_cases hin : s.key ∈ ms.map Prod.fst
    · obtain ⟨⟨k, v⟩, hv, hkey⟩ := List.mem_map.mp hin
      have hv : (s.key, v) ∈ ms := hkey ▸ hv
      exact .inl ⟨v, hv, by rw [hpart s hs, if_pos hin, h.decodes s hs v (hms hv)]⟩
    · exact .inr ⟨hin, hoptional s hs, by rw [hpart s hs, if_neg hin]⟩

end Parts

end ViewBinding.Json
