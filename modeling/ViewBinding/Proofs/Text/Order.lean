import Mathlib.Data.List.Lex

/-!
# The order of texts

Texts are compared character by character. The order of their UTF-8 bytes is the same, since the
first byte of a character tells how many follow and the bits of its number come highest first.
-/

namespace ViewBinding.Text

/-- Does a text come before another in the order of their UTF-8 bytes? -/
def BytesBefore (s t : String) : Prop :=
  List.Lex (· < ·) s.toUTF8.data.toList t.toUTF8.data.toList

/-- The bytes of a text are those of its characters. -/
theorem toList_data_toUTF8 (s : String) :
    s.toUTF8.data.toList = s.toList.flatMap String.utf8EncodeChar := by
  rw [show s.toUTF8 = s.toByteArray from rfl, ← String.utf8Encode_toList, List.utf8Encode,
    List.data_toByteArray]

/-- Lists of bytes are in order if the first bytes are, and what follows is if those are equal. -/
theorem lex_cons_of_le {a b : Nat} {l m : List UInt8} (ha : a < 256) (hb : b < 256) (hle : a ≤ b)
    (hrest : a = b → List.Lex (· < ·) l m) :
    List.Lex (· < ·) (UInt8.ofNat a :: l) (UInt8.ofNat b :: m) := by
  rcases Nat.lt_or_eq_of_le hle with hlt | rfl
  · refine .rel (UInt8.lt_iff_toNat_lt.mpr ?_)
    rwa [UInt8.toNat_ofNat_of_lt' ha, UInt8.toNat_ofNat_of_lt' hb]
  · exact .cons (hrest rfl)

/-- The bytes of characters are in their order, whatever follows. -/
theorem lex_utf8EncodeChar {c d : Char} (h : c < d) (l m : List UInt8) :
    List.Lex (· < ·) (String.utf8EncodeChar c ++ l) (String.utf8EncodeChar d ++ m) := by
  have hlt : c.val.toNat < d.val.toNat := h
  have hmax : d.val.toNat < 0x110000 := by
    have hvalid := d.valid
    simp only [UInt32.isValidChar, Nat.isValidChar] at hvalid
    omega
  unfold String.utf8EncodeChar
  generalize c.val.toNat = v at hlt
  generalize d.val.toNat = w at hlt hmax
  clear h
  dsimp only
  split_ifs
  -- Different numbers of bytes are told apart by the first.
  all_goals try exact lex_cons_of_le (by omega) (by omega) (by omega) (by omega)
  · refine lex_cons_of_le (by omega) (by omega) (by omega) fun hfirst => ?_
    exact lex_cons_of_le (by omega) (by omega) (by omega) (by omega)
  · refine lex_cons_of_le (by omega) (by omega) (by omega) fun hfirst => ?_
    refine lex_cons_of_le (by omega) (by omega) (by omega) fun hsecond => ?_
    exact lex_cons_of_le (by omega) (by omega) (by omega) (by omega)
  · refine lex_cons_of_le (by omega) (by omega) (by omega) fun hfirst => ?_
    refine lex_cons_of_le (by omega) (by omega) (by omega) fun hsecond => ?_
    refine lex_cons_of_le (by omega) (by omega) (by omega) fun hthird => ?_
    exact lex_cons_of_le (by omega) (by omega) (by omega) (by omega)

/-- Texts in ascending order are in the order of their bytes. -/
theorem bytesBefore_of_lt {s t : String} (h : s < t) : BytesBefore s t := by
  have hlex : List.Lex (· < ·) s.toList t.toList := h
  rw [BytesBefore, toList_data_toUTF8, toList_data_toUTF8]
  generalize s.toList = cs at hlex
  generalize t.toList = ds at hlex
  induction hlex with
  | @nil d ds =>
    obtain ⟨x, xs, hx⟩ := List.exists_cons_of_ne_nil (String.utf8EncodeChar_ne_nil (c := d))
    rw [List.flatMap_nil, List.flatMap_cons, hx]
    exact .nil
  | rel hlt => exact lex_utf8EncodeChar hlt _ _
  | cons _ ih => exact List.Lex.append_left _ ih _

end ViewBinding.Text
