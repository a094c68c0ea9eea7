import ViewBinding.Table

/-!
# File trees

A tree of directories, files and symbolic links, as a table from places to entries. A place is the
list of names on the way from the root, and the root is always a directory. In a well-formed tree
no place is listed twice and every entry lies in a directory.

A file holds bytes, which may or may not be text. An operation on a tree may be refused.
-/

namespace ViewBinding

/-- The bytes of a file. -/
abbrev Content := ByteArray

namespace Content

/-- Contents are equal when all their bytes are. -/
instance decidableEq : DecidableEq Content := ByteArray.instDecidableEq

/-- The content of a text. -/
def ofText (s : String) : Content := s.toUTF8

/-- The text of a content that is well-formed UTF-8. -/
def text? (c : Content) : Option String := String.fromUTF8? c

end Content

/-- The cause of a refused file operation. -/
inductive FileFault where
  | notFound
  | alreadyExists
  | notDirectory
  | isDirectory
  | nameTooLong
  | tooManyLinks
  | nulInName
  | notText
  deriving DecidableEq, Repr

/-- The text of a refusal; those of the operating system carry its number. -/
def FileFault.message : FileFault → String
  | notFound => "No such file or directory (os error 2)"
  | alreadyExists => "File exists (os error 17)"
  | notDirectory => "Not a directory (os error 20)"
  | isDirectory => "Is a directory (os error 21)"
  | nameTooLong => "File name too long (os error 36)"
  | tooManyLinks => "Too many levels of symbolic links (os error 40)"
  | nulInName => "file name contained an unexpected NUL byte"
  | notText => "stream did not contain valid UTF-8"

/-- The names on the way from the root to an entry. -/
abbrev Place := List String

/-- Does a place come first, or are both the same? A place comes before what lies under it, and else
the first names that differ decide. -/
def Place.precedes : Place → Place → Bool
  | [], _ => true
  | _ :: _, [] => false
  | a :: p, b :: q => if a = b then precedes p q else a < b

/-- What is found at a place. -/
inductive Entry where
  | directory
  | file (content : Content)
  | link (target : String)
  deriving DecidableEq

/-- The entries below the root. -/
structure FileTree where
  entries : Table Place Entry := []
  deriving DecidableEq

namespace FileTree

/-- The entry at a place. -/
def get? (t : FileTree) : Place → Option Entry
  | [] => some .directory
  | p => t.entries.get? p

/-- The tree with an entry put at a place, over what was there. -/
def insert (t : FileTree) (p : Place) (e : Entry) : FileTree := ⟨t.entries.insert p e⟩

/-- The root is a directory. -/
@[simp]
theorem get?_root (t : FileTree) : t.get? [] = some .directory := rfl

/-- An entry that was put at a place below the root is found there. -/
theorem get?_insert_self (t : FileTree) {p : Place} (hp : p ≠ []) (e : Entry) :
    (t.insert p e).get? p = some e := by
  cases p with
  | nil => exact absurd rfl hp
  | cons name rest => exact Table.get?_insert_self t.entries (name :: rest) e

/-- Putting an entry changes nothing at other places. -/
theorem get?_insert_of_ne (t : FileTree) {p q : Place} (h : q ≠ p) (e : Entry) :
    (t.insert p e).get? q = t.get? q := by
  cases q with
  | nil => rfl
  | cons name rest => exact Table.get?_insert_of_ne h

/-- The names in a directory, in ascending order. -/
def names (t : FileTree) (p : Place) : List String :=
  let inside := t.entries.filterMap fun x =>
    if x.1.dropLast = p then x.1.getLast? else none
  inside.mergeSort fun a b => a ≤ b

/-- The places under a place, directories before what they hold, each with its siblings in
ascending order. -/
def below (t : FileTree) (p : Place) : List Place :=
  let under := t.entries.keys.filter fun q => p.isPrefixOf q && q != p
  under.mergeSort Place.precedes

/-- No place is listed twice, and every entry lies in a directory. -/
def WellFormed (t : FileTree) : Prop :=
  t.entries.keys.Nodup ∧ ∀ p ∈ t.entries.keys, p ≠ [] ∧ t.get? p.dropLast = some .directory

/-- The empty tree is well formed. -/
theorem wellFormed_empty : WellFormed {} := ⟨List.nodup_nil, fun _ h => absurd h List.not_mem_nil⟩

/-- A tree stays well formed when an entry is put into one of its directories and covers none of
them. -/
theorem WellFormed.insert {t : FileTree} (ht : t.WellFormed) {p : Place} {e : Entry} (hp : p ≠ [])
    (habove : t.get? p.dropLast = some .directory)
    (hkeep : t.get? p = some .directory → e = .directory) : (t.insert p e).WellFormed := by
  have hkept : ∀ q, t.get? q = some .directory → (t.insert p e).get? q = some .directory := by
    intro q hq
    by_cases h : q = p
    · subst h
      rw [get?_insert_self t hp, hkeep hq]
    · rw [get?_insert_of_ne t h, hq]
  refine ⟨Table.nodup_keys_insert ht.1 p e, fun q hq => ?_⟩
  have hmem : q ∈ t.entries.keys ∨ q = p := by
    have h : q ∈ Table.keys (Table.insert p e t.entries) := hq
    rw [Table.keys_insert] at h
    by_cases hin : p ∈ t.entries.keys
    · rw [if_pos hin] at h
      exact .inl h
    · rw [if_neg hin, List.mem_append, List.mem_singleton] at h
      exact h
  rcases hmem with h | rfl
  · exact ⟨(ht.2 q h).1, hkept _ (ht.2 q h).2⟩
  · exact ⟨hp, hkept _ habove⟩

end FileTree

end ViewBinding
