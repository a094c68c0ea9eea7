import ViewBinding.Proofs.Path.Names

/-!
# Plain trees

A plain tree is one that a file system can hold, without symbolic links: every entry lies in
directories, under names that are allowed. There a path without double dots is settled by its text
and by the entry at its place, so it leads to the same thing in every tree with the same entry.
-/

namespace ViewBinding

open Workspace

/-- A tree that a file system can hold, without symbolic links. -/
structure FileTree.Plain (t : FileTree) : Prop where
  wellFormed : t.WellFormed
  linkFree : t.LinkFree
  named : ∀ p ∈ t.entries.keys, ∀ s ∈ p, Path.IsName s ∧ Enters s

/-- A workspace in a directory of a plain tree. -/
structure Workspace.Plain (w : Workspace) : Prop where
  tree : w.tree.Plain
  here : w.tree.get? w.here = some .directory

/-- A path that goes up nowhere. -/
def Path.Descends (p : Path) : Prop := ".." ∉ p.names

instance (p : Path) : Decidable p.Descends := inferInstanceAs (Decidable (".." ∉ p.names))

/-- A path whose last piece is a name, so that it may lead to a file. -/
def Path.EndsInName (p : Path) : Prop := (steps p.text).getLast? ≠ some "."

namespace FileTree

instance (t : FileTree) : Decidable t.WellFormed :=
  inferInstanceAs (Decidable (t.entries.keys.Nodup ∧
    ∀ p ∈ t.entries.keys, p ≠ [] ∧ t.get? p.dropLast = some .directory))

variable {t : FileTree} {p q : Place} {e : Entry}

/-- An entry is at the root or is listed. -/
theorem isSome_get? : (t.get? p).isSome ↔ p = [] ∨ p ∈ t.entries.keys := by
  cases p with
  | nil => simp
  | cons name rest => simp [get?, Table.isSome_get?]

/-- An entry lies in a directory. -/
theorem Plain.get?_dropLast (h : t.Plain) (hp : t.get? p = some e) :
    t.get? p.dropLast = some .directory := by
  rcases isSome_get?.mp (by rw [hp]; rfl) with rfl | hin
  · rfl
  · exact (h.wellFormed.2 p hin).2

/-- All entries on the way to an entry are directories. -/
theorem Plain.get?_of_above (h : t.Plain) (hp : t.get? p = some e) (hq : q <+: p) (hne : q ≠ p) :
    t.get? q = some .directory := by
  induction p using List.reverseRecOn generalizing e with
  | nil => exact absurd (List.prefix_nil.mp hq) hne
  | append_singleton front s ih =>
    have habove : t.get? front = some .directory := by
      simpa using h.get?_dropLast hp
    rcases List.prefix_concat_iff.mp hq with hwhole | hfront
    · exact absurd hwhole hne
    · by_cases hlast : q = front
      · rw [hlast, habove]
      · exact ih habove hfront hlast

/-- On the way to a directory there are directories only. -/
theorem Plain.get?_of_above_directory (h : t.Plain) (hp : t.get? p = some .directory)
    (hq : q <+: p) : t.get? q = some .directory := by
  by_cases hne : q = p
  · rw [hne, hp]
  · exact h.get?_of_above hp hq hne

/-- The names on the way to an entry are allowed. -/
theorem Plain.enters (h : t.Plain) (hp : t.get? p = some e) :
    ∀ s ∈ p, Path.IsName s ∧ Enters s := by
  rcases isSome_get?.mp (by rw [hp]; rfl) with rfl | hin
  · exact nofun
  · exact h.named p hin

/-- A name is listed in a directory if its place has an entry. -/
theorem mem_names {name : String} : name ∈ t.names p ↔ p ++ [name] ∈ t.entries.keys := by
  simp only [names, List.mem_mergeSort, List.mem_filterMap, Table.keys, List.mem_map]
  constructor
  · rintro ⟨x, hx, hname⟩
    split at hname
    · rename_i hdrop
      refine ⟨x, hx, ?_⟩
      obtain ⟨front, hfront⟩ := List.getLast?_eq_some_iff.mp hname
      rw [hfront, List.dropLast_concat] at hdrop
      rw [hfront, hdrop]
    · exact nomatch hname
  · rintro ⟨x, hx, hplace⟩
    exact ⟨x, hx, by rw [hplace]; simp⟩

/-- A place is listed under another if it goes on from it and has an entry. -/
theorem mem_below : q ∈ t.below p ↔ q ∈ t.entries.keys ∧ p <+: q ∧ q ≠ p := by
  simp [below, List.mem_mergeSort]

/-- A well-formed tree is plain if the entries that are listed are no links and have names that are
allowed. -/
theorem plain_of_entries (h : t.WellFormed) (hlinks : ∀ x ∈ t.entries, ∀ target, x.2 ≠ .link target)
    (hnames : ∀ p ∈ t.entries.keys, ∀ s ∈ p, (s ≠ "" ∧ '/' ∉ s.toList) ∧ s ≠ "." ∧ s ≠ ".." ∧
      s.utf8ByteSize ≤ maxNameBytes) : t.Plain := by
  refine ⟨h, linkFree_of_entries hlinks, fun p hp s hs => ?_⟩
  obtain ⟨hname, hdot, hdots, hfits⟩ := hnames p hp s hs
  exact ⟨hname, hdot, hdots, hfits⟩

end FileTree

/-- Names without double dots lead below, by those that are no dots. -/
theorem Place.follow_eq_append {steps : List String} (h : ".." ∉ steps) (place : Place) :
    place.follow steps = place ++ steps.filter (· ≠ ".") := by
  induction steps generalizing place with
  | nil => simp
  | cons name steps ih =>
    have hrest : ".." ∉ steps := fun hin => h (List.mem_cons_of_mem _ hin)
    by_cases hdot : name = "."
    · rw [hdot, Place.follow_current, ih hrest]
      simp
    · have hdots : name ≠ ".." := fun he => h (he ▸ List.mem_cons_self ..)
      rw [Place.follow_name hdot hdots, ih hrest, List.filter_cons_of_pos (by simpa using hdot),
        List.append_assoc, List.singleton_append]

namespace Workspace

section Ways

variable {t : FileTree} {place p : Place} {steps : List String} {e : Entry}

/-- A way that goes up nowhere ends at an entry of the tree, and at a directory if a dot asks for
one. -/
theorem Way.get?_eq {r : Located} (hway : Way t place steps r) (hdots : ".." ∉ steps)
    (hstart : t.get? place = some .directory) (hr : r = .present p e) :
    t.get? p = some e ∧ (e = .directory ∨ steps.getLast? ≠ some ".") := by
  induction hway with
  | arrived =>
    cases hr
    exact ⟨hstart, .inl rfl⟩
  | @stay place names r hway ih =>
    obtain ⟨hentry, hend⟩ := ih (fun hin => hdots (List.mem_cons_of_mem _ hin)) hstart hr
    refine ⟨hentry, ?_⟩
    cases names with
    | nil =>
      cases hway
      cases hr
      exact .inl rfl
    | cons name names => simpa using hend
  | leave => exact absurd (List.mem_cons_self ..) hdots
  | @enter place name names r henters hnext hway ih =>
    obtain ⟨hentry, hend⟩ := ih (fun hin => hdots (List.mem_cons_of_mem _ hin)) hnext hr
    refine ⟨hentry, ?_⟩
    cases names with
    | nil =>
      cases hway
      cases hr
      exact .inl rfl
    | cons name names => simpa using hend
  | free => exact nomatch hr
  | file henters hentry =>
    cases hr
    exact ⟨hentry, .inr (by simpa using henters.not_dot)⟩

/-- In a plain tree there is a way to every entry. -/
theorem way_of_get? (ht : t.Plain) (hdots : ".." ∉ steps)
    (hstart : t.get? place = some .directory) (hentry : t.get? (place.follow steps) = some e)
    (hend : e = .directory ∨ steps.getLast? ≠ some ".") :
    Way t place steps (.present (place.follow steps) e) := by
  induction steps generalizing place with
  | nil =>
    obtain rfl := Option.some.inj (hentry.symm.trans hstart)
    exact .arrived
  | cons name names ih =>
    have hrest : ".." ∉ names := fun hin => hdots (List.mem_cons_of_mem _ hin)
    by_cases hdot : name = "."
    · subst hdot
      refine .stay (ih hrest hstart hentry ?_)
      cases names with
      | nil => exact .inl (by simpa using hend)
      | cons next names => simpa using hend
    have hname : name ≠ ".." := fun he => hdots (he ▸ List.mem_cons_self ..)
    rw [Place.follow_name hdot hname] at hentry ⊢
    have hplace := Place.follow_eq_append hrest (place ++ [name])
    have henters : Enters name := by
      refine (ht.enters hentry name ?_).2
      rw [hplace]
      simp
    by_cases hlast : names.filter (· ≠ ".") = []
    · rw [hlast, List.append_nil] at hplace
      have hhere := hentry
      rw [hplace] at hhere ⊢
      cases e with
      | directory =>
        have hway := ih hrest hhere hentry (.inl rfl)
        rw [hplace] at hway
        exact .enter henters hhere hway
      | file content =>
        -- Only dots could follow, and a dot asks for a directory.
        cases names with
        | nil => exact .file henters hhere
        | cons next names =>
          have hdots : ∀ s ∈ next :: names, s = "." := by simpa using hlast
          have hfinal := hdots _ (List.getLast_mem (List.cons_ne_nil next names))
          refine absurd ?_ (hend.resolve_left nofun)
          rw [List.getLast?_cons_cons, List.getLast?_eq_some_getLast (List.cons_ne_nil _ _), hfinal]
      | link target => exact absurd hentry (ht.linkFree _ target)
    · have hnext : t.get? (place ++ [name]) = some .directory := by
        refine ht.get?_of_above hentry (hplace ▸ List.prefix_append ..) fun hsame => hlast ?_
        rw [hplace, List.self_eq_append_right] at hsame
        exact hsame
      refine .enter henters hnext (ih hrest hnext hentry ?_)
      cases names with
      | nil => exact absurd rfl hlast
      | cons next names => simpa using hend

end Ways

section Entries

variable {w : Workspace} {path : Path} {p : Place} {e : Entry}

/-- A path can be used if it is not empty, holds no NUL and is short enough. -/
theorem textFault?_eq_none_iff : textFault? path = none ↔
    '\x00' ∉ path.text.toList ∧ path.text ≠ "" ∧ path.text.utf8ByteSize < pathByteLimit := by
  have hnul : path.text.toList.contains '\x00' = true ↔ '\x00' ∈ path.text.toList :=
    List.contains_iff_mem
  unfold textFault?
  by_cases hin : '\x00' ∈ path.text.toList
  · simp [hin]
  · rw [if_neg (hnul.not.mpr hin), and_iff_right hin]
    by_cases hempty : path.text = ""
    · simp [hempty]
    · rw [if_neg (by simpa using hempty), and_iff_right hempty]
      by_cases hlong : pathByteLimit ≤ path.text.utf8ByteSize
      · simp [hlong]
      · simp [hlong, Nat.lt_of_not_le hlong]

/-- The steps of a path that goes up nowhere do not. -/
theorem dots_notMem_steps (h : path.Descends) : ".." ∉ steps path.text := by
  intro hin
  refine h ?_
  unfold steps at hin
  dsimp only at hin
  split at hin
  · rcases List.mem_append.mp hin with hin | hin
    · exact List.mem_filter.mpr ⟨(List.mem_filter.mp hin).1, by decide⟩
    · exact absurd (List.mem_singleton.mp hin) (by decide)
  · exact List.mem_filter.mpr ⟨(List.mem_filter.mp hin).1, by decide⟩

/-- A path begins at a directory. -/
theorem Plain.get?_origin (h : w.Plain) (text : String) :
    w.tree.get? (origin text w.here) = some .directory := by
  unfold origin
  split
  · rfl
  · exact h.here

/-- In a plain workspace, what a path leads to is the entry at its place. -/
theorem Plain.entry_eq_ok_iff (h : w.Plain) (hpath : path.Descends) {followLast : Bool} :
    w.entry path followLast = .ok (p, e) ↔ textFault? path = none ∧ p = w.placeOf path ∧
      w.tree.get? p = some e ∧ (e = .directory ∨ path.EndsInName) := by
  have hdots := dots_notMem_steps hpath
  have hstart := h.get?_origin path.text
  unfold entry locate
  cases textFault? path with
  | some fault => simp
  | none =>
    simp only [true_and]
    constructor
    · intro hentry
      cases hfollow : followWithin w.tree followLast maxLinks (origin path.text w.here)
          (steps path.text) with
      | error fault =>
        rw [hfollow] at hentry
        exact nomatch hentry
      | ok r =>
        have hway := (followWithin_eq_ok_iff h.tree.linkFree).mp hfollow
        rw [hfollow] at hentry
        cases r with
        | absent directory name => exact nomatch hentry
        | present place found =>
          obtain ⟨rfl, rfl⟩ := Prod.mk.inj (Except.ok.inj hentry)
          exact ⟨hway.place_eq, hway.get?_eq hdots hstart rfl⟩
    · rintro ⟨rfl, hentry, hend⟩
      have hway := way_of_get? h.tree hdots hstart hentry hend
      rw [(followWithin_eq_ok_iff h.tree.linkFree).mpr hway]
      rfl

theorem isDirectory_iff_entry :
    w.isDirectory path = true ↔ ∃ p, w.entry path = .ok (p, .directory) := by
  unfold isDirectory
  split
  · rename_i p heq
    simp [heq]
  · rename_i hno
    simp only [Bool.false_eq_true, false_iff]
    exact fun ⟨p, hp⟩ => hno p hp

theorem isFile_iff_entry :
    w.isFile path = true ↔ ∃ p content, w.entry path = .ok (p, .file content) := by
  unfold isFile
  split
  · rename_i p content heq
    simp [heq]
  · rename_i hno
    simp only [Bool.false_eq_true, false_iff]
    exact fun ⟨p, content, hp⟩ => hno p content hp

theorem holds_iff_entry : w.holds path = true ↔ ∃ p e, w.entry path = .ok (p, e) := by
  unfold holds
  cases w.entry path with
  | error fault => simp [Except.isOk, Except.toBool]
  | ok found =>
    simp only [Except.isOk, Except.toBool, Except.ok.injEq, true_iff]
    exact ⟨found.1, found.2, rfl⟩

theorem mem_list_iff_entry {name : String} :
    name ∈ w.list path ↔ ∃ p, w.entry path = .ok (p, .directory) ∧ name ∈ w.tree.names p := by
  unfold list
  split
  · rename_i p heq
    simp [heq]
  · rename_i hno
    simp only [List.not_mem_nil, false_iff]
    exact fun ⟨p, hp, _⟩ => hno p hp

/-- A path leads to a directory if there is one at its place. -/
theorem Plain.isDirectory_iff (h : w.Plain) (hpath : path.Descends) :
    w.isDirectory path = true ↔
      textFault? path = none ∧ w.tree.get? (w.placeOf path) = some .directory := by
  rw [isDirectory_iff_entry]
  simp only [h.entry_eq_ok_iff hpath]
  constructor
  · rintro ⟨p, htext, rfl, hdirectory, -⟩
    exact ⟨htext, hdirectory⟩
  · rintro ⟨htext, hdirectory⟩
    exact ⟨_, htext, rfl, hdirectory, by simp⟩

/-- A path leads to a file if there is one at its place and it ends in a name. -/
theorem Plain.isFile_iff (h : w.Plain) (hpath : path.Descends) :
    w.isFile path = true ↔ textFault? path = none ∧ path.EndsInName ∧
      ∃ content, w.tree.get? (w.placeOf path) = some (.file content) := by
  rw [isFile_iff_entry]
  simp only [h.entry_eq_ok_iff hpath]
  constructor
  · rintro ⟨p, content, htext, rfl, hfile, hend⟩
    exact ⟨htext, hend.resolve_left nofun, content, hfile⟩
  · rintro ⟨htext, hend, content, hfile⟩
    exact ⟨_, content, htext, rfl, hfile, .inr hend⟩

/-- A path leads to something if there is an entry at its place, and a directory if it does not end
in a name. -/
theorem Plain.holds_iff (h : w.Plain) (hpath : path.Descends) :
    w.holds path = true ↔ textFault? path = none ∧
      ∃ e, w.tree.get? (w.placeOf path) = some e ∧ (e = .directory ∨ path.EndsInName) := by
  rw [holds_iff_entry]
  simp only [h.entry_eq_ok_iff hpath]
  constructor
  · rintro ⟨p, e, htext, rfl, hentry⟩
    exact ⟨htext, e, hentry⟩
  · rintro ⟨htext, e, hentry⟩
    exact ⟨_, e, htext, rfl, hentry⟩

/-- The names in the directory of a path are those that have an entry below its place. -/
theorem Plain.mem_list_iff (h : w.Plain) (hpath : path.Descends) {name : String} :
    name ∈ w.list path ↔
      w.isDirectory path = true ∧ w.placeOf path ++ [name] ∈ w.tree.entries.keys := by
  rw [mem_list_iff_entry, isDirectory_iff_entry]
  simp only [FileTree.mem_names]
  constructor
  · rintro ⟨p, hp, hin⟩
    obtain ⟨-, rfl, -⟩ := (h.entry_eq_ok_iff hpath).mp hp
    exact ⟨⟨_, hp⟩, hin⟩
  · rintro ⟨⟨p, hp⟩, hin⟩
    obtain ⟨-, rfl, -⟩ := (h.entry_eq_ok_iff hpath).mp hp
    exact ⟨_, hp, hin⟩

end Entries

end Workspace

end ViewBinding
