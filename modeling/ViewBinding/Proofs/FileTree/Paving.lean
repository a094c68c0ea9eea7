import ViewBinding.Proofs.FileTree.Plain
import ViewBinding.Proofs.Source.Touching

/-!
# Paving a way

Making a directory with all above it begins at the end of its path and goes up as far as something
is missing. In a plain tree this comes to walking the path from its beginning, adding each directory
that is missing, up to the first name that cannot be one. Once this was done, doing it again ends
alike and adds nothing.
-/

namespace ViewBinding

open Workspace

namespace Path

/-- The pieces of a path that are not empty. -/
def parts (p : Path) : List String := (Text.split '/' p.text).filter (· ≠ "")

/-- No dot ends the path, unless the path has no names. -/
def Trimmed (p : Path) : Prop := p.names = [] ∨ p.parts.getLast? ≠ some "."

/-- The names of a path are its parts without the dots. -/
theorem names_eq_filter_parts (p : Path) : p.names = p.parts.filter (· ≠ ".") := by
  rw [names, parts, List.filter_filter]
  refine List.filter_congr fun s _ => ?_
  by_cases hempty : s = "" <;> by_cases hdot : s = "." <;> simp [isIdle, hempty, hdot]

/-- The names of a path are the steps that it is followed by, without the dots. -/
theorem names_eq_filter_steps (p : Path) : p.names = (steps p.text).filter (· ≠ ".") := by
  have hparts := p.names_eq_filter_parts
  unfold steps
  dsimp only
  split
  · rw [List.filter_append, hparts]
    exact (List.append_nil _).symm
  · exact hparts

/-- Pieces that are put together are the last pieces of the path. -/
theorem exists_split_path (ps : Pieces) (hne : ps.body ≠ []) (h : ∀ s ∈ ps.body, '/' ∉ s.toList) :
    ∃ front, Text.split '/' ps.path.text = front ++ ps.body := by
  obtain ⟨anchor, body⟩ := ps
  cases anchor with
  | plain => exact ⟨[], Text.split_join hne h⟩
  | root =>
    refine ⟨[""], ?_⟩
    rw [← Text.split_join hne h]
    exact Text.split_append '/' "" _
  | current =>
    refine ⟨["."], Text.split_join (List.cons_ne_nil _ _) fun s hs => ?_⟩
    rcases List.mem_cons.mp hs with rfl | hs
    · decide
    · exact h s hs

/-- The path above another has no idle end. -/
theorem trimmed_of_parent? {p above : Path} (h : p.parent? = some above) : above.Trimmed := by
  rcases trimEnd_cases p.pieces.body with ⟨htrim, -⟩ | ⟨front, last, htrim, -, -, hin⟩
  · rw [parent?_of_trimEnd_nil htrim] at h
    split at h
    · obtain rfl := Option.some.inj h
      exact .inl (by decide)
    · exact nomatch h
  · rw [parent?_of_trimEnd_concat htrim] at h
    obtain rfl := Option.some.inj h
    have hslash : ∀ s ∈ trimEnd front, '/' ∉ s.toList := fun s hs =>
      slash_notMem_of_mem_body
        (((trimEnd_starts front).trans (List.prefix_append ..)).trans hin |>.subset hs)
    rcases trimEnd_cases front with ⟨hnil, -⟩ | ⟨before, final, hfinal, hidle, -, -⟩
    · left
      rw [names_path hslash, hnil]
      rfl
    · right
      obtain ⟨start, hsplit⟩ := exists_split_path ⟨p.pieces.anchor, trimEnd front⟩
        (by simp [hfinal]) hslash
      have hempty : final ≠ "" := by
        rintro rfl
        exact absurd hidle (by decide)
      have hdot : final ≠ "." := by
        rintro rfl
        exact absurd hidle (by decide)
      rw [parts, hsplit, hfinal]
      simp [hempty, hdot]

end Path

namespace FileTree

/-- Walk names from a place and add every directory that is missing, up to the first name that is
too long or has another entry. Does the walk reach its end? -/
def pave (t : FileTree) (place : Place) : List String → Bool × FileTree
  | [] => (true, t)
  | name :: rest =>
    if maxNameBytes < name.utf8ByteSize then (false, t)
    else
      match t.get? (place ++ [name]) with
      | some .directory => pave t (place ++ [name]) rest
      | some _ => (false, t)
      | none => pave (t.insert (place ++ [name]) .directory) (place ++ [name]) rest

/-- A later tree: every entry is kept, though maybe a file with another content, and none becomes a
directory or stops being one. -/
def Later (t t' : FileTree) : Prop :=
  ∀ p e, t.get? p = some e → ∃ e', t'.get? p = some e' ∧ (e' = .directory ↔ e = .directory)

section Paving

variable {t t' t'' : FileTree} {place : Place} {names : List String}

theorem Later.refl (t : FileTree) : Later t t := fun _ e h => ⟨e, h, Iff.rfl⟩

theorem Later.trans (h : Later t t') (h' : Later t' t'') : Later t t'' := by
  intro p e hp
  obtain ⟨e', hp', hsame⟩ := h p e hp
  obtain ⟨e'', hp'', hsame'⟩ := h' p e' hp'
  exact ⟨e'', hp'', hsame'.trans hsame⟩

/-- Directories stay. -/
theorem Later.directory (h : Later t t') {p : Place} (hp : t.get? p = some .directory) :
    t'.get? p = some .directory := by
  obtain ⟨e, he, hsame⟩ := h p _ hp
  rw [he, hsame.mpr rfl]

/-- What is added where nothing was makes a later tree. -/
theorem later_insert {p : Place} {e : Entry} (hp : t.get? p = none) : Later t (t.insert p e) := by
  intro q found hq
  have hne : q ≠ p := by
    rintro rfl
    exact nomatch hp.symm.trans hq
  exact ⟨found, by rw [get?_insert_of_ne t hne, hq], Iff.rfl⟩

/-- A way stops at a name that is too long. -/
theorem pave_of_long {name : String} {rest : List String}
    (h : maxNameBytes < name.utf8ByteSize) : t.pave place (name :: rest) = (false, t) := if_pos h

/-- A way goes on from a directory. -/
theorem pave_of_directory {name : String} {rest : List String}
    (h : ¬ maxNameBytes < name.utf8ByteSize) (hp : t.get? (place ++ [name]) = some .directory) :
    t.pave place (name :: rest) = t.pave (place ++ [name]) rest := by
  rw [pave, if_neg h, hp]

/-- A way stops at an entry that is no directory. -/
theorem pave_of_other {name : String} {rest : List String} {e : Entry}
    (h : ¬ maxNameBytes < name.utf8ByteSize) (hp : t.get? (place ++ [name]) = some e)
    (he : e ≠ .directory) : t.pave place (name :: rest) = (false, t) := by
  rw [pave, if_neg h, hp]
  cases e with
  | directory => exact absurd rfl he
  | file content => rfl
  | link target => rfl

/-- Where nothing is, a directory is added and the way goes on from it. -/
theorem pave_of_free {name : String} {rest : List String}
    (h : ¬ maxNameBytes < name.utf8ByteSize) (hp : t.get? (place ++ [name]) = none) :
    t.pave place (name :: rest) =
      (t.insert (place ++ [name]) .directory).pave (place ++ [name]) rest := by
  rw [pave, if_neg h, hp]

/-- What a step of paving finds. -/
theorem pave_cases (t : FileTree) (place : Place) (name : String) :
    maxNameBytes < name.utf8ByteSize ∨ ¬ maxNameBytes < name.utf8ByteSize ∧
      (t.get? (place ++ [name]) = some .directory ∨
        (∃ e, t.get? (place ++ [name]) = some e ∧ e ≠ .directory) ∨
        t.get? (place ++ [name]) = none) := by
  by_cases hlong : maxNameBytes < name.utf8ByteSize
  · exact .inl hlong
  · refine .inr ⟨hlong, ?_⟩
    cases hentry : t.get? (place ++ [name]) with
    | none => exact .inr (.inr rfl)
    | some e =>
      by_cases he : e = .directory
      · exact .inl (by rw [he])
      · exact .inr (.inl ⟨e, rfl, he⟩)

/-- Paving makes a later tree. -/
theorem later_pave (t : FileTree) (place : Place) (names : List String) :
    Later t (t.pave place names).2 := by
  induction names generalizing t place with
  | nil => exact .refl t
  | cons name rest ih =>
    rcases pave_cases t place name with hlong | ⟨hfits, hin | ⟨e, hin, he⟩ | hfree⟩
    · rw [pave_of_long hlong]
      exact .refl t
    · rw [pave_of_directory hfits hin]
      exact ih t _
    · rw [pave_of_other hfits hin he]
      exact .refl t
    · rw [pave_of_free hfits hfree]
      exact (later_insert hfree).trans (ih _ _)

/-- Paving keeps every entry that is there. -/
theorem get?_pave_of_some {p : Place} {e : Entry} (h : t.get? p = some e) (place : Place)
    (names : List String) : (t.pave place names).2.get? p = some e := by
  induction names generalizing t place with
  | nil => exact h
  | cons name rest ih =>
    rcases pave_cases t place name with hlong | ⟨hfits, hin | ⟨other, hin, he⟩ | hfree⟩
    · rw [pave_of_long hlong]
      exact h
    · rw [pave_of_directory hfits hin]
      exact ih h _
    · rw [pave_of_other hfits hin he]
      exact h
    · rw [pave_of_free hfits hfree]
      refine ih ?_ _
      rw [get?_insert_of_ne t, h]
      rintro rfl
      exact nomatch hfree.symm.trans h

/-- Once a way was paved, paving it again ends alike and adds nothing. -/
theorem pave_of_later (h : Later (t.pave place names).2 t') :
    t'.pave place names = ((t.pave place names).1, t') := by
  induction names generalizing t place with
  | nil => rfl
  | cons name rest ih =>
    have hlater := (later_pave t place (name :: rest)).trans h
    rcases pave_cases t place name with hlong | ⟨hfits, hin | ⟨e, hin, he⟩ | hfree⟩
    · rw [pave_of_long hlong, pave_of_long hlong]
    · rw [pave_of_directory hfits hin] at h ⊢
      rw [pave_of_directory hfits (hlater.directory hin)]
      exact ih h
    · obtain ⟨e', hin', hsame⟩ := hlater _ e hin
      rw [pave_of_other hfits hin he, pave_of_other hfits hin' (mt hsame.mp he)]
    · rw [pave_of_free hfits hfree] at h ⊢
      have hmade := ((later_pave (t.insert (place ++ [name]) .directory) _ rest).trans h).directory
        (get?_insert_self t (by simp) _)
      rw [pave_of_directory hfits hmade]
      exact ih h

/-- A way is paved part by part. -/
theorem pave_append (t : FileTree) (place : Place) (names more : List String) :
    t.pave place (names ++ more) =
      if (t.pave place names).1 then (t.pave place names).2.pave (place ++ names) more
      else (false, (t.pave place names).2) := by
  induction names generalizing t place with
  | nil => simp [pave]
  | cons name rest ih =>
    have hplace : place ++ name :: rest = place ++ [name] ++ rest := by simp
    rw [List.cons_append, hplace]
    rcases pave_cases t place name with hlong | ⟨hfits, hin | ⟨e, hin, he⟩ | hfree⟩
    · rw [pave_of_long hlong, pave_of_long hlong]
      rfl
    · rw [pave_of_directory hfits hin, pave_of_directory hfits hin, ih]
    · rw [pave_of_other hfits hin he, pave_of_other hfits hin he]
      rfl
    · rw [pave_of_free hfits hfree, pave_of_free hfits hfree, ih]

/-- A way that was paved to its end leads to a directory. -/
theorem get?_of_pave (hstart : t.get? place = some .directory)
    (h : (t.pave place names).1 = true) :
    (t.pave place names).2.get? (place ++ names) = some .directory := by
  induction names generalizing t place with
  | nil => simpa [pave] using hstart
  | cons name rest ih =>
    have hplace : place ++ name :: rest = place ++ [name] ++ rest := by simp
    rw [hplace]
    rcases pave_cases t place name with hlong | ⟨hfits, hin | ⟨e, hin, he⟩ | hfree⟩
    · rw [pave_of_long hlong] at h
      exact nomatch h
    · rw [pave_of_directory hfits hin] at h ⊢
      exact ih hin h
    · rw [pave_of_other hfits hin he] at h
      exact nomatch h
    · rw [pave_of_free hfits hfree] at h ⊢
      exact ih (get?_insert_self t (by simp) _) h

/-- A way to a directory needs no paving. -/
theorem Plain.pave_eq (ht : t.Plain) (h : t.get? (place ++ names) = some .directory) :
    t.pave place names = (true, t) := by
  induction names generalizing place with
  | nil => rfl
  | cons name rest ih =>
    have hplace : place ++ name :: rest = place ++ [name] ++ rest := by simp
    rw [hplace] at h
    have hin := ht.get?_of_above_directory h (List.prefix_append ..)
    have hfits := (ht.enters hin name (by simp)).2.fits
    rw [pave_of_directory (Nat.not_lt.mpr hfits) hin]
    exact ih h

/-- A tree stays plain when an entry that is no link is put into a directory, under an allowed name
and not over a directory. -/
theorem Plain.insert (ht : t.Plain) {name : String} {e : Entry}
    (hplace : t.get? place = some .directory) (hname : Path.IsName name ∧ Enters name)
    (hkeep : t.get? (place ++ [name]) = some .directory → e = .directory)
    (hlink : ∀ target, e ≠ .link target) : (t.insert (place ++ [name]) e).Plain := by
  refine ⟨ht.wellFormed.insert (by simp) (by simpa using hplace) hkeep, fun q target hq => ?_,
    fun q hq s hs => ?_⟩
  · by_cases hqp : q = place ++ [name]
    · rw [hqp, get?_insert_self t (by simp)] at hq
      exact hlink target (Option.some.inj hq)
    · rw [get?_insert_of_ne t hqp] at hq
      exact ht.linkFree q target hq
  · have hin : q ∈ t.entries.keys ∨ q = place ++ [name] := by
      have hkeys := Table.keys_insert t.entries (place ++ [name]) e
      unfold FileTree.insert at hq
      rw [hkeys] at hq
      split at hq
      · exact .inl hq
      · simpa using hq
    rcases hin with hin | rfl
    · exact ht.named q hin s hs
    · rcases List.mem_append.mp hs with hs | hs
      · exact ht.enters hplace s hs
      · exact List.mem_singleton.mp hs ▸ hname

/-- Paving with allowed names keeps a tree plain. -/
theorem Plain.pave (ht : t.Plain) (hstart : t.get? place = some .directory)
    (hnames : ∀ s ∈ names, Path.IsName s ∧ s ≠ "." ∧ s ≠ "..") : (t.pave place names).2.Plain := by
  induction names generalizing t place with
  | nil => exact ht
  | cons name rest ih =>
    have hrest : ∀ s ∈ rest, Path.IsName s ∧ s ≠ "." ∧ s ≠ ".." :=
      fun s hs => hnames s (List.mem_cons_of_mem _ hs)
    obtain ⟨hname, hdot, hdots⟩ := hnames name (List.mem_cons_self ..)
    rcases pave_cases t place name with hlong | ⟨hfits, hin | ⟨e, hin, he⟩ | hfree⟩
    · rw [pave_of_long hlong]
      exact ht
    · rw [pave_of_directory hfits hin]
      exact ih ht hin hrest
    · rw [pave_of_other hfits hin he]
      exact ht
    · rw [pave_of_free hfits hfree]
      have henters : Enters name := ⟨hdot, hdots, Nat.le_of_not_lt hfits⟩
      exact ih (ht.insert hstart ⟨hname, henters⟩ (fun _ => rfl) nofun)
        (get?_insert_self t (by simp) _) hrest

end Paving

end FileTree

namespace Workspace

section Following

variable {t : FileTree} {place : Place} {steps : List String}

/-- The way to a directory is followed to it. -/
theorem followWithin_of_directory (links : Nat) (ht : t.Plain) (hdots : ".." ∉ steps)
    (hstart : t.get? place = some .directory)
    (hend : t.get? (place ++ steps.filter (· ≠ ".")) = some .directory) :
    followWithin t true links place (steps ++ ["."]) =
      .ok (.present (place ++ steps.filter (· ≠ ".")) .directory) := by
  have hplace : place.follow (steps ++ ["."]) = place ++ steps.filter (· ≠ ".") := by
    rw [Place.follow_append, Place.follow_current, Place.follow_nil,
      Place.follow_eq_append hdots]
  have hdots' : ".." ∉ steps ++ ["."] := by simpa using hdots
  have hway := way_of_get? ht hdots' hstart (e := .directory) (hplace ▸ hend) (.inl rfl)
  rw [hplace] at hway
  exact (followWithin_eq_ok_iff ht.linkFree).mpr hway

/-- The way to a place without a directory is not followed to its end. If it does not stop where
nothing is, then it cannot be paved either. -/
theorem follow_of_missing (jump : Place → String → List String → Except FileFault Located)
    (ht : t.Plain) (hdots : ".." ∉ steps) (hstart : t.get? place = some .directory)
    (hend : t.get? (place ++ steps.filter (· ≠ ".")) ≠ some .directory) :
    ∃ fault, follow t true jump place (steps ++ ["."]) = .error fault ∧
      (fault ≠ .notFound → t.pave place (steps.filter (· ≠ ".")) = (false, t)) := by
  induction steps generalizing place with
  | nil => exact absurd (by simpa using hstart) hend
  | cons name rest ih =>
    have hrest : ".." ∉ rest := fun hin => hdots (List.mem_cons_of_mem _ hin)
    by_cases hdot : name = "."
    · subst hdot
      exact ih hrest hstart (by simpa using hend)
    have hname : name ≠ ".." := fun he => hdots (he ▸ List.mem_cons_self ..)
    rw [List.filter_cons_of_pos (by simpa using hdot)] at hend ⊢
    have hmore : (rest ++ ["."]).isEmpty = false := by simp
    rw [List.cons_append, follow, if_neg hdot, if_neg hname]
    rcases FileTree.pave_cases t place name with hlong | ⟨hfits, hin | ⟨e, hin, he⟩ | hfree⟩
    · rw [if_pos hlong]
      exact ⟨_, rfl, fun _ => FileTree.pave_of_long hlong⟩
    · rw [if_neg hfits, FileTree.pave_of_directory hfits hin]
      simp only [hin]
      exact ih hrest hin (by simpa using hend)
    · rw [if_neg hfits]
      cases e with
      | directory => exact absurd rfl he
      | file content =>
        simp only [hin, hmore, Bool.false_eq_true, if_false]
        exact ⟨_, rfl, fun _ => FileTree.pave_of_other hfits hin he⟩
      | link target => exact absurd hin (ht.linkFree _ target)
    · rw [if_neg hfits]
      simp only [hfree, hmore, Bool.false_eq_true, if_false]
      exact ⟨_, rfl, fun hnot => absurd rfl hnot⟩

/-- The same holds however many links may be followed. -/
theorem followWithin_of_missing (links : Nat) (ht : t.Plain) (hdots : ".." ∉ steps)
    (hstart : t.get? place = some .directory)
    (hend : t.get? (place ++ steps.filter (· ≠ ".")) ≠ some .directory) :
    ∃ fault, followWithin t true links place (steps ++ ["."]) = .error fault ∧
      (fault ≠ .notFound → t.pave place (steps.filter (· ≠ ".")) = (false, t)) := by
  cases links with
  | zero => exact follow_of_missing _ ht hdots hstart hend
  | succ links => exact follow_of_missing _ ht hdots hstart hend

end Following

section Making

variable {w : Workspace} {path : Path}

/-- The place of a path that goes up nowhere is where its names lead, from where it begins. -/
theorem placeOf_eq_append (hpath : path.Descends) :
    w.placeOf path = origin path.text w.here ++ path.names := by
  have hnames : path.names.filter (· ≠ ".") = path.names := by
    rw [List.filter_eq_self]
    intro s hs
    have hidle := Path.isIdle_of_mem_names hs
    have hdot : s ≠ "." := by
      rintro rfl
      exact absurd hidle (by decide)
    simpa using hdot
  rw [placeOf_eq_follow, Place.follow_eq_append hpath, hnames]

/-- A path that goes on from another by names that go up nowhere leads below it. -/
theorem placeOf_of_names_eq (hpath : path.Descends) {next : Path} {more : List String}
    (hnames : next.names = path.names ++ more)
    (hhead : next.text.toList.head? = some '/' ↔ path.text.toList.head? = some '/')
    (hmore : ".." ∉ more) : next.Descends ∧ w.placeOf next = w.placeOf path ++ more := by
  have hnext : next.Descends := by
    unfold Path.Descends
    rw [hnames]
    exact fun hin => (List.mem_append.mp hin).elim hpath hmore
  exact ⟨hnext, w.placeOf_eq_append_of_names hnames hhead hmore⟩

/-- The last of the parts of a trimmed path is the last of its names. It is split off, unless it
leads up. -/
theorem parts_of_trimmed (htrim : path.Trimmed) {front : List String} {last : String}
    (hnames : path.names = front ++ [last]) :
    path.parts = (splitLast path).1 ++ [last] ∧ (splitLast path).1.filter (· ≠ ".") = front ∧
      (splitLast path).2 = if last = ".." then none else some last := by
  have hfilter := path.names_eq_filter_parts
  have hlast : path.parts.getLast? ≠ some "." := by
    refine htrim.resolve_left fun hnil => ?_
    rw [hnames] at hnil
    exact absurd hnil (by simp)
  have hne : path.parts ≠ [] := by
    intro hnil
    rw [hnil, hnames] at hfilter
    exact absurd hfilter (by simp)
  obtain ⟨before, final, hparts⟩ : ∃ before final, path.parts = before ++ [final] :=
    ⟨_, _, (List.dropLast_concat_getLast hne).symm⟩
  have hdot : final ≠ "." := by
    rintro rfl
    exact hlast (by rw [hparts, List.getLast?_concat])
  rw [hparts, List.filter_append, List.filter_cons_of_pos (by simpa using hdot),
    List.filter_nil] at hfilter
  obtain ⟨hfront, hfinal⟩ := List.append_inj' (hfilter.symm.trans hnames) rfl
  obtain rfl := List.singleton_inj.mp hfinal
  have hsplit : splitLast path = (before, if final = ".." then none else some final) := by
    have hparts' : (Text.split '/' path.text).filter (· ≠ "") = before ++ [final] := hparts
    unfold splitLast
    simp only [hparts', List.getLast?_concat, List.dropLast_concat]
    by_cases hdots : final = ".."
    · subst hdots
      rfl
    · rw [if_neg hdots]
      split <;> simp_all
  rw [hsplit]
  exact ⟨hparts, hfront, rfl⟩

/-- The last name of a trimmed path that goes up nowhere is split off. -/
theorem splitLast_of_trimmed (hpath : path.Descends) (htrim : path.Trimmed) {front : List String}
    {last : String} (hnames : path.names = front ++ [last]) :
    (splitLast path).2 = some last ∧ (splitLast path).1.filter (· ≠ ".") = front ∧
      ".." ∉ (splitLast path).1 := by
  obtain ⟨hparts, hfront, hlast⟩ := parts_of_trimmed htrim hnames
  have hnone : ".." ∉ path.parts := by
    intro hin
    refine hpath ?_
    rw [Path.names_eq_filter_parts]
    exact List.mem_filter.mpr ⟨hin, by decide⟩
  rw [hparts] at hnone
  rw [if_neg fun hdots => hnone (by simp [hdots])] at hlast
  exact ⟨hlast, hfront, fun hin => hnone (List.mem_append_left _ hin)⟩

/-- Without a fault in its text, a path begins to be made where the names before its last lead. -/
theorem locateAbove_eq (htext : textFault? path = none) :
    w.locateAbove path =
      match followWithin w.tree true maxLinks (origin path.text w.here)
        ((splitLast path).1 ++ ["."]) with
      | .error fault => .error fault
      | .ok (.present place _) => .ok place
      | .ok (.absent _ _) => .error .notFound := by
  unfold locateAbove
  split
  case h_1 fault hfault => exact absurd (htext.symm.trans hfault) (by simp)
  case h_2 => rfl

/-- A directory is made where the names before the last lead to a directory: under a name that is
not too long and is free. -/
theorem makeDirectory_of_directory (h : w.Plain) (htext : textFault? path = none)
    (hpath : path.Descends) (htrim : path.Trimmed) {front : List String} {last : String}
    (hnames : path.names = front ++ [last])
    (habove : w.tree.get? (origin path.text w.here ++ front) = some .directory) :
    w.makeDirectory path =
      if maxNameBytes < last.utf8ByteSize then .error .nameTooLong
      else if (w.tree.get? (w.placeOf path)).isSome then .error .alreadyExists
      else .ok (w.put (w.placeOf path) .directory) := by
  obtain ⟨hlast, hfront, hdots⟩ := splitLast_of_trimmed hpath htrim hnames
  have hplace : w.placeOf path = origin path.text w.here ++ front ++ [last] := by
    rw [placeOf_eq_append hpath, hnames, List.append_assoc]
  have hfollow := followWithin_of_directory maxLinks h.tree hdots
    (h.get?_origin path.text) (hfront.symm ▸ habove)
  rw [hfront] at hfollow
  unfold makeDirectory
  rw [locateAbove_eq htext, hfollow, hlast, hplace]

/-- No directory is made where the names before the last lead to none. If it is not for something
missing, then the way there cannot be paved either. -/
theorem makeDirectory_of_missing (h : w.Plain) (htext : textFault? path = none)
    (hpath : path.Descends) (htrim : path.Trimmed) {front : List String} {last : String}
    (hnames : path.names = front ++ [last])
    (habove : w.tree.get? (origin path.text w.here ++ front) ≠ some .directory) :
    ∃ fault, w.makeDirectory path = .error fault ∧ (fault ≠ .notFound →
      w.tree.pave (origin path.text w.here) front = (false, w.tree)) := by
  obtain ⟨-, hfront, hdots⟩ := splitLast_of_trimmed hpath htrim hnames
  obtain ⟨fault, hfollow, hstop⟩ := followWithin_of_missing maxLinks h.tree hdots
    (h.get?_origin path.text) (hfront.symm ▸ habove)
  rw [hfront] at hstop
  refine ⟨fault, ?_, hstop⟩
  unfold makeDirectory
  rw [locateAbove_eq htext, hfollow]

/-- A path without names is there. -/
theorem isDirectory_of_names_nil (h : w.Plain) (htext : textFault? path = none)
    (hnames : path.names = []) : w.isDirectory path = true := by
  have hpath : path.Descends := by simp [Path.Descends, hnames]
  refine (h.isDirectory_iff hpath).mpr ⟨htext, ?_⟩
  rw [placeOf_eq_append hpath, hnames, List.append_nil]
  exact h.get?_origin path.text

/-- A path without names consists of dots, and none of them is split off. -/
theorem splitLast_of_names_nil (hnames : path.names = []) :
    splitLast path = (path.parts.dropLast, none) ∧ ∀ s ∈ path.parts, s = "." := by
  have hdot : ∀ s ∈ path.parts, s = "." := by
    rw [Path.names_eq_filter_parts] at hnames
    simpa using hnames
  refine ⟨?_, hdot⟩
  unfold splitLast
  dsimp only
  cases hlast : path.parts.getLast? with
  | none =>
    have hlast' : ((Text.split '/' path.text).filter (· ≠ "")).getLast? = none := hlast
    rw [hlast', List.getLast?_eq_none_iff.mp hlast]
    rfl
  | some last =>
    have hlast' : ((Text.split '/' path.text).filter (· ≠ "")).getLast? = some last := hlast
    rw [hlast', hdot last (List.mem_of_getLast? hlast)]
    rfl

/-- A path without names cannot be made. -/
theorem makeDirectory_of_names_nil (h : w.Plain) (htext : textFault? path = none)
    (hnames : path.names = []) : w.makeDirectory path = .error .alreadyExists := by
  obtain ⟨hsplit, hdot⟩ := splitLast_of_names_nil hnames
  have hfilter : path.parts.dropLast.filter (· ≠ ".") = [] := by
    rw [List.filter_eq_nil_iff]
    intro s hs
    simp [hdot s (List.dropLast_subset _ hs)]
  have hdots : ".." ∉ path.parts.dropLast :=
    fun hin => absurd (hdot _ (List.dropLast_subset _ hin)) (by decide)
  have hfollow := followWithin_of_directory maxLinks h.tree hdots
    (h.get?_origin path.text) (by rw [hfilter, List.append_nil]; exact h.get?_origin _)
  unfold makeDirectory
  rw [locateAbove_eq htext, hsplit, hfollow]

/-- The names of a path that goes up nowhere are allowed, but for their length. -/
theorem isName_of_mem_names (hpath : path.Descends) :
    ∀ s ∈ path.names, Path.IsName s ∧ s ≠ "." ∧ s ≠ ".." := by
  intro s hs
  have hidle := Path.isIdle_of_mem_names hs
  refine ⟨⟨?_, Text.notMem_of_mem_split (List.mem_filter.mp hs).1⟩, ?_, ?_⟩
  · rintro rfl
    exact absurd hidle (by decide)
  · rintro rfl
    exact absurd hidle (by decide)
  · rintro rfl
    exact hpath hs

/-- What is written as a beginning of a path has no fault in its text either, unless it is empty. -/
theorem textFault?_of_starts {above : Path} (htext : textFault? path = none)
    (hstarts : above.text.toList <+: path.text.toList) :
    above.text = "" ∨ textFault? above = none := by
  obtain ⟨hnul, -, hshort⟩ := textFault?_eq_none_iff.mp htext
  by_cases hempty : above.text = ""
  · exact .inl hempty
  · exact .inr (textFault?_eq_none_iff.mpr ⟨fun hin => hnul (hstarts.subset hin), hempty,
      Nat.lt_of_le_of_lt (Text.utf8ByteSize_le_of_starts hstarts) hshort⟩)

/-- A directory that is there is accepted. -/
theorem acceptDirectory_of_isDirectory (h : w.isDirectory path = true) (fault : FileFault) :
    w.acceptDirectory path fault = (.ok (), w) := by
  rw [acceptDirectory, if_pos h]

/-- Without a directory the refusal stands. -/
theorem acceptDirectory_of_missing (h : w.isDirectory path = false) (fault : FileFault) :
    w.acceptDirectory path fault = (.error fault, w) := by
  rw [acceptDirectory, if_neg (by simp [h])]

/-- Make a directory, or accept it if it is there. -/
def ensureDirectory (w : Workspace) (path : Path) : Except FileFault Unit × Workspace :=
  match w.makeDirectory path with
  | .ok made => (.ok (), made)
  | .error fault => w.acceptDirectory path fault

/-- Where the names before the last lead to a directory, ensuring a directory is the last step of
paving. -/
theorem ensureDirectory_eq (h : w.Plain) (htext : textFault? path = none)
    (hpath : path.Descends) (htrim : path.Trimmed) {front : List String} {last : String}
    (hnames : path.names = front ++ [last])
    (habove : w.tree.get? (origin path.text w.here ++ front) = some .directory) :
    w.makeDirectory path ≠ .error .notFound ∧ ∃ result, w.ensureDirectory path =
      (result, { w with tree := (w.tree.pave (origin path.text w.here ++ front) [last]).2 }) ∧
      result.isOk = (w.tree.pave (origin path.text w.here ++ front) [last]).1 := by
  have hplace : w.placeOf path = origin path.text w.here ++ front ++ [last] := by
    rw [placeOf_eq_append hpath, hnames, List.append_assoc]
  have hdirectory := h.isDirectory_iff hpath
  rw [hplace] at hdirectory
  unfold ensureDirectory
  rw [makeDirectory_of_directory h htext hpath htrim hnames habove, hplace]
  rcases FileTree.pave_cases w.tree (origin path.text w.here ++ front) last with
    hlong | ⟨hfits, hin | ⟨e, hin, he⟩ | hfree⟩
  · have hnot : w.isDirectory path = false := by
      by_contra hyes
      have hentry := (hdirectory.mp (by simpa using hyes)).2
      exact Nat.not_lt.mpr (h.tree.enters hentry last (by simp)).2.fits hlong
    rw [if_pos hlong, FileTree.pave_of_long hlong]
    exact ⟨nofun, _, acceptDirectory_of_missing hnot _, rfl⟩
  · rw [if_neg hfits, hin, if_pos (Option.isSome_some), FileTree.pave_of_directory hfits hin]
    exact ⟨nofun, _, acceptDirectory_of_isDirectory (hdirectory.mpr ⟨htext, hin⟩) _, rfl⟩
  · have hnot : w.isDirectory path = false := by
      by_contra hyes
      have hentry := (hdirectory.mp (by simpa using hyes)).2
      exact he (Option.some.inj (hin.symm.trans hentry))
    rw [if_neg hfits, hin, if_pos (Option.isSome_some), FileTree.pave_of_other hfits hin he]
    exact ⟨nofun, _, acceptDirectory_of_missing hnot _, rfl⟩
  · rw [if_neg hfits, hfree, if_neg (by simp), FileTree.pave_of_free hfits hfree]
    exact ⟨nofun, _, rfl, rfl⟩

/-- Making a directory is to ensure it, or to make those above it first if something is missing. -/
theorem makeDirectoriesWithin_succ {fuel : Nat} (hne : path.text ≠ "") :
    makeDirectoriesWithin (fuel + 1) path w =
      if w.makeDirectory path = .error .notFound then
        match path.parent? with
        | none => (.error .notFound, w)
        | some above =>
          match makeDirectoriesWithin fuel above w with
          | (.error fault, later) => (.error fault, later)
          | (.ok (), later) => later.ensureDirectory path
      else w.ensureDirectory path := by
  have hempty : ¬ path.text.isEmpty = true := by simpa using hne
  rw [makeDirectoriesWithin, if_neg hempty, ensureDirectory]
  cases hmake : w.makeDirectory path with
  | ok made => simp
  | error fault =>
    by_cases hnotFound : fault = .notFound
    · subst hnotFound
      rw [if_pos rfl]
      cases path.parent? with
      | none => rfl
      | some above =>
        dsimp only
        cases makeDirectoriesWithin fuel above w with
        | mk result later => cases result <;> rfl
    · rw [if_neg (by simpa using hnotFound)]
      cases fault <;> first | rfl | exact absurd rfl hnotFound

/-- No directory is there below one that is missing. -/
theorem isDirectory_eq_false_of_missing (h : w.Plain) (hpath : path.Descends)
    {front : List String} {last : String} (hnames : path.names = front ++ [last])
    (hmissing : w.tree.get? (origin path.text w.here ++ front) ≠ some .directory) :
    w.isDirectory path = false := by
  by_contra hyes
  have hentry := ((h.isDirectory_iff hpath).mp (by simpa using hyes)).2
  rw [placeOf_eq_append hpath, hnames, ← List.append_assoc] at hentry
  exact hmissing (h.tree.get?_of_above_directory hentry (List.prefix_append ..))

/-- Once the way above is paved to its end, ensuring a directory is the last step. -/
theorem ensureDirectory_of_paved (h : w.Plain) (htext : textFault? path = none)
    (hpath : path.Descends) (htrim : path.Trimmed) {front : List String} {last : String}
    (hnames : path.names = front ++ [last])
    (hpaved : (w.tree.pave (origin path.text w.here) front).1 = true) {later : FileTree}
    (hlater : later = (w.tree.pave (origin path.text w.here) front).2) :
    ∃ result, ensureDirectory { w with tree := later } path =
      (result, { w with tree := (later.pave (origin path.text w.here ++ front) [last]).2 }) ∧
      result.isOk = (later.pave (origin path.text w.here ++ front) [last]).1 := by
  have hnamed : ∀ s ∈ front, Path.IsName s ∧ s ≠ "." ∧ s ≠ ".." := fun s hs =>
    isName_of_mem_names hpath s (hnames ▸ List.mem_append_left _ hs)
  have hstart := h.get?_origin path.text
  have hkept := FileTree.later_pave w.tree (origin path.text w.here) front
  have hend := FileTree.get?_of_pave hstart hpaved
  rw [← hlater] at hkept hend
  have hplain : Plain { w with tree := later } :=
    ⟨hlater ▸ h.tree.pave hstart hnamed, hkept.directory h.here⟩
  exact (ensureDirectory_eq hplain htext hpath htrim hnames hend).2

/-- Making a directory with all above it paves the way there. -/
theorem makeDirectoriesWithin_eq {fuel : Nat} (hfuel : path.text.length < fuel) (h : w.Plain)
    (htext : path.text = "" ∨ textFault? path = none) (hpath : path.Descends)
    (htrim : path.Trimmed) :
    ∃ result, makeDirectoriesWithin fuel path w =
      (result, { w with tree := (w.tree.pave (origin path.text w.here) path.names).2 }) ∧
      result.isOk = (w.tree.pave (origin path.text w.here) path.names).1 := by
  induction fuel generalizing path with
  | zero => omega
  | succ fuel ih =>
    by_cases hempty : path.text = ""
    · have hnames : path.names = [] := by simp [Path.names, hempty, Text.split, Path.isIdle]
      have hdone : makeDirectoriesWithin (fuel + 1) path w = (.ok (), w) := by
        rw [makeDirectoriesWithin, if_pos (by simpa using hempty)]
      rw [hdone, hnames]
      exact ⟨_, rfl, rfl⟩
    have htext := htext.resolve_left hempty
    rw [makeDirectoriesWithin_succ hempty]
    rcases List.eq_nil_or_concat path.names with hnil | ⟨front, last, hnames⟩
    · have hdirectory := isDirectory_of_names_nil h htext hnil
      have hmake := makeDirectory_of_names_nil h htext hnil
      rw [hmake, if_neg (by simp), ensureDirectory, hmake, hnil]
      exact ⟨_, acceptDirectory_of_isDirectory hdirectory _, rfl⟩
    rw [List.concat_eq_append] at hnames
    rw [hnames, FileTree.pave_append]
    by_cases habove : w.tree.get? (origin path.text w.here ++ front) = some .directory
    · obtain ⟨hfound, hensure⟩ := ensureDirectory_eq h htext hpath htrim hnames habove
      rw [if_neg hfound, h.tree.pave_eq habove]
      exact hensure
    obtain ⟨fault, hmake, hstop⟩ := makeDirectory_of_missing h htext hpath htrim hnames habove
    rw [hmake]
    by_cases hnotFound : fault = .notFound
    · rw [if_pos (by rw [hnotFound])]
      cases hparent : path.parent? with
      | none =>
        rw [Path.names_of_parent?_eq_none hparent] at hnames
        exact absurd hnames (by simp)
      | some above =>
        obtain ⟨haboveNames, hstarts, hhead⟩ := Path.parent?_eq_some hparent
        rw [hnames, List.dropLast_concat] at haboveNames
        have horigin : origin above.text w.here = origin path.text w.here := by
          simp only [origin, hhead]
        have haboveDescends : above.Descends := by
          intro hin
          rw [haboveNames] at hin
          exact hpath (hnames ▸ List.mem_append_left _ hin)
        have hshort := Path.length_parent?_lt hparent
        obtain ⟨result, hrest, hok⟩ := ih (by omega) (textFault?_of_starts htext hstarts)
          haboveDescends (Path.trimmed_of_parent? hparent)
        rw [haboveNames, horigin] at hrest hok
        dsimp only
        rw [hrest]
        cases hpaved : (w.tree.pave (origin path.text w.here) front).1 with
        | false =>
          rw [hpaved] at hok
          cases result with
          | ok _ => cases hok
          | error fault => exact ⟨_, rfl, rfl⟩
        | true =>
          rw [hpaved] at hok
          cases result with
          | error fault => cases hok
          | ok _ => exact ensureDirectory_of_paved h htext hpath htrim hnames hpaved rfl
    · have hnot := isDirectory_eq_false_of_missing h hpath hnames habove
      rw [if_neg (by simpa using hnotFound), hstop hnotFound, ensureDirectory, hmake]
      exact ⟨_, acceptDirectory_of_missing hnot _, rfl⟩

/-- A path with a fault in its text is not made. -/
theorem makeDirectoriesWithin_of_fault {fuel : Nat} {fault : FileFault} (hne : path.text ≠ "")
    (htext : textFault? path = some fault) :
    makeDirectoriesWithin (fuel + 1) path w = (.error fault, w) := by
  have hmake : w.makeDirectory path = .error fault := by
    unfold makeDirectory locateAbove
    rw [htext]
  have hnot : w.isDirectory path = false := by
    unfold isDirectory entry locate
    rw [htext]
  have hfound : fault ≠ .notFound := by
    rintro rfl
    unfold textFault? at htext
    split at htext
    · exact nomatch htext
    · rw [if_neg (by simpa using hne)] at htext
      split at htext <;> exact nomatch htext
  rw [makeDirectoriesWithin_succ hne, hmake, if_neg (by simpa using hfound), ensureDirectory, hmake]
  exact acceptDirectory_of_missing hnot fault

end Making

end Workspace

end ViewBinding
