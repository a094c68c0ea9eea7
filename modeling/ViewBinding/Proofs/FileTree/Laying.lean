import ViewBinding.Proofs.FileTree.Paving

/-!
# Laying a file

Making the directories above a file, creating it and writing it comes, in a plain tree, to paving
the way and putting the file at its end. What it does is decided by the entries on the way, so once
it was done, doing it again ends alike; and it changes nothing as long as the file holds the
content.
-/

namespace ViewBinding

open Workspace

namespace FileTree

variable {t : FileTree} {p : Place} {e : Entry}

theorem insert_eq_self (hp : p ≠ []) (h : t.get? p = some e) : t.insert p e = t := by
  cases p with
  | nil => exact absurd rfl hp
  | cons name rest => exact congrArg FileTree.mk (Table.insert_eq_self h)

/-- A file that is put where there is no directory makes a later tree. -/
theorem later_insert_file {content : Content} (hp : t.get? p ≠ some .directory) :
    Later t (t.insert p (.file content)) := by
  have hroot : p ≠ [] := by
    rintro rfl
    exact hp rfl
  intro q found hq
  by_cases hqp : q = p
  · refine ⟨.file content, by rw [hqp, get?_insert_self t hroot], ⟨nofun, ?_⟩⟩
    rintro rfl
    exact absurd (hqp ▸ hq) hp
  · exact ⟨found, by rw [get?_insert_of_ne t hqp, hq], Iff.rfl⟩

end FileTree

namespace Workspace

section Creating

variable {w : Workspace} {path : Path}

/-- Names that lead to a directory may be followed first, and the others from there. -/
theorem Way.follow_append {t : FileTree} {followLast : Bool}
    {jump : Place → String → List String → Except FileFault Located} {place q : Place}
    {steps more : List String} {r : Located} (h : Way t place steps r)
    (hr : r = .present q .directory) :
    follow t followLast jump place (steps ++ more) = follow t followLast jump q more := by
  induction h with
  | arrived =>
    cases hr
    rfl
  | stay _ ih => exact ih hr
  | leave _ ih => exact ih hr
  | enter henters hentry _ ih =>
    simp [follow, henters.not_dot, henters.not_dots, Nat.not_lt.mpr henters.fits, hentry, ih hr]
  | free => cases hr
  | file => cases hr

/-- A path that ends in a name has no idle end, nor a slash. -/
theorem parts_of_endsInName (h : path.EndsInName) :
    path.text.toList.getLast? ≠ some '/' ∧ steps path.text = path.parts ∧ path.Trimmed := by
  unfold Path.EndsInName steps at h
  unfold steps
  by_cases hlast : path.text.toList.getLast? = some '/'
  · refine absurd ?_ h
    simp [hlast]
  · simp only [if_neg hlast] at h ⊢
    exact ⟨hlast, rfl, .inr h⟩

/-- A path that ends in a name is followed to the directory above it, and then by its last name. -/
theorem locate_eq (h : w.Plain) (htext : textFault? path = none) (hpath : path.Descends)
    (hend : path.EndsInName) {front : List String} {last : String}
    (hnames : path.names = front ++ [last])
    (habove : w.tree.get? (origin path.text w.here ++ front) = some .directory) :
    w.locate path =
      if maxNameBytes < last.utf8ByteSize then .error .nameTooLong
      else match w.tree.get? (w.placeOf path) with
        | none => .ok (.absent (origin path.text w.here ++ front) last)
        | some e => .ok (.present (w.placeOf path) e) := by
  obtain ⟨-, hsteps, htrim⟩ := parts_of_endsInName hend
  obtain ⟨hlast, hfront, hdots⟩ := splitLast_of_trimmed hpath htrim hnames
  obtain ⟨hparts, hdot, hdotdot⟩ := splitLast_eq hlast
  have hplace : w.placeOf path = origin path.text w.here ++ front ++ [last] := by
    rw [placeOf_eq_append hpath, hnames, List.append_assoc]
  have hfollow := Place.follow_eq_append hdots (origin path.text w.here)
  rw [hfront] at hfollow
  have hway := way_of_get? h.tree hdots (h.get?_origin path.text) (e := .directory)
    (hfollow.symm ▸ habove) (.inl rfl)
  unfold locate
  rw [htext, hsteps, hplace]
  have hparts' : path.parts = (splitLast path).1 ++ [last] := hparts
  rw [hparts']
  change follow w.tree true _ (origin path.text w.here) ((splitLast path).1 ++ [last]) = _
  rw [hway.follow_append rfl, hfollow, follow, if_neg hdot, if_neg hdotdot]
  by_cases hlong : maxNameBytes < last.utf8ByteSize
  · rw [if_pos hlong, if_pos hlong]
  rw [if_neg hlong, if_neg hlong]
  dsimp only
  cases hentry : w.tree.get? (origin path.text w.here ++ front ++ [last]) with
  | none => rfl
  | some e =>
    cases e with
    | directory => rfl
    | file content => rfl
    | link target => exact absurd hentry (h.tree.linkFree _ target)

/-- A file is created in a directory: under a name that is not too long and is not a directory's. -/
theorem createFile_eq (h : w.Plain) (htext : textFault? path = none) (hpath : path.Descends)
    (hend : path.EndsInName) {front : List String} {last : String}
    (hnames : path.names = front ++ [last])
    (habove : w.tree.get? (origin path.text w.here ++ front) = some .directory) :
    w.createFile path =
      if maxNameBytes < last.utf8ByteSize then .error .nameTooLong
      else if w.tree.get? (w.placeOf path) = some .directory then .error .isDirectory
      else .ok (w.placeOf path, w.put (w.placeOf path) (.file .empty)) := by
  obtain ⟨hslash, -, htrim⟩ := parts_of_endsInName hend
  obtain ⟨hlast, hfront, hdots⟩ := splitLast_of_trimmed hpath htrim hnames
  have hfollow := followWithin_of_directory maxLinks h.tree hdots
    (h.get?_origin path.text) (hfront.symm ▸ habove)
  have hplace : origin path.text w.here ++ front ++ [last] = w.placeOf path := by
    rw [placeOf_eq_append hpath, hnames, List.append_assoc]
  have hlocate := locate_eq h htext hpath hend hnames habove
  unfold createFile
  rw [locateAbove_eq htext, hfollow]
  dsimp only
  rw [if_neg (by simp [hlast, hslash]), hlocate]
  by_cases hlong : maxNameBytes < last.utf8ByteSize
  · rw [if_pos hlong, if_pos hlong]
  rw [if_neg hlong, if_neg hlong]
  cases hentry : w.tree.get? (w.placeOf path) with
  | none => simp [hplace]
  | some e =>
    cases e with
    | directory => simp
    | file content => simp
    | link target => exact absurd hentry (h.tree.linkFree _ target)

/-- A file whose path has a fault in its text is not created. -/
theorem createFile_of_fault {fault : FileFault} (htext : textFault? path = some fault) :
    w.createFile path = .error fault := by
  unfold createFile locateAbove
  rw [htext]

end Creating

section Laying

/-- The fault in the text of the path of the directory above, if it is not the current one. -/
def aboveFault? (path : Path) : Option FileFault :=
  match path.parent? with
  | none => none
  | some above => if above.text.isEmpty then none else textFault? above

/-- May a file be put at the end of a path whose way is paved? -/
def mayHold (w : Workspace) (path : Path) : Bool :=
  (textFault? path).isNone && path.names.all (·.utf8ByteSize ≤ maxNameBytes) &&
    w.tree.get? (w.placeOf path) != some .directory

/-- The workspace with the way to the directory of a file paved, and whether it is reached. -/
def pave (w : Workspace) (path : Path) : Bool × Workspace :=
  let paved := w.tree.pave (origin path.text w.here) path.names.dropLast
  (paved.1, { w with tree := paved.2 })

/-- Pave the way to the directory of a file, and put the file there. Was it put? -/
def lay (w : Workspace) (path : Path) (content : Content) : Bool × Workspace :=
  if (aboveFault? path).isSome then (false, w)
  else if (w.pave path).1 && (w.pave path).2.mayHold path then
    (true, (w.pave path).2.put (w.placeOf path) (.file content))
  else (false, (w.pave path).2)

variable {w w' : Workspace} {path : Path} {content : Content}

/-- How a file is laid. -/
theorem lay_cases (w : Workspace) (path : Path) (content : Content) :
    (aboveFault? path).isSome ∧ w.lay path content = (false, w) ∨
      (aboveFault? path).isSome = false ∧
      (((w.pave path).1 && (w.pave path).2.mayHold path) = true ∧
          w.lay path content = (true, (w.pave path).2.put (w.placeOf path) (.file content)) ∨
        ((w.pave path).1 && (w.pave path).2.mayHold path) = false ∧
          w.lay path content = (false, (w.pave path).2)) := by
  unfold lay
  cases (aboveFault? path).isSome with
  | true => exact .inl ⟨rfl, rfl⟩
  | false =>
    refine .inr ⟨rfl, ?_⟩
    cases (w.pave path).1 && (w.pave path).2.mayHold path with
    | true => exact .inl ⟨rfl, rfl⟩
    | false => exact .inr ⟨rfl, rfl⟩

/-- A file may be put at the end of a path without a fault, under names that are not too long, where
there is no directory. -/
theorem mayHold_iff : w.mayHold path = true ↔
    textFault? path = none ∧ (∀ s ∈ path.names, s.utf8ByteSize ≤ maxNameBytes) ∧
      w.tree.get? (w.placeOf path) ≠ some .directory := by
  unfold mayHold
  rw [Bool.and_eq_true, Bool.and_eq_true, Option.isNone_iff_eq_none, List.all_eq_true, bne_iff_ne,
    and_assoc]
  simp only [decide_eq_true_eq]

/-- Laying a file makes a later tree, around the same directory. -/
theorem later_lay (w : Workspace) (path : Path) (content : Content) :
    (w.lay path content).2.here = w.here ∧
      FileTree.Later w.tree (w.lay path content).2.tree := by
  have hpaved := FileTree.later_pave w.tree (origin path.text w.here) path.names.dropLast
  rcases w.lay_cases path content with ⟨-, hlay⟩ | ⟨-, ⟨hput, hlay⟩ | ⟨-, hlay⟩⟩
  · rw [hlay]
    exact ⟨rfl, .refl _⟩
  · rw [hlay]
    rw [Bool.and_eq_true, mayHold_iff] at hput
    exact ⟨rfl, hpaved.trans (FileTree.later_insert_file hput.2.2.2)⟩
  · rw [hlay]
    exact ⟨rfl, hpaved⟩

/-- A file that was laid is at its place. -/
theorem get?_of_lay (h : (w.lay path content).1 = true) :
    (w.lay path content).2.tree.get? (w.placeOf path) = some (.file content) := by
  rcases w.lay_cases path content with ⟨-, hlay⟩ | ⟨-, ⟨hput, hlay⟩ | ⟨-, hlay⟩⟩
  · rw [hlay] at h
    exact nomatch h
  · rw [hlay]
    rw [Bool.and_eq_true] at hput
    refine FileTree.get?_insert_self _ (fun hroot => ?_) _
    have hother := (mayHold_iff.mp hput.2).2.2
    have hplace : (w.pave path).2.placeOf path = [] := hroot
    rw [hplace] at hother
    exact hother rfl
  · rw [hlay] at h
    exact nomatch h

/-- Paving keeps every entry that is there. -/
theorem get?_pave_of_some {p : Place} {e : Entry} (h : w.tree.get? p = some e) :
    (w.pave path).2.tree.get? p = some e :=
  FileTree.get?_pave_of_some h ..

/-- Laying a file changes no other file. -/
theorem get?_lay_of_some {p : Place} {e : Entry} (hp : p ≠ w.placeOf path)
    (h : w.tree.get? p = some e) : (w.lay path content).2.tree.get? p = some e := by
  rcases w.lay_cases path content with ⟨-, hlay⟩ | ⟨-, ⟨-, hlay⟩ | ⟨-, hlay⟩⟩
  · rw [hlay, h]
  · rw [hlay]
    exact (FileTree.get?_insert_of_ne _ hp _).trans (get?_pave_of_some h)
  · rw [hlay]
    exact get?_pave_of_some h

/-- Where a file may be put later, it might have been put before. -/
theorem mayHold_of_later (hhere : w'.here = w.here) (hlater : FileTree.Later w.tree w'.tree)
    (h : w'.mayHold path = true) : w.mayHold path = true := by
  have hplace := placeOf_congr hhere path
  obtain ⟨htext, hfits, hheld⟩ := mayHold_iff.mp h
  rw [hplace] at hheld
  exact mayHold_iff.mpr ⟨htext, hfits, fun hdirectory => hheld (hlater.directory hdirectory)⟩

/-- A way that was paved once is paved again alike. -/
theorem pave_of_later (hhere : w'.here = w.here)
    (hlater : FileTree.Later (w.pave path).2.tree w'.tree) :
    w'.pave path = ((w.pave path).1, w') := by
  obtain ⟨tree, here⟩ := w'
  obtain rfl : here = w.here := hhere
  have hagain := FileTree.pave_of_later hlater
  unfold pave
  dsimp only
  rw [hagain]

/-- A file that was laid once is laid again alike, and nothing changes as long as it holds its
content. -/
theorem lay_of_later (path : Path) (content : Content) (hhere : w'.here = w.here)
    (hlater : FileTree.Later (w.lay path content).2.tree w'.tree)
    (hkept : (w.lay path content).1 = true →
      w'.tree.get? (w.placeOf path) = some (.file content)) :
    w'.lay path content = ((w.lay path content).1, w') := by
  have hplace := placeOf_congr hhere path
  rcases w.lay_cases path content with ⟨hfault, hlay⟩ | ⟨hsound, ⟨hput, hlay⟩ | ⟨hnot, hlay⟩⟩
  · rw [hlay, lay, if_pos hfault]
  · rw [hlay] at hlater hkept ⊢
    have hfile := hkept rfl
    rw [Bool.and_eq_true] at hput
    obtain ⟨htext, hfits, hheld⟩ := mayHold_iff.mp hput.2
    have hagain := pave_of_later hhere ((FileTree.later_insert_file hheld).trans hlater)
    have hmay : w'.mayHold path = true := by
      refine mayHold_iff.mpr ⟨htext, hfits, ?_⟩
      rw [hplace, hfile]
      simp
    have hroot : w.placeOf path ≠ [] := by
      intro hroot
      rw [hroot] at hfile
      cases hfile
    have hsame : w'.put (w.placeOf path) (.file content) = w' := by
      rw [put, FileTree.insert_eq_self hroot hfile]
    rw [lay, if_neg (by simp [hsound]), hagain, hmay, hplace, hput.1, hsame]
    rfl
  · rw [hlay] at hlater ⊢
    have hagain := pave_of_later hhere hlater
    rw [lay, if_neg (by simp [hsound]), hagain, if_neg]
    -- What keeps the file from being put keeps it from being put later.
    intro hput
    rw [Bool.and_eq_true] at hput
    have hbefore := mayHold_of_later (w := (w.pave path).2) hhere hlater hput.2
    rw [hput.1, hbefore] at hnot
    cases hnot

end Laying

section Steps

variable {w : Workspace} {path : Path}

/-- Paving the way to a file keeps a workspace plain. -/
theorem Plain.pave (h : w.Plain) (hpath : path.Descends) : (w.pave path).2.Plain := by
  have hlater := FileTree.later_pave w.tree (origin path.text w.here) path.names.dropLast
  refine ⟨h.tree.pave (h.get?_origin path.text) fun s hs => ?_, hlater.directory h.here⟩
  exact isName_of_mem_names hpath s (List.dropLast_subset _ hs)

/-- Putting a file under an allowed name, where there is no directory, keeps a workspace plain. -/
theorem Plain.put_file (h : w.Plain) (hpath : path.Descends) {front : List String} {last : String}
    (hnames : path.names = front ++ [last])
    (habove : w.tree.get? (origin path.text w.here ++ front) = some .directory)
    (hmay : w.mayHold path = true) (content : Content) :
    (w.put (w.placeOf path) (.file content)).Plain := by
  obtain ⟨-, hfits, hheld⟩ := mayHold_iff.mp hmay
  have hlater : FileTree.Later w.tree (w.tree.insert (w.placeOf path) (.file content)) :=
    FileTree.later_insert_file hheld
  have hplace : w.placeOf path = origin path.text w.here ++ front ++ [last] := by
    rw [placeOf_eq_append hpath, hnames, List.append_assoc]
  have hlast : last ∈ path.names := by
    rw [hnames]
    simp
  obtain ⟨hname, hdot, hdots⟩ := isName_of_mem_names hpath last hlast
  refine ⟨?_, hlater.directory h.here⟩
  rw [put, hplace]
  rw [hplace] at hheld
  exact h.tree.insert habove ⟨hname, hdot, hdots, hfits last hlast⟩
    (fun hdirectory => absurd hdirectory hheld) (by simp)

/-- Laying a file keeps a workspace plain. -/
theorem Plain.lay (h : w.Plain) (hpath : path.Descends) (hne : path.names ≠ [])
    (content : Content) : (w.lay path content).2.Plain := by
  rcases w.lay_cases path content with ⟨-, hlay⟩ | ⟨-, ⟨hput, hlay⟩ | ⟨-, hlay⟩⟩
  · rw [hlay]
    exact h
  · rw [hlay]
    rw [Bool.and_eq_true] at hput
    have hdirectory := FileTree.get?_of_pave (h.get?_origin path.text) hput.1
    exact (h.pave hpath).put_file hpath (List.dropLast_concat_getLast hne).symm hdirectory hput.2
      content
  · rw [hlay]
    exact h.pave hpath

section Held

variable (h : w.Plain) (hpath : path.Descends) (hend : path.EndsInName) {front : List String}
  {last : String} (hnames : path.names = front ++ [last])
  (habove : w.tree.get? (origin path.text w.here ++ front) = some .directory)

include h hpath hend hnames habove

/-- A file is created exactly where it may be put. -/
theorem createFile_of_mayHold (hmay : w.mayHold path = true) :
    w.createFile path = .ok (w.placeOf path, w.put (w.placeOf path) (.file .empty)) := by
  obtain ⟨htext, hfits, hheld⟩ := mayHold_iff.mp hmay
  have hshort := hfits last (by rw [hnames]; simp)
  rw [createFile_eq h htext hpath hend hnames habove, if_neg (Nat.not_lt.mpr hshort), if_neg hheld]

theorem createFile_of_not_mayHold (hmay : w.mayHold path = false) :
    ∃ fault, w.createFile path = .error fault := by
  cases htext : textFault? path with
  | some fault => exact ⟨fault, createFile_of_fault htext⟩
  | none =>
    rw [createFile_eq h htext hpath hend hnames habove]
    by_cases hlong : maxNameBytes < last.utf8ByteSize
    · rw [if_pos hlong]
      exact ⟨_, rfl⟩
    rw [if_neg hlong]
    by_cases hdirectory : w.tree.get? (w.placeOf path) = some .directory
    · rw [if_pos hdirectory]
      exact ⟨_, rfl⟩
    -- Nothing else is in the way of the file: the names above it are those of directories.
    refine absurd (mayHold_iff.mpr ⟨htext, fun s hs => ?_, hdirectory⟩) (by simp [hmay])
    rw [hnames] at hs
    rcases List.mem_append.mp hs with hs | hs
    · exact (h.tree.enters habove s (List.mem_append_right _ hs)).2.fits
    · exact List.mem_singleton.mp hs ▸ Nat.le_of_not_lt hlong

/-- A file that was just created is written in place. -/
theorem writeFile_of_mayHold (hmay : w.mayHold path = true) (content : Content) :
    (w.put (w.placeOf path) (.file .empty)).writeFile path content =
      .ok (w.put (w.placeOf path) (.file content)) := by
  obtain ⟨htext, hfits, hheld⟩ := mayHold_iff.mp hmay
  have hplain := h.put_file hpath hnames habove hmay .empty
  have hlater : FileTree.Later w.tree (w.tree.insert (w.placeOf path) (.file .empty)) :=
    FileTree.later_insert_file hheld
  have hroot : w.placeOf path ≠ [] := by
    intro hroot
    rw [hroot] at hheld
    exact hheld rfl
  have hagain : (w.put (w.placeOf path) (.file .empty)).mayHold path = true := by
    refine mayHold_iff.mpr ⟨htext, hfits, fun hdirectory => ?_⟩
    exact nomatch (FileTree.get?_insert_self w.tree hroot (.file .empty)).symm.trans hdirectory
  unfold writeFile
  rw [createFile_of_mayHold hplain hpath hend hnames (hlater.directory habove) hagain]
  have hplace : (w.put (w.placeOf path) (.file .empty)).placeOf path = w.placeOf path := rfl
  rw [hplace]
  simp only [put, FileTree.insert_insert]

end Held

end Steps

end Workspace

end ViewBinding
