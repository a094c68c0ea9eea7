import ViewBinding.Proofs.FileTree.Locating
import ViewBinding.Source.Disk

/-!
# Writing without links

What the steps of a filer change in a tree without symbolic links. Making directories only adds
directories where nothing was; creating or writing a file changes the place of its path and nothing
else. No step takes a directory away, so a file that could be read keeps its content until its own
place is written.
-/

namespace ViewBinding

namespace Workspace

/-- A later workspace that has the directories of an earlier one, and no links. -/
structure Keeps (w w' : Workspace) : Prop where
  here : w'.here = w.here
  linkFree : w'.tree.LinkFree
  directories : ∀ p, w.tree.get? p = some .directory → w'.tree.get? p = some .directory

section Keeping

variable {w w' w'' : Workspace} {path : Path}

theorem Keeps.refl (hfree : w.tree.LinkFree) : Keeps w w := ⟨rfl, hfree, fun _ h => h⟩

theorem Keeps.trans (h : Keeps w w') (h' : Keeps w' w'') : Keeps w w'' :=
  ⟨h'.here.trans h.here, h'.linkFree, fun p hp => h'.directories p (h.directories p hp)⟩

/-- Paths keep leading to the same places. -/
theorem Keeps.placeOf_eq (h : Keeps w w') (path : Path) : w'.placeOf path = w.placeOf path :=
  placeOf_congr h.here path

/-- A path that leads to no directory reads what is later at its place. -/
theorem Keeps.read_of_way (h : Keeps w w') (htext : textFault? path = none) {r : Located}
    (hway : Way w.tree (origin path.text w.here) (steps path.text) r)
    (hr : r.isDirectory = false) {content : Content}
    (hfile : w'.tree.get? (w.placeOf path) = some (.file content)) :
    w'.read path = .ok content := by
  have hplace : r.place = w.placeOf path := hway.place_eq
  have hlater := hway.of_keeps hr h.directories (hplace.symm ▸ hfile)
  rw [read_eq_ok_iff h.linkFree, h.placeOf_eq, h.here, ← hplace]
  exact ⟨htext, hlater⟩

/-- A path that could be read reads what is later at its place. -/
theorem Keeps.read_of_read (h : Keeps w w') (hfree : w.tree.LinkFree) {before content : Content}
    (hread : w.read path = .ok before)
    (hfile : w'.tree.get? (w.placeOf path) = some (.file content)) :
    w'.read path = .ok content := by
  obtain ⟨htext, hway⟩ := (read_eq_ok_iff hfree).mp hread
  exact h.read_of_way htext hway rfl hfile

/-- What can be read is at the place of its path. -/
theorem get?_of_read (hfree : w.tree.LinkFree) {content : Content}
    (hread : w.read path = .ok content) :
    w.tree.get? (w.placeOf path) = some (.file content) :=
  ((read_eq_ok_iff hfree).mp hread).2.get?_present.resolve_left nofun

/-- An entry that is no link can be put where there is no directory. -/
theorem keeps_put (hfree : w.tree.LinkFree) {p : Place} (hp : w.tree.get? p ≠ some .directory)
    {e : Entry} (he : ∀ target, e ≠ .link target) : Keeps w (w.put p e) := by
  have hroot : p ≠ [] := by
    rintro rfl
    exact hp rfl
  refine ⟨rfl, fun q target hq => ?_, fun q hq => ?_⟩
  · by_cases hqp : q = p
    · rw [hqp, put, FileTree.get?_insert_self _ hroot] at hq
      exact he target (Option.some.inj hq)
    · rw [put, FileTree.get?_insert_of_ne _ hqp] at hq
      exact hfree q target hq
  · have hqp : q ≠ p := by
      rintro rfl
      exact hp hq
    rw [put, FileTree.get?_insert_of_ne _ hqp]
    exact hq

end Keeping

/-- A later workspace that differs by directories where nothing was. -/
structure AddsDirectories (w w' : Workspace) : Prop where
  here : w'.here = w.here
  entries : ∀ p, w'.tree.get? p = w.tree.get? p ∨
    w.tree.get? p = none ∧ w'.tree.get? p = some .directory

section Directories

variable {w w' w'' : Workspace}

theorem AddsDirectories.refl (w : Workspace) : AddsDirectories w w := ⟨rfl, fun _ => .inl rfl⟩

theorem AddsDirectories.trans (h : AddsDirectories w w') (h' : AddsDirectories w' w'') :
    AddsDirectories w w'' := by
  refine ⟨h'.here.trans h.here, fun p => ?_⟩
  rcases h.entries p with hsame | ⟨hnone, hmade⟩
  · rcases h'.entries p with hsame' | ⟨hnone', hmade'⟩
    · exact .inl (hsame'.trans hsame)
    · exact .inr ⟨hsame ▸ hnone', hmade'⟩
  · rcases h'.entries p with hsame' | ⟨hnone', hmade'⟩
    · exact .inr ⟨hnone, hsame'.trans hmade⟩
    · exact nomatch hmade.symm.trans hnone'

/-- What was there stays. -/
theorem AddsDirectories.get?_of_some (h : AddsDirectories w w') {p : Place} {e : Entry}
    (hp : w.tree.get? p = some e) : w'.tree.get? p = some e := by
  rcases h.entries p with hsame | ⟨hnone, -⟩
  · exact hsame.trans hp
  · exact nomatch hp.symm.trans hnone

/-- Added directories take none away and are no links. -/
theorem AddsDirectories.keeps (h : AddsDirectories w w') (hfree : w.tree.LinkFree) :
    Keeps w w' := by
  refine ⟨h.here, fun p target hp => ?_, fun p hp => h.get?_of_some hp⟩
  rcases h.entries p with hsame | ⟨-, hmade⟩
  · exact hfree p target (hsame ▸ hp)
  · exact nomatch hmade.symm.trans hp

/-- Added directories leave directories and links where they were. -/
theorem AddsDirectories.keepsWays (h : AddsDirectories w w') : w.KeepsWays w' :=
  ⟨h.here, fun _ _ hp _ => h.get?_of_some hp⟩

/-- What could be read is read from among added directories. -/
theorem AddsDirectories.read_of_read (h : AddsDirectories w w') {path : Path} {content : Content}
    (hread : w.read path = .ok content) : w'.read path = .ok content := by
  obtain ⟨p, hlocate⟩ := read_eq_ok_iff_locate.mp hread
  exact h.keepsWays.read hlocate (h.get?_of_some (get?_of_locate hlocate))

/-- Making a directory adds one. -/
theorem addsDirectories_of_makeDirectory {path : Path} (h : w.makeDirectory path = .ok w') :
    AddsDirectories w w' := by
  unfold makeDirectory at h
  cases habove : w.locateAbove path with
  | error fault => rw [habove] at h; exact nomatch h
  | ok above =>
    rw [habove] at h
    cases hname : (splitLast path).2 with
    | none => simp only [hname] at h; exact nomatch h
    | some name =>
      simp only [hname] at h
      by_cases hlong : maxNameBytes < name.utf8ByteSize
      · rw [if_pos hlong] at h
        exact nomatch h
      · rw [if_neg hlong] at h
        cases hfree : w.tree.get? (above ++ [name]) with
        | some e => rw [hfree] at h; exact nomatch h
        | none =>
          rw [hfree] at h
          obtain rfl := Except.ok.inj h
          refine ⟨rfl, fun p => ?_⟩
          by_cases hp : p = above ++ [name]
          · subst hp
            exact .inr ⟨hfree, FileTree.get?_insert_self _ (by simp) _⟩
          · exact .inl (FileTree.get?_insert_of_ne _ hp _)

/-- Accepting a directory that is there changes nothing. -/
theorem acceptDirectory_eq (w : Workspace) (path : Path) (fault : FileFault) :
    (w.acceptDirectory path fault).2 = w := by
  unfold acceptDirectory
  cases w.isDirectory path <;> rfl

/-- Making a directory and those above it moves along a relation that each single step respects,
however it ends. -/
theorem move_makeDirectoriesWithin {R : Workspace → Workspace → Prop} (hrefl : ∀ w, R w w)
    (htrans : ∀ w w' w'', R w w' → R w' w'' → R w w'') {fuel : Nat} {path : Path}
    (hstep : ∀ above ∈ path.upwardWithin fuel, ∀ w made,
      w.makeDirectory above = .ok made → R w made) (w : Workspace) :
    R w (makeDirectoriesWithin fuel path w).2 := by
  induction fuel generalizing path w with
  | zero => exact hrefl w
  | succ fuel ih =>
    have hself : ∀ w made, w.makeDirectory path = .ok made → R w made := by
      refine hstep path ?_
      unfold Path.upwardWithin
      split <;> exact List.mem_cons_self ..
    unfold makeDirectoriesWithin
    split
    · exact hrefl w
    · split
      · rename_i made hmake
        exact hself w made hmake
      · cases hparent : path.parent? with
        | none => exact hrefl w
        | some above =>
          have habove : ∀ p ∈ above.upwardWithin fuel, p ∈ path.upwardWithin (fuel + 1) := by
            intro p hp
            unfold Path.upwardWithin
            rw [hparent]
            exact List.mem_cons_of_mem _ hp
          have hup := ih (fun p hp => hstep p (habove p hp)) w
          cases hrest : makeDirectoriesWithin fuel above w with
          | mk result later =>
            rw [hrest] at hup
            cases result with
            | error fault => simpa [hrest] using hup
            | ok _ =>
              simp only [hrest]
              cases hmake : later.makeDirectory path with
              | ok made => exact htrans _ _ _ hup (hself later made hmake)
              | error fault =>
                simp only [acceptDirectory_eq]
                exact hup
      · rw [acceptDirectory_eq]
        exact hrefl w

/-- Making the directory of a file adds directories, however it ends. -/
theorem addsDirectories_makeParent (path : Path) (w : Workspace) :
    AddsDirectories w (DiskFiles.makeParent path w).2 := by
  unfold DiskFiles.makeParent
  cases path.parent? with
  | none => exact .refl w
  | some above =>
    exact move_makeDirectoriesWithin AddsDirectories.refl (fun _ _ _ => AddsDirectories.trans)
      (fun _ _ _ _ => addsDirectories_of_makeDirectory) w

end Directories

/-- A later workspace in which a file was written, and nothing else was changed. -/
structure Writes (w w' : Workspace) (path : Path) (content : Content) : Prop where
  keeps : Keeps w w'
  read : w'.read path = .ok content
  others : ∀ p, p ≠ w.placeOf path → w'.tree.get? p = w.tree.get? p

section Files

variable {w w' : Workspace} {path : Path} {content : Content}

/-- Other files keep their content. -/
theorem Writes.read_other (h : Writes w w' path content) (hfree : w.tree.LinkFree) {other : Path}
    {kept : Content} (hread : w.read other = .ok kept)
    (hne : w.placeOf other ≠ w.placeOf path) : w'.read other = .ok kept := by
  refine h.keeps.read_of_read hfree hread ?_
  rw [h.others _ hne]
  exact get?_of_read hfree hread

/-- A file is created at the place of its path, where there is no directory. -/
theorem createFile_eq_ok (hfree : w.tree.LinkFree) {place : Place}
    (h : w.createFile path = .ok (place, w')) :
    place = w.placeOf path ∧ w' = w.put place (.file .empty) ∧ textFault? path = none ∧
      ∃ r, Way w.tree (origin path.text w.here) (steps path.text) r ∧ r.isDirectory = false := by
  obtain ⟨-, -, ⟨r, hlocate, hr, rfl⟩, hcreated⟩ := createFile_eq_ok_iff.mp h
  obtain ⟨htext, hway⟩ := (locate_eq_ok_iff hfree).mp hlocate
  exact ⟨hway.place_eq, hcreated, htext, r, hway, hr⟩

/-- Putting a file where a path leads to no directory writes it. -/
theorem writes_put (hfree : w.tree.LinkFree) (htext : textFault? path = none) {r : Located}
    (hway : Way w.tree (origin path.text w.here) (steps path.text) r)
    (hr : r.isDirectory = false) (content : Content) :
    Writes w (w.put (w.placeOf path) (.file content)) path content := by
  have hend : r.place = w.placeOf path := hway.place_eq
  have hnone : w.tree.get? (w.placeOf path) ≠ some .directory := hend ▸ hway.get?_ne_directory hr
  have hroot : w.placeOf path ≠ [] := by
    intro hroot
    exact hnone (hroot ▸ rfl)
  have hkeeps := keeps_put hfree hnone (e := .file content) nofun
  exact ⟨hkeeps, hkeeps.read_of_way htext hway hr (FileTree.get?_insert_self _ hroot _),
    fun p hp => FileTree.get?_insert_of_ne _ hp _⟩

/-- Creating a file writes an empty one. -/
theorem writes_of_createFile (hfree : w.tree.LinkFree) {place : Place}
    (h : w.createFile path = .ok (place, w')) : Writes w w' path .empty := by
  obtain ⟨rfl, rfl, htext, r, hway, hr⟩ := createFile_eq_ok hfree h
  exact writes_put hfree htext hway hr .empty

/-- Writing a file puts its content where it is created. -/
theorem writeFile_eq_ok (h : w.writeFile path content = .ok w') :
    ∃ place created, w.createFile path = .ok (place, created) ∧
      w' = w.put place (.file content) := by
  unfold writeFile at h
  cases hcreate : w.createFile path with
  | error fault => rw [hcreate] at h; exact nomatch h
  | ok file =>
    obtain ⟨place, created⟩ := file
    rw [hcreate] at h
    obtain rfl := (createFile_eq_ok_iff.mp hcreate).2.2.2
    obtain rfl := Except.ok.inj h
    exact ⟨place, _, rfl, by simp only [put, FileTree.insert_insert]⟩

/-- Writing a file writes its content. -/
theorem writes_of_writeFile (hfree : w.tree.LinkFree) (h : w.writeFile path content = .ok w') :
    Writes w w' path content := by
  obtain ⟨place, created, hcreate, rfl⟩ := writeFile_eq_ok h
  obtain ⟨rfl, -, htext, r, hway, hr⟩ := createFile_eq_ok hfree hcreate
  exact writes_put hfree htext hway hr content

end Files

end Workspace

end ViewBinding
