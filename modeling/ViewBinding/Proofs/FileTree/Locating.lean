import ViewBinding.Proofs.FileTree.Following

/-!
# Locating through links

Whatever links a tree has, a path is followed through directories and links only, and ends at one
more entry. So it leads where it did as long as directories and links stay, and a file that is
created at its end is what it leads to from then on. In particular a file that was created can be
written, and its path then reads what was written.
-/

namespace ViewBinding

open Workspace

/-- The directories and links of a tree are in a later one. -/
def FileTree.KeepsWays (t t' : FileTree) : Prop :=
  ∀ p e, t.get? p = some e → (∀ content, e ≠ .file content) → t'.get? p = some e

/-- A tree with an entry put over another one, or over the same one again. -/
theorem FileTree.insert_insert (t : FileTree) (p : Place) (before e : Entry) :
    (t.insert p before).insert p e = t.insert p e :=
  congrArg FileTree.mk (Table.insert_insert ..)

/-- What a path leads to in a later tree: the same directory, or the file that is now there. -/
inductive Located.LeadsOn (t' : FileTree) : Located → Located → Prop
  | directory {p : Place} : LeadsOn t' (.present p .directory) (.present p .directory)
  | file {r : Located} {content : Content} (hr : r.isDirectory = false)
      (hfile : t'.get? r.place = some (.file content)) :
    LeadsOn t' r (.present r.place (.file content))

namespace Workspace

/-- A later workspace, around the same directory, with the directories and links of this one. -/
structure KeepsWays (w w' : Workspace) : Prop where
  here : w'.here = w.here
  ways : w.tree.KeepsWays w'.tree

section Trails

variable {t t' : FileTree} {links : Nat} {place : Place} {names : List String} {r r' : Located}

/-- A trail leads on where it did if directories and links stay. -/
theorem Trail.of_keepsWays (h : Trail t true links place names r) (hkeep : t.KeepsWays t')
    (hr : r.LeadsOn t' r') : Trail t' true links place names r' := by
  induction h with
  | arrived =>
    cases hr with
    | directory => exact .arrived
    | file hr => exact nomatch hr
  | stay _ ih => exact .stay (ih hr)
  | leave _ ih => exact .leave (ih hr)
  | enter henters hentry _ ih => exact .enter henters (hkeep _ _ hentry nofun) (ih hr)
  | free henters _ =>
    cases hr with
    | file _ hfile => exact .file henters hfile
  | file henters _ =>
    cases hr with
    | file _ hfile => exact .file henters hfile
  | link hask => exact nomatch hask
  | jump hlast henters hentry _ ih => exact .jump hlast henters (hkeep _ _ hentry nofun) (ih hr)

/-- Where a trail finds no directory, there is nothing or a file. -/
theorem Trail.get?_place (h : Trail t true links place names r) (hr : r.isDirectory = false) :
    (∃ directory name, r = .absent directory name ∧ t.get? (directory ++ [name]) = none) ∨
      ∃ p content, r = .present p (.file content) ∧ t.get? p = some (.file content) := by
  induction h with
  | arrived => exact nomatch hr
  | stay _ ih => exact ih hr
  | leave _ ih => exact ih hr
  | enter _ _ _ ih => exact ih hr
  | free _ hentry => exact .inl ⟨_, _, rfl, hentry⟩
  | file _ hentry => exact .inr ⟨_, _, rfl, hentry⟩
  | link hask => exact nomatch hask
  | jump _ _ _ _ ih => exact ih hr

/-- A trail that ends with a dot ends at a directory. -/
theorem Trail.isDirectory_of_dot (h : Trail t true links place names r)
    (hdot : names.getLast? = some ".") : ∃ p, r = .present p .directory := by
  have hrest : ∀ {name : String} {more : List String}, name ≠ "." →
      (name :: more).getLast? = some "." → more.getLast? = some "." := by
    intro name more hname hlast
    cases more with
    | nil => exact absurd (Option.some.inj hlast) hname
    | cons next more => rwa [List.getLast?_cons_cons] at hlast
  induction h with
  | arrived => exact ⟨_, rfl⟩
  | @stay _ _ names _ htrail ih =>
    cases names with
    | nil =>
      cases htrail
      exact ⟨_, rfl⟩
    | cons next names => exact ih (by rwa [List.getLast?_cons_cons] at hdot)
  | leave _ ih => exact ih (hrest (by decide) hdot)
  | enter henters _ _ ih => exact ih (hrest henters.not_dot hdot)
  | free henters _ => exact absurd (Option.some.inj hdot) henters.not_dot
  | file henters _ => exact absurd (Option.some.inj hdot) henters.not_dot
  | link hask => exact nomatch hask
  | jump _ henters _ _ ih =>
    have hlast := hrest henters.not_dot hdot
    exact ih (by rw [List.getLast?_append, hlast, Option.some_or])

end Trails

section Paths

variable {w w' : Workspace} {path : Path}

/-- What a path leads to is at the end of its trail. -/
theorem locate_eq_ok_iff_trail {r : Located} : w.locate path = .ok r ↔
    textFault? path = none ∧
      Trail w.tree true maxLinks (origin path.text w.here) (steps path.text) r := by
  unfold locate
  cases textFault? path with
  | some fault => simp
  | none => simp [followWithin_eq_ok_iff_trail]

/-- A path leads on where it did if directories and links stay. -/
theorem KeepsWays.locate (hkeep : w.KeepsWays w') {r r' : Located} (hr : r.LeadsOn w'.tree r')
    (h : w.locate path = .ok r) : w'.locate path = .ok r' := by
  rw [locate_eq_ok_iff_trail] at h ⊢
  rw [hkeep.here]
  exact ⟨h.1, h.2.of_keepsWays hkeep.ways hr⟩

/-- The directory of a path is where it was if directories and links stay. -/
theorem KeepsWays.locateAbove (hkeep : w.KeepsWays w') {above : Place}
    (h : w.locateAbove path = .ok above) : w'.locateAbove path = .ok above := by
  unfold Workspace.locateAbove at h ⊢
  cases htext : textFault? path with
  | some fault =>
    rw [htext] at h
    exact nomatch h
  | none =>
    simp only [htext] at h
    simp only [hkeep.here]
    cases hfollow : followWithin w.tree true maxLinks (origin path.text w.here)
        ((splitLast path).1 ++ ["."]) with
    | error fault =>
      rw [hfollow] at h
      exact nomatch h
    | ok r =>
      have htrail := followWithin_eq_ok_iff_trail.mp hfollow
      obtain ⟨p, rfl⟩ := htrail.isDirectory_of_dot List.getLast?_concat
      rw [hfollow] at h
      have hlater := (htrail.of_keepsWays hkeep.ways .directory).followWithin_eq
      rw [hlater]
      exact h

/-- A content is read where a path leads to a file. -/
theorem read_eq_ok_iff_locate {content : Content} :
    w.read path = .ok content ↔ ∃ p, w.locate path = .ok (.present p (.file content)) := by
  unfold read entry
  cases w.locate path with
  | error fault => simp
  | ok r =>
    cases r with
    | absent directory name => simp
    | present p e => cases e <;> simp

/-- A file that a path leads to is in the tree. -/
theorem get?_of_locate {p : Place} {content : Content}
    (h : w.locate path = .ok (.present p (.file content))) :
    w.tree.get? p = some (.file content) := by
  rcases (locate_eq_ok_iff_trail.mp h).2.get?_place rfl with
    ⟨directory, name, hr, -⟩ | ⟨q, found, hr, hfile⟩
  · exact nomatch hr
  · cases hr
    exact hfile

/-- A file that can be read stays so, with what it holds then, if directories and links stay. -/
theorem KeepsWays.read (hkeep : w.KeepsWays w') {p : Place} {before content : Content}
    (h : w.locate path = .ok (.present p (.file before)))
    (hfile : w'.tree.get? p = some (.file content)) : w'.read path = .ok content :=
  read_eq_ok_iff_locate.mpr ⟨p, hkeep.locate (.file rfl hfile) h⟩

/-- A file can be created where a path leads to no directory, from a directory and under a name. -/
theorem createFile_eq_ok_iff {place : Place} {created : Workspace} :
    w.createFile path = .ok (place, created) ↔
      (∃ above, w.locateAbove path = .ok above) ∧
      ¬((splitLast path).2.isNone || path.text.toList.getLast? = some '/') ∧
      (∃ r, w.locate path = .ok r ∧ r.isDirectory = false ∧ r.place = place) ∧
      created = w.put place (.file .empty) := by
  have hpair : ∀ q, (q, w.put q (.file .empty)) = (place, created) ↔
      q = place ∧ created = w.put place (.file .empty) := by
    intro q
    rw [Prod.mk.injEq]
    constructor
    · rintro ⟨rfl, rfl⟩
      exact ⟨rfl, rfl⟩
    · rintro ⟨rfl, rfl⟩
      exact ⟨rfl, rfl⟩
  unfold createFile
  cases w.locateAbove path with
  | error fault => simp
  | ok above =>
    dsimp only
    split
    · rename_i hend
      simp [hend]
    · rename_i hend
      cases w.locate path with
      | error fault => simp
      | ok r =>
        cases r with
        | absent directory name => simp [hpair, hend, Located.isDirectory, Located.place]
        | present p e => cases e <;> simp [hpair, hend, Located.isDirectory, Located.place]

/-- A file that is put at the end of a path leaves directories and links where they were. -/
theorem keepsWays_put {r : Located} (h : w.locate path = .ok r) (hr : r.isDirectory = false)
    (content : Content) :
    w.KeepsWays (w.put r.place (.file content)) ∧
      (w.put r.place (.file content)).tree.get? r.place = some (.file content) := by
  have hentry : w.tree.get? r.place = none ∨
      ∃ found, w.tree.get? r.place = some (.file found) := by
    rcases (locate_eq_ok_iff_trail.mp h).2.get?_place hr with
      ⟨directory, name, rfl, hnone⟩ | ⟨p, found, rfl, hfile⟩
    · exact .inl hnone
    · exact .inr ⟨found, hfile⟩
  have hroot : r.place ≠ [] := by
    intro hroot
    simp [hroot] at hentry
  refine ⟨⟨rfl, fun p e hp hother => ?_⟩, FileTree.get?_insert_self _ hroot _⟩
  have hne : p ≠ r.place := by
    rintro rfl
    rcases hentry with hnone | ⟨found, hfile⟩
    · exact nomatch hp.symm.trans hnone
    · exact hother found (Option.some.inj (hp.symm.trans hfile))
  exact (FileTree.get?_insert_of_ne _ hne _).trans hp

/-- Once a file is created, its path leads to it, whatever is put there. -/
theorem locate_put {place : Place} {created : Workspace}
    (h : w.createFile path = .ok (place, created)) (content : Content) :
    (w.put place (.file content)).locate path = .ok (.present place (.file content)) := by
  obtain ⟨-, -, ⟨r, hlocate, hr, rfl⟩, -⟩ := createFile_eq_ok_iff.mp h
  obtain ⟨hkeep, hfile⟩ := keepsWays_put hlocate hr content
  exact hkeep.locate (.file hr hfile) hlocate

/-- A file that was created can be written, and then holds the content. -/
theorem writeFile_of_createFile {place : Place} {created : Workspace}
    (h : w.createFile path = .ok (place, created)) (content : Content) :
    created.writeFile path content = .ok (w.put place (.file content)) := by
  have hthere := locate_put h .empty
  obtain ⟨⟨above, habove⟩, hend, ⟨r, hlocate, hr, rfl⟩, rfl⟩ := createFile_eq_ok_iff.mp h
  have hkeep := (keepsWays_put hlocate hr .empty).1
  have hagain : (w.put r.place (.file .empty)).createFile path =
      .ok (r.place, (w.put r.place (.file .empty)).put r.place (.file .empty)) :=
    createFile_eq_ok_iff.mpr
      ⟨⟨above, hkeep.locateAbove habove⟩, hend, ⟨_, hthere, rfl, rfl⟩, rfl⟩
  unfold writeFile
  rw [hagain]
  simp only [put, FileTree.insert_insert]

end Paths

end Workspace

end ViewBinding
