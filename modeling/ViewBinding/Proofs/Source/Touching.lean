import ViewBinding.Proofs.Path.Names
import ViewBinding.Proofs.Source.DryRun

/-!
# What the disk filer touches

Storing a source below an output directory adds directories above its file and writes the file, and
touches nothing else, however far it gets. So emitting bindings touches only the files of their
artifacts and the directories above these.
-/

namespace ViewBinding

namespace Filer

variable {σ : Type} (filer : Filer σ)

/-- Every step on a name moves the store along a relation, however it ends. -/
structure Moves (R : σ → σ → Prop) (name : String) : Prop where
  create : ∀ s, R s (filer.create name s).2
  write : ∀ content s, R s (filer.write name content s).2
  flush : ∀ s, R s (filer.flush name s).2

variable {filer} {R : σ → σ → Prop} (hrefl : ∀ s, R s s)
  (htrans : ∀ s t u, R s t → R t u → R s u)

include htrans in
/-- Storing a source moves along the relation of its steps. -/
theorem Moves.store {name : String} (h : filer.Moves R name) (content : Content) (s : σ) :
    R s (filer.store name content s).2 := by
  have hcreate := h.create s
  unfold Filer.store
  cases hc : filer.create name s with
  | mk result s₁ =>
    rw [hc] at hcreate
    cases result with
    | error fault => exact hcreate
    | ok _ =>
      have hwrite := h.write content s₁
      simp only
      cases hw : filer.write name content s₁ with
      | mk result s₂ =>
        rw [hw] at hwrite
        cases result with
        | error fault => exact htrans _ _ _ hcreate hwrite
        | ok _ =>
          have hflush := h.flush s₂
          simp only
          cases hf : filer.flush name s₂ with
          | mk result s₃ =>
            rw [hf] at hflush
            cases result <;> exact htrans _ _ _ (htrans _ _ _ hcreate hwrite) hflush

include hrefl htrans in
/-- Producing a binding moves along the relation of the steps on its name. -/
theorem move_emitOne {round : Round} {b : Binding}
    (h : ∀ s, round.source b = .ok s → filer.Moves R s.qualifiedName) (s : σ) :
    R s (filer.emitOne round b s).2 := by
  cases hsource : round.source b with
  | error fault =>
    simp only [emitOne, hsource]
    exact hrefl s
  | ok source =>
    rw [emitOne_of_source filer hsource]
    exact Moves.store htrans (h source hsource) _ s

include hrefl htrans in
/-- Emitting bindings moves along the relation of the steps on their names. -/
theorem move_emit {round : Round} {bs : List Binding}
    (h : ∀ b ∈ bs, ∀ s, round.source b = .ok s → filer.Moves R s.qualifiedName) (s : σ) :
    R s (filer.emit round bs s).2 := by
  induction bs generalizing s with
  | nil => exact hrefl s
  | cons b bs ih =>
    rw [emit_cons]
    exact htrans _ _ _ (move_emitOne hrefl htrans (h b (List.mem_cons_self ..)) s)
      (ih (fun c hc => h c (List.mem_cons_of_mem _ hc)) _)

end Filer

namespace Workspace

/-- A later workspace where only files at some paths were written, over files or where nothing was,
and only directories at other paths were added. -/
structure Touches (files directories : Path → Prop) (w w' : Workspace) : Prop where
  here : w'.here = w.here
  entries : ∀ p, w'.tree.get? p = w.tree.get? p ∨
    (∃ path, files path ∧ p = w.placeOf path ∧ w.tree.get? p ≠ some .directory ∧
      ∃ content, w'.tree.get? p = some (.file content)) ∨
    ∃ path, directories path ∧ p = w.placeOf path ∧ w.tree.get? p = none ∧
      w'.tree.get? p = some .directory

section Touching

variable {files directories : Path → Prop} {w w' w'' : Workspace}

theorem Touches.refl (w : Workspace) : Touches files directories w w := ⟨rfl, fun _ => .inl rfl⟩

theorem Touches.trans (h : Touches files directories w w') (h' : Touches files directories w' w'') :
    Touches files directories w w'' := by
  have hplace := placeOf_congr h.here
  refine ⟨h'.here.trans h.here, fun p => ?_⟩
  rcases h'.entries p with
    hlast | ⟨path, hpath, hp, hother, hfile⟩ | ⟨path, hpath, hp, hnone, hmade⟩
  · rw [hlast]
    exact h.entries p
  · refine .inr (.inl ⟨path, hpath, hplace path ▸ hp, fun hdirectory => ?_, hfile⟩)
    rcases h.entries p with hsame | ⟨-, -, -, hne, -⟩ | ⟨-, -, -, hnone, -⟩
    · exact hother (hsame.trans hdirectory)
    · exact hne hdirectory
    · exact nomatch hdirectory.symm.trans hnone
  · refine .inr (.inr ⟨path, hpath, hplace path ▸ hp, ?_, hmade⟩)
    rcases h.entries p with hsame | ⟨-, -, -, -, content, hfile⟩ | ⟨-, -, -, -, hmade'⟩
    · exact hsame ▸ hnone
    · exact nomatch hfile.symm.trans hnone
    · exact nomatch hmade'.symm.trans hnone

/-- What is touched takes no directory away and is no link. -/
theorem Touches.keeps (h : Touches files directories w w') (hfree : w.tree.LinkFree) :
    Keeps w w' := by
  refine ⟨h.here, fun p target hlink => ?_, fun p hdirectory => ?_⟩
  · rcases h.entries p with hsame | ⟨-, -, -, -, content, hfile⟩ | ⟨-, -, -, -, hmade⟩
    · exact hfree p target (hsame ▸ hlink)
    · exact nomatch hfile.symm.trans hlink
    · exact nomatch hmade.symm.trans hlink
  · rcases h.entries p with hsame | ⟨-, -, -, hne, -⟩ | ⟨-, -, -, hnone, -⟩
    · exact hsame.trans hdirectory
    · exact absurd hdirectory hne
    · exact nomatch hdirectory.symm.trans hnone

/-- No entry is taken away. -/
theorem Touches.isSome_get? (h : Touches files directories w w') {p : Place}
    (hp : (w.tree.get? p).isSome) : (w'.tree.get? p).isSome := by
  rcases h.entries p with hsame | ⟨-, -, -, -, content, hfile⟩ | ⟨-, -, -, -, hmade⟩
  · rwa [hsame]
  · rw [hfile]
    rfl
  · rw [hmade]
    rfl

/-- A file that is not at one of the paths is not changed. -/
theorem Touches.get?_of_file (h : Touches files directories w w') {p : Place} {content : Content}
    (hfile : w.tree.get? p = some (.file content))
    (hother : ∀ path, files path → p ≠ w.placeOf path) : w'.tree.get? p = w.tree.get? p := by
  rcases h.entries p with hsame | ⟨path, hpath, hp, -⟩ | ⟨-, -, -, hnone, -⟩
  · exact hsame
  · exact absurd hp (hother path hpath)
  · exact nomatch hfile.symm.trans hnone

end Touching

section Steps

variable {w w' : Workspace} {path : Path}

/-- The last name that is split off is no dot, and the others stand before it. -/
theorem splitLast_eq {name : String} (h : (splitLast path).2 = some name) :
    (Text.split '/' path.text).filter (· ≠ "") = (splitLast path).1 ++ [name] ∧
      name ≠ "." ∧ name ≠ ".." := by
  unfold splitLast at h ⊢
  simp only at h ⊢
  generalize (Text.split '/' path.text).filter (· ≠ "") = pieces at h ⊢
  split at h
  · exact nomatch h
  · exact nomatch h
  · exact nomatch h
  · rename_i last hdot hdots hlast
    obtain rfl := Option.some.inj h
    obtain ⟨front, rfl⟩ := List.getLast?_eq_some_iff.mp hlast
    rw [List.dropLast_concat]
    exact ⟨rfl, hdot, hdots⟩

/-- A path whose last name is no dot leads to that name, from where the names before it lead. -/
theorem placeOf_of_splitLast {name : String} (h : (splitLast path).2 = some name)
    (w : Workspace) : w.placeOf path =
      Place.follow (origin path.text w.here) (splitLast path).1 ++ [name] := by
  obtain ⟨hpieces, hdot, hdots⟩ := splitLast_eq h
  have hend : Place.follow (origin path.text w.here) ((splitLast path).1 ++ [name]) =
      Place.follow (origin path.text w.here) (splitLast path).1 ++ [name] := by
    rw [Place.follow_append, Place.follow_name hdot hdots, Place.follow_nil]
  unfold placeOf steps
  rw [hpieces]
  dsimp only
  split
  · rw [Place.follow_append, hend, Place.follow_current, Place.follow_nil]
  · exact hend

/-- Without links, the directory of a path is where the names before the last lead. -/
theorem place_of_locateAbove (hfree : w.tree.LinkFree) {above : Place}
    (h : w.locateAbove path = .ok above) :
    above = Place.follow (origin path.text w.here) (splitLast path).1 := by
  unfold locateAbove at h
  split at h
  · exact nomatch h
  · dsimp only at h
    split at h
    · exact nomatch h
    · rename_i place e hfollow
      obtain rfl := Except.ok.inj h
      have hplace := ((followWithin_eq_ok_iff hfree).mp hfollow).place_eq
      rwa [Place.follow_append, Place.follow_current, Place.follow_nil] at hplace
    · exact nomatch h

/-- Without links, a directory is made at the place of its path, where nothing was. -/
theorem makeDirectory_eq_ok (hfree : w.tree.LinkFree) (h : w.makeDirectory path = .ok w') :
    w.tree.get? (w.placeOf path) = none ∧ w' = w.put (w.placeOf path) .directory := by
  unfold makeDirectory at h
  cases habove : w.locateAbove path with
  | error fault => rw [habove] at h; exact nomatch h
  | ok above =>
    rw [habove] at h
    cases hname : (splitLast path).2 with
    | none => simp only [hname] at h; exact nomatch h
    | some name =>
      have hplace : above ++ [name] = w.placeOf path := by
        rw [placeOf_of_splitLast hname, place_of_locateAbove hfree habove]
      simp only [hname, hplace] at h
      split at h
      · exact nomatch h
      · split at h
        · exact nomatch h
        · rename_i hnone
          obtain rfl := Except.ok.inj h
          exact ⟨by simpa using hnone, rfl⟩

/-- Making a directory touches its place. -/
theorem touches_of_makeDirectory {files directories : Path → Prop} (hpath : directories path)
    (hfree : w.tree.LinkFree) (h : w.makeDirectory path = .ok w') :
    Touches files directories w w' := by
  obtain ⟨hnone, rfl⟩ := makeDirectory_eq_ok hfree h
  have hroot : w.placeOf path ≠ [] := by
    intro hroot
    rw [hroot] at hnone
    exact nomatch hnone
  refine ⟨rfl, fun p => ?_⟩
  by_cases hp : p = w.placeOf path
  · rw [hp]
    exact .inr (.inr ⟨path, hpath, rfl, hnone, FileTree.get?_insert_self _ hroot _⟩)
  · exact .inl (FileTree.get?_insert_of_ne _ hp _)

/-- Making the directory of a file touches the paths above it. -/
theorem touches_makeParent {files directories : Path → Prop}
    (hpaths : ∀ above ∈ path.ancestors, directories above) (hfree : w.tree.LinkFree) :
    Touches files directories w (DiskFiles.makeParent path w).2 := by
  unfold Path.ancestors at hpaths
  unfold DiskFiles.makeParent
  cases hparent : path.parent? with
  | none => exact .refl w
  | some above =>
    rw [hparent] at hpaths
    exact move_makeDirectoriesWithin
      (R := fun w w' => w.tree.LinkFree → Touches files directories w w') (fun w _ => .refl w)
      (fun _ _ _ h h' hfree => (h hfree).trans (h' ((h hfree).keeps hfree).linkFree))
      (fun p hp _ _ hmake hfree => touches_of_makeDirectory (hpaths p hp) hfree hmake) w hfree

/-- A file that was written where there was no directory touches its place. -/
theorem touches_of_writes {files directories : Path → Prop} {content : Content}
    (hpath : files path) (hother : w.tree.get? (w.placeOf path) ≠ some .directory)
    (h : Writes w w' path content) : Touches files directories w w' := by
  refine ⟨h.keeps.here, fun p => ?_⟩
  by_cases hp : p = w.placeOf path
  · refine .inr (.inl ⟨path, hpath, hp, hp ▸ hother, content, ?_⟩)
    rw [hp, ← h.keeps.placeOf_eq]
    exact get?_of_read h.keeps.linkFree h.read
  · exact .inl (h.others p hp)

/-- A file is created where there is no directory. -/
theorem get?_ne_directory_of_createFile (hfree : w.tree.LinkFree) {place : Place}
    (h : w.createFile path = .ok (place, w')) :
    w.tree.get? (w.placeOf path) ≠ some .directory := by
  obtain ⟨-, -, -, r, hway, hr⟩ := createFile_eq_ok hfree h
  have hplace : r.place = w.placeOf path := hway.place_eq
  exact hplace ▸ hway.get?_ne_directory hr

/-- Creating a file touches its place. -/
theorem touches_of_createFile {files directories : Path → Prop} (hpath : files path)
    (hfree : w.tree.LinkFree) {place : Place} (h : w.createFile path = .ok (place, w')) :
    Touches files directories w w' :=
  touches_of_writes hpath (get?_ne_directory_of_createFile hfree h) (writes_of_createFile hfree h)

/-- Writing a file touches its place. -/
theorem touches_of_writeFile {files directories : Path → Prop} (hpath : files path)
    (hfree : w.tree.LinkFree) {content : Content} (h : w.writeFile path content = .ok w') :
    Touches files directories w w' := by
  refine touches_of_writes hpath ?_ (writes_of_writeFile hfree h)
  unfold writeFile at h
  cases hcreate : w.createFile path with
  | error fault =>
    rw [hcreate] at h
    exact nomatch h
  | ok created => exact get?_ne_directory_of_createFile hfree hcreate

end Steps

end Workspace

namespace DiskFiles

/-- A later store whose workspace differs from the earlier one only at some paths, if there are no
links. -/
def Touches (files directories : Path → Prop) (d d' : DiskFiles) : Prop :=
  d.workspace.tree.LinkFree → d.workspace.Touches files directories d'.workspace

variable {files directories : Path → Prop} {root : Path}

/-- Every step on a name touches the file of the name and the directories above it. -/
theorem moves_touching {name : String} (hfile : files (pathFor root name))
    (hdirectories : ∀ above ∈ (pathFor root name).ancestors, directories above) :
    (filer root).Moves (Touches files directories) name := by
  refine ⟨fun d hfree => ?_, fun content d hfree => ?_, fun d _ => .refl _⟩
  · have hparent : d.workspace.Touches files directories
        (makeParent (pathFor root name) d.workspace).2 :=
      Workspace.touches_makeParent hdirectories hfree
    simp only [filer, create]
    split
    · exact .refl _
    · cases hmake : makeParent (pathFor root name) d.workspace with
      | mk result made =>
        rw [hmake] at hparent
        cases result with
        | error fault => exact hparent
        | ok _ =>
          simp only
          cases hcreate : made.createFile (pathFor root name) with
          | error fault => exact hparent
          | ok created =>
            exact hparent.trans (Workspace.touches_of_createFile hfile
              (hparent.keeps hfree).linkFree hcreate)
  · obtain ⟨w, names⟩ := d
    cases hwrite : w.writeFile (pathFor root name) content with
    | error fault =>
      rw [write_of_error hwrite]
      exact .refl _
    | ok written =>
      rw [write_of_ok hwrite]
      exact Workspace.touches_of_writeFile hfile hfree hwrite

/-- Emitting bindings touches the files of their artifacts and the directories above these. -/
theorem touches_emit {round : Round} {bs : List Binding}
    (h : ∀ b ∈ bs, ∀ s, round.source b = .ok s → files (pathFor root s.qualifiedName) ∧
      ∀ above ∈ (pathFor root s.qualifiedName).ancestors, directories above)
    {d : DiskFiles} (hfree : d.workspace.tree.LinkFree) :
    d.workspace.Touches files directories ((filer root).emit round bs d).2.workspace := by
  refine Filer.move_emit (fun _ _ => .refl _) (fun _ _ _ h h' hfree => ?_)
    (fun b hb s hs => moves_touching (h b hb s hs).1 (h b hb s hs).2) d hfree
  exact (h hfree).trans (h' ((h hfree).keeps hfree).linkFree)

end DiskFiles

end ViewBinding
