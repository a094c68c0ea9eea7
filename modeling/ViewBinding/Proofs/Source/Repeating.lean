import ViewBinding.Proofs.FileTree.Laying
import ViewBinding.Proofs.Path.Components
import ViewBinding.Proofs.Source.Reporting

/-!
# Emitting again

On disk, storing a source under a new name comes to laying its file, and a name that is taken stays
as it is. So a round that is emitted once more, over what it has left, goes in step with the first
time: it writes the same artifacts, fails for the same bindings, and changes nothing.
-/

namespace ViewBinding

open Workspace

namespace DiskFiles

section Paths

variable {root : Path} {name : String}

/-- The path of an artifact has names. -/
theorem names_pathFor_ne_nil (h : Name.isQualified name = true) (root : Path) :
    (pathFor root name).names ≠ [] := by
  rw [names_pathFor h]
  simp [namesFor]

/-- The path of an artifact ends in a name. -/
theorem endsInName_pathFor (h : Name.isQualified name = true) (root : Path) :
    (pathFor root name).EndsInName := by
  unfold Path.EndsInName
  rw [steps_pathFor h, namesFor, ← List.append_assoc, List.getLast?_concat]
  intro hlast
  have hdots := ne_dots_of_mem_namesFor h _ (List.mem_append_right _ (List.mem_singleton_self _))
  exact hdots.1 (Option.some.inj hlast)

/-- The path of an artifact goes up nowhere if that of the directory does not. -/
theorem descends_pathFor (h : Name.isQualified name = true) (hroot : root.Descends) :
    (pathFor root name).Descends := by
  unfold Path.Descends
  rw [names_pathFor h]
  intro hin
  rcases List.mem_append.mp hin with hin | hin
  · exact hroot hin
  · exact (ne_dots_of_mem_namesFor h _ hin).2 rfl

end Paths

section Storing

variable {root : Path} {name : String} {d : DiskFiles}

/-- The directory above an artifact is made by paving the way to it, unless its text has a fault. -/
theorem makeParent_eq {w : Workspace} {path : Path} (h : w.Plain) (hpath : path.Descends)
    (hne : path.names ≠ []) :
    (∃ fault, aboveFault? path = some fault ∧ makeParent path w = (.error fault, w)) ∨
      aboveFault? path = none ∧ ∃ result, makeParent path w = (result, (w.pave path).2) ∧
        result.isOk = (w.pave path).1 := by
  unfold aboveFault? makeParent
  cases hparent : path.parent? with
  | none => exact absurd (Path.names_of_parent?_eq_none hparent) hne
  | some above =>
    obtain ⟨hnames, -, hhead⟩ := Path.parent?_eq_some hparent
    have horigin : origin above.text w.here = origin path.text w.here := by
      simp only [origin, hhead]
    have habove : above.Descends := by
      intro hin
      rw [hnames] at hin
      exact hpath (List.dropLast_subset _ hin)
    have hmade : (above.text = "" ∨ textFault? above = none) → ∃ result,
        makeDirectories above w = (result, (w.pave path).2) ∧ result.isOk = (w.pave path).1 := by
      intro htext
      have hpaved := makeDirectoriesWithin_eq (Nat.lt_succ_self _) h htext habove
        (Path.trimmed_of_parent? hparent)
      rw [hnames, horigin] at hpaved
      exact hpaved
    by_cases hempty : above.text = ""
    · have hsome : above.text.isEmpty = true := by simpa using hempty
      simp only [hsome, if_true]
      exact .inr ⟨trivial, hmade (.inl hempty)⟩
    · have hsome : above.text.isEmpty = false := by simpa using hempty
      simp only [hsome, Bool.false_eq_true, if_false]
      cases htext : textFault? above with
      | none => exact .inr ⟨rfl, hmade (.inr htext)⟩
      | some fault => exact .inl ⟨fault, rfl, makeDirectoriesWithin_of_fault hempty htext⟩

/-- How the steps on a path come to laying a file at its end. -/
inductive LayExit (w : Workspace) (path : Path) (content : Content) : Bool × Workspace → Prop
  | parent {fault : FileFault} {made : Workspace}
      (hparent : makeParent path w = (.error fault, made)) :
    LayExit w path content (false, made)
  | file {fault : FileFault} {made : Workspace} (hparent : makeParent path w = (.ok (), made))
      (hfile : made.createFile path = .error fault) : LayExit w path content (false, made)
  | written {made created written : Workspace} {place : Place}
      (hparent : makeParent path w = (.ok (), made))
      (hfile : made.createFile path = .ok (place, created))
      (hwrite : created.writeFile path content = .ok written) :
    LayExit w path content (true, written)

/-- The steps on a path come to laying a file at its end. -/
theorem layExit {w : Workspace} {path : Path} (h : w.Plain) (hpath : path.Descends)
    (hend : path.EndsInName) (hne : path.names ≠ []) (content : Content) :
    LayExit w path content (w.lay path content) := by
  obtain ⟨front, last, hnames⟩ : ∃ front last, path.names = front ++ [last] :=
    ⟨_, _, (List.dropLast_concat_getLast hne).symm⟩
  have hlay := w.lay_cases path content
  rcases makeParent_eq h hpath hne with
    ⟨fault, hfault, hparent⟩ | ⟨hsound, result, hparent, hreached⟩
  · rw [hfault] at hlay
    rcases hlay with ⟨-, hlay⟩ | ⟨hno, -⟩
    · rw [hlay]
      exact .parent hparent
    · exact nomatch hno
  rw [hsound] at hlay
  have hlay := (hlay.resolve_left fun hno => nomatch hno.1).2
  rw [← hreached] at hlay
  cases result with
  | error fault =>
    rcases hlay with ⟨hno, -⟩ | ⟨-, hlay⟩
    · exact nomatch hno
    · rw [hlay]
      exact .parent hparent
  | ok _ =>
    have hplain := h.pave hpath
    have habove : (w.pave path).2.tree.get? (origin path.text (w.pave path).2.here ++ front) =
        some .directory := by
      have hdirectory := FileTree.get?_of_pave (h.get?_origin path.text) hreached.symm
      rw [hnames, List.dropLast_concat] at hdirectory
      unfold Workspace.pave
      rw [hnames, List.dropLast_concat]
      exact hdirectory
    cases hmay : (w.pave path).2.mayHold path with
    | false =>
      obtain ⟨fault, hfile⟩ := createFile_of_not_mayHold hplain hpath hend hnames habove hmay
      rw [hmay] at hlay
      rcases hlay with ⟨hno, -⟩ | ⟨-, hlay⟩
      · exact nomatch hno
      · rw [hlay]
        exact .file hparent hfile
    | true =>
      have hfile := createFile_of_mayHold hplain hpath hend hnames habove hmay
      have hwrite := writeFile_of_mayHold hplain hpath hend hnames habove hmay content
      rw [hmay] at hlay
      rcases hlay with ⟨-, hlay⟩ | ⟨hno, -⟩
      · rw [hlay]
        exact .written hparent hfile hwrite
      · exact nomatch hno

/-- The store after the file of an artifact was laid: the name is created if there is such a
file. -/
def lay (root : Path) (name : String) (content : Content) (d : DiskFiles) : DiskFiles where
  workspace := (d.workspace.lay (pathFor root name) content).2
  created :=
    if (d.workspace.lay (pathFor root name) content).1 then name :: d.created else d.created

/-- Storing a source under a new name is to lay its file. -/
theorem store_eq_lay (h : d.workspace.Plain) (hname : Name.isQualified name = true)
    (hroot : root.Descends) (hnew : name ∉ d.created) (content : Content) :
    ∃ result, (filer root).store name content d = (result, d.lay root name content) ∧
      result.isOk = (d.workspace.lay (pathFor root name) content).1 := by
  unfold lay
  have hexit := layExit h (descends_pathFor hname hroot) (endsInName_pathFor hname root)
    (names_pathFor_ne_nil hname root) content
  revert hexit
  generalize d.workspace.lay (pathFor root name) content = laid
  intro hexit
  cases hexit with
  | parent hparent =>
    simp only [Filer.store, filer, create, if_neg hnew, hparent]
    exact ⟨_, rfl, rfl⟩
  | file hparent hfile =>
    simp only [Filer.store, filer, create, if_neg hnew, hparent, hfile]
    exact ⟨_, rfl, rfl⟩
  | @written made created written place hparent hfile hwrite =>
    have hcreate : (filer root).create name d = (.ok (), ⟨created, name :: d.created⟩) := by
      simp only [filer, create, if_neg hnew, hparent, hfile]
    simp only [Filer.store, hcreate, write_of_ok hwrite]
    exact ⟨_, rfl, rfl⟩

end Storing

/-- A store in a plain workspace, where every created name has its file. -/
structure Proper (root : Path) (d : DiskFiles) : Prop where
  plain : d.workspace.Plain
  qualified : ∀ name ∈ d.created, Name.isQualified name = true
  filed : ∀ name ∈ d.created, ∃ content,
    d.workspace.tree.get? (d.workspace.placeOf (pathFor root name)) = some (.file content)

/-- A later workspace that has the artifacts of a store as they were left. -/
structure RetainedBy (root : Path) (d : DiskFiles) (w : Workspace) : Prop where
  here : w.here = d.workspace.here
  later : FileTree.Later d.workspace.tree w.tree
  kept : ∀ name ∈ d.created, w.tree.get? (d.workspace.placeOf (pathFor root name)) =
    d.workspace.tree.get? (d.workspace.placeOf (pathFor root name))

/-- A later store, whose workspace has the artifacts of the earlier one as they were left. -/
structure Advances (root : Path) (d d' : DiskFiles) : Prop where
  retained : RetainedBy root d d'.workspace
  created : ∀ name ∈ d.created, name ∈ d'.created

section Relations

variable {root : Path} {d d' d'' : DiskFiles} {w : Workspace}

theorem RetainedBy.refl (d : DiskFiles) : RetainedBy root d d.workspace :=
  ⟨rfl, .refl _, fun _ _ => rfl⟩

/-- What retains the artifacts of a later store retains those of the earlier one. -/
theorem Advances.retainedBy (h : Advances root d d') (h' : RetainedBy root d' w) :
    RetainedBy root d w := by
  refine ⟨h'.here.trans h.retained.here, h.retained.later.trans h'.later, fun name hname => ?_⟩
  have hkept := h'.kept name (h.created name hname)
  rw [placeOf_congr h.retained.here] at hkept
  rw [hkept, h.retained.kept name hname]

theorem Advances.refl (d : DiskFiles) : Advances root d d := ⟨.refl d, fun _ h => h⟩

theorem Advances.trans (h : Advances root d d') (h' : Advances root d' d'') :
    Advances root d d'' :=
  ⟨h.retainedBy h'.retained, fun name hname => h'.created name (h.created name hname)⟩

end Relations

section Laying

variable {root : Path} {name : String} {content : Content} {d : DiskFiles}

/-- Laying an artifact is laying its file in the workspace. -/
theorem workspace_lay : (d.lay root name content).workspace =
    (d.workspace.lay (pathFor root name) content).2 := by simp only [lay]

/-- What is created by then was created before, or is what was laid. -/
theorem mem_created_lay {other : String} :
    other ∈ (d.lay root name content).created ↔
      other ∈ d.created ∨
        (d.workspace.lay (pathFor root name) content).1 = true ∧ other = name := by
  unfold lay
  cases (d.workspace.lay (pathFor root name) content).1 with
  | false => simp
  | true => simp [or_comm]

/-- Laying an artifact with a new name leaves the others as they were. -/
theorem Proper.get?_lay (h : d.Proper root) (hname : Name.isQualified name = true)
    (hnew : name ∉ d.created) {other : String} (hother : other ∈ d.created) {e : Entry}
    (he : d.workspace.tree.get? (d.workspace.placeOf (pathFor root other)) = some e) :
    (d.lay root name content).workspace.tree.get? (d.workspace.placeOf (pathFor root other)) =
      some e := by
  rw [workspace_lay]
  refine get?_lay_of_some (fun hplace => hnew ?_) he
  rw [← placeOf_pathFor_inj (h.qualified other hother) hname hplace]
  exact hother

/-- Laying an artifact with a new name keeps a store proper, and what was created before stays. -/
theorem Proper.lay (h : d.Proper root) (hname : Name.isQualified name = true)
    (hroot : root.Descends) (hnew : name ∉ d.created) (content : Content) :
    (d.lay root name content).Proper root ∧ Advances root d (d.lay root name content) := by
  obtain ⟨hhere, hlater⟩ := d.workspace.later_lay (pathFor root name) content
  have hput : (d.workspace.lay (pathFor root name) content).1 = true → _ := get?_of_lay
  have hplain := h.plain.lay (descends_pathFor hname hroot)
    (names_pathFor_ne_nil hname root) content
  rw [← workspace_lay] at hhere hlater hput hplain
  have hplace := placeOf_congr hhere
  have hkept : ∀ other ∈ d.created, ∃ found,
      d.workspace.tree.get? (d.workspace.placeOf (pathFor root other)) = some (.file found) ∧
      (d.lay root name content).workspace.tree.get? (d.workspace.placeOf (pathFor root other)) =
        some (.file found) := by
    intro other hin
    obtain ⟨found, hfile⟩ := h.filed other hin
    exact ⟨found, hfile, h.get?_lay hname hnew hin hfile⟩
  refine ⟨⟨hplain, fun other hin => ?_, fun other hin => ?_⟩,
    ⟨⟨hhere, hlater, fun other hin => ?_⟩, fun other hin => mem_created_lay.mpr (.inl hin)⟩⟩
  · rcases mem_created_lay.mp hin with hin | ⟨-, rfl⟩
    · exact h.qualified other hin
    · exact hname
  · rw [hplace]
    rcases mem_created_lay.mp hin with hin | ⟨hlaid, rfl⟩
    · obtain ⟨found, -, hfile⟩ := hkept other hin
      exact ⟨found, hfile⟩
    · exact ⟨content, hput hlaid⟩
  · obtain ⟨found, hbefore, hafter⟩ := hkept other hin
    rw [hbefore, hafter]

/-- Laying an artifact once more, over a workspace that has what the first time left, ends alike and
changes nothing. -/
theorem RetainedBy.lay_eq {w : Workspace} (h : RetainedBy root (d.lay root name content) w) :
    w.lay (pathFor root name) content =
      ((d.workspace.lay (pathFor root name) content).1, w) := by
  obtain ⟨hsame, hlater, hkept⟩ := h
  have hhere := (d.workspace.later_lay (pathFor root name) content).1
  have hput : (d.workspace.lay (pathFor root name) content).1 = true → _ := get?_of_lay
  replace hkept := hkept name
  rw [workspace_lay] at hsame hlater
  rw [mem_created_lay, workspace_lay, placeOf_congr hhere] at hkept
  refine lay_of_later (pathFor root name) content (hsame.trans hhere) hlater fun hlaid => ?_
  rw [hkept (.inr ⟨hlaid, rfl⟩), hput hlaid]

end Laying

section Emitting

variable {root : Path} {round : Round} {b : Binding} {bs : List Binding} {d : DiskFiles}

/-- How producing a binding on disk can end: without a package, under a name that is taken, or by
laying a file. -/
inductive EmitExit (root : Path) (round : Round) (b : Binding) (d : DiskFiles) :
    Except EmitFailure String × DiskFiles → Prop
  | homeless {fault : EmitFault} {failure : EmitFailure} (hsource : round.source b = .error fault) :
    EmitExit root round b d (.error failure, d)
  | taken {s : Source} {failure : EmitFailure} (hsource : round.source b = .ok s)
      (htaken : s.qualifiedName ∈ d.created) : EmitExit root round b d (.error failure, d)
  | laid {s : Source} {result : Except EmitFailure String} (hsource : round.source b = .ok s)
      (hnew : s.qualifiedName ∉ d.created)
      (hresult : result.toOption = if (d.workspace.lay (pathFor root s.qualifiedName)
        (.ofText s.text)).1 then some s.qualifiedName else none) :
    EmitExit root round b d (result, d.lay root s.qualifiedName (.ofText s.text))

/-- A name that was created is not created again. -/
theorem store_of_mem (root : Path) {name : String} (h : name ∈ d.created) (content : Content) :
    ∃ fault, (filer root).store name content d = (.error fault, d) := by
  have hcreate : (filer root).create name d = (.error (.alreadyCreated name), d) := if_pos h
  rw [Filer.store, hcreate]
  exact ⟨_, rfl⟩

/-- Producing a binding on disk ends in one of these ways. -/
theorem emitExit (hroot : root.Descends) (h : d.workspace.Plain)
    (hname : ∀ s, round.source b = .ok s → Name.isQualified s.qualifiedName = true) :
    EmitExit root round b d ((filer root).emitOne round b d) := by
  cases hsource : round.source b with
  | error fault =>
    simp only [Filer.emitOne, hsource]
    exact .homeless hsource
  | ok s =>
    rw [Filer.emitOne_of_source _ hsource]
    by_cases htaken : s.qualifiedName ∈ d.created
    · obtain ⟨fault, hstore⟩ := store_of_mem root htaken (.ofText s.text)
      rw [hstore]
      exact .taken hsource htaken
    · obtain ⟨result, hstore, hreached⟩ :=
        store_eq_lay h (hname s hsource) hroot htaken (.ofText s.text)
      rw [hstore]
      refine .laid hsource htaken ?_
      rw [← hreached]
      cases result <;> rfl

/-- Producing a binding keeps a store proper, and what was created before it stays. -/
theorem Proper.emitOne (h : d.Proper root) (hroot : root.Descends)
    (hname : ∀ s, round.source b = .ok s → Name.isQualified s.qualifiedName = true) :
    ((filer root).emitOne round b d).2.Proper root ∧
      Advances root d ((filer root).emitOne round b d).2 := by
  have hexit := emitExit hroot h.plain hname
  revert hexit
  generalize (filer root).emitOne round b d = ended
  intro hexit
  cases hexit with
  | homeless => exact ⟨h, .refl d⟩
  | taken => exact ⟨h, .refl d⟩
  | @laid s result hsource hnew => exact h.lay (hname s hsource) hroot hnew (.ofText s.text)

/-- Emitting bindings keeps a store proper, and what was created before stays. -/
theorem Proper.emit (h : d.Proper root) (hroot : root.Descends)
    (hnames : ∀ b ∈ bs, ∀ s, round.source b = .ok s → Name.isQualified s.qualifiedName = true) :
    ((filer root).emit round bs d).2.Proper root ∧
      Advances root d ((filer root).emit round bs d).2 := by
  induction bs generalizing d with
  | nil => exact ⟨h, .refl d⟩
  | cons b bs ih =>
    obtain ⟨hproper, hadvances⟩ := h.emitOne hroot (hnames b (List.mem_cons_self ..))
    obtain ⟨hproper', hadvances'⟩ := ih hproper fun c hc => hnames c (List.mem_cons_of_mem _ hc)
    rw [Filer.emit_cons]
    exact ⟨hproper', hadvances.trans hadvances'⟩

/-- A binding that is produced once more, over a workspace that has what the first time left, ends
alike and changes nothing. -/
theorem Proper.emitOne_again (h : d.Proper root) (hroot : root.Descends)
    (hname : ∀ s, round.source b = .ok s → Name.isQualified s.qualifiedName = true)
    {w : Workspace} (hw : w.Plain)
    (hretained : RetainedBy root ((filer root).emitOne round b d).2 w) :
    ((filer root).emitOne round b ⟨w, d.created⟩).2 =
        ⟨w, ((filer root).emitOne round b d).2.created⟩ ∧
      ((filer root).emitOne round b ⟨w, d.created⟩).1.toOption =
        ((filer root).emitOne round b d).1.toOption := by
  have hexit := emitExit hroot h.plain hname
  have hagain := emitExit (d := ⟨w, d.created⟩) hroot hw hname
  revert hexit hagain hretained
  generalize (filer root).emitOne round b d = ended
  generalize (filer root).emitOne round b ⟨w, d.created⟩ = endedAgain
  intro hretained hexit hagain
  cases hexit with
  | homeless hsource =>
    cases hagain with
    | homeless => exact ⟨rfl, rfl⟩
    | taken hsource' => exact nomatch hsource.symm.trans hsource'
    | laid hsource' => exact nomatch hsource.symm.trans hsource'
  | taken hsource htaken =>
    cases hagain with
    | homeless hsource' => exact nomatch hsource.symm.trans hsource'
    | taken => exact ⟨rfl, rfl⟩
    | laid hsource' hnew =>
      obtain rfl := Except.ok.inj (hsource.symm.trans hsource')
      exact absurd htaken hnew
  | @laid s result hsource hnew hresult =>
    cases hagain with
    | homeless hsource' => exact nomatch hsource.symm.trans hsource'
    | taken hsource' htaken =>
      obtain rfl := Except.ok.inj (hsource.symm.trans hsource')
      exact absurd htaken hnew
    | laid hsource' hnew' hresult' =>
      obtain rfl := Except.ok.inj (hsource.symm.trans hsource')
      have hlay := hretained.lay_eq
      refine ⟨?_, ?_⟩
      · unfold DiskFiles.lay
        dsimp only
        rw [hlay]
      · rw [hresult, hresult', hlay]

/-- Bindings that are emitted once more, over a workspace that has what the first time left, end
alike and change nothing. -/
theorem Proper.emit_again (h : d.Proper root) (hroot : root.Descends)
    (hnames : ∀ b ∈ bs, ∀ s, round.source b = .ok s → Name.isQualified s.qualifiedName = true)
    {w : Workspace} (hw : w.Plain)
    (hretained : RetainedBy root ((filer root).emit round bs d).2 w) :
    ((filer root).emit round bs ⟨w, d.created⟩).2 =
        ⟨w, ((filer root).emit round bs d).2.created⟩ ∧
      ((filer root).ends round bs ⟨w, d.created⟩).map (·.toOption) =
        ((filer root).ends round bs d).map (·.toOption) := by
  induction bs generalizing d with
  | nil => exact ⟨rfl, rfl⟩
  | cons b bs ih =>
    have hname := hnames b (List.mem_cons_self ..)
    have hothers := fun c hc => hnames c (List.mem_cons_of_mem b hc)
    have hproper := (h.emitOne hroot hname).1
    rw [Filer.emit_cons] at hretained
    have hfirst := h.emitOne_again hroot hname hw
      ((hproper.emit hroot hothers).2.retainedBy hretained)
    have hrest := ih hproper hothers hretained
    rw [Filer.emit_cons, Filer.emit_cons, Filer.ends, Filer.ends, hfirst.1, List.map_cons,
      List.map_cons, hfirst.2, hrest.2]
    exact ⟨hrest.1, rfl⟩

end Emitting

end DiskFiles

end ViewBinding
