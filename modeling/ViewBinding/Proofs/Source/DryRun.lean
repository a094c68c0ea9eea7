import ViewBinding.Proofs.FileTree.Writing
import ViewBinding.Proofs.Path.Artifacts
import ViewBinding.Proofs.Round.Acceptance
import ViewBinding.Proofs.Source.Isolation

/-!
# Dry runs

A dry run stores in memory what a run would write to disk. As long as no file operation is refused,
both stores go on alike: they hold the same names, and the file of a name reads the content that is
kept under it in memory. So both runs report the same, and the disk holds what the dry run holds.
-/

namespace ViewBinding

open Name

/-- The refused file operation that a failure comes from, if it does. -/
def EmitFault.fileFault? : EmitFault → Option FileFault
  | create _ (.file fault) | write _ (.file fault) | flush _ (.file fault) => some fault
  | _ => none

namespace DiskFiles

/-- A refused write leaves the store as it is. -/
theorem write_of_error {root : Path} {name : String} {content : Content} {w : Workspace}
    {names : List String} {fault : FileFault}
    (h : w.writeFile (pathFor root name) content = .error fault) :
    (filer root).write name content ⟨w, names⟩ = (.error (.file fault), ⟨w, names⟩) := by
  simp only [filer]
  unfold write
  simp only [h]

/-- A write leaves the written workspace. -/
theorem write_of_ok {root : Path} {name : String} {content : Content} {w w' : Workspace}
    {names : List String} (h : w.writeFile (pathFor root name) content = .ok w') :
    (filer root).write name content ⟨w, names⟩ = (.ok (), ⟨w', names⟩) := by
  simp only [filer]
  unfold write
  simp only [h]

/-- How storing a source on disk ends. A file operation is refused before the file is created or not
at all, so nothing but directories is left then. -/
inductive StoreExit (root : Path) (name : String) (content : Content) (d : DiskFiles) :
    Except EmitFault Unit × DiskFiles → Prop
  | taken (h : name ∈ d.created) :
    StoreExit root name content d (.error (.create name (.alreadyCreated name)), d)
  | refused {fault : EmitFault} {made : Workspace} (h : fault.fileFault?.isSome)
      (hnew : name ∉ d.created) (hmake : d.workspace.AddsDirectories made) :
    StoreExit root name content d (.error fault, ⟨made, d.created⟩)
  | stored {made created written : Workspace} {place : Place} (hnew : name ∉ d.created)
      (hmake : d.workspace.AddsDirectories made)
      (hcreate : made.createFile (pathFor root name) = .ok (place, created))
      (hwrite : created.writeFile (pathFor root name) content = .ok written) :
    StoreExit root name content d (.ok (), ⟨written, name :: d.created⟩)

/-- Storing a source on disk ends at one of the exits. -/
theorem storeExit (root : Path) (name : String) (content : Content) (d : DiskFiles) :
    StoreExit root name content d ((filer root).store name content d) := by
  by_cases htaken : name ∈ d.created
  · simpa [Filer.store, filer, create, if_pos htaken] using StoreExit.taken htaken
  · have hmake := Workspace.addsDirectories_makeParent (pathFor root name) d.workspace
    cases hparent : makeParent (pathFor root name) d.workspace with
    | mk result made =>
      rw [hparent] at hmake
      cases result with
      | error fault =>
        simp only [Filer.store, filer, create, if_neg htaken, hparent]
        exact .refused rfl htaken hmake
      | ok _ =>
        cases hcreate : made.createFile (pathFor root name) with
        | error fault =>
          simp only [Filer.store, filer, create, if_neg htaken, hparent, hcreate]
          exact .refused rfl htaken hmake
        | ok file =>
          obtain ⟨place, created⟩ := file
          have hcreated : (filer root).create name d = (.ok (), ⟨created, name :: d.created⟩) := by
            simp only [filer, create, if_neg htaken, hparent, hcreate]
          have hwrite := Workspace.writeFile_of_createFile hcreate content
          simp only [Filer.store, hcreated, write_of_ok hwrite]
          exact .stored htaken hmake hcreate hwrite

/-- The disk holds what the memory holds: the names, and in the file of each name its content. -/
structure Mirrors (root : Path) (d : DiskFiles) (m : MemoryFiles) : Prop where
  linkFree : d.workspace.tree.LinkFree
  created : ∀ name, name ∈ d.created ↔ (m.get? name).isSome
  qualified : ∀ name ∈ d.created, isQualified name = true
  stored : ∀ name content, m.get? name = some content →
    d.workspace.read (pathFor root name) = .ok content

/-- At the beginning no name is taken. -/
theorem mirrors_empty {root : Path} {w : Workspace} (h : w.tree.LinkFree) :
    Mirrors root ⟨w, []⟩ {} :=
  ⟨h, fun _ => ⟨nofun, nofun⟩, nofun, nofun⟩

section Step

variable {root : Path} {d : DiskFiles} {m : MemoryFiles}

/-- A source that is stored on both sides keeps them alike. -/
theorem Mirrors.insert (h : Mirrors root d m) {name : String} (hname : isQualified name = true)
    {content : Content} {made created written : Workspace} {place : Place}
    (hmake : d.workspace.AddsDirectories made)
    (hcreate : made.createFile (pathFor root name) = .ok (place, created))
    (hwrite : created.writeFile (pathFor root name) content = .ok written) :
    Mirrors root ⟨written, name :: d.created⟩
      ⟨(m.files.insert name .empty).insert name content⟩ := by
  have hmade := (hmake.keeps h.linkFree).linkFree
  have hempty := Workspace.writes_of_createFile hmade hcreate
  have hfull := Workspace.writes_of_writeFile hempty.keeps.linkFree hwrite
  refine ⟨hfull.keeps.linkFree, fun other => ?_, ?_, ?_⟩
  · rw [MemoryFiles.get?_insert_insert, List.mem_cons]
    by_cases hother : other = name
    · simp [hother]
    · simp [hother, h.created other]
  · intro other hother
    rcases List.mem_cons.mp hother with rfl | hin
    · exact hname
    · exact h.qualified other hin
  · intro other kept hkept
    rw [MemoryFiles.get?_insert_insert] at hkept
    by_cases hother : other = name
    · rw [if_pos hother] at hkept
      rw [hother, ← Option.some.inj hkept]
      exact hfull.read
    · rw [if_neg hother] at hkept
      have hold : isQualified other = true :=
        h.qualified other ((h.created other).mpr (by rw [hkept]; rfl))
      -- The older file is at another place, so none of the three steps touches it.
      have hdirectories := hmake.read_of_read (h.stored other kept hkept)
      have hcreated := hempty.read_other hmade hdirectories fun hplace =>
        hother (placeOf_pathFor_inj hold hname hplace)
      exact hfull.read_other hempty.keeps.linkFree hcreated fun hplace =>
        hother (placeOf_pathFor_inj hold hname hplace)

/-- Storing a source ends alike on both sides and keeps them alike, unless a file operation is
refused. -/
theorem Mirrors.store (h : Mirrors root d m) {name : String} (hname : isQualified name = true)
    (content : Content)
    (hok : ∀ fault, ((filer root).store name content d).1 = .error fault →
      fault.fileFault? = none) :
    ((filer root).store name content d).1 = (MemoryFiles.filer.store name content m).1 ∧
      Mirrors root ((filer root).store name content d).2
        (MemoryFiles.filer.store name content m).2 := by
  have hexit := storeExit root name content d
  revert hexit hok
  generalize (filer root).store name content d = after
  intro hok hexit
  rw [MemoryFiles.store_eq]
  cases hexit with
  | taken htaken =>
    rw [if_pos ((h.created name).mp htaken)]
    exact ⟨rfl, h⟩
  | refused hrefused =>
    rw [hok _ rfl] at hrefused
    exact nomatch hrefused
  | stored hnew hmake hcreate hwrite =>
    rw [if_neg (mt (h.created name).mpr hnew)]
    exact ⟨rfl, h.insert hname hmake hcreate hwrite⟩

/-- Producing a binding ends alike on both sides and keeps them alike, unless a file operation is
refused. -/
theorem Mirrors.emitOne (h : Mirrors root d m) {round : Round} {b : Binding}
    (hname : ∀ s, round.source b = .ok s → isQualified s.qualifiedName = true)
    (hok : ∀ failure, ((filer root).emitOne round b d).1 = .error failure →
      failure.fault.fileFault? = none) :
    ((filer root).emitOne round b d).1 = (MemoryFiles.filer.emitOne round b m).1 ∧
      Mirrors root ((filer root).emitOne round b d).2
        (MemoryFiles.filer.emitOne round b m).2 := by
  cases hs : round.source b with
  | error fault =>
    simpa only [Filer.emitOne, hs, true_and] using h
  | ok s =>
    rw [Filer.emitOne_of_source _ hs] at hok ⊢
    rw [Filer.emitOne_of_source _ hs]
    obtain ⟨hresult, hafter⟩ := h.store (hname s hs) (.ofText s.text) fun fault hfault =>
      hok ⟨s.qualifiedName, fault⟩ (by rw [hfault]; rfl)
    exact ⟨congrArg (EmitFailure.outcome s.qualifiedName) hresult, hafter⟩

end Step

section Run

variable {root : Path} {round : Round}

/-- A run reports alike on both sides and keeps them alike, unless a file operation is refused. -/
theorem Mirrors.emit {bs : List Binding}
    (hnames : ∀ b ∈ bs, ∀ s, round.source b = .ok s → isQualified s.qualifiedName = true)
    {d : DiskFiles} {m : MemoryFiles} (h : Mirrors root d m)
    (hok : ∀ failure ∈ ((filer root).emit round bs d).1.failures,
      failure.fault.fileFault? = none) :
    ((filer root).emit round bs d).1 = (MemoryFiles.filer.emit round bs m).1 ∧
      Mirrors root ((filer root).emit round bs d).2 (MemoryFiles.filer.emit round bs m).2 := by
  induction bs generalizing d m with
  | nil => exact ⟨rfl, h⟩
  | cons b bs ih =>
    rw [Filer.emit_cons] at hok
    have hhead : ∀ failure, ((filer root).emitOne round b d).1 = .error failure →
        failure.fault.fileFault? = none := by
      intro failure hfailure
      refine hok failure ?_
      rw [hfailure]
      exact List.mem_cons_self ..
    obtain ⟨houtcome, hafter⟩ := h.emitOne (hnames b (List.mem_cons_self ..)) hhead
    obtain ⟨hreport, hend⟩ := ih (fun c hc => hnames c (List.mem_cons_of_mem _ hc)) hafter
      fun failure hfailure => hok failure (EmitReport.mem_failures_add hfailure _)
    rw [Filer.emit_cons, Filer.emit_cons]
    exact ⟨by rw [houtcome, hreport], hend⟩

end Run

end DiskFiles

/-- Every name that a run reports as written is in memory after it. -/
theorem MemoryFiles.isSome_get?_of_mem_written {round : Round} {bs : List Binding}
    {m : MemoryFiles} {name : String} (h : name ∈ (filer.emit round bs m).1.written) :
    ((filer.emit round bs m).2.get? name).isSome := by
  have hwritten := (report_emit_withFaults round {} bs m).1
  change (filer.emit round bs m).1.written = _ at hwritten
  rw [hwritten] at h
  obtain ⟨i, hi, hname⟩ := List.mem_map.mp h
  obtain ⟨filed, hfiled, -⟩ : round.WritesAt {} m bs i := by simpa using hi
  have hsome : round.filedName? bs[i] = some name := by
    rw [← hname, Round.artifact, hfiled, Option.getD_some]
  exact (isSome_get?_emit_withFaults round {} bs m name).mpr
    (.inr ⟨rfl, bs[i], List.getElem_mem .., hsome⟩)

/-- In a round of accepted files, every source is filed under a dotted name. -/
theorem Accepted.isQualified_qualifiedName {files : List LoadedFile} (h : Accepted files)
    {p : Program} (hp : Program.ofFiles files = .ok p) {b : Binding}
    (hb : b ∈ p.round.collect.bindings) {s : Source} (hs : p.round.source b = .ok s) :
    isQualified s.qualifiedName = true := by
  cases hpackage : p.round.packageOf? b.owner with
  | none => simp [Round.source, hpackage] at hs
  | some package =>
    have hsource : b.source package = s := by simpa [Round.source, hpackage] using hs
    rw [← hsource]
    exact (h.spelled hp hb hpackage).isQualified_qualifiedName

/-- A run to disk, by a filer that has created nothing yet. -/
def Round.toDisk (round : Round) (root : Path) (w : Workspace) : EmitReport × DiskFiles :=
  (DiskFiles.filer root).emit round round.collect.bindings ⟨w, []⟩

/-- A dry run, by a filer that is empty. -/
def Round.toMemory (round : Round) : EmitReport × MemoryFiles :=
  MemoryFiles.filer.emit round round.collect.bindings {}

/-- A dry run and a run to disk agree. In a tree without links, a run that no file operation is
refused to reports what the dry run reports, and the file of each written name reads the content
that the dry run keeps under it. -/
theorem toDisk_eq_toMemory {files : List LoadedFile} (haccepted : Accepted files) {p : Program}
    (hp : Program.ofFiles files = .ok p) (root : Path) (w : Workspace) (hlinks : w.tree.LinkFree)
    (hsteps : ∀ failure ∈ (p.round.toDisk root w).1.failures, failure.fault.fileFault? = none) :
    (p.round.toDisk root w).1 = p.round.toMemory.1 ∧
      ∀ name ∈ (p.round.toDisk root w).1.written, ∃ content,
        p.round.toMemory.2.get? name = some content ∧
        (p.round.toDisk root w).2.workspace.read (DiskFiles.pathFor root name) = .ok content := by
  obtain ⟨hreport, hmirrors⟩ := DiskFiles.Mirrors.emit
    (fun b hb s hs => haccepted.isQualified_qualifiedName hp hb hs)
    (DiskFiles.mirrors_empty hlinks) hsteps
  refine ⟨hreport, fun name hname => ?_⟩
  have hwritten : name ∈ p.round.toMemory.1.written := hreport ▸ hname
  obtain ⟨content, hcontent⟩ :=
    Option.isSome_iff_exists.mp (MemoryFiles.isSome_get?_of_mem_written hwritten)
  exact ⟨content, hcontent, hmirrors.stored name content hcontent⟩

/-- A file with two classes of one artifact, and one that lies in a class of no file. -/
def clashingFiles : List LoadedFile := [
  ⟨"clash", ⟨[
    { name := "A", package := some "p", contentView := some 1 },
    { name := "O", package := some "p" },
    { name := "A", enclosingClass := some "p.O", contentView := some 2 },
    { name := "L", enclosingClass := some "q.Lost", contentView := some 3 }]⟩⟩]

/-- A workspace where an earlier round has left the artifact. -/
def staleWorkspace : Workspace where
  tree := ⟨[(["out"], .directory), (["out", "p"], .directory),
    (["out", "p", "A_ViewBinding.java"], .file (.ofText "stale"))]⟩

/-- The first of the classes is written over what was left, and both runs report the others. -/
theorem toDisk_clashingFiles : ∃ p, Program.ofFiles clashingFiles = .ok p ∧
    (p.round.toDisk ⟨"out"⟩ staleWorkspace).1 = p.round.toMemory.1 ∧
    (p.round.toDisk ⟨"out"⟩ staleWorkspace).1.failures.map (·.artifact) =
      ["p.A_ViewBinding", "q.Lost.L_ViewBinding"] ∧
    ∃ content, p.round.toMemory.2.get? "p.A_ViewBinding" = some content ∧
      (p.round.toDisk ⟨"out"⟩ staleWorkspace).2.workspace.read
        (DiskFiles.pathFor ⟨"out"⟩ "p.A_ViewBinding") = .ok content := by
  have haccepted : Accepted clashingFiles := by
    unfold Accepted
    decide
  have hp : Program.ofFiles clashingFiles =
      .ok (Program.ofDeclarations (declarations clashingFiles)) :=
    Program.ofFiles_eq_ok_iff.mpr ⟨by decide, rfl⟩
  have hlinks : staleWorkspace.tree.LinkFree := by
    apply FileTree.linkFree_of_entries
    simp [staleWorkspace]
  obtain ⟨hreport, hfiles⟩ := toDisk_eq_toMemory haccepted hp ⟨"out"⟩ staleWorkspace hlinks
    (by decide +kernel)
  exact ⟨_, hp, hreport, by decide +kernel, hfiles "p.A_ViewBinding" (by decide +kernel)⟩

end ViewBinding
