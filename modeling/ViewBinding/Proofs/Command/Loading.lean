import ViewBinding.Command.Generate
import ViewBinding.Proofs.Round.Acceptance

/-!
# Loading a round

A round is made of the model files that can be loaded, in their order, and the others are left out
with their reasons. All that is loaded has been accepted, so its names can be spelled.
-/

namespace ViewBinding

/-- A document that is read as a model file has names that can be spelled. -/
theorem ModelFile.fault?_of_parse {content : String} {m : ModelFile}
    (h : ModelFile.parse content = .ok m) : m.fault? = none := by
  unfold parse at h
  split at h
  · exact nomatch h
  · split at h
    · exact nomatch h
    · rename_i hnone
      obtain rfl := Except.ok.inj h
      exact hnone

namespace Workspace

/-- The files among these that can be loaded, in order. -/
def loadedFiles (w : Workspace) (files : List String) : List LoadedFile :=
  files.filterMap fun path =>
    match w.loadModel path with
    | .ok m => some ⟨path, m⟩
    | .error _ => none

/-- The files among these that cannot be loaded, in order, each with the reason. -/
def leftOut (w : Workspace) (files : List String) : List (String × LoadFault) :=
  files.filterMap fun path =>
    match w.loadModel path with
    | .ok _ => none
    | .error fault => some (path, fault)

variable {w : Workspace} {files : List String} {notes : List Note} {round : LoadedRound}

/-- A round is the program of the files that can be loaded. -/
theorem loadRound_eq (w : Workspace) (files : List String) :
    w.loadRound files = ((w.leftOut files).map leftOutNote,
      match Program.ofFiles (w.loadedFiles files) with
      | .error fault => .error (.duplicate fault ((w.leftOut files).map (·.1)))
      | .ok program => .ok ⟨program, w.leftOut files, (w.loadedFiles files).length⟩) := by
  simp only [loadRound, List.filterMap_map]
  rfl

/-- A round that is loaded holds the program of the files that can be loaded, and the others. -/
theorem ofFiles_of_loadRound (h : w.loadRound files = (notes, .ok round)) :
    Program.ofFiles (w.loadedFiles files) = .ok round.program ∧
      round.leftOut = w.leftOut files ∧ round.loaded = (w.loadedFiles files).length := by
  rw [loadRound_eq] at h
  cases hprogram : Program.ofFiles (w.loadedFiles files) with
  | error fault =>
    rw [hprogram] at h
    exact nomatch (Prod.mk.inj h).2
  | ok program =>
    rw [hprogram] at h
    obtain rfl := Except.ok.inj (Prod.mk.inj h).2
    exact ⟨rfl, rfl, rfl⟩

/-- A model file that can be loaded has been accepted. -/
theorem fault?_of_loadModel {path : String} {m : ModelFile} (h : w.loadModel path = .ok m) :
    m.fault? = none := by
  unfold loadModel at h
  cases htext : w.readText ⟨path⟩ with
  | error fault =>
    rw [htext] at h
    exact nomatch h
  | ok content =>
    simp only [htext] at h
    cases hparse : ModelFile.parse content with
    | error fault =>
      rw [hparse] at h
      exact nomatch h
    | ok parsed =>
      rw [hparse] at h
      obtain rfl := Except.ok.inj h
      exact ModelFile.fault?_of_parse hparse

/-- What is loaded has been accepted. -/
theorem accepted_loadedFiles (w : Workspace) (files : List String) :
    Accepted (w.loadedFiles files) := by
  intro f hf
  obtain ⟨path, -, hsome⟩ := List.mem_filterMap.mp hf
  cases hload : w.loadModel path with
  | error fault =>
    rw [hload] at hsome
    exact nomatch hsome
  | ok m =>
    rw [hload] at hsome
    obtain rfl := Option.some.inj hsome
    exact fault?_of_loadModel hload

/-- Files that load alike make the same round. -/
theorem loadRound_congr {w' : Workspace}
    (h : ∀ path ∈ files, w'.loadModel path = w.loadModel path) :
    w'.loadRound files = w.loadRound files := by
  have hloaded : w'.loadedFiles files = w.loadedFiles files :=
    List.filterMap_congr fun path hpath => by rw [h path hpath]
  have hleft : w'.leftOut files = w.leftOut files :=
    List.filterMap_congr fun path hpath => by rw [h path hpath]
  rw [loadRound_eq, loadRound_eq, hloaded, hleft]

/-- A file that can be loaded is among those that are loaded. -/
theorem mem_loadedFiles {path : String} {m : ModelFile} (hpath : path ∈ files)
    (h : w.loadModel path = .ok m) : ⟨path, m⟩ ∈ w.loadedFiles files :=
  List.mem_filterMap.mpr ⟨path, hpath, by rw [h]⟩

end Workspace

end ViewBinding
