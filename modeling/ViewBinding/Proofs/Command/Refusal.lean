import Mathlib.Data.List.Forall2
import ViewBinding.Proofs.Command.Loading
import ViewBinding.Proofs.Round.Duplicates

/-!
# Refused files

A model file is refused if it cannot be read, if it is no document of a model, or if one of its
names cannot be spelled. A refused file is reported and has no other effect: the round is that of
the files that are accepted, and whether there is a round depends on them alone.
-/

namespace ViewBinding

namespace Workspace

/-- Is a model file refused for this reason? The reason tells what was done to the file, and then
the whole cause. -/
inductive Refuses (w : Workspace) (path : String) : String → Prop
  | unreadable {fault : FileFault} : w.readText ⟨path⟩ = .error fault →
      Refuses w path ("Failed to read model file: " ++ path ++ ": " ++ fault.message)
  | malformed {content : String} {e : Json.Error} : w.readText ⟨path⟩ = .ok content →
      Json.decode ModelFile.recordType.read content = .error e →
      Refuses w path
        ("Failed to parse model file: " ++ path ++ ": " ++ ("Invalid model JSON: " ++ e.message))
  | misnamed {content : String} {m : ModelFile} {fault : NameFault} :
      w.readText ⟨path⟩ = .ok content → Json.decode ModelFile.recordType.read content = .ok m →
      m.fault? = some fault →
      Refuses w path ("Failed to parse model file: " ++ path ++ ": " ++ fault.message)

/-- Can a model file be loaded? -/
def accepts (w : Workspace) (path : String) : Bool := (w.loadModel path).isOk

section Files

variable (w : Workspace) {w' : Workspace} {path : String} {files files' : List String}

/-- What keeps a file from being loaded is a reason to refuse it. -/
theorem refuses_of_loadModel {fault : LoadFault} (h : w.loadModel path = .error fault) :
    w.Refuses path fault.message := by
  unfold loadModel at h
  cases htext : w.readText ⟨path⟩ with
  | error e =>
    rw [htext] at h
    obtain rfl := Except.error.inj h
    exact .unreadable htext
  | ok content =>
    simp only [htext, ModelFile.parse] at h
    cases hread : Json.decode ModelFile.recordType.read content with
    | error e =>
      simp only [hread] at h
      obtain rfl := Except.error.inj h
      exact .malformed htext hread
    | ok m =>
      cases hfault : m.fault? with
      | none => simp [hread, hfault] at h
      | some nameFault =>
        simp only [hread, hfault] at h
        obtain rfl := Except.error.inj h
        exact .misnamed htext hread hfault

/-- The files that are left out are those that cannot be loaded, each with a reason to refuse it. -/
theorem forall₂_leftOut (files : List String) :
    List.Forall₂ (fun path x => x.1 = path ∧ w.Refuses path x.2.message)
      (files.filter (!w.accepts ·)) (w.leftOut files) := by
  induction files with
  | nil => exact .nil
  | cons path files ih =>
    unfold leftOut at ih ⊢
    rw [List.filter_cons, List.filterMap_cons, accepts]
    cases hload : w.loadModel path with
    | ok m => exact ih
    | error fault => exact .cons ⟨rfl, w.refuses_of_loadModel hload⟩ ih

/-- The paths that are left out are those of the files that cannot be loaded. -/
theorem map_fst_leftOut (files : List String) :
    (w.leftOut files).map (·.1) = files.filter (!w.accepts ·) := by
  have hleft := w.forall₂_leftOut files
  generalize files.filter (!w.accepts ·) = paths, w.leftOut files = leftOut at hleft ⊢
  induction hleft with
  | nil => rfl
  | cons h _ ih => rw [List.map_cons, h.1, ih]

/-- Every file is loaded or left out. -/
theorem length_loadedFiles_add (files : List String) :
    (w.loadedFiles files).length + (w.leftOut files).length = files.length := by
  induction files with
  | nil => rfl
  | cons path files ih =>
    unfold loadedFiles leftOut at ih ⊢
    rw [List.filterMap_cons, List.filterMap_cons, List.length_cons, ← ih]
    cases w.loadModel path with
    | ok m => exact Nat.add_right_comm ..
    | error fault => rfl

/-- The files that cannot be loaded add nothing to those that are. -/
theorem loadedFiles_filter_accepts (files : List String) :
    w.loadedFiles (files.filter w.accepts) = w.loadedFiles files := by
  unfold loadedFiles
  rw [List.filterMap_filter]
  refine List.filterMap_congr fun path _ => ?_
  unfold accepts
  cases w.loadModel path <;> rfl

/-- What is loaded depends on the files that can be loaded and on their texts. -/
theorem loadedFiles_congr (hsame : files'.filter w'.accepts = files.filter w.accepts)
    (htexts : ∀ path ∈ files.filter w.accepts, w'.readText ⟨path⟩ = w.readText ⟨path⟩) :
    w'.loadedFiles files' = w.loadedFiles files := by
  rw [← loadedFiles_filter_accepts w' files', hsame, ← loadedFiles_filter_accepts w files]
  refine List.filterMap_congr fun path hpath => ?_
  rw [loadModel, htexts path hpath]
  rfl

/-- A round is loaded if the files that can be loaded make a program. -/
theorem loadRound_eq_ok_iff {round : LoadedRound} : (w.loadRound files).2 = .ok round ↔
    Program.ofFiles (w.loadedFiles files) = .ok round.program ∧
      round.leftOut = w.leftOut files ∧ round.loaded = (w.loadedFiles files).length := by
  constructor
  · exact fun h => ofFiles_of_loadRound (Prod.ext rfl h)
  · obtain ⟨program, leftOut, loaded⟩ := round
    rintro ⟨hprogram, rfl, rfl⟩
    rw [loadRound_eq, hprogram]

/-- A round is not loaded if they declare a class twice. -/
theorem loadRound_eq_error_iff {fault : RunFault} : (w.loadRound files).2 = .error fault ↔
    ∃ d, Program.ofFiles (w.loadedFiles files) = .error d ∧
      fault = .duplicate d (files.filter (!w.accepts ·)) := by
  rw [loadRound_eq, map_fst_leftOut]
  cases Program.ofFiles (w.loadedFiles files) with
  | error d => simp [eq_comm]
  | ok program => simp

end Files

end Workspace

/-- The complaint about a class that is declared twice begins with the files that had been left out
before, if there are any: their number, then their paths in order. -/
theorem RunFault.message_duplicate (d : DuplicateClass) (leftOut : List String) :
    (RunFault.duplicate d leftOut).message = (if leftOut = [] then "" else
      toString leftOut.length ++ " model file(s) also failed to parse: " ++
        ", ".intercalate leftOut ++ ": ") ++ d.message := by
  cases leftOut with
  | nil => exact (String.empty_append).symm
  | cons path more => rfl

/-- Files that are refused have no effect but their reports. A round lists exactly the files that
are refused, in order and each with the whole reason; together with the files loaded they are all
there are, and the program is that of the accepted files. There is no round exactly if the accepted
files declare a class twice, and the complaint then begins with the number of the refused files and
their paths in order, if there are any. So files that are accepted alike make the same program, or
none, whatever other files are added, taken away or changed between them. -/
theorem loadRound_isolated (w : Workspace) (files : List String) :
    (∀ round, (w.loadRound files).2 = .ok round →
      List.Forall₂ (fun path x => x.1 = path ∧ w.Refuses path x.2.message)
        (files.filter (!w.accepts ·)) round.leftOut ∧
      round.loaded + round.leftOut.length = files.length ∧
      Program.ofFiles (w.loadedFiles files) = .ok round.program) ∧
    ((∃ fault, (w.loadRound files).2 = .error fault) ↔
      ¬((declarations (w.loadedFiles files)).map (·.canonicalName)).Nodup) ∧
    (∀ fault, (w.loadRound files).2 = .error fault →
      ∃ d : DuplicateClass, d.IsFirst (w.loadedFiles files) ∧
        fault.message = (if files.filter (!w.accepts ·) = [] then "" else
          toString (files.filter (!w.accepts ·)).length ++
            " model file(s) also failed to parse: " ++
            ", ".intercalate (files.filter (!w.accepts ·)) ++ ": ") ++ d.message) ∧
    ∀ (w' : Workspace) (files' : List String),
      files'.filter w'.accepts = files.filter w.accepts →
      (∀ path ∈ files.filter w.accepts, w'.readText ⟨path⟩ = w.readText ⟨path⟩) →
      ∀ program, (∃ round, (w'.loadRound files').2 = .ok round ∧ round.program = program) ↔
        ∃ round, (w.loadRound files).2 = .ok round ∧ round.program = program := by
  refine ⟨fun round h => ?_, ?_, fun fault h => ?_, fun w' files' hsame htexts program => ?_⟩
  · obtain ⟨hprogram, hleft, hloaded⟩ := w.loadRound_eq_ok_iff.mp h
    rw [hleft, hloaded]
    exact ⟨w.forall₂_leftOut files, w.length_loadedFiles_add files, hprogram⟩
  · simp only [w.loadRound_eq_error_iff]
    constructor
    · rintro ⟨-, d, hd, -⟩ hnodup
      exact nomatch hd.symm.trans (Program.ofFiles_eq_ok_iff.mpr ⟨hnodup, rfl⟩)
    · intro h
      obtain ⟨d, hd⟩ := Program.exists_isFirst h
      exact ⟨_, d, Program.ofFiles_of_isFirst hd, rfl⟩
  · obtain ⟨d, hd, rfl⟩ := w.loadRound_eq_error_iff.mp h
    exact ⟨d, Program.ofFiles_eq_error_iff.mp hd, RunFault.message_duplicate ..⟩
  · have hprogram : ∀ (u : Workspace) (names : List String),
        (∃ round, (u.loadRound names).2 = .ok round ∧ round.program = program) ↔
          Program.ofFiles (u.loadedFiles names) = .ok program := by
      intro u names
      simp only [u.loadRound_eq_ok_iff]
      constructor
      · rintro ⟨round, ⟨h, -, -⟩, rfl⟩
        exact h
      · exact fun h => ⟨⟨program, u.leftOut names, _⟩, ⟨h, rfl, rfl⟩, rfl⟩
    rw [hprogram, hprogram, w.loadedFiles_congr hsame htexts]

/-- A class in one file, with this text in a file after it. -/
def brokenWorkspace (text : String) : Workspace where
  tree := ⟨[(["a"], .file (.ofText "\x7b\"classes\":[\x7b\"name\":\"A\"\x7d]\x7d")),
    (["b"], .file (.ofText text))]⟩

/-- A file that ends too early and one that is not there make the same program. -/
theorem loadRound_isolated_brokenFiles :
    (∃ round, ((brokenWorkspace "[").loadRound ["a", "b"]).2 = .ok round ∧
      round.leftOut.map (·.1) = ["b"] ∧ round.program.classes.map (·.id) = ["A"]) ∧
    ∀ program, (∃ round, ((brokenWorkspace "").loadRound ["c", "a"]).2 = .ok round ∧
        round.program = program) ↔
      ∃ round, ((brokenWorkspace "[").loadRound ["a", "b"]).2 = .ok round ∧
        round.program = program := by
  have hloaded : (match ((brokenWorkspace "[").loadRound ["a", "b"]).2 with
      | .ok round => some (round.leftOut.map (·.1), round.program.classes.map (·.id))
      | .error _ => none) = some (["b"], ["A"]) := by decide +kernel
  refine ⟨?_, (loadRound_isolated (brokenWorkspace "[") ["a", "b"]).2.2.2 (brokenWorkspace "")
    ["c", "a"] (by decide +kernel) (by decide +kernel)⟩
  split at hloaded
  · rename_i round hround
    obtain ⟨hleft, hclasses⟩ := Prod.mk.inj (Option.some.inj hloaded)
    exact ⟨round, hround, hleft, hclasses⟩
  · exact nomatch hloaded

end ViewBinding
