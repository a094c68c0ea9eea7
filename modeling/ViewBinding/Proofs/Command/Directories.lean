import ViewBinding.Proofs.Command.Stages
import ViewBinding.Proofs.Path.Components

/-!
# The directories of a run

A configured directory is seen from the project root: an absolute one is kept, and any other goes on
from the root, however both are written. The model directory and the output directory are each
settled on their own, by the arguments, else by the configuration file, else by the default.
-/

namespace ViewBinding

namespace Path

/-- The components of a path without its dots. -/
def course (p : Path) : List Component := p.components.filter (· != .current)

theorem isAbsolute_iff {p : Path} : p.isAbsolute = true ↔ p.text.toList.head? = some '/' := by
  rw [isAbsolute, beq_iff_eq]

theorem isAbsolute_eq_false_iff {p : Path} :
    p.isAbsolute = false ↔ p.text.toList.head? ≠ some '/' := by
  rw [← Bool.not_eq_true, isAbsolute_iff]

/-- Without its dots a path begins at the root, if it does, and goes on by its names. -/
theorem course_eq (p : Path) :
    p.course = (if p.isAbsolute then [.root] else []) ++ p.names.map componentOf := by
  have hnames : (p.names.map componentOf).filter (· != .current) = p.names.map componentOf := by
    refine List.filter_eq_self.mpr fun c hc => ?_
    obtain ⟨s, -, rfl⟩ := List.mem_map.mp hc
    unfold componentOf
    split <;> rfl
  have hanchor : p.pieces.anchor.components.filter (· != .current) =
      if p.isAbsolute then [.root] else [] := by
    cases habsolute : p.isAbsolute with
    | true =>
      rw [anchor_eq_root_iff.mpr (isAbsolute_iff.mp habsolute)]
      rfl
    | false =>
      have hroot := anchor_eq_root_iff.not.mpr (isAbsolute_eq_false_iff.mp habsolute)
      cases hp : p.pieces.anchor with
      | root => exact absurd hp hroot
      | current => rfl
      | plain => rfl
  rw [course, components_eq, List.filter_append, hnames, hanchor]

/-- Going on from a path goes on in its course, and begins as it does. -/
theorem course_join {s : String} (h : s.toList.head? ≠ some '/') (p : Path) :
    (p.join s).course = p.course ++ course ⟨s⟩ ∧ (p.join s).isAbsolute = p.isAbsolute := by
  have habsolute : (p.join s).isAbsolute = p.isAbsolute :=
    Bool.eq_iff_iff.mpr (isAbsolute_iff.trans ((head?_join h p).trans isAbsolute_iff.symm))
  have hrelative : isAbsolute ⟨s⟩ = false := isAbsolute_eq_false_iff.mpr h
  refine ⟨?_, habsolute⟩
  rw [course_eq, course_eq, course_eq, habsolute, hrelative, names_join h, List.map_append]
  simp

/-- What is left between the idle ends begins with a piece that is not idle. -/
theorem isIdle_of_trim_eq_cons {pieces rest : List String} {s : String}
    (h : trim pieces = s :: rest) : isIdle s = false := by
  obtain ⟨more, hmore⟩ := trimEnd_starts (pieces.dropWhile isIdle)
  have hhead := List.head?_dropWhile_not isIdle pieces
  rw [← hmore, show trimEnd (pieces.dropWhile isIdle) = s :: rest from h] at hhead
  exact hhead

/-- What follows the leading dot of a path does not begin at the root. -/
theorem head?_ne_of_afterDot? {p : Path} {s : String} (h : p.afterDot? = some s) :
    s.toList.head? ≠ some '/' := by
  unfold afterDot? at h
  dsimp only at h
  split at h
  · obtain rfl := Option.some.inj h
    cases htrim : trim p.pieces.body with
    | nil => decide
    | cons first rest =>
      have hidle := isIdle_of_trim_eq_cons htrim
      have hmem : first ∈ trim p.pieces.body := htrim ▸ List.mem_cons_self ..
      have hslash := slash_notMem_of_mem_body
        ((List.dropWhile_sublist _).subset ((trimEnd_starts _).subset hmem))
      have hne : first ≠ "" := by
        rintro rfl
        exact nomatch hidle
      exact head?_join_cons_ne ⟨hne, hslash⟩ rest
  · exact nomatch h

end Path

section Resolution

variable (root : Path) {configured : String}

/-- An absolute directory is kept. -/
theorem resolveDirectory_of_absolute (h : Path.isAbsolute ⟨configured⟩ = true) :
    resolveDirectory root configured = ⟨configured⟩ := by
  unfold resolveDirectory
  exact if_pos h

/-- Any other directory goes on from the root, and begins as the root does. -/
theorem course_resolveDirectory (h : Path.isAbsolute ⟨configured⟩ = false) :
    (resolveDirectory root configured).course = root.course ++ Path.course ⟨configured⟩ ∧
      (resolveDirectory root configured).isAbsolute = root.isAbsolute := by
  unfold resolveDirectory
  dsimp only
  rw [h, if_neg Bool.false_ne_true]
  split
  · -- A root of dots has no course, and does not begin at the root.
    rename_i hdots
    have hnone : root.course = [] := by
      refine List.filter_eq_nil_iff.mpr fun c hc => ?_
      simpa using List.all_eq_true.mp hdots c hc
    have hrelative : root.isAbsolute = false := by
      by_contra habsolute
      rw [Path.course_eq, if_pos (by simpa using habsolute)] at hnone
      exact nomatch hnone
    exact ⟨by rw [hnone, List.nil_append], h.trans hrelative.symm⟩
  · cases hafter : Path.afterDot? ⟨configured⟩ with
    | none => exact Path.course_join (Path.isAbsolute_eq_false_iff.mp h) root
    | some rest =>
      have hhead := Path.head?_ne_of_afterDot? hafter
      obtain ⟨hcourse, habsolute⟩ := Path.course_join hhead root
      have hrest : Path.course ⟨rest⟩ = Path.course ⟨configured⟩ := by
        rw [Path.course_eq, Path.course_eq, Path.names_of_afterDot? hafter, h,
          Path.isAbsolute_eq_false_iff.mpr hhead]
      exact ⟨hrest ▸ hcourse, habsolute⟩

end Resolution

/-- The configuration file that governs a directory, read and checked, or none if there is no such
file. -/
inductive Workspace.Configures (w : Workspace) (start : Path) : Option Config → Prop
  | absent : w.findConfig start = none → Configures w start none
  | file {path : Path} {document : String} {config : Config} : w.findConfig start = some path →
      w.readText path = .ok document → Config.parse document = .ok config →
      config.fault? = none → Configures w start (some config)

/-- A configuration is loaded from the file that governs the directory, or is the default. -/
theorem Workspace.exists_configures {w : Workspace} {start : Path} {loaded : LoadedConfig}
    (h : w.loadConfig start = .ok loaded) :
    ∃ file, w.Configures start file ∧ loaded.config = file.getD {} := by
  unfold loadConfig at h
  cases hfind : w.findConfig start with
  | none =>
    rw [hfind] at h
    obtain rfl := Except.ok.inj h
    exact ⟨none, .absent hfind, rfl⟩
  | some path =>
    simp only [hfind] at h
    cases hread : w.readText path with
    | error fault =>
      simp only [hread] at h
      exact nomatch h
    | ok document =>
      simp only [hread] at h
      cases hparse : Config.parse document with
      | error e =>
        simp only [hparse] at h
        exact nomatch h
      | ok config =>
        simp only [hparse] at h
        cases hfault : config.fault? with
        | some fault =>
          simp only [hfault] at h
          exact nomatch h
        | none =>
          simp only [hfault] at h
          obtain rfl := Except.ok.inj h
          exact ⟨some config, .file hfind hread hparse hfault, rfl⟩

/-- A setting: that of the arguments, else that of the configuration file, else the default. -/
def Config.setting (field : Config → String) (file : Option Config) : Option String → String
  | some argument => argument
  | none =>
    match file with
    | some config => field config
    | none => field {}

/-- The configuration that the settings make, with the patterns and the rest of the file. -/
def GenerateOptions.settled (o : GenerateOptions) (file : Option Config) : Config :=
  { file.getD {} with
    modelRoot := Config.setting Config.modelRoot file o.modelRoot
    outputRoot := Config.setting Config.outputRoot file o.outputRoot }

/-- Each directory is overridden on its own. -/
theorem GenerateOptions.override_getD (o : GenerateOptions) (file : Option Config) :
    o.override (file.getD {}) = o.settled file := by
  unfold override settled
  congr 1
  · cases o.modelRoot <;> cases file <;> rfl
  · cases o.outputRoot <;> cases file <;> rfl

/-- With its configuration loaded, a run has a plan exactly if its model directory is one. -/
theorem Workspace.plan_of_loaded {w : Workspace} {o : GenerateOptions} {loaded : LoadedConfig}
    (h : w.loadConfig o.start = .ok loaded) :
    let config := o.override loaded.config
    let models := resolveDirectory o.start config.modelRoot
    (w.plan o).2 =
      if w.isDirectory models then
        .ok ⟨config, resolveDirectory o.start config.outputRoot,
          (w.scan models config.includes config.ignores).files⟩
      else .error (.noModelDirectory models) := by
  unfold plan
  simp only [h]
  cases w.isDirectory (resolveDirectory o.start (o.override loaded.config).modelRoot) <;> rfl

/-- An absolute directory is kept as it is written. Any other has the components of the root and
then its own, dots apart, however both are written; and it is absolute only if the root is. A run
sees its model directory and its output directory from the project root like this, each as the
arguments have it, else the configuration file, else the default. -/
theorem directories_settled (w : Workspace) (o : GenerateOptions) :
    (∀ (root : Path) (configured : String),
      (Path.isAbsolute ⟨configured⟩ = true → resolveDirectory root configured = ⟨configured⟩) ∧
      (Path.isAbsolute ⟨configured⟩ = false →
        (resolveDirectory root configured).course = root.course ++ Path.course ⟨configured⟩) ∧
      (resolveDirectory root configured).isAbsolute =
        (root.isAbsolute || Path.isAbsolute ⟨configured⟩)) ∧
    ((∃ fault, w.loadConfig o.start = .error fault ∧ (w.plan o).2 = .error (.config fault)) ∨
      ∃ file, w.Configures o.start file ∧
        let models := resolveDirectory o.start (Config.setting Config.modelRoot file o.modelRoot)
        let output := resolveDirectory o.start (Config.setting Config.outputRoot file o.outputRoot)
        let config := o.settled file
        (w.plan o).2 =
          if w.isDirectory models then
            .ok ⟨config, output, (w.scan models config.includes config.ignores).files⟩
          else .error (.noModelDirectory models)) := by
  refine ⟨fun root configured => ⟨resolveDirectory_of_absolute root, fun hrelative =>
    (course_resolveDirectory root hrelative).1, ?_⟩, ?_⟩
  · cases habsolute : Path.isAbsolute ⟨configured⟩ with
    | true => rw [resolveDirectory_of_absolute root habsolute, habsolute, Bool.or_true]
    | false => rw [(course_resolveDirectory root habsolute).2, Bool.or_false]
  · cases hload : w.loadConfig o.start with
    | error fault =>
      refine .inl ⟨fault, rfl, ?_⟩
      unfold Workspace.plan
      rw [hload]
    | ok loaded =>
      obtain ⟨file, hfile, hconfig⟩ := Workspace.exists_configures hload
      have hplan := Workspace.plan_of_loaded hload
      rw [hconfig, o.override_getD] at hplan
      exact .inr ⟨file, hfile, hplan⟩

/-- A project with a configuration that names both directories. -/
def ruledWorkspace : Workspace where
  tree := ⟨[(["app"], .directory),
    (["app", ".viewbindrc.json"], .file (.ofText
      "\x7b\"modelRoot\": \"./models\", \"outputRoot\": \"gen\"\x7d")),
    (["app", "models"], .directory)]⟩

/-- The arguments name another output directory. -/
def ruledOptions : GenerateOptions := { root := some "./app/", outputRoot := some ".//made" }

/-- The models are where the configuration has them, the output is where the arguments have it. -/
theorem directories_settled_ruledWorkspace :
    Path.isAbsolute ⟨"/srv/gen"⟩ = true ∧
    resolveDirectory ruledOptions.start "/srv/gen" = ⟨"/srv/gen"⟩ ∧
    Path.isAbsolute ⟨".//made"⟩ = false ∧
    (resolveDirectory ruledOptions.start ".//made").course = [.name "app", .name "made"] ∧
    (ruledWorkspace.plan ruledOptions).2 =
      .ok ⟨{ modelRoot := "./models", outputRoot := ".//made" }, ⟨"./app/made"⟩, []⟩ := by
  obtain ⟨hresolves, -⟩ := directories_settled ruledWorkspace ruledOptions
  have habsolute : Path.isAbsolute ⟨"/srv/gen"⟩ = true := by decide
  have hrelative : Path.isAbsolute ⟨".//made"⟩ = false := by decide
  refine ⟨habsolute, (hresolves _ _).1 habsolute, hrelative, ?_, by decide +kernel⟩
  rw [(hresolves _ _).2.1 hrelative]
  decide +kernel

end ViewBinding
