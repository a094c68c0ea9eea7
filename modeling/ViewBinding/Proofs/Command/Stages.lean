import ViewBinding.Proofs.Command.Loading
import ViewBinding.Proofs.Source.Reporting

/-!
# The stages of a run

A run plans, loads a round and emits its bindings. A fault at one of the first two stages ends it
there, with the workspace as it was; a run that gets as far as a round ends with an outcome.
-/

namespace ViewBinding

/-- The issues of a round, in the order in which they are found. -/
def LoadedRound.issues (round : LoadedRound) (strict : Bool) (report : EmitReport) : List Issue :=
  round.leftOut.map leftOutIssue ++ round.program.round.collect.dropped.map (·.issue strict) ++
    report.failures.map (·.issue)

namespace GenerateOptions

/-- Are markers on classes without a content view errors? -/
def isStrict (o : GenerateOptions) (plan : Plan) : Bool := plan.config.strictMarkers || o.strict

/-- What a run says it has done with a round. -/
def summary (o : GenerateOptions) (plan : Plan) (round : LoadedRound) (report : EmitReport) :
    Summary :=
  .generated
    (report.written.map fun name => ⟨name, DiskFiles.pathFor plan.outputDirectory name⟩)
    round.loaded plan.outputDirectory o.dryRun

end GenerateOptions

namespace Workspace

/-- What a plan has settled: the configuration as it is overridden, the directories seen from the
project root, and the files found. -/
theorem plan_eq_ok {w : Workspace} {o : GenerateOptions} {notes : List Note} {plan : Plan}
    (h : w.plan o = (notes, .ok plan)) :
    ∃ loaded, w.loadConfig o.start = .ok loaded ∧ plan.config = o.override loaded.config ∧
      w.isDirectory (resolveDirectory o.start plan.config.modelRoot) = true ∧
      plan.outputDirectory = resolveDirectory o.start plan.config.outputRoot ∧
      plan.files = (w.scan (resolveDirectory o.start plan.config.modelRoot) plan.config.includes
        plan.config.ignores).files := by
  unfold Workspace.plan at h
  cases hconfig : w.loadConfig o.start with
  | error fault =>
    rw [hconfig] at h
    exact nomatch (Prod.mk.inj h).2
  | ok loaded =>
    simp only [hconfig] at h
    split at h
    · exact nomatch (Prod.mk.inj h).2
    · rename_i hmodels
      obtain rfl := Except.ok.inj (Prod.mk.inj h).2
      exact ⟨loaded, rfl, rfl, by simpa using hmodels, rfl, rfl⟩

variable (w : Workspace) (o : GenerateOptions)

/-- The emission of a round that is loaded as planned. -/
def emitRound (plan : Plan) (round : LoadedRound) : EmitReport × Workspace :=
  w.emit round.program.round round.program.round.collect.bindings plan.outputDirectory o.dryRun

/-- How a run can end. -/
inductive GenerateExit : Run → Prop
  | unplanned {notes : List Note} {fault : RunFault} (hplan : w.plan o = (notes, .error fault)) :
    GenerateExit ⟨notes, .error fault, w⟩
  | unloaded {planNotes notes : List Note} {plan : Plan} {fault : RunFault}
      (hplan : w.plan o = (planNotes, .ok plan))
      (hround : w.loadRound plan.files = (notes, .error fault)) :
    GenerateExit ⟨planNotes ++ notes, .error fault, w⟩
  | emitted {planNotes roundNotes : List Note} {plan : Plan} {round : LoadedRound}
      (hplan : w.plan o = (planNotes, .ok plan))
      (hround : w.loadRound plan.files = (roundNotes, .ok round)) :
    GenerateExit {
      notes := planNotes ++ roundNotes ++
        [.collected round.program.round.collect.bindings.length round.program.classes.length]
      result := .ok (.finish (o.summary plan round (w.emitRound o plan round).1)
        (round.issues (o.isStrict plan) (w.emitRound o plan round).1))
      workspace := (w.emitRound o plan round).2 }

/-- A run ends at one of its stages. -/
theorem generateExit : w.GenerateExit o (w.generate o) := by
  unfold generate
  split
  · rename_i hplan
    exact .unplanned hplan
  · rename_i hplan
    split
    · rename_i hround
      exact .unloaded hplan hround
    · rename_i hround
      exact .emitted hplan hround

/-- How the bindings of a round end in a run: on disk, or in memory for a dry run. -/
def ends (round : Round) (bindings : List Binding) (output : Path) (dryRun : Bool) :
    List (Except EmitFailure String) :=
  if dryRun then MemoryFiles.filer.ends round bindings {}
  else (DiskFiles.filer output).ends round bindings ⟨w, []⟩

/-- A run reports how the bindings end. -/
theorem report_emit (round : Round) (bindings : List Binding) (output : Path) (dryRun : Bool) :
    (w.emit round bindings output dryRun).1 = .ofEnds (w.ends round bindings output dryRun) := by
  unfold emit ends
  cases dryRun with
  | true => exact MemoryFiles.filer.report_emit round bindings {}
  | false => exact (DiskFiles.filer output).report_emit round bindings ⟨w, []⟩

end Workspace

end ViewBinding
