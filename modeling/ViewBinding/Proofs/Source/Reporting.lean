import Mathlib.Data.List.Forall2
import ViewBinding.Proofs.Source.Isolation

/-!
# What a report tells

Every binding that is emitted has its own end, which speaks of it by its artifact. A report is the
list of these ends in the order of the bindings, with the written ones and the failures kept apart;
nothing else is reported, whatever filer stores the sources.
-/

namespace ViewBinding

namespace EmitFailure

/-- The failure that a binding ends with, if it does. -/
def ofEnd? : Except EmitFailure String → Option EmitFailure
  | .ok _ => none
  | .error failure => some failure

end EmitFailure

/-- The report of these ends. -/
def EmitReport.ofEnds (ends : List (Except EmitFailure String)) : EmitReport where
  written := ends.filterMap (·.toOption)
  failures := ends.filterMap EmitFailure.ofEnd?

/-- One more end in front is added to the report. -/
theorem EmitReport.ofEnds_cons (e : Except EmitFailure String)
    (ends : List (Except EmitFailure String)) : ofEnds (e :: ends) = (ofEnds ends).add e := by
  cases e <;> rfl

namespace Filer

variable {σ : Type} (filer : Filer σ) (round : Round)

/-- How bindings end one after the other, each over the store that those before it leave. -/
def ends : List Binding → σ → List (Except EmitFailure String)
  | [], _ => []
  | b :: bs, s => (filer.emitOne round b s).1 :: ends bs (filer.emitOne round b s).2

/-- The report of an emission is that of the ends. -/
theorem report_emit (bs : List Binding) (s : σ) :
    (filer.emit round bs s).1 = .ofEnds (filer.ends round bs s) := by
  induction bs generalizing s with
  | nil => rfl
  | cons b bs ih => rw [emit_cons, ends, EmitReport.ofEnds_cons, ih]

end Filer

end ViewBinding
