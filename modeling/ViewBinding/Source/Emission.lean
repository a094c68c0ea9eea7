import ViewBinding.Source.Filer
import ViewBinding.Source.Generated

/-!
# Emission

Every binding of a round is rendered and handed to a filer. A binding that cannot be produced is
reported and the others are still produced, so each binding ends either written or failed.
-/

namespace ViewBinding

/-- Why a binding could not be produced. -/
inductive EmitFault where
  | noPackage (owner : ClassId)
  | create (artifact : String) (fault : FilerFault)
  | write (artifact : String) (fault : FilerFault)
  | flush (artifact : String) (fault : FilerFault)
  deriving DecidableEq, Repr

/-- The text of a failure, with the filer's own reason after the step that failed. -/
def EmitFault.message : EmitFault → String
  | noPackage owner => "Cannot resolve the package enclosing " ++ owner
  | create artifact fault => "Failed to create source file " ++ artifact ++ ": " ++ fault.message
  | write artifact fault => "Failed to write source file " ++ artifact ++ ": " ++ fault.message
  | flush artifact fault => "Failed to flush source file " ++ artifact ++ ": " ++ fault.message

/-- A binding that was not produced, by the name it would have had. -/
structure EmitFailure where
  artifact : String
  fault : EmitFault
  deriving DecidableEq, Repr

/-- What became of the bindings of a round: the names written and the failures, each in the order
of the bindings. -/
structure EmitReport where
  written : List String := []
  failures : List EmitFailure := []
  deriving DecidableEq, Repr

/-- Did every binding end written? -/
def EmitReport.isSuccess (r : EmitReport) : Bool := r.failures.isEmpty

/-- Render a binding in the package that the round finds for its owner. -/
def Round.source (round : Round) (b : Binding) : Except EmitFault Source :=
  match round.packageOf? b.owner with
  | some package => .ok (b.source package)
  | none => .error (.noPackage b.owner.id)

namespace Filer

variable {σ : Type}

/-- Create, write and flush one file; the first step that fails ends it. -/
def store (filer : Filer σ) (artifact : String) (content : Content) (s : σ) :
    Except EmitFault Unit × σ :=
  match filer.create artifact s with
  | (.error e, s) => (.error (.create artifact e), s)
  | (.ok (), s) =>
    match filer.write artifact content s with
    | (.error e, s) => (.error (.write artifact e), s)
    | (.ok (), s) =>
      match filer.flush artifact s with
      | (.error e, s) => (.error (.flush artifact e), s)
      | (.ok (), s) => (.ok (), s)

/-- Produce one binding: the name it was written under, or its failure. -/
def emitOne (filer : Filer σ) (round : Round) (b : Binding) (s : σ) :
    Except EmitFailure String × σ :=
  match round.source b with
  | .error fault => (.error ⟨b.owner.id ++ Source.nameSuffix, fault⟩, s)
  | .ok source =>
    match filer.store source.qualifiedName (.ofText source.text) s with
    | (.ok (), s) => (.ok source.qualifiedName, s)
    | (.error fault, s) => (.error ⟨source.qualifiedName, fault⟩, s)

/-- Produce bindings one after the other over the same store. -/
def emit (filer : Filer σ) (round : Round) : List Binding → σ → EmitReport × σ
  | [], s => ({}, s)
  | b :: rest, s =>
    let (outcome, s) := filer.emitOne round b s
    let (report, s) := filer.emit round rest s
    match outcome with
    | .ok name => ({ report with written := name :: report.written }, s)
    | .error failure => ({ report with failures := failure :: report.failures }, s)

end Filer

end ViewBinding
