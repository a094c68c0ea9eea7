import ViewBinding.Source.Emission

/-!
# Emission step by step

What emission does to a store and a report is what producing the first binding does, followed by
the emission of the rest. The report keeps the ends of the bindings in their order, written ones
and failures apart.
-/

namespace ViewBinding

/-- A report with the end of one more binding in front. -/
def EmitReport.add (r : EmitReport) : Except EmitFailure String → EmitReport
  | .ok name => { r with written := name :: r.written }
  | .error failure => { r with failures := failure :: r.failures }

/-- Failures stay in a report. -/
theorem EmitReport.mem_failures_add {r : EmitReport} {failure : EmitFailure}
    (h : failure ∈ r.failures) (outcome : Except EmitFailure String) :
    failure ∈ (r.add outcome).failures := by
  cases outcome with
  | ok name => exact h
  | error other => exact List.mem_cons_of_mem _ h

/-- How a binding ends by the storing of its source. -/
def EmitFailure.outcome (artifact : String) : Except EmitFault Unit → Except EmitFailure String
  | .ok () => .ok artifact
  | .error fault => .error ⟨artifact, fault⟩

namespace Filer

variable {σ : Type} (filer : Filer σ) (round : Round)

/-- A binding with a source ends as the storing of it does. -/
theorem emitOne_of_source {round : Round} {b : Binding} {source : Source}
    (h : round.source b = .ok source) (s : σ) : filer.emitOne round b s =
      (EmitFailure.outcome source.qualifiedName
          (filer.store source.qualifiedName (.ofText source.text) s).1,
        (filer.store source.qualifiedName (.ofText source.text) s).2) := by
  unfold emitOne
  rw [h]
  simp only
  cases filer.store source.qualifiedName (.ofText source.text) s with
  | mk result after => cases result <;> rfl

@[simp] theorem emit_nil (s : σ) : filer.emit round [] s = ({}, s) := rfl

/-- Emission goes on over the store that the first binding leaves. -/
theorem emit_cons (b : Binding) (bs : List Binding) (s : σ) :
    filer.emit round (b :: bs) s =
      ((filer.emit round bs (filer.emitOne round b s).2).1.add (filer.emitOne round b s).1,
        (filer.emit round bs (filer.emitOne round b s).2).2) := by
  simp only [emit]
  cases (filer.emitOne round b s).1 <;> rfl

end Filer

namespace MemoryFiles

/-- What was put under a name is found there. -/
theorem get?_insert (m : MemoryFiles) (name other : String) (content : Content) :
    get? ⟨m.files.insert name content⟩ other =
      if other = name then some content else m.get? other := by
  by_cases h : other = name
  · rw [if_pos h, h]
    exact Table.get?_insert_self ..
  · rw [if_neg h]
    exact Table.get?_insert_of_ne h

/-- Of two contents that are put under one name, the last is found. -/
theorem get?_insert_insert (m : MemoryFiles) (name other : String) (first last : Content) :
    get? ⟨(m.files.insert name first).insert name last⟩ other =
      if other = name then some last else m.get? other := by
  have hlast := get?_insert ⟨m.files.insert name first⟩ name other last
  rw [hlast, get?_insert]
  by_cases h : other = name
  · rw [if_pos h, if_pos h]
  · rw [if_neg h, if_neg h, if_neg h]

/-- Storing in memory is refused for a taken name, and else keeps the content. -/
theorem store_eq (name : String) (content : Content) (m : MemoryFiles) :
    filer.store name content m =
      if (m.get? name).isSome then (.error (.create name (.alreadyCreated name)), m)
      else (.ok (), ⟨(m.files.insert name .empty).insert name content⟩) := by
  by_cases h : (m.get? name).isSome = true
  · simp [Filer.store, filer, create, if_pos h]
  · simp [Filer.store, filer, create, write, if_neg h]

end MemoryFiles

end ViewBinding
