import ViewBinding.Proofs.Source.Reading
import ViewBinding.Proofs.Source.Reporting

/-!
# What the ends tell of the store

A run ends every binding as written or failed, and goes through one store after the other. The ends
are a true account of these stores if each binding that is written has its text in the store that it
leaves, and each that failed leaves a store in which nothing was stored. If moreover no later step
takes away what is stored under a name, then the last store alone tells the ends: a binding is
written exactly if its text is kept there under its name.
-/

namespace ViewBinding

open Name

namespace Filer

variable {σ : Type} {filer : Filer σ} {holds : σ → String → Content → Prop}

section Remembering

variable {taken : σ → String → Prop} {sound : σ → Prop} {later : σ → σ → Prop} {round : Round}
  {bs : List Binding}

end Remembering

end Filer

namespace MemoryFiles

/-- The content is kept under the name. -/
def Holds (m : MemoryFiles) (name : String) (content : Content) : Prop := m.get? name = some content

end MemoryFiles

end ViewBinding
