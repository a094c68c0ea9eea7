import ViewBinding.FileTree.Basic

/-!
# Filers

A filer takes generated sources by qualified name. Each name can be created once; creating,
writing and flushing may each fail, and a failed step may still have changed the store.

The filer kept in memory is what a dry run writes to. Any filer can be made to fail on chosen
names, at each of the three steps.
-/

namespace ViewBinding

/-- Why a filer refuses a step. -/
inductive FilerFault where
  | alreadyCreated (name : String)
  | file (fault : FileFault)
  | injected (text : String)
  deriving DecidableEq, Repr

/-- The text of a filer's refusal. -/
def FilerFault.message : FilerFault → String
  | alreadyCreated name => name ++ " was already generated in this round"
  | file fault => fault.message
  | injected text => text

/-- A step of a filer on a store: how it ends, and the store after it. -/
abbrev Filing (σ : Type) := σ → Except FilerFault Unit × σ

/-- A way to store sources in a store of type `σ`. -/
structure Filer (σ : Type) where
  /-- Create the file of a name, empty. -/
  create : String → Filing σ
  /-- Write the content of a name that was just created. -/
  write : String → Content → Filing σ
  /-- Make sure that the content of a name is stored. -/
  flush : String → Filing σ

/-- Sources kept in memory under their names. -/
structure MemoryFiles where
  files : Table String Content := []
  deriving DecidableEq

namespace MemoryFiles

/-- The content under a name. -/
def get? (m : MemoryFiles) (name : String) : Option Content := m.files.get? name

/-- The content under a name, if it is text. -/
def text? (m : MemoryFiles) (name : String) : Option String :=
  (m.get? name).bind Content.text?

/-- The number of names. -/
def size (m : MemoryFiles) : Nat := m.files.length

/-- Add an empty file, unless the name is taken. -/
def create (name : String) : Filing MemoryFiles := fun m =>
  if (m.get? name).isSome then (.error (.alreadyCreated name), m)
  else (.ok (), ⟨m.files.insert name .empty⟩)

/-- Put the content of a file. -/
def write (name : String) (content : Content) : Filing MemoryFiles := fun m =>
  (.ok (), ⟨m.files.insert name content⟩)

/-- The filer in memory; it refuses only names that it already has. -/
def filer : Filer MemoryFiles where
  create := create
  write := write
  flush := fun _ m => (.ok (), m)

end MemoryFiles

/-- The texts with which each step is made to fail, by name. -/
structure Faults where
  create : Table String String := []
  write : Table String String := []
  flush : Table String String := []
  deriving DecidableEq, Repr

/-- A filer that fails where it is told to. A create fault keeps the step from the inner filer; a
write fault leaves the file created and empty; a flush fault comes after the content was written. -/
def Filer.withFaults {σ : Type} (inner : Filer σ) (faults : Faults) : Filer σ where
  create name s :=
    match faults.create.get? name with
    | some text => (.error (.injected text), s)
    | none => inner.create name s
  write name content s :=
    match faults.write.get? name with
    | some text => (.error (.injected text), s)
    | none => inner.write name content s
  flush name s :=
    match faults.flush.get? name with
    | some text => (.error (.injected text), s)
    | none => inner.flush name s

end ViewBinding
