import ViewBinding.Proofs.FileTree.Reaching
import ViewBinding.Proofs.Source.Accounting

/-!
# What the disk filer keeps

Whatever links the tree has, a source that the disk filer has stored is read from its file, and a
refusal leaves nothing but directories. Without links the filer also remembers: a file that it has
created keeps its content until the run ends, since no other name has the same place, and a file
that it could not create is not there later either.
-/

namespace ViewBinding

open Name

namespace DiskFiles

/-- The file of the name has this content. -/
def Holds (root : Path) (d : DiskFiles) (name : String) (content : Content) : Prop :=
  d.workspace.read (pathFor root name) = .ok content

section Telling

variable {root : Path} {name : String} {content : Content} {d : DiskFiles}

end Telling

/-- The disk filer relies on a tree without links, and on dotted names. -/
structure Sound (d : DiskFiles) : Prop where
  linkFree : d.workspace.tree.LinkFree
  qualified : ∀ name ∈ d.created, isQualified name = true

/-- A later store of a run: every file that was created is as it was. -/
structure Later (root : Path) (d d' : DiskFiles) : Prop where
  here : d'.workspace.here = d.workspace.here
  tree : d.workspace.tree.Later d'.workspace.tree
  created : d.created ⊆ d'.created
  sound : d.Sound → d'.Sound
  files : ∀ name ∈ d.created, ∀ content,
    d.workspace.tree.get? (d.workspace.placeOf (pathFor root name)) = some (.file content) →
    d'.workspace.tree.get? (d.workspace.placeOf (pathFor root name)) = some (.file content)

section Remembering

variable {root : Path} {name : String} {content : Content} {d d' d'' : DiskFiles}

theorem Later.refl (d : DiskFiles) : Later root d d :=
  ⟨rfl, .refl _, fun _ h => h, id, fun _ _ _ h => h⟩

theorem Later.trans (h : Later root d d') (h' : Later root d' d'') : Later root d d'' := by
  refine ⟨h'.here.trans h.here, h.tree.trans h'.tree, fun _ hin => h'.created (h.created hin),
    fun hd => h'.sound (h.sound hd), fun name hin content hfile => ?_⟩
  have hplace := Workspace.placeOf_congr h.here (pathFor root name)
  have hlast := h'.files name (h.created hin) content
  rw [hplace] at hlast
  exact hlast (h.files name hin content hfile)

/-- Directories are kept. -/
theorem Later.keeps (h : Later root d d') (hd : d.Sound) :
    d.workspace.Keeps d'.workspace :=
  ⟨h.here, (h.sound hd).linkFree, fun _ hp => h.tree.directory hp⟩

/-- A created file is read as before. -/
theorem Later.read (h : Later root d d') (hd : d.Sound) (hin : name ∈ d.created)
    (hread : d.workspace.read (pathFor root name) = .ok content) :
    d'.workspace.read (pathFor root name) = .ok content :=
  (h.keeps hd).read_of_read hd.linkFree hread
    (h.files name hin content (Workspace.get?_of_read hd.linkFree hread))

end Remembering

end DiskFiles

end ViewBinding
