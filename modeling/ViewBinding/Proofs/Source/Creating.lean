import ViewBinding.Proofs.Source.Repeating

/-!
# Creating once

A filer on disk is called for one name after another, and whatever else happens to the disk between
two calls. The names that it has created are those of the calls that succeeded: such a name is
refused from then on, and nothing is touched for it. A call that fails on the way to its file leaves
the names as they were, so only the disk decides how the next call for the name ends.
-/

namespace ViewBinding

open Workspace

namespace DiskFiles

section Step

variable {root : Path} {name : String} {d : DiskFiles}

/-- The directory and the file of a name can be made, and this is the workspace then. -/
def Makes (root : Path) (name : String) (w w' : Workspace) : Prop :=
  ∃ made place, makeParent (pathFor root name) w = (.ok (), made) ∧
    made.createFile (pathFor root name) = .ok (place, w')

/-- How a call for a name ends. -/
inductive CreateExit (root : Path) (name : String) (d : DiskFiles) :
    Except FilerFault Unit × DiskFiles → Prop
  | taken (h : name ∈ d.created) :
    CreateExit root name d (.error (.alreadyCreated name), d)
  | refused {fault : FileFault} {w : Workspace} (hnew : name ∉ d.created)
      (hfails : ∀ w', ¬Makes root name d.workspace w') :
    CreateExit root name d (.error (.file fault), ⟨w, d.created⟩)
  | made {w : Workspace} (hnew : name ∉ d.created) (hmakes : Makes root name d.workspace w) :
    CreateExit root name d (.ok (), ⟨w, name :: d.created⟩)

/-- A call ends at one of the exits. -/
theorem createExit (root : Path) (name : String) (d : DiskFiles) :
    CreateExit root name d (create root name d) := by
  by_cases htaken : name ∈ d.created
  · simpa only [create, if_pos htaken] using CreateExit.taken htaken
  cases hparent : makeParent (pathFor root name) d.workspace with
  | mk result made =>
    cases result with
    | error fault =>
      have hfails : ∀ w', ¬Makes root name d.workspace w' := by
        rintro w' ⟨made', place, hmade, -⟩
        cases (Prod.mk.inj (hparent.symm.trans hmade)).1
      simp only [create, if_neg htaken, hparent]
      exact .refused htaken hfails
    | ok _ =>
      cases hfile : made.createFile (pathFor root name) with
      | error fault =>
        have hfails : ∀ w', ¬Makes root name d.workspace w' := by
          rintro w' ⟨made', place, hmade, hcreated⟩
          obtain rfl := (Prod.mk.inj (hparent.symm.trans hmade)).2
          cases hfile.symm.trans hcreated
        simp only [create, if_neg htaken, hparent, hfile]
        exact .refused htaken hfails
      | ok file =>
        obtain ⟨place, created⟩ := file
        simp only [create, if_neg htaken, hparent, hfile]
        exact .made htaken ⟨made, place, hparent, hfile⟩

/-- Where a file is already, in a plain workspace, a new one can be made. -/
theorem exists_makes_of_isFile {w : Workspace} (h : w.Plain) (hpath : (pathFor root name).Descends)
    (hfile : w.isFile (pathFor root name) = true) : ∃ w', Makes root name w w' := by
  unfold Makes
  revert hpath hfile
  generalize pathFor root name = path
  intro hpath hfile
  obtain ⟨htext, hend, content, hentry⟩ := (h.isFile_iff hpath).mp hfile
  have hplace := placeOf_eq_append (w := w) hpath
  have hne : path.names ≠ [] := by
    intro hnil
    rw [hplace, hnil, List.append_nil, h.get?_origin path.text] at hentry
    exact nomatch hentry
  -- The way to the file is there, so paving it changes nothing.
  have habove : w.tree.get? (origin path.text w.here ++ path.names.dropLast) =
      some .directory := by
    have hdrop := h.tree.get?_dropLast (hplace ▸ hentry)
    rwa [List.dropLast_append_of_ne_nil hne] at hdrop
  have hpave : w.pave path = (true, w) := by
    unfold Workspace.pave
    rw [h.tree.pave_eq habove]
  have hmay : w.mayHold path = true := by
    refine mayHold_iff.mpr ⟨htext, fun s hs => ?_, fun hdirectory => ?_⟩
    · exact (h.tree.enters hentry s (hplace ▸ List.mem_append_right _ hs)).2.fits
    · exact nomatch hentry.symm.trans hdirectory
  have hsound : aboveFault? path = none := by
    unfold aboveFault?
    cases hparent : path.parent? with
    | none => rfl
    | some above =>
      rcases textFault?_of_starts htext (Path.parent?_eq_some hparent).2.1 with hempty | hnone
      · simp [hempty]
      · simp [hnone]
  have hlay : w.lay path .empty = (true, w.put (w.placeOf path) (.file .empty)) := by
    unfold Workspace.lay
    simp [hsound, hpave, hmay]
  have hexit := layExit h hpath hend hne .empty
  rw [hlay] at hexit
  cases hexit with
  | written hparent hcreate _ => exact ⟨_, _, _, hparent, hcreate⟩

end Step

/-- A call for a name, and the workspace that it finds. -/
structure Call where
  name : String
  workspace : Workspace

/-- A call that has ended: what it found, how it ended, and what it left. -/
structure Ended where
  name : String
  found : DiskFiles
  result : Except FilerFault Unit
  left : DiskFiles

/-- Make a call when these names are created. -/
def Call.ended (root : Path) (created : List String) (c : Call) : Ended where
  name := c.name
  found := ⟨c.workspace, created⟩
  result := (create root c.name ⟨c.workspace, created⟩).1
  left := (create root c.name ⟨c.workspace, created⟩).2

/-- Make calls one after the other. Between two of them only the names are kept. -/
def calls (root : Path) : List String → List Call → List Ended
  | _, [] => []
  | created, c :: rest =>
    c.ended root created :: calls root (c.ended root created).left.created rest

/-- The names of the calls that succeeded, in order. -/
def succeeded (ended : List Ended) : List String :=
  (ended.filter (·.result.isOk)).map (·.name)

section Run

variable {root : Path} {created : List String}

/-- A call adds its name to those created if it succeeds, and adds no other. -/
theorem created_left_ended (root : Path) (created : List String) (c : Call) :
    (c.ended root created).left.created = succeeded [c.ended root created] ++ created := by
  have hexit := createExit root c.name ⟨c.workspace, created⟩
  unfold Call.ended succeeded
  revert hexit
  generalize create root c.name ⟨c.workspace, created⟩ = ended
  rintro (_ | _ | _) <;> rfl

/-- A call for a created name does not succeed. -/
theorem notMem_of_mem_succeeded {c : Call} {name : String}
    (h : name ∈ succeeded [c.ended root created]) : name ∉ created := by
  have hexit := createExit root c.name ⟨c.workspace, created⟩
  revert hexit h
  unfold Call.ended succeeded
  generalize create root c.name ⟨c.workspace, created⟩ = ended
  rintro h (_ | _ | hnew)
  · exact absurd h List.not_mem_nil
  · exact absurd h List.not_mem_nil
  · exact List.mem_singleton.mp h ▸ hnew

theorem succeeded_cons (e : Ended) (ended : List Ended) :
    succeeded (e :: ended) = succeeded [e] ++ succeeded ended := by
  cases hok : e.result.isOk <;> simp [succeeded, hok]

theorem reverse_succeeded_singleton (e : Ended) : (succeeded [e]).reverse = succeeded [e] := by
  cases hok : e.result.isOk <;> simp [succeeded, hok]

/-- What a call does, given the names created before it. -/
theorem ended_cases (root : Path) (created : List String) (c : Call) :
    ((c.ended root created).result = .error (.alreadyCreated c.name) ↔ c.name ∈ created) ∧
    ((c.ended root created).result = .error (.alreadyCreated c.name) →
      (c.ended root created).left = (c.ended root created).found) ∧
    (∀ fault, (c.ended root created).result = .error fault →
      (c.ended root created).left.created = created) ∧
    (c.name ∉ created →
      ((c.ended root created).result = .ok () ↔
        Makes root c.name c.workspace (c.ended root created).left.workspace) ∧
      (c.workspace.Plain → (pathFor root c.name).Descends →
        c.workspace.isFile (pathFor root c.name) = true →
          (c.ended root created).result = .ok ())) := by
  have hexit := createExit root c.name ⟨c.workspace, created⟩
  revert hexit
  unfold Call.ended
  dsimp only
  generalize create root c.name ⟨c.workspace, created⟩ = ended
  rintro (htaken | ⟨hnew, hfails⟩ | ⟨hnew, hmakes⟩)
  · exact ⟨iff_of_true rfl htaken, fun _ => rfl, fun _ _ => rfl, fun hnew => absurd htaken hnew⟩
  · refine ⟨iff_of_false (by simp) hnew, by simp, fun _ _ => rfl, fun _ => ?_⟩
    refine ⟨iff_of_false (by simp) (hfails _), fun hplain hpath hfile => ?_⟩
    obtain ⟨w', hmakes⟩ := exists_makes_of_isFile hplain hpath hfile
    exact absurd hmakes (hfails w')
  · exact ⟨iff_of_false (by simp) hnew, by simp, by simp,
      fun _ => ⟨iff_of_true rfl hmakes, fun _ _ _ => rfl⟩⟩

/-- Each call of a run finds the names of the calls that succeeded before it. -/
theorem exists_eq_ended {cs : List Call} {before after : List Ended} {e : Ended}
    (h : calls root created cs = before ++ e :: after) :
    ∃ c : Call, e = c.ended root ((succeeded before).reverse ++ created) := by
  induction cs generalizing created before with
  | nil => simp [calls] at h
  | cons c cs ih =>
    cases before with
    | nil => exact ⟨c, (List.cons.inj h).1.symm⟩
    | cons x before =>
      obtain ⟨rfl, hrest⟩ := List.cons.inj h
      obtain ⟨d, hd⟩ := ih hrest
      refine ⟨d, ?_⟩
      rw [hd, created_left_ended, succeeded_cons (c.ended root created) before,
        List.reverse_append, reverse_succeeded_singleton, List.append_assoc]

/-- No name succeeds twice, and none that is created. -/
theorem nodup_succeeded_calls (root : Path) (created : List String) (cs : List Call) :
    (succeeded (calls root created cs)).Nodup ∧
      ∀ name ∈ succeeded (calls root created cs), name ∉ created := by
  induction cs generalizing created with
  | nil => exact ⟨List.nodup_nil, nofun⟩
  | cons c cs ih =>
    obtain ⟨hnodup, hnew⟩ := @ih (c.ended root created).left.created
    have hkept : ∀ name, name ∈ succeeded [c.ended root created] ++ created →
        name ∈ (c.ended root created).left.created :=
      fun name hname => created_left_ended root created c ▸ hname
    have hfirst : (succeeded [c.ended root created]).Nodup := by
      cases hok : (c.ended root created).result.isOk <;> simp [succeeded, hok]
    unfold calls
    rw [succeeded_cons]
    refine ⟨List.nodup_append.mpr ⟨hfirst, hnodup, ?_⟩, fun name hname => ?_⟩
    · rintro name hname other hother rfl
      exact hnew name hother (hkept name (List.mem_append_left _ hname))
    · rcases List.mem_append.mp hname with hname | hname
      · exact notMem_of_mem_succeeded hname
      · exact fun hin => hnew name hname (hkept name (List.mem_append_right _ hin))

end Run

/-- Over any run of calls for any names, whatever happens to the disk between them, each name
succeeds at most once. A call finds created exactly the names that succeeded before it; it is
refused for its name exactly if that is one of them, and then nothing is touched. A call that fails
leaves the names as they were, and one for a name that did not succeed yet succeeds exactly if its
directory and its file can be made, as they can where a file from before is. -/
theorem create_once (root : Path) (cs : List Call) :
    (succeeded (calls root [] cs)).Nodup ∧
    ∀ before e after, calls root [] cs = before ++ e :: after →
      (∀ name, name ∈ e.found.created ↔ name ∈ succeeded before) ∧
      (e.result = .error (.alreadyCreated e.name) ↔ e.name ∈ succeeded before) ∧
      (e.result = .error (.alreadyCreated e.name) → e.left = e.found) ∧
      (∀ fault, e.result = .error fault → e.left.created = e.found.created) ∧
      (e.name ∉ succeeded before →
        (e.result = .ok () ↔ Makes root e.name e.found.workspace e.left.workspace) ∧
        (e.found.workspace.Plain → (pathFor root e.name).Descends →
          e.found.workspace.isFile (pathFor root e.name) = true → e.result = .ok ())) := by
  refine ⟨(nodup_succeeded_calls root [] cs).1, fun before e after hsplit => ?_⟩
  obtain ⟨c, rfl⟩ := exists_eq_ended hsplit
  have hfound : ∀ name, name ∈ (succeeded before).reverse ++ [] ↔ name ∈ succeeded before := by
    simp
  obtain ⟨hrefused, htouched, hkept, hopen⟩ := ended_cases root ((succeeded before).reverse ++ []) c
  rw [hfound] at hrefused hopen
  exact ⟨hfound, hrefused, htouched, hkept, hopen⟩

/-- A workspace where a file stands in the way of the artifacts of a package. -/
def blockedWorkspace : Workspace where
  tree := ⟨[(["out"], .directory), (["out", "p"], .file .empty)]⟩

/-- A workspace with an artifact from before. -/
def builtWorkspace : Workspace where
  tree := ⟨[(["out"], .directory), (["out", "p"], .directory),
    (["out", "p", "A_ViewBinding.java"], .file (.ofText "stale"))]⟩

/-- One name called three times: a file is in the way first, and then an older artifact is there. -/
def thriceCalled : List Call := [
  ⟨"p.A_ViewBinding", blockedWorkspace⟩,
  ⟨"p.A_ViewBinding", builtWorkspace⟩,
  ⟨"p.A_ViewBinding", builtWorkspace⟩]

/-- The first call fails and leaves no name, the second succeeds, and the third is refused. -/
theorem create_once_thriceCalled :
    ∃ e₁ e₂ e₃, calls ⟨"out"⟩ [] thriceCalled = [e₁, e₂, e₃] ∧
      e₁.result = .error (.file .alreadyExists) ∧ e₁.left.created = [] ∧
      e₂.result = .ok () ∧
      e₃.result = .error (.alreadyCreated "p.A_ViewBinding") ∧ e₃.left = e₃.found := by
  obtain ⟨-, hcalls⟩ := create_once ⟨"out"⟩ thriceCalled
  obtain ⟨-, -, -, hkept, -⟩ := hcalls [] _ _ rfl
  obtain ⟨-, -, -, -, hopen⟩ := hcalls [_] _ _ rfl
  obtain ⟨-, hrefused, htouched, -, -⟩ := hcalls [_, _] _ _ rfl
  have hfailed : (create ⟨"out"⟩ "p.A_ViewBinding" ⟨blockedWorkspace, []⟩).1 =
      .error (.file .alreadyExists) := by decide +kernel
  have hplain : builtWorkspace.Plain :=
    ⟨FileTree.plain_of_entries (by decide +kernel) (by simp [builtWorkspace]) (by decide +kernel),
      rfl⟩
  have hmade := (hopen (by decide +kernel)).2 hplain (by decide +kernel) (by decide +kernel)
  have hthird := hrefused.mpr (by decide +kernel)
  exact ⟨_, _, _, rfl, hfailed, hkept _ hfailed, hmade, hthird, htouched hthird⟩

end DiskFiles

end ViewBinding
