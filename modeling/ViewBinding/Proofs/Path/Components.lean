import ViewBinding.Proofs.Path.Names
import ViewBinding.Source.Generated

/-!
# Components of artifacts

A path has the components of its beginning and then those of its names. Going on by names adds them
as they are, however the path before them is written. So the file of an artifact has the components
of the output directory and then the pieces of its name, the last one with the extension; only the
last one holds a dot, so no file of an artifact lies where another one needs a directory.
-/

namespace ViewBinding

open Text Name

/-- The piece that a component is written as; the beginning of a path is none. -/
def Component.piece? : Component → Option String
  | root => none
  | current => none
  | parent => some ".."
  | name s => some s

namespace Path

/-- A path is told by its text. -/
theorem eq_of_text {p q : Path} (h : p.text = q.text) : p = q := by
  cases p
  cases q
  exact congrArg mk h

/-- The components of a path are that of its beginning and those of its names. -/
theorem components_eq (p : Path) :
    p.components = p.pieces.anchor.components ++ p.names.map componentOf := by
  rw [names_eq]
  rfl

/-- The component of a piece is written as it. -/
theorem piece?_componentOf (s : String) : (componentOf s).piece? = some s := by
  unfold componentOf
  split
  · rename_i hdots
    rw [hdots]
    rfl
  · rfl

/-- The names of a path are what its components are written as. -/
theorem filterMap_components (p : Path) : p.components.filterMap Component.piece? = p.names := by
  have hanchor : p.pieces.anchor.components.filterMap Component.piece? = [] := by
    cases p.pieces.anchor <;> rfl
  have hpieces : Component.piece? ∘ componentOf = some := funext piece?_componentOf
  rw [components_eq, List.filterMap_append, hanchor, List.nil_append, List.filterMap_map, hpieces,
    List.filterMap_some]

/-- A path begins at the root exactly if it begins with a slash. -/
theorem anchor_eq_root_iff {p : Path} :
    p.pieces.anchor = .root ↔ p.text.toList.head? = some '/' := by
  constructor
  · intro h
    conv_lhs => rw [← p.path_pieces, Pieces.path, h]
    simp
  · exact fun h => by_contra fun hroot => head?_ne_of_anchor hroot h

/-- A path that begins with no slash and no dot, and goes on by no names, is empty. -/
theorem text_of_names_nil {p : Path} (hanchor : p.pieces.anchor = .plain) (h : p.names = []) :
    p.text = "" := by
  obtain ⟨first, rest, hsplit⟩ := List.exists_cons_of_ne_nil (split_ne_nil '/' p.text)
  have hidle : isIdle first = true := by
    rw [names, hsplit, List.filter_eq_nil_iff] at h
    simpa using h first (List.mem_cons_self ..)
  unfold pieces at hanchor
  rw [hsplit] at hanchor
  rcases (by simpa [isIdle] using hidle : first = "" ∨ first = ".") with rfl | rfl
  · cases rest with
    | nil => rw [← join_split '/' p.text, hsplit, join_singleton]
    | cons second rest => simp at hanchor
  · simp at hanchor

/-- What follows a slash does not change how a path begins. -/
theorem anchor_append_slash (s t : String) :
    (pieces ⟨s ++ "/" ++ t⟩).anchor = if s = "" then .root else (pieces ⟨s⟩).anchor := by
  have hsplit : split '/' (s ++ "/" ++ t) = split '/' s ++ split '/' t := split_append '/' s t
  obtain ⟨next, more, hnext⟩ := List.exists_cons_of_ne_nil (split_ne_nil '/' t)
  obtain ⟨first, rest, hfirst⟩ := List.exists_cons_of_ne_nil (split_ne_nil '/' s)
  have hjoin := join_split '/' s
  rw [hnext, hfirst] at hsplit
  rw [hfirst] at hjoin
  unfold pieces
  rw [hsplit, hfirst]
  by_cases hroot : first = ""
  · subst hroot
    cases rest with
    | nil =>
      rw [if_pos (by rw [← hjoin, join_singleton])]
      rfl
    | cons second rest =>
      rw [if_neg (by rw [← hjoin, ← slash_append_join (by simp)]; simp)]
      rfl
  · have hne : s ≠ "" := by
      rintro rfl
      exact hroot (List.cons.inj hfirst).1.symm
    rw [if_neg hne]
    by_cases hdot : first = "."
    · subst hdot
      rfl
    · simp [hroot, hdot]

/-- Going on from a path begins as the path does. -/
theorem anchor_join {s : String} (h : s.toList.head? ≠ some '/') (p : Path)
    (hplain : p.text = "" → (pieces ⟨s⟩).anchor = .plain) :
    (p.join s).pieces.anchor = p.pieces.anchor := by
  have hhead : (s.toList.head? == some '/') = false := by simpa using h
  unfold join
  rw [hhead, if_neg Bool.false_ne_true]
  by_cases hempty : p.text = ""
  · have hp : p = ⟨""⟩ := congrArg Path.mk hempty
    rw [if_pos (by simp [hempty]), hempty, String.empty_append, hplain hempty, hp]
    rfl
  · by_cases hlast : p.text.toList.getLast? = some '/'
    · obtain ⟨init, hinit⟩ := List.getLast?_eq_some_iff.mp hlast
      have htext : p.text = String.ofList init ++ "/" ++ "" := by
        rw [← String.toList_inj, hinit]
        simp
      have hp : p = ⟨String.ofList init ++ "/" ++ ""⟩ := congrArg Path.mk htext
      rw [if_pos (by simp [hlast]), htext, String.append_empty, anchor_append_slash, hp,
        anchor_append_slash]
    · rw [if_neg (by simp [hempty, hlast]), anchor_append_slash, if_neg hempty]

/-- Going on from a path by pieces begins as the path does. -/
theorem anchor_foldl_join {pieces : List String} (h : ∀ s ∈ pieces, '/' ∉ s.toList) {p : Path}
    (hne : p.text ≠ "") : (pieces.foldl join p).pieces.anchor = p.pieces.anchor := by
  induction pieces generalizing p with
  | nil => rfl
  | cons s pieces ih =>
    have hhead := head?_ne_of_notMem (h s (List.mem_cons_self ..))
    have hjoin : (p.join s).text ≠ "" := by
      unfold join
      split
      · rename_i hslash
        exact absurd (beq_iff_eq.mp hslash) hhead
      · split <;> simp [hne]
    rw [List.foldl_cons, ih (fun t ht => h t (List.mem_cons_of_mem _ ht)) hjoin,
      anchor_join hhead p fun hempty => absurd hempty hne]

/-- Going on from a path adds components. -/
theorem components_join {s : String} (h : s.toList.head? ≠ some '/') (p : Path)
    (hplain : p.text = "" → (pieces ⟨s⟩).anchor = .plain) :
    (p.join s).components = p.components ++ (names ⟨s⟩).map componentOf := by
  rw [components_eq, components_eq, names_join h, anchor_join h p hplain, List.map_append,
    List.append_assoc]

/-- A name that is no dots is one component, wherever it is added. -/
theorem components_join_name {s : String} (h : IsName s) (hdot : s ≠ ".") (hdots : s ≠ "..")
    (p : Path) : (p.join s).components = p.components ++ [.name s] := by
  have hsplit : split '/' s = [s] := split_of_notMem h.2
  have hplain : (pieces ⟨s⟩).anchor = .plain := by
    unfold pieces
    simp [hsplit, hdot]
  have hidle : isIdle s = false := by simp [isIdle, h.1, hdot]
  have hnames : names ⟨s⟩ = [s] := by
    rw [names_of_notMem h.2, hidle]
    rfl
  rw [components_join (head?_ne_of_notMem h.2) p fun _ => hplain, hnames, List.map_singleton,
    componentOf, if_neg hdots]

/-- Going on by names adds them as components. -/
theorem components_foldl_join {names : List String}
    (h : ∀ s ∈ names, IsName s ∧ s ≠ "." ∧ s ≠ "..") (p : Path) :
    (names.foldl join p).components = p.components ++ names.map .name := by
  induction names generalizing p with
  | nil => simp
  | cons s names ih =>
    obtain ⟨hname, hdot, hdots⟩ := h s (List.mem_cons_self ..)
    rw [List.foldl_cons, ih fun t ht => h t (List.mem_cons_of_mem _ ht),
      components_join_name hname hdot hdots, List.map_cons, List.append_assoc]
    rfl

end Path

namespace DiskFiles

/-- The path of an artifact goes on from the directory by the names for it. -/
theorem pathFor_eq_foldl {name : String} (h : isQualified name = true) (root : Path) :
    pathFor root name = (namesFor name).foldl Path.join root := by
  apply Path.eq_of_text
  rw [text_pathFor h, Path.text_foldl_join (by simp [namesFor]) (isName_of_mem_namesFor h)]

/-- An artifact has the components of the directory and then the names for it. -/
theorem components_pathFor {name : String} (h : isQualified name = true) (root : Path) :
    (pathFor root name).components = root.components ++ (namesFor name).map .name := by
  rw [pathFor_eq_foldl h]
  exact Path.components_foldl_join
    (fun s hs => ⟨isName_of_mem_namesFor h s hs, ne_dots_of_mem_namesFor h s hs⟩) root

/-- An artifact goes on by the names of the directory and then the names for it. -/
theorem names_pathFor {name : String} (h : isQualified name = true) (root : Path) :
    (pathFor root name).names = root.names ++ namesFor name := by
  rw [← Path.filterMap_components, components_pathFor h, List.filterMap_append,
    Path.filterMap_components, List.filterMap_map]
  exact congrArg _ List.filterMap_some

/-- The names for a dotted name do not begin those of the directory of another: their last one
holds a dot. -/
theorem not_namesFor_prefix_dropLast (name other : String) :
    ¬namesFor name <+: (namesFor other).dropLast := by
  intro hstarts
  have hmem : (split '.' name).getLast (split_ne_nil '.' name) ++ ("." ++ extension) ∈
      (split '.' other).dropLast := by
    rw [namesFor, namesFor, List.dropLast_concat] at hstarts
    exact hstarts.subset (List.mem_append_right _ (List.mem_singleton_self _))
  exact notMem_of_mem_split (List.dropLast_subset _ hmem) (by simp)

/-- Names for a dotted name that begin those for another are those for it. -/
theorem eq_of_namesFor_prefix {name other : String} (h : namesFor name <+: namesFor other) :
    name = other := by
  have hlast : namesFor other ≠ [] := by simp [namesFor]
  rw [← List.dropLast_concat_getLast hlast, List.prefix_concat_iff] at h
  rcases h with hsame | hstarts
  · rw [List.dropLast_concat_getLast hlast] at hsame
    exact namesFor_inj hsame
  · exact absurd hstarts (not_namesFor_prefix_dropLast name other)

section Apart

variable {root : Path} {name other : String} (hname : isQualified name = true)
  (hother : isQualified other = true)

include hname hother

/-- An artifact at or under another has its name. -/
theorem eq_of_startsWith_pathFor
    (h : (pathFor root other).startsWith (pathFor root name) = true) : name = other := by
  rw [Path.startsWith, List.isPrefixOf_iff_prefix] at h
  have hnames := h.filterMap Component.piece?
  rw [Path.filterMap_components, Path.filterMap_components, names_pathFor hname,
    names_pathFor hother, List.prefix_append_right_inj] at hnames
  exact eq_of_namesFor_prefix hnames

/-- No directory above an artifact is where an artifact is. -/
theorem components_ne_of_mem_ancestors_pathFor {above : Path}
    (h : above ∈ (pathFor root other).ancestors) :
    above.components ≠ (pathFor root name).components := by
  intro hsame
  have hnames : above.names = (pathFor root name).names := by
    rw [← Path.filterMap_components, ← Path.filterMap_components, hsame]
  have hstarts := Path.names_of_mem_ancestors h
  have hne : namesFor other ≠ [] := by simp [namesFor]
  rw [hnames, names_pathFor hname, names_pathFor hother, List.dropLast_append_of_ne_nil hne,
    List.prefix_append_right_inj] at hstarts
  exact not_namesFor_prefix_dropLast name other hstarts

end Apart

/-- A name that a source can be filed under: that of a binding class, in a package if there is
one. -/
def IsArtifactName (name : String) : Prop :=
  ∃ package simpleName, (package = "" ∨ isQualified package = true) ∧
    isIdentifier simpleName = true ∧ name = qualify package (simpleName ++ Source.nameSuffix)

/-- The name of an artifact is a dotted name. -/
theorem IsArtifactName.isQualified {name : String} (h : IsArtifactName name) :
    isQualified name = true := by
  obtain ⟨package, simpleName, hpackage, hsimple, rfl⟩ := h
  exact isQualified_qualify hpackage
    (isIdentifier_append hsimple (isPart_of_mem_identifier (by decide)))

/-- The file of an artifact has the components of the output directory, however that is written, and
then the pieces of its name, the last one with the extension. Artifacts of different names have
different files, and no file of an artifact is at or above that of another, so none is where another
one needs a directory. -/
theorem pathFor_apart (root : Path) {name other : String} (hname : IsArtifactName name)
    (hother : IsArtifactName other) :
    (∃ front last, split '.' name = front ++ [last] ∧ (pathFor root name).components =
      root.components ++ (front ++ [last ++ ".java"]).map .name) ∧
    ((pathFor root name).components = (pathFor root other).components → name = other) ∧
    ((pathFor root other).startsWith (pathFor root name) = true → name = other) ∧
    ∀ above ∈ (pathFor root other).ancestors,
      above.components ≠ (pathFor root name).components := by
  have hdotted := hname.isQualified
  refine ⟨⟨_, _, (List.dropLast_concat_getLast (split_ne_nil '.' name)).symm,
    components_pathFor hdotted root⟩, fun hsame => ?_,
    eq_of_startsWith_pathFor hdotted hother.isQualified,
    fun above habove => components_ne_of_mem_ancestors_pathFor hdotted hother.isQualified habove⟩
  have hprefix : (pathFor root name).components <+: (pathFor root other).components :=
    ⟨[], by rw [List.append_nil, hsame]⟩
  exact eq_of_startsWith_pathFor hdotted hother.isQualified
    (List.isPrefixOf_iff_prefix.mpr hprefix)

/-- A package that is named like a binding class has its directory beside the file of that class. -/
theorem pathFor_apart_homePackage :
    IsArtifactName "app.Home_ViewBinding" ∧
    IsArtifactName "app.Home_ViewBinding.Main_ViewBinding" ∧
    (pathFor ⟨"out//./gen/"⟩ "app.Home_ViewBinding").text =
      "out//./gen/app/Home_ViewBinding.java" ∧
    (pathFor ⟨"out//./gen/"⟩ "app.Home_ViewBinding.Main_ViewBinding").startsWith
      (pathFor ⟨"out//./gen/"⟩ "app.Home_ViewBinding") = false := by
  have hhome : IsArtifactName "app.Home_ViewBinding" :=
    ⟨"app", "Home", .inr (by decide), by decide, by decide⟩
  have hmain : IsArtifactName "app.Home_ViewBinding.Main_ViewBinding" :=
    ⟨"app.Home_ViewBinding", "Main", .inr (by decide), by decide, by decide⟩
  obtain ⟨-, -, hunder, -⟩ := pathFor_apart ⟨"out//./gen/"⟩ hhome hmain
  refine ⟨hhome, hmain, by decide +kernel, ?_⟩
  rw [← Bool.not_eq_true]
  exact fun h => absurd (hunder h) (by decide)

end DiskFiles

end ViewBinding
