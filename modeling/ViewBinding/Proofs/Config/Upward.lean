import ViewBinding.Config.Search
import ViewBinding.Proofs.FileTree.Visiting

/-!
# The configuration of a directory

A directory is governed by the nearest configuration at or above it, unless a repository begins
below that one. A search goes up by shortening the path that it starts from. While the last names of
the path are no double dots, every step leads to the directory above; where they are used up, the
search ends or goes astray, so it has to be settled before.
-/

namespace ViewBinding

open Workspace

namespace Workspace

/-- Is there an entry of this name in the directory at a place? -/
def Contains (w : Workspace) (name : String) (place : Place) : Prop :=
  (w.tree.get? (place ++ [name])).isSome = true

instance (w : Workspace) (name : String) (place : Place) : Decidable (w.Contains name place) :=
  inferInstanceAs (Decidable (_ = true))

/-- The configuration at a place governs a directory: it is the nearest at or above it, and no
repository begins below it. -/
structure Governs (w : Workspace) (place top : Place) : Prop where
  above : place <+: top
  config : w.Contains Config.fileName place
  nearest : ∀ q, place <+: q → q <+: top → q ≠ place →
    ¬w.Contains Config.fileName q ∧ ¬w.Contains repositoryMark q

section Governing

variable {w : Workspace} {place top : Place}

/-- A directory with a configuration is governed by it. -/
theorem governs_iff_eq (h : w.Contains Config.fileName top) :
    w.Governs place top ↔ place = top := by
  constructor
  · intro hgoverns
    by_contra hne
    exact (hgoverns.nearest top hgoverns.above List.prefix_rfl (Ne.symm hne)).1 h
  · rintro rfl
    exact ⟨List.prefix_rfl, h, fun q hq hq' hne => absurd (hq'.eq_of_length_le hq.length_le) hne⟩

/-- The top directory of a repository is governed by its own configuration or by none. -/
theorem not_governs_of_mark (h : ¬w.Contains Config.fileName top)
    (hmark : w.Contains repositoryMark top) : ¬w.Governs place top := by
  intro hgoverns
  by_cases hsame : place = top
  · exact h (hsame ▸ hgoverns.config)
  · exact (hgoverns.nearest top hgoverns.above List.prefix_rfl (Ne.symm hsame)).2 hmark

/-- The root is governed by its own configuration or by none. -/
theorem not_governs_root (h : ¬w.Contains Config.fileName []) : ¬w.Governs place [] :=
  fun hgoverns => h (List.prefix_nil.mp hgoverns.above ▸ hgoverns.config)

/-- A directory with neither is governed by what governs the directory above. -/
theorem governs_concat_iff {name : String} (h : ¬w.Contains Config.fileName (top ++ [name]))
    (hmark : ¬w.Contains repositoryMark (top ++ [name])) :
    w.Governs place (top ++ [name]) ↔ w.Governs place top := by
  constructor
  · rintro ⟨habove, hconfig, hnearest⟩
    refine ⟨(List.prefix_concat_iff.mp habove).resolve_left ?_, hconfig, fun q hq hq' =>
      hnearest q hq (hq'.trans (List.prefix_append ..))⟩
    rintro rfl
    exact h hconfig
  · rintro ⟨habove, hconfig, hnearest⟩
    refine ⟨habove.trans (List.prefix_append ..), hconfig, fun q hq hq' hne => ?_⟩
    rcases List.prefix_concat_iff.mp hq' with rfl | hq'
    · exact ⟨h, hmark⟩
    · exact hnearest q hq hq' hne

end Governing

end Workspace

/-- The number of names that a path ends with after its last double dot. -/
def Path.depth (p : Path) : Nat := (p.names.reverse.takeWhile (· ≠ "..")).length

/-- A last name that is no double dot counts. -/
theorem Path.depth_of_names_concat {p above : Path} {s : String} (h : p.names = above.names ++ [s])
    (hs : s ≠ "..") : p.depth = above.depth + 1 := by
  simp [depth, h, hs]

/-- A search begins with the path and goes on with the path above, if there is one. -/
theorem Path.upwardWithin_succ (fuel : Nat) (p : Path) :
    p.upwardWithin (fuel + 1) = p :: p.parent?.elim [] (Path.upwardWithin fuel) := by
  unfold upwardWithin
  cases p.parent? <;> rfl

namespace Workspace

/-- A search from a path to a directory is settled by its text. The path ends with names that go up
to a directory with a configuration or a repository; or it goes up nowhere, and spells the whole way
from the root or has nothing to find. -/
def Settles (w : Workspace) (start : Path) (top : Place) : Prop :=
  start.Descends ∧ (origin start.text w.here = [] ∨ ∀ place, ¬w.Governs place top) ∨
    ∃ q, q <+: top ∧ top.length ≤ q.length + start.depth ∧
      (w.Contains Config.fileName q ∨ w.Contains repositoryMark q)

/-- A path leads to a directory, and its text leaves room for the files that are searched. -/
structure Stands (w : Workspace) (p : Path) (place : Place) : Prop where
  way : Way w.tree (origin p.text w.here) (steps p.text) (.present place .directory)
  nulFree : '\x00' ∉ p.text.toList
  room : (p.join Config.fileName).text.utf8ByteSize < pathByteLimit

section Standing

variable {w : Workspace} {p above : Path} {place : Place} {name : String}

/-- A name goes on from a path by joining. -/
theorem under_singleton (p : Path) (name : String) : under p [name] = p.join name := rfl

/-- The names that are searched in a directory. -/
theorem searched_names (h : name ∈ [Config.fileName, repositoryMark]) : Path.IsName name ∧
    Enters name ∧ '\x00' ∉ name.toList ∧ name.utf8ByteSize ≤ Config.fileName.utf8ByteSize := by
  have hboth : ∀ name ∈ [Config.fileName, repositoryMark],
      (name ≠ "" ∧ '/' ∉ name.toList) ∧ (name ≠ "." ∧ name ≠ ".." ∧
        name.utf8ByteSize ≤ maxNameBytes) ∧ '\x00' ∉ name.toList ∧
      name.utf8ByteSize ≤ Config.fileName.utf8ByteSize := by
    decide +kernel
  obtain ⟨hname, ⟨hdot, hdots, hfits⟩, hrest⟩ := hboth name h
  exact ⟨hname, ⟨hdot, hdots, hfits⟩, hrest⟩

/-- The paths that are searched can be used. -/
theorem Stands.usable (h : w.Stands p place) (hname : name ∈ [Config.fileName, repositoryMark]) :
    textFault? (p.join name) = none := by
  obtain ⟨hpiece, -, hnul, hsize⟩ := searched_names hname
  have hroom := h.room
  have hgap : '\x00' ∉ p.gap.toList := by
    unfold Path.gap
    split <;> decide
  rw [Path.text_join (searched_names (List.mem_cons_self ..)).1,
    String.utf8ByteSize_append] at hroom
  rw [textFault?_eq_none_iff, Path.text_join hpiece, String.utf8ByteSize_append]
  refine ⟨?_, fun hempty => hpiece.1 (String.append_eq_empty_iff.mp hempty).2, by omega⟩
  simp [h.nulFree, hgap, hnul]

/-- A search sees what is kept in the directory. -/
theorem Stands.entry_join (h : w.Stands p place) (hw : w.Plain)
    (hname : name ∈ [Config.fileName, repositoryMark]) {e : Entry}
    (hget : w.tree.get? (place ++ [name]) = some e) :
    w.entry (p.join name) = .ok (place ++ [name], e) := by
  have htext := h.usable hname
  rw [← under_singleton] at htext ⊢
  exact hw.entry_under_of_way h.way (List.cons_ne_nil name []) hget htext

theorem Stands.holds_join_iff (h : w.Stands p place) (hw : w.Plain)
    (hname : name ∈ [Config.fileName, repositoryMark]) :
    w.holds (p.join name) = true ↔ w.Contains name place := by
  obtain ⟨hpiece, henters, -⟩ := searched_names hname
  rw [holds_iff_entry, Contains, Option.isSome_iff_exists]
  constructor
  · rintro ⟨q, e, hentry⟩
    obtain ⟨rfl, hget⟩ := hw.get?_of_entry hentry
    have hplace : w.placeOf (p.join name) = w.placeOf p ++ [name] := by
      rw [← under_singleton]
      exact w.placeOf_under fun s hs => List.mem_singleton.mp hs ▸ ⟨hpiece, henters⟩
    rw [hplace, ← show place = w.placeOf p from h.way.place_eq] at hget
    exact ⟨e, hget⟩
  · rintro ⟨e, hget⟩
    exact ⟨_, e, h.entry_join hw hname hget⟩

/-- The path above leads to a directory as well: to the same one from a path without names, and else
to the one above, unless the last name is a double dot. -/
theorem Stands.parent (h : w.Stands p place) (habove : p.parent? = some above) :
    ∃ next, w.Stands above next ∧ (p.names = [] → next = place) ∧
      ∀ front s, p.names = front ++ [s] → s ≠ ".." → place = next ++ [s] := by
  obtain ⟨hnames, hstarts, hhead⟩ := Path.parent?_eq_some habove
  have horigin : origin above.text w.here = origin p.text w.here := if_congr hhead rfl rfl
  have hway : Way w.tree (origin p.text w.here) p.names (.present place .directory) := by
    rw [Path.names_eq_filter_steps]
    exact h.way.filter_dots
  have hplace : place = Place.follow (origin p.text w.here) p.names := hway.place_eq
  obtain ⟨next, hfront⟩ : ∃ next,
      Way w.tree (origin p.text w.here) above.names (.present next .directory) := by
    rw [hnames]
    obtain ⟨rest, hrest⟩ := List.dropLast_prefix p.names
    exact Way.exists_front (hrest.symm ▸ hway)
  have hnext : next = Place.follow (origin p.text w.here) above.names := hfront.place_eq
  refine ⟨next, ⟨?_, fun hin => h.nulFree (hstarts.subset hin), ?_⟩, fun hnone => ?_,
    fun front s hlast hdots => ?_⟩
  · rw [Path.names_eq_filter_steps] at hfront
    exact horigin ▸ hfront.of_filter_dots
  · have hroom := h.room
    have hshort := Text.utf8ByteSize_lt_of_starts hstarts (Path.length_parent?_lt habove)
    have hgap : above.gap.utf8ByteSize ≤ 1 := by
      unfold Path.gap
      split <;> decide
    rw [Path.text_join (searched_names (List.mem_cons_self ..)).1, String.utf8ByteSize_append,
      String.utf8ByteSize_append] at hroom ⊢
    omega
  · rw [hplace, hnext, hnames, hnone]
    rfl
  · have hs : s ≠ "." := by
      rintro rfl
      have hin : "." ∈ p.names := hlast ▸ List.mem_append_right _ (List.mem_singleton_self _)
      exact absurd (Path.isIdle_of_mem_names hin) (by decide)
    rw [hplace, hnext, hnames, hlast, List.dropLast_concat, Place.follow_append,
      Place.follow_name hs hdots, Place.follow_nil]

/-- Where neither file is, a search is settled by the text or by a directory above. -/
theorem Settles.onward (h : w.Settles p place) (hconfig : ¬w.Contains Config.fileName place)
    (hmark : ¬w.Contains repositoryMark place) :
    p.Descends ∧ (origin p.text w.here = [] ∨ ∀ q, ¬w.Governs q place) ∨
      ∃ q, q <+: place ∧ q.length < place.length ∧ place.length ≤ q.length + p.depth ∧
        (w.Contains Config.fileName q ∨ w.Contains repositoryMark q) := by
  refine h.imp_right ?_
  rintro ⟨q, hq, hdepth, hsettled⟩
  refine ⟨q, hq, Nat.lt_of_le_of_ne hq.length_le fun hlength => ?_, hdepth, hsettled⟩
  obtain rfl := hq.eq_of_length hlength
  exact hsettled.elim hconfig hmark

/-- A search that has to go on is still settled one step further up, where the same configuration
governs. -/
theorem Settles.parent (h : w.Settles p place) (hstands : w.Stands p place)
    (habove : p.parent? = some above) (hconfig : ¬w.Contains Config.fileName place)
    (hmark : ¬w.Contains repositoryMark place) :
    ∃ next, w.Stands above next ∧ w.Settles above next ∧
      ∀ q, w.Governs q place ↔ w.Governs q next := by
  obtain ⟨hnames, -, hhead⟩ := Path.parent?_eq_some habove
  have horigin : origin above.text w.here = origin p.text w.here := if_congr hhead rfl rfl
  have hdescends : p.Descends → above.Descends :=
    fun hp hin => hp (List.dropLast_subset _ (hnames ▸ hin))
  obtain ⟨next, hnext, hsame, hlast⟩ := hstands.parent habove
  refine ⟨next, hnext, ?_⟩
  rcases List.eq_nil_or_concat p.names with hnone | ⟨front, s, hconcat⟩
  · obtain rfl := hsame hnone
    refine ⟨.inl ?_, fun q => Iff.rfl⟩
    rcases h.onward hconfig hmark with ⟨hp, hroot⟩ | ⟨q, hq, hshort, hdepth, -⟩
    · exact ⟨hdescends hp, hroot.imp_left horigin.trans⟩
    · have hzero : p.depth = 0 := by simp [Path.depth, hnone]
      omega
  rw [List.concat_eq_append] at hconcat
  by_cases hs : s = ".."
  · subst hs
    rcases h.onward hconfig hmark with ⟨hp, -⟩ | ⟨q, hq, hshort, hdepth, -⟩
    · exact absurd (hconcat ▸ List.mem_append_right _ (List.mem_singleton_self _)) hp
    · have hzero : p.depth = 0 := by simp [Path.depth, hconcat]
      omega
  · obtain rfl := hlast front s hconcat hs
    have hgoverns : ∀ q, w.Governs q (next ++ [s]) ↔ w.Governs q next :=
      fun q => governs_concat_iff hconfig hmark
    refine ⟨?_, hgoverns⟩
    rcases h.onward hconfig hmark with ⟨hp, hroot⟩ | ⟨q, hq, hshort, hdepth, hsettled⟩
    · refine .inl ⟨hdescends hp, hroot.imp horigin.trans fun hnone q => ?_⟩
      exact (hgoverns q).not.mp (hnone q)
    · have hdrop : p.names = above.names ++ [s] := by rw [hnames, hconcat, List.dropLast_concat]
      rw [Path.depth_of_names_concat hdrop hs, List.length_append, List.length_singleton] at hdepth
      refine .inr
        ⟨q, (List.prefix_concat_iff.mp hq).resolve_left fun hall => ?_, by omega, hsettled⟩
      rw [hall] at hshort
      exact Nat.lt_irrefl _ hshort

/-- A search that ends with nothing to go up to has nothing left to find. -/
theorem Settles.not_governs (h : w.Settles p place) (hstands : w.Stands p place)
    (habove : p.parent? = none) (hconfig : ¬w.Contains Config.fileName place)
    (hmark : ¬w.Contains repositoryMark place) : ∀ q, ¬w.Governs q place := by
  have hnone := Path.names_of_parent?_eq_none habove
  rcases h.onward hconfig hmark with ⟨-, hroot | hnothing⟩ | ⟨q, hq, hshort, hdepth, -⟩
  · obtain rfl : place = [] := by
      rw [show place = w.placeOf p from hstands.way.place_eq, placeOf_eq_follow, hroot, hnone,
        Place.follow_nil]
    exact fun q => not_governs_root hconfig
  · exact hnothing
  · have hzero : p.depth = 0 := by simp [Path.depth, hnone]
    omega

/-- A search that is settled finds the configuration that governs the directory, or there is
none. -/
theorem Stands.findConfigIn (h : w.Stands p place) (hw : w.Plain) (hsettles : w.Settles p place)
    {fuel : Nat} (hfuel : p.text.length < fuel) :
    match w.findConfigIn (p.upwardWithin fuel) with
    | some path => ∃ q e, w.Governs q place ∧ w.entry path = .ok (q ++ [Config.fileName], e)
    | none => ∀ q, ¬w.Governs q place := by
  induction fuel generalizing p place with
  | zero => exact absurd hfuel (Nat.not_lt_zero _)
  | succ fuel ih =>
    have hfile : Config.fileName ∈ [Config.fileName, repositoryMark] := by simp
    have hrepository : repositoryMark ∈ [Config.fileName, repositoryMark] := by simp
    rw [Path.upwardWithin_succ, Workspace.findConfigIn]
    by_cases hconfig : w.Contains Config.fileName place
    · obtain ⟨e, hget⟩ := Option.isSome_iff_exists.mp hconfig
      rw [if_pos ((h.holds_join_iff hw hfile).mpr hconfig)]
      exact ⟨place, e, (governs_iff_eq hconfig).mpr rfl, h.entry_join hw hfile hget⟩
    rw [if_neg ((h.holds_join_iff hw hfile).not.mpr hconfig)]
    by_cases hmark : w.Contains repositoryMark place
    · rw [if_pos ((h.holds_join_iff hw hrepository).mpr hmark)]
      exact fun q => not_governs_of_mark hconfig hmark
    rw [if_neg ((h.holds_join_iff hw hrepository).not.mpr hmark)]
    cases habove : p.parent? with
    | none => exact hsettles.not_governs h habove hconfig hmark
    | some above =>
      obtain ⟨next, hnext, hstill, hgoverns⟩ := hsettles.parent h habove hconfig hmark
      have hshort := Path.length_parent?_lt habove
      simp only [hgoverns]
      exact ih hnext hstill (by omega)

end Standing

/-- A search finds a configuration in one of its directories. -/
theorem eq_join_of_findConfigIn {w : Workspace} {directories : List Path} {path : Path}
    (h : w.findConfigIn directories = some path) :
    ∃ directory ∈ directories, path = directory.join Config.fileName := by
  induction directories with
  | nil => exact nomatch h
  | cons directory above ih =>
    unfold Workspace.findConfigIn at h
    dsimp only at h
    split at h
    · exact ⟨directory, List.mem_cons_self .., (Option.some.inj h).symm⟩
    · split at h
      · exact nomatch h
      · obtain ⟨found, hfound, hpath⟩ := ih h
        exact ⟨found, List.mem_cons_of_mem _ hfound, hpath⟩

end Workspace

/-- A search from a path to a directory that is settled on its way finds the configuration that
governs the directory: the path it gives is written in a directory that the start's text goes up to,
and leads to the nearest configuration at or above the start, as far as the first repository. It
finds none exactly if there is none. -/
theorem findConfig_governs (w : Workspace) (start : Path) (top : Place) (h : w.Plain)
    (hentry : w.entry start = .ok (top, .directory))
    (hroom : (start.join Config.fileName).text.utf8ByteSize < pathByteLimit)
    (hsettles : w.Settles start top) :
    (∀ path, w.findConfig start = some path →
      (∃ directory ∈ start.upward, path = directory.join Config.fileName) ∧
      ∃ place e, w.Governs place top ∧ w.entry path = .ok (place ++ [Config.fileName], e)) ∧
    (w.findConfig start = none ↔ ∀ place, ¬w.Governs place top) := by
  obtain ⟨htext, hway⟩ := (entry_eq_ok_iff_way h.tree.linkFree).mp hentry
  have hstands : w.Stands start top := ⟨hway, (textFault?_eq_none_iff.mp htext).1, hroom⟩
  have hsearch := hstands.findConfigIn h hsettles (Nat.lt_succ_self _)
  have hfind : w.findConfig start =
      w.findConfigIn (start.upwardWithin (start.text.length + 1)) := rfl
  cases hfound : w.findConfigIn (start.upwardWithin (start.text.length + 1)) with
  | none =>
    rw [hfound] at hsearch
    rw [hfind, hfound]
    exact ⟨nofun, fun _ => hsearch, fun _ => rfl⟩
  | some path =>
    rw [hfound] at hsearch
    rw [hfind, hfound]
    refine ⟨fun path' hpath => ?_, nofun, fun hnone => ?_⟩
    · obtain rfl := Option.some.inj hpath
      exact ⟨eq_join_of_findConfigIn hfound, hsearch⟩
    · obtain ⟨place, e, hgoverns, -⟩ := hsearch
      exact absurd hgoverns (hnone place)

/-- A configuration in a directory that is no repository, and a directory below it. -/
def sharedTree : FileTree :=
  ⟨[(["p"], .directory), (["p", Config.fileName], .file .empty), (["p", "app"], .directory)]⟩

theorem plain_sharedTree : sharedTree.Plain :=
  FileTree.plain_of_entries (by decide +kernel) (by simp [sharedTree]) (by decide +kernel)

/-- The directory below is governed by it. -/
theorem governs_sharedTree (here : Place) : Governs ⟨sharedTree, here⟩ ["p"] ["p", "app"] := by
  have hfile : Contains ⟨sharedTree, here⟩ Config.fileName ["p"] :=
    show (sharedTree.get? ["p", Config.fileName]).isSome = true by decide +kernel
  have hconfig : ¬Contains ⟨sharedTree, here⟩ Config.fileName (["p"] ++ ["app"]) :=
    show ¬(sharedTree.get? ["p", "app", Config.fileName]).isSome = true by decide +kernel
  have hmark : ¬Contains ⟨sharedTree, here⟩ repositoryMark (["p"] ++ ["app"]) :=
    show ¬(sharedTree.get? ["p", "app", repositoryMark]).isSome = true by decide +kernel
  exact (governs_concat_iff hconfig hmark).mpr ((governs_iff_eq hfile).mpr rfl)

/-- A run beside the directory with the configuration. -/
def aboveWorkspace : Workspace := ⟨sharedTree, []⟩

/-- A run in the directory below it. -/
def belowWorkspace : Workspace := ⟨sharedTree, ["p", "app"]⟩

/-- Written from the directory that holds both, the way up meets the configuration. -/
theorem findConfig_governs_aboveWorkspace : ∃ path, aboveWorkspace.findConfig ⟨"p/app"⟩ =
    some path ∧ ∃ place e, aboveWorkspace.Governs place ["p", "app"] ∧
      aboveWorkspace.entry path = .ok (place ++ [Config.fileName], e) := by
  obtain ⟨hfound, hnone⟩ := findConfig_governs aboveWorkspace ⟨"p/app"⟩ ["p", "app"]
    ⟨plain_sharedTree, rfl⟩ (by decide +kernel) (by decide +kernel)
    (.inl ⟨by decide +kernel, .inl rfl⟩)
  cases hfind : aboveWorkspace.findConfig ⟨"p/app"⟩ with
  | none => exact absurd (governs_sharedTree []) (hnone.mp hfind _)
  | some path => exact ⟨path, rfl, (hfound path hfind).2⟩

/-- Written as a dot, the directory below has no way up, and its configuration is not found. Written
with a double dot, the directory above goes up to the one below it, whose configuration is found. -/
theorem findConfig_astray :
    belowWorkspace.Plain ∧
    belowWorkspace.entry ⟨"."⟩ = .ok (["p", "app"], .directory) ∧
    belowWorkspace.Governs ["p"] ["p", "app"] ∧
    belowWorkspace.findConfig ⟨"."⟩ = none ∧
    aboveWorkspace.Plain ∧
    aboveWorkspace.entry ⟨"p/.."⟩ = .ok ([], .directory) ∧
    (∀ place, ¬aboveWorkspace.Governs place []) ∧
    aboveWorkspace.findConfig ⟨"p/.."⟩ = some ⟨"p/.viewbindrc.json"⟩ :=
  ⟨⟨plain_sharedTree, by decide +kernel⟩, by decide +kernel, governs_sharedTree _,
    by decide +kernel, ⟨plain_sharedTree, rfl⟩, by decide +kernel,
    fun _ => not_governs_root (by decide +kernel), by decide +kernel⟩

end ViewBinding
