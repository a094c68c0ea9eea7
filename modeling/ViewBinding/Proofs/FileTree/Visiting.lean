import ViewBinding.FileTree.Walk
import ViewBinding.Proofs.FileTree.Growing
import ViewBinding.Proofs.FileTree.Ways

/-!
# What a walk visits

A path to what lies under another is written as that path and the names, so it is followed the same
way and then by the names, whether or not the first part goes up somewhere. In a plain tree a walk
visits its start and all that lies under it, as far as the paths can be used.
-/

namespace ViewBinding

open Workspace

/-- No name in the tree holds a NUL, as none does on a disk. -/
def FileTree.NulFree (t : FileTree) : Prop := ∀ p ∈ t.entries.keys, ∀ s ∈ p, '\x00' ∉ s.toList

instance (t : FileTree) : Decidable t.NulFree :=
  inferInstanceAs (Decidable (∀ p ∈ t.entries.keys, ∀ s ∈ p, '\x00' ∉ s.toList))

namespace Workspace

section Ways

variable {t : FileTree} {place p : Place} {names more : List String} {e : Entry} {r : Located}

/-- A dot on the way can be left out. -/
theorem Way.drop_dot (h : Way t place (names ++ "." :: more) r) :
    Way t place (names ++ more) r := by
  obtain ⟨q, hfront, hrest⟩ := h.split (List.cons_ne_nil _ _)
  generalize hs : "." = s at hrest
  cases hrest with
  | stay hway => exact hfront.append hway
  | leave _ => exact absurd hs (by decide)
  | enter henters _ _ => exact absurd hs.symm henters.not_dot
  | free henters _ => exact absurd hs.symm henters.not_dot
  | file henters _ => exact absurd hs.symm henters.not_dot

/-- In a plain tree, what is at the end of a way is an entry of the tree. -/
theorem Way.get?_of_plain (ht : t.Plain) (hstart : t.get? place = some .directory)
    (h : Way t place names (.present p e)) : t.get? p = some e := by
  generalize hr : Located.present p e = found at h
  induction h with
  | arrived =>
    cases hr
    exact hstart
  | stay _ ih => exact ih hstart hr
  | leave _ ih => exact ih (ht.get?_dropLast hstart) hr
  | enter _ hentry _ ih => exact ih hentry hr
  | free => exact nomatch hr
  | file _ hentry =>
    cases hr
    exact hentry

end Ways

section Under

variable {start : Path} {names : List String}

/-- A path under another is written as that path and the names between slashes. -/
theorem text_under (hne : names ≠ []) (h : ∀ s ∈ names, Path.IsName s) :
    (under start names).text = start.text ++ start.gap ++ Text.join '/' names :=
  Path.text_foldl_join hne h start

/-- A path under another begins with its text. -/
theorem starts_under (h : ∀ s ∈ names, Path.IsName s) :
    start.text.toList <+: (under start names).text.toList := by
  by_cases hne : names = []
  · rw [hne]
    exact List.prefix_rfl
  · rw [text_under hne h, String.append_assoc, String.toList_append]
    exact List.prefix_append ..

/-- The path above one under another begins its text. -/
theorem starts_under_dropLast (h : ∀ s ∈ names, Path.IsName s) :
    (under start names.dropLast).text.toList <+: (under start names).text.toList := by
  by_cases hne : names = []
  · rw [hne]
    exact List.prefix_rfl
  · have hlast : (under start names.dropLast).text.toList <+:
        (under (under start names.dropLast) [names.getLast hne]).text.toList :=
      starts_under fun s hs => h s (List.mem_singleton.mp hs ▸ List.getLast_mem hne)
    have hjoin : under (under start names.dropLast) [names.getLast hne] = under start names := by
      rw [under, under, ← List.foldl_append, List.dropLast_concat_getLast, ← under]
    rwa [hjoin] at hlast

/-- A path under one that can be used can be used if it is short enough. -/
theorem textFault?_under (htext : textFault? start = none)
    (h : ∀ s ∈ names, Path.IsName s ∧ '\x00' ∉ s.toList)
    (hshort : (under start names).text.utf8ByteSize < pathByteLimit) :
    textFault? (under start names) = none := by
  obtain ⟨hnul, hne, -⟩ := textFault?_eq_none_iff.mp htext
  have hunder : '\x00' ∉ (under start names).text.toList ∧ (under start names).text ≠ "" := by
    clear hshort htext
    induction names generalizing start with
    | nil => exact ⟨hnul, hne⟩
    | cons s names ih =>
      obtain ⟨hs, hfree⟩ := h s (List.mem_cons_self ..)
      have hjoin := Path.text_join hs start
      have hgap : '\x00' ∉ start.gap.toList := by
        unfold Path.gap
        split <;> decide
      refine ih (fun t ht => h t (List.mem_cons_of_mem _ ht)) ?_ ?_
      · rw [hjoin, String.toList_append, String.toList_append, List.mem_append, List.mem_append]
        simp [hnul, hgap, hfree]
      · rw [hjoin]
        exact fun hempty => hs.1 (String.append_eq_empty_iff.mp hempty).2
  exact textFault?_eq_none_iff.mpr ⟨hunder.1, hunder.2, hshort⟩

/-- The place of a path under another is below its place. -/
theorem placeOf_under (w : Workspace) (h : ∀ s ∈ names, Path.IsName s ∧ Enters s) :
    w.placeOf (under start names) = w.placeOf start ++ names := by
  induction names generalizing start with
  | nil => exact (List.append_nil _).symm
  | cons s names ih =>
    obtain ⟨hs, henters⟩ := h s (List.mem_cons_self ..)
    have hhead := Path.head?_ne_of_notMem hs.2
    have horigin : origin (start.join s).text w.here = origin start.text w.here :=
      if_congr (Path.head?_join hhead start) rfl rfl
    have hjoin : w.placeOf (start.join s) = w.placeOf start ++ [s] := by
      rw [placeOf_eq_follow, placeOf_eq_follow, Path.names_join hhead, horigin,
        Path.names_of_isName hs henters.not_dot, Place.follow_append,
        Place.follow_name henters.not_dot henters.not_dots, Place.follow_nil]
    rw [under, List.foldl_cons, ← under, ih fun t ht => h t (List.mem_cons_of_mem _ ht), hjoin,
      List.append_assoc, List.singleton_append]

end Under

section Entries

variable {w : Workspace} {path start : Path} {place p : Place} {names : List String}
  {e found : Entry}

/-- Without links, an entry is found at the end of the way to it. -/
theorem entry_eq_ok_iff_way (hfree : w.tree.LinkFree) {followLast : Bool} :
    w.entry path followLast = .ok (p, e) ↔ textFault? path = none ∧
      Way w.tree (origin path.text w.here) (steps path.text) (.present p e) := by
  have hfollow : ∀ r, followWithin w.tree followLast maxLinks (origin path.text w.here)
      (steps path.text) = .ok r ↔ Way w.tree (origin path.text w.here) (steps path.text) r :=
    fun r => followWithin_eq_ok_iff hfree
  rw [← hfollow]
  unfold entry locate
  cases textFault? path with
  | some fault => simp
  | none =>
    cases followWithin w.tree followLast maxLinks (origin path.text w.here) (steps path.text) with
    | error fault => simp
    | ok r => cases r <;> simp

/-- In a plain workspace, what a path leads to is an entry of the tree at its place. -/
theorem Plain.get?_of_entry (h : w.Plain) (hentry : w.entry path = .ok (p, e)) :
    p = w.placeOf path ∧ w.tree.get? p = some e := by
  obtain ⟨-, hway⟩ := (entry_eq_ok_iff_way h.tree.linkFree).mp hentry
  exact ⟨hway.place_eq, hway.get?_of_plain h.tree (h.get?_origin _)⟩

/-- A path to a file has the file's name. -/
theorem Plain.fileName?_eq (h : w.Plain) {content : Content}
    (hentry : w.entry path = .ok (p, .file content)) : path.fileName? = p.getLast? := by
  obtain ⟨-, hway⟩ := (entry_eq_ok_iff_way h.tree.linkFree).mp hentry
  obtain ⟨front, name, hsteps, hlast, henters⟩ := hway.exists_last rfl
  have hlast : p.getLast? = some name := hlast
  rw [hlast]
  refine Path.fileName?_of_getLast?_names ?_ henters.not_dots
  rw [Path.names_eq_filter_steps, hsteps, List.filter_append,
    List.filter_cons_of_pos (by simpa using henters.not_dot), List.filter_nil, List.getLast?_concat]

/-- From the directory at the end of its way, a path goes on to what lies under it, if it can be
used. -/
theorem Plain.entry_under_of_way (h : w.Plain)
    (hstart : Way w.tree (origin start.text w.here) (steps start.text) (.present place .directory))
    (hnil : names ≠ []) (hget : w.tree.get? (place ++ names) = some e)
    (htext : textFault? (under start names) = none) :
    w.entry (under start names) = .ok (place ++ names, e) := by
  have hnames : ∀ s ∈ names, Path.IsName s ∧ Enters s :=
    fun s hs => h.tree.enters hget s (List.mem_append_right _ hs)
  have hdirectory := h.tree.get?_of_above hget (List.prefix_append place names)
    fun hsame => hnil (List.self_eq_append_right.mp hsame)
  have hdots : ".." ∉ names := fun hin => (hnames _ hin).2.not_dots rfl
  have hfollow : place.follow names = place ++ names :=
    Place.follow_names (fun s hs => ⟨(hnames s hs).2.not_dot, (hnames s hs).2.not_dots⟩) place
  have hdown := way_of_get? h.tree hdots hdirectory (hfollow.symm ▸ hget) (.inr fun hlast =>
    (hnames _ (List.mem_of_getLast? hlast)).2.not_dot rfl)
  rw [hfollow] at hdown
  have hway : Way w.tree (origin start.text w.here) (start.parts ++ names)
      (.present (place ++ names) e) := by
    have hwhole := hstart.append hdown
    unfold steps at hwhole
    dsimp only at hwhole
    split at hwhole
    · rw [List.append_assoc] at hwhole
      exact hwhole.drop_dot
    · exact hwhole
  have hpath : ∀ s ∈ names, Path.IsName s := fun s hs => (hnames s hs).1
  rw [entry_eq_ok_iff_way h.tree.linkFree, text_under hnil hpath, Path.steps_below start hnil hpath,
    Path.origin_below start hnil hpath]
  exact ⟨htext, hway⟩

/-- From where a path leads, the path goes on to what lies under it, if it can be used. -/
theorem Plain.entry_under (h : w.Plain) (hentry : w.entry start = .ok (place, found))
    (hget : w.tree.get? (place ++ names) = some e)
    (htext : textFault? (under start names) = none) :
    w.entry (under start names) = .ok (place ++ names, e) := by
  have hplace := (h.get?_of_entry hentry).2
  by_cases hnil : names = []
  · subst hnil
    rw [List.append_nil] at hget ⊢
    obtain rfl := Option.some.inj (hplace.symm.trans hget)
    exact hentry
  -- Only a directory has something under it.
  have hdirectory := h.tree.get?_of_above hget (List.prefix_append place names)
    fun hsame => hnil (List.self_eq_append_right.mp hsame)
  obtain rfl := Option.some.inj (hplace.symm.trans hdirectory)
  obtain ⟨-, hstart⟩ := (entry_eq_ok_iff_way h.tree.linkFree).mp hentry
  exact h.entry_under_of_way hstart hnil hget htext

end Entries

section Walking

variable {w : Workspace} {start path : Path} {place : Place} {names : List String}

/-- What lies under the start is visited unless it lies in a directory that cannot be read. -/
theorem visited_mem_stopsUnder : .visited path ∈ w.stopsUnder start place names ↔
    path = under start names ∧ isTooLong (under start names.dropLast) = false := by
  unfold stopsUnder
  dsimp only
  cases isTooLong (under start names.dropLast) with
  | true => simp
  | false =>
    rw [if_neg Bool.false_ne_true]
    split <;> simp

/-- A walk from a directory visits it, and all that lies below it and can be reached. -/
theorem visited_mem_walk_of_entry (hfalse : ∃ found, w.entry start false = .ok found)
    (hentry : w.entry start = .ok (place, .directory)) :
    .visited path ∈ w.walk start ↔ path = start ∨ ∃ names, names ≠ [] ∧ path = under start names ∧
      place ++ names ∈ w.tree.entries.keys ∧ isTooLong (under start names.dropLast) = false := by
  obtain ⟨found, hfound⟩ := hfalse
  unfold walk
  rw [hfound, hentry]
  dsimp only
  rw [List.mem_cons, Stop.visited.injEq, List.mem_flatMap]
  refine or_congr_right ⟨?_, ?_⟩
  · rintro ⟨q, hq, hstop⟩
    obtain ⟨hkey, ⟨names, rfl⟩, hne⟩ := FileTree.mem_below.mp hq
    rw [List.drop_left, visited_mem_stopsUnder] at hstop
    exact ⟨names, fun hnil => hne (by rw [hnil, List.append_nil]), hstop.1, hkey, hstop.2⟩
  · rintro ⟨names, hne, hpath, hkey, hshort⟩
    refine ⟨place ++ names, FileTree.mem_below.mpr
      ⟨hkey, List.prefix_append .., fun hsame => hne (List.append_right_eq_self.mp hsame)⟩, ?_⟩
    rw [List.drop_left, visited_mem_stopsUnder]
    exact ⟨hpath, hshort⟩

/-- In a plain workspace a walk visits what has an entry at or under its start and can be
reached. -/
theorem Plain.visited_mem_walk_of_entry (h : w.Plain) {e : Entry}
    (hentry : w.entry start = .ok (place, e)) : .visited path ∈ w.walk start ↔
      ∃ names, path = under start names ∧ (w.tree.get? (place ++ names)).isSome ∧
        (names ≠ [] → isTooLong (under start names.dropLast) = false) := by
  have hfalse : w.entry start false = .ok (place, e) :=
    (entry_eq_ok_iff_way h.tree.linkFree).mpr ((entry_eq_ok_iff_way h.tree.linkFree).mp hentry)
  have hplace := (h.get?_of_entry hentry).2
  have hsome : (w.tree.get? (place ++ [])).isSome := by
    rw [List.append_nil, hplace]
    rfl
  cases e with
  | directory =>
    rw [Workspace.visited_mem_walk_of_entry ⟨_, hfalse⟩ hentry]
    constructor
    · rintro (hpath | ⟨names, -, hpath, hkey, hshort⟩)
      · exact ⟨[], hpath, hsome, fun hne => absurd rfl hne⟩
      · exact ⟨names, hpath, FileTree.isSome_get?.mpr (.inr hkey), fun _ => hshort⟩
    · rintro ⟨names, hpath, hbelow, hshort⟩
      by_cases hnil : names = []
      · subst hnil
        exact .inl hpath
      · have hentry := (FileTree.isSome_get?.mp hbelow).resolve_left (by simp [hnil])
        exact .inr ⟨names, hnil, hpath, hentry, hshort hnil⟩
  | file content =>
    unfold walk
    rw [hfalse, hentry]
    dsimp only
    rw [List.mem_singleton, Stop.visited.injEq]
    refine ⟨fun hpath => ⟨[], hpath, hsome, fun hne => absurd rfl hne⟩, ?_⟩
    rintro ⟨names, hpath, hbelow, -⟩
    by_cases hnil : names = []
    · subst hnil
      exact hpath
    -- Below a file there is nothing.
    obtain ⟨e, he⟩ := Option.isSome_iff_exists.mp hbelow
    have habove := h.tree.get?_of_above he (List.prefix_append _ names)
      fun hsame => hnil (List.self_eq_append_right.mp hsame)
    exact nomatch hplace.symm.trans habove
  | link target => exact absurd hplace (h.tree.linkFree _ target)

/-- In a plain workspace a walk visits something exactly if its start leads to something, and then
what has an entry at or under it and can be reached. -/
theorem Plain.visited_mem_walk_iff (h : w.Plain) : .visited path ∈ w.walk start ↔
    w.holds start = true ∧ ∃ names, path = under start names ∧
      (w.tree.get? (w.placeOf start ++ names)).isSome ∧
      (names ≠ [] → isTooLong (under start names.dropLast) = false) := by
  rw [holds_iff_entry]
  cases hentry : w.entry start with
  | error fault =>
    unfold walk
    rw [hentry]
    cases w.entry start false <;> simp
  | ok found =>
    obtain ⟨place, e⟩ := found
    obtain ⟨rfl, -⟩ := h.get?_of_entry hentry
    rw [h.visited_mem_walk_of_entry hentry]
    exact (and_iff_right ⟨_, _, rfl⟩).symm

end Walking

end Workspace

end ViewBinding
