import ViewBinding.Proofs.FileTree.Following
import ViewBinding.Proofs.Name.Spelling
import ViewBinding.Source.Disk

/-!
# Paths of artifacts

The file of a dotted name lies below the output directory: its path is written as that of the
directory, a slash if there is none, and the pieces of the name between slashes, the last one with
the extension. So the names to follow are those of the directory and then those of the artifact,
which tell it, and the files of different artifacts are at different places.
-/

namespace ViewBinding

open Text Name

namespace Path

/-- A piece of a path that is a name: not empty, and without a slash. -/
def IsName (s : String) : Prop := s ≠ "" ∧ '/' ∉ s.toList

/-- An identifier is a name in a path. -/
theorem isName_of_isIdentifier {s : String} (h : isIdentifier s = true) : IsName s :=
  ⟨ne_empty_of_isIdentifier h, notMem_of_forall (by decide) (isPart_of_mem_identifier h)⟩

/-- A text that ends with a name does not end with a slash. -/
theorem IsName.getLast?_append_ne {s : String} (h : IsName s) (t : String) :
    (t ++ s).toList.getLast? ≠ some '/' := by
  rw [String.toList_append, List.getLast?_append]
  cases hlast : s.toList.getLast? with
  | none => exact absurd (String.toList_eq_nil_iff.mp (List.getLast?_eq_none_iff.mp hlast)) h.1
  | some c =>
    rintro ⟨rfl⟩
    exact h.2 (List.mem_of_getLast? hlast)

/-- A text without a slash does not begin with one. -/
theorem head?_ne_of_notMem {s : String} (h : '/' ∉ s.toList) : s.toList.head? ≠ some '/' :=
  fun hhead => h (List.mem_of_head? hhead)

/-- What joining writes before a name: a slash, unless there is one, or nothing to go on from. -/
def gap (p : Path) : String :=
  if p.text.isEmpty || p.text.toList.getLast? == some '/' then "" else "/"

/-- Joining writes what is joined after the gap, unless it begins at the root. -/
theorem text_join_of_head? {s : String} (h : s.toList.head? ≠ some '/') (p : Path) :
    (p.join s).text = p.text ++ p.gap ++ s := by
  have hhead : (s.toList.head? == some '/') = false := by simpa using h
  unfold join gap
  rw [hhead]
  cases (p.text.isEmpty || p.text.toList.getLast? == some '/') <;> simp

/-- Joining a name writes it after the gap. -/
theorem text_join {s : String} (h : IsName s) (p : Path) :
    (p.join s).text = p.text ++ p.gap ++ s := text_join_of_head? (head?_ne_of_notMem h.2) p

/-- After a name there is a slash to write. -/
theorem gap_join {s : String} (h : IsName s) (p : Path) : (p.join s).gap = "/" := by
  have hlast := h.getLast?_append_ne (p.text ++ p.gap)
  have hne : p.text ++ p.gap ++ s ≠ "" := by
    intro hempty
    exact h.1 (String.append_eq_empty_iff.mp hempty).2
  rw [gap, text_join h, if_neg]
  simp only [Bool.or_eq_true, String.isEmpty_iff, beq_iff_eq, not_or]
  exact ⟨hne, hlast⟩

/-- What is joined begins as its first piece, if that is a name. -/
theorem head?_join_cons_ne {s : String} (h : IsName s) (pieces : List String) :
    (Text.join '/' (s :: pieces)).toList.head? ≠ some '/' := by
  by_cases hrest : pieces = []
  · rw [hrest, join_singleton]
    exact head?_ne_of_notMem h.2
  · have hchars : s.toList ≠ [] := by simpa using h.1
    obtain ⟨c, cs, hcons⟩ := List.exists_cons_of_ne_nil hchars
    have hc : c ≠ '/' := by
      rintro rfl
      exact h.2 (hcons ▸ List.mem_cons_self ..)
    rw [Text.join_cons '/' s hrest]
    simp [hcons, hc]

/-- Names that are joined do not begin with a slash. -/
theorem head?_join_ne {names : List String} (hne : names ≠ []) (h : ∀ s ∈ names, IsName s) :
    (Text.join '/' names).toList.head? ≠ some '/' := by
  obtain ⟨s, names, rfl⟩ := List.exists_cons_of_ne_nil hne
  exact head?_join_cons_ne (h s (List.mem_cons_self ..)) names

/-- Joining names one after the other writes them with slashes between them. -/
theorem text_foldl_join {names : List String} (hne : names ≠ []) (h : ∀ s ∈ names, IsName s)
    (p : Path) : (names.foldl join p).text = p.text ++ p.gap ++ Text.join '/' names := by
  induction names generalizing p with
  | nil => exact absurd rfl hne
  | cons s names ih =>
    have hs := h s (List.mem_cons_self ..)
    cases names with
    | nil => rw [List.foldl_cons, List.foldl_nil, text_join hs, join_singleton]
    | cons t names =>
      rw [List.foldl_cons, ih (by simp) (fun u hu => h u (List.mem_cons_of_mem _ hu)),
        gap_join hs, text_join hs, Text.join_cons '/' s (by simp)]
      simp [String.append_assoc]

/-- The pieces of a path that ends with a name, and the path with another last piece. -/
theorem exists_pieces {p : Path} {front : List String} {last : String}
    (h : split '/' p.text = front ++ [last]) (hlast : isIdle last = false) :
    ∃ anchor before, p.pieces = ⟨anchor, before ++ [last]⟩ ∧
      ∀ s, (Pieces.path ⟨anchor, before ++ [s]⟩).text = Text.join '/' (front ++ [s]) := by
  have hslash : ∀ rest : List String, rest ≠ [] →
      "/" ++ Text.join '/' rest = Text.join '/' ("" :: rest) := by
    intro rest hrest
    rw [Text.join_cons '/' "" hrest]
    rfl
  unfold pieces
  rw [h]
  cases front with
  | nil =>
    refine ⟨.plain, [], ?_, fun s => rfl⟩
    split
    · rename_i heq
      exact nomatch (List.cons.inj heq).2
    · rename_i heq
      rw [(List.cons.inj heq).1] at hlast
      exact nomatch hlast
    · rfl
  | cons first front =>
    by_cases hroot : first = ""
    · subst hroot
      refine ⟨.root, front, ?_, fun s => hslash _ (by simp)⟩
      cases front <;> rfl
    · by_cases hdot : first = "."
      · subst hdot
        exact ⟨.current, front, rfl, fun s => rfl⟩
      · refine ⟨.plain, first :: front, ?_, fun s => rfl⟩
        split
        · rename_i heq
          exact absurd (List.cons.inj heq).1 hroot
        · rename_i heq
          exact absurd (List.cons.inj heq).1 hdot
        · rfl

/-- Nothing is dropped at the end of pieces that end with a name. -/
theorem trimEnd_concat {pieces : List String} {last : String} (h : isIdle last = false) :
    trimEnd (pieces ++ [last]) = pieces ++ [last] := by
  simp [trimEnd, h]

/-- Adding an extension to a name without a dot writes it at the end. -/
theorem text_withExtension {p : Path} {front : List String} {last : String}
    (h : split '/' p.text = front ++ [last]) (hlast : isIdentifier last = true)
    (extension : String) : (p.withExtension extension).text = p.text ++ "." ++ extension := by
  have hdot : '.' ∉ last.toList := notMem_of_forall (by decide) (isPart_of_mem_identifier hlast)
  have hidle : isIdle last = false := by
    have hne : last ≠ "." := by
      rintro rfl
      exact hdot (by decide)
    simp [isIdle, ne_empty_of_isIdentifier hlast, hne]
  have hparent : last ≠ ".." := by
    rintro rfl
    exact hdot (by decide)
  have hstem : stem last = last := by
    rw [stem, split_of_notMem hdot]
    rfl
  obtain ⟨anchor, before, hpieces, hpath⟩ := exists_pieces h hidle
  have hname : p.fileName? = some last := by
    simp only [fileName?, hpieces, trimEnd_concat hidle, List.getLast?_concat]
    split
    · rename_i heq
      exact absurd (Option.some.inj heq) hparent
    · rfl
  unfold withExtension
  rw [hname]
  simp only [hpieces, trimEnd_concat hidle, List.dropLast_concat, hstem]
  rw [hpath, String.append_assoc, join_concat_append, ← h, join_split, String.append_assoc]

/-- The pieces of a path below a directory are some that name the directory, and then its own. -/
theorem exists_split_below (root : Path) {names : List String} (hne : names ≠ [])
    (h : ∀ s ∈ names, IsName s) :
    ∃ above, split '/' (root.text ++ root.gap ++ Text.join '/' names) = above ++ names ∧
      above.filter (· ≠ "") = (split '/' root.text).filter (· ≠ "") := by
  have hnames : split '/' (Text.join '/' names) = names :=
    split_join hne fun s hs => (h s hs).2
  by_cases hempty : root.text = ""
  · refine ⟨[], ?_, ?_⟩
    · simp [gap, hempty, hnames]
    · rw [hempty]
      rfl
  · by_cases hlast : root.text.toList.getLast? = some '/'
    · obtain ⟨init, hinit⟩ := List.getLast?_eq_some_iff.mp hlast
      have htext : root.text = String.ofList init ++ "/" ++ "" := by
        rw [← String.toList_inj, hinit]
        simp
      have hgap : root.gap = "" := by simp [gap, hlast]
      have hsplit (t : String) : split '/' (String.ofList init ++ "/" ++ t) =
          split '/' (String.ofList init) ++ split '/' t := split_append '/' _ t
      refine ⟨split '/' (String.ofList init), ?_, ?_⟩
      · rw [hgap, htext, String.append_empty, String.append_empty, hsplit, hnames]
      · rw [htext, hsplit, List.filter_append]
        exact (List.append_nil _).symm
    · have hgap : root.gap = "/" := by simp [gap, hempty, hlast]
      refine ⟨split '/' root.text, ?_, rfl⟩
      rw [hgap]
      exact (split_append '/' root.text _).trans (congrArg (split '/' root.text ++ ·) hnames)

section Below

variable (root : Path) {names : List String} (hne : names ≠ []) (h : ∀ s ∈ names, IsName s)

include hne h

/-- The names to follow to a path below a directory are those of the directory and then its own. -/
theorem steps_below : Workspace.steps (root.text ++ root.gap ++ Text.join '/' names) =
    (split '/' root.text).filter (· ≠ "") ++ names := by
  obtain ⟨above, hsplit, habove⟩ := exists_split_below root hne h
  have hlast : (root.text ++ root.gap ++ Text.join '/' names).toList.getLast? ≠ some '/' := by
    have hname := h _ (List.getLast_mem hne)
    rw [← List.dropLast_concat_getLast hne]
    cases names.dropLast with
    | nil =>
      rw [List.nil_append, join_singleton]
      exact hname.getLast?_append_ne _
    | cons s front =>
      rw [join_concat _ (List.cons_ne_nil s front), ← String.append_assoc]
      exact hname.getLast?_append_ne _
  have hkeep : names.filter (· ≠ "") = names := by
    rw [List.filter_eq_self]
    exact fun s hs => by simpa using (h s hs).1
  simp only [Workspace.steps]
  rw [if_neg hlast, hsplit, List.filter_append, habove, hkeep]

/-- The way to a path below a directory begins where that to the directory begins. -/
theorem origin_below (here : Place) :
    Workspace.origin (root.text ++ root.gap ++ Text.join '/' names) here =
      Workspace.origin root.text here := by
  have hhead := head?_join_ne hne h
  unfold Workspace.origin
  cases hroot : root.text.toList with
  | nil =>
    have hempty : root.text = "" := String.toList_eq_nil_iff.mp hroot
    have hgap : root.gap = "" := by simp [gap, hempty]
    rw [hempty, hgap, String.empty_append, String.empty_append, if_neg hhead, if_neg (by simp)]
  | cons c cs => simp [hroot]

end Below

end Path

namespace DiskFiles

/-- The names to follow below the output directory for a dotted name. -/
def namesFor (name : String) : List String :=
  (split '.' name).dropLast ++
    [(split '.' name).getLast (split_ne_nil '.' name) ++ ("." ++ extension)]

/-- The names for a dotted name are names in a path. -/
theorem isName_of_mem_namesFor {name : String} (h : isQualified name = true) :
    ∀ s ∈ namesFor name, Path.IsName s := by
  have hpieces := isQualified_iff_split.mp h
  intro s hs
  rcases List.mem_append.mp hs with hin | hin
  · exact Path.isName_of_isIdentifier (hpieces s (List.dropLast_subset _ hin))
  · obtain rfl := List.mem_singleton.mp hin
    have hlast := Path.isName_of_isIdentifier (hpieces _ (List.getLast_mem (split_ne_nil '.' name)))
    refine ⟨?_, ?_⟩
    · simp [hlast.1]
    · simpa [extension] using hlast.2

/-- The names for a dotted name tell it. -/
theorem namesFor_inj {name other : String} (h : namesFor name = namesFor other) : name = other := by
  obtain ⟨hfront, hlast⟩ := List.append_inj' h rfl
  rw [List.singleton_inj, String.append_left_inj] at hlast
  have hpieces : split '.' name = split '.' other := by
    rw [← List.dropLast_concat_getLast (split_ne_nil '.' name),
      ← List.dropLast_concat_getLast (split_ne_nil '.' other), hfront, hlast]
  rw [← join_split '.' name, hpieces, join_split]

/-- The path of an artifact is written as that of the directory and the names below it. -/
theorem text_pathFor {name : String} (h : isQualified name = true) (root : Path) :
    (pathFor root name).text = root.text ++ root.gap ++ join '/' (namesFor name) := by
  have hne := split_ne_nil '.' name
  have hpieces := isQualified_iff_split.mp h
  have hnames : ∀ s ∈ split '.' name, Path.IsName s :=
    fun s hs => Path.isName_of_isIdentifier (hpieces s hs)
  have hlast := hpieces _ (List.getLast_mem hne)
  have htext := Path.text_foldl_join hne hnames root
  obtain ⟨above, hsplit, -⟩ := Path.exists_split_below root hne hnames
  have hpath : split '/' ((split '.' name).foldl Path.join root).text =
      (above ++ (split '.' name).dropLast) ++ [(split '.' name).getLast hne] := by
    rw [htext, hsplit, List.append_assoc, List.dropLast_concat_getLast hne]
  rw [pathFor, Path.text_withExtension hpath hlast, htext, namesFor, join_concat_append,
    List.dropLast_concat_getLast hne]
  simp [String.append_assoc]

/-- The names to follow to an artifact are those of the directory and then its own. -/
theorem steps_pathFor {name : String} (h : isQualified name = true) (root : Path) :
    Workspace.steps (pathFor root name).text =
      (split '/' root.text).filter (· ≠ "") ++ namesFor name := by
  rw [text_pathFor h]
  exact Path.steps_below root (by simp [namesFor]) (isName_of_mem_namesFor h)

/-- The way to an artifact begins where that to the directory begins. -/
theorem origin_pathFor {name : String} (h : isQualified name = true) (root : Path)
    (here : Place) : Workspace.origin (pathFor root name).text here =
      Workspace.origin root.text here := by
  rw [text_pathFor h]
  exact Path.origin_below root (by simp [namesFor]) (isName_of_mem_namesFor h) here

/-- The names for a dotted name begin like identifiers, and so with no dot. -/
theorem head?_ne_dot_of_mem_namesFor {name : String} (h : isQualified name = true) :
    ∀ s ∈ namesFor name, s.toList.head? ≠ some '.' := by
  have hpieces := isQualified_iff_split.mp h
  have hstart : ∀ s ∈ namesFor name, ∃ c cs, s.toList = c :: cs ∧ isStart c = true := by
    intro s hs
    rcases List.mem_append.mp hs with hin | hin
    · exact exists_cons_of_isIdentifier (hpieces s (List.dropLast_subset _ hin))
    · obtain rfl := List.mem_singleton.mp hin
      obtain ⟨c, cs, hchars, hc⟩ := exists_cons_of_isIdentifier
        (hpieces _ (List.getLast_mem (split_ne_nil '.' name)))
      exact ⟨c, cs ++ ("." ++ extension).toList, by rw [String.toList_append, hchars]; rfl, hc⟩
  intro s hs hhead
  obtain ⟨c, cs, hchars, hc⟩ := hstart s hs
  rw [hchars] at hhead
  obtain rfl := Option.some.inj hhead
  exact absurd hc (by decide)

/-- The names for a dotted name are no dots. -/
theorem ne_dots_of_mem_namesFor {name : String} (h : isQualified name = true) :
    ∀ s ∈ namesFor name, s ≠ "." ∧ s ≠ ".." := by
  intro s hs
  have hhead := head?_ne_dot_of_mem_namesFor h s hs
  constructor
  · rintro rfl
    exact hhead rfl
  · rintro rfl
    exact hhead rfl

/-- The file of an artifact is below the place of the directory, where its names lead. -/
theorem placeOf_pathFor {name : String} (h : isQualified name = true) (root : Path)
    (w : Workspace) : w.placeOf (pathFor root name) =
      Place.follow (Workspace.origin root.text w.here)
        ((split '/' root.text).filter (· ≠ "")) ++ namesFor name := by
  rw [Workspace.placeOf, origin_pathFor h, steps_pathFor h, Place.follow_append,
    Place.follow_names (ne_dots_of_mem_namesFor h)]

/-- Artifacts of different names are at different places. -/
theorem placeOf_pathFor_inj {name other : String} (hname : isQualified name = true)
    (hother : isQualified other = true) {root : Path} {w : Workspace}
    (h : w.placeOf (pathFor root name) = w.placeOf (pathFor root other)) : name = other := by
  rw [placeOf_pathFor hname, placeOf_pathFor hother, List.append_cancel_left_eq] at h
  exact namesFor_inj h

end DiskFiles

end ViewBinding
