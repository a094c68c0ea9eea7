import Mathlib.Data.List.Induction
import ViewBinding.Proofs.Path.Artifacts

/-!
# Names of a path

Besides where it begins, a path says only by which names it goes on: its pieces, without those that
are empty or a dot. Joining adds names, the path above drops the last one, and the place of a path
is where its names lead.
-/

namespace ViewBinding

open Text

namespace Path

/-- The pieces that a path goes on by: those that are neither empty nor a dot. -/
def names (p : Path) : List String := (split '/' p.text).filter (!isIdle ·)

/-- No name of a path is idle. -/
theorem isIdle_of_mem_names {p : Path} {s : String} (h : s ∈ p.names) : isIdle s = false := by
  simpa using (List.mem_filter.mp h).2

/-- Without their idle end, pieces are none, or end with a name. -/
theorem trimEnd_cases (pieces : List String) :
    trimEnd pieces = [] ∧ pieces.filter (!isIdle ·) = [] ∨
      ∃ front last, trimEnd pieces = front ++ [last] ∧ isIdle last = false ∧
        pieces.filter (!isIdle ·) = front.filter (!isIdle ·) ++ [last] ∧
        front ++ [last] <+: pieces := by
  induction pieces using List.reverseRecOn with
  | nil => exact .inl ⟨rfl, rfl⟩
  | append_singleton pieces s ih =>
    cases hs : isIdle s with
    | false =>
      exact .inr ⟨pieces, s, trimEnd_concat hs, hs, by simp [hs], List.prefix_rfl⟩
    | true =>
      have hdrop : trimEnd (pieces ++ [s]) = trimEnd pieces := by simp [trimEnd, hs]
      have hfilter : (pieces ++ [s]).filter (!isIdle ·) = pieces.filter (!isIdle ·) := by simp [hs]
      rw [hdrop, hfilter]
      rcases ih with hnone | ⟨front, last, htrim, hlast, hnames, hstarts⟩
      · exact .inl hnone
      · exact .inr ⟨front, last, htrim, hlast, hnames, hstarts.trans (List.prefix_append ..)⟩

/-- Trimming drops no name. -/
theorem filter_trimEnd (pieces : List String) :
    (trimEnd pieces).filter (!isIdle ·) = pieces.filter (!isIdle ·) := by
  rcases trimEnd_cases pieces with ⟨htrim, hnone⟩ | ⟨front, last, htrim, hlast, hnames, -⟩
  · rw [htrim, hnone]
    rfl
  · rw [htrim, hnames]
    simp [hlast]

/-- Dropping the idle beginning drops no name. -/
theorem filter_dropWhile (pieces : List String) :
    (pieces.dropWhile isIdle).filter (!isIdle ·) = pieces.filter (!isIdle ·) := by
  induction pieces with
  | nil => rfl
  | cons s pieces ih => cases hs : isIdle s <;> simp [hs, ih]

/-- What is left without the idle end is at the beginning. -/
theorem trimEnd_starts (pieces : List String) : trimEnd pieces <+: pieces := by
  rcases trimEnd_cases pieces with ⟨htrim, -⟩ | ⟨front, last, htrim, -, -, hstarts⟩
  · exact htrim ▸ List.nil_prefix
  · exact htrim ▸ hstarts

/-- A prefix of pieces is written at the beginning of their text. -/
theorem join_starts {front pieces : List String} (h : front <+: pieces) :
    (Text.join '/' front).toList <+: (Text.join '/' pieces).toList := by
  obtain ⟨rest, rfl⟩ := h
  induction front with
  | nil => exact List.nil_prefix
  | cons s front ih =>
    cases front with
    | nil =>
      rw [join_singleton, List.singleton_append]
      by_cases hrest : rest = []
      · exact ⟨[], by rw [hrest, join_singleton, List.append_nil]⟩
      · rw [join_cons _ _ hrest, String.toList_append, String.toList_append, List.append_assoc]
        exact List.prefix_append ..
    | cons t front =>
      have hwhole : t :: front ++ rest ≠ [] := by simp
      rw [List.cons_append, join_cons '/' s (List.cons_ne_nil t front), join_cons '/' s hwhole]
      simp only [String.toList_append, List.prefix_append_right_inj]
      exact ih

section Pieces

/-- A slash in front of pieces is written by an empty piece. -/
theorem slash_append_join {pieces : List String} (h : pieces ≠ []) :
    "/" ++ Text.join '/' pieces = Text.join '/' ("" :: pieces) := by
  rw [join_cons _ _ h]
  rfl

/-- A path is its pieces put together. -/
theorem path_pieces (p : Path) : p.pieces.path = p := by
  have hjoin := join_split '/' p.text
  unfold pieces
  split
  · rename_i heq
    rw [heq, ← slash_append_join (by simp)] at hjoin
    exact congrArg Path.mk hjoin
  · rename_i heq
    rw [heq] at hjoin
    exact congrArg Path.mk hjoin
  · exact congrArg Path.mk hjoin

/-- The names of a path are in its body. -/
theorem names_eq (p : Path) : p.names = p.pieces.body.filter (!isIdle ·) := by
  unfold names pieces
  split
  · rename_i heq
    rw [heq]
    rfl
  · rename_i heq
    rw [heq]
    rfl
  · rfl

/-- No piece of a path holds a slash. -/
theorem slash_notMem_of_mem_body {p : Path} {s : String} (h : s ∈ p.pieces.body) :
    '/' ∉ s.toList := by
  refine notMem_of_mem_split (s := p.text) ?_
  revert h
  unfold pieces
  split
  · rename_i heq
    rw [heq]
    exact List.mem_cons_of_mem _
  · rename_i heq
    rw [heq]
    exact List.mem_cons_of_mem _
  · exact id

/-- Pieces that are put together are the names of the path, as far as they are not idle. -/
theorem names_path {ps : Pieces} (h : ∀ s ∈ ps.body, '/' ∉ s.toList) :
    ps.path.names = ps.body.filter (!isIdle ·) := by
  obtain ⟨anchor, body⟩ := ps
  have hplain : (split '/' (Text.join '/' body)).filter (!isIdle ·) = body.filter (!isIdle ·) := by
    by_cases hne : body = []
    · rw [hne]
      rfl
    · rw [split_join hne h]
  cases anchor with
  | plain => exact hplain
  | root =>
    have hslash : split '/' ("/" ++ Text.join '/' body) = [""] ++ split '/' (Text.join '/' body) :=
      split_append '/' "" _
    simp only [names, Pieces.path, hslash, List.filter_append, hplain]
    rfl
  | current =>
    have hdot : split '/' (Text.join '/' ("." :: body)) = "." :: body := by
      refine split_join (by simp) fun s hs => ?_
      rcases List.mem_cons.mp hs with rfl | hs
      · decide
      · exact h s hs
    simp only [names, Pieces.path, hdot]
    rfl

/-- A path of the first pieces is written as a beginning of the path. -/
theorem path_starts {p : Path} {front : List String} (h : front <+: p.pieces.body) :
    (Pieces.path ⟨p.pieces.anchor, front⟩).text.toList <+: p.text.toList := by
  conv_rhs => rw [← p.path_pieces]
  revert h
  generalize p.pieces = ps
  intro h
  obtain ⟨anchor, body⟩ := ps
  cases anchor with
  | plain => exact join_starts h
  | root =>
    simp only [Pieces.path, String.toList_append, List.prefix_append_right_inj]
    exact join_starts h
  | current => exact join_starts (List.cons_prefix_cons.mpr ⟨rfl, h⟩)

/-- A path that does not begin at the root does not begin with a slash. -/
theorem head?_ne_of_anchor {p : Path} (h : p.pieces.anchor ≠ .root) :
    p.text.toList.head? ≠ some '/' := by
  intro hhead
  obtain ⟨rest, hrest⟩ := List.head?_eq_some_iff.mp hhead
  have htext : p.text = "" ++ String.singleton '/' ++ String.ofList rest := by
    rw [← String.toList_inj, hrest]
    simp
  have hsplit : split '/' p.text = "" :: split '/' (String.ofList rest) := by
    conv_lhs => rw [htext]
    exact split_append '/' "" _
  obtain ⟨second, more, hmore⟩ := List.exists_cons_of_ne_nil (split_ne_nil '/' (String.ofList rest))
  rw [hmore] at hsplit
  unfold pieces at h
  rw [hsplit] at h
  exact h rfl

end Pieces

section Above

variable {p above : Path}

/-- What is above a path without names: nothing, unless the path is a dot. -/
theorem parent?_of_trimEnd_nil (h : trimEnd p.pieces.body = []) :
    p.parent? = if p.pieces.anchor = .current then some ⟨""⟩ else none := by
  unfold parent?
  simp only [h]
  cases p.pieces.anchor <;> rfl

/-- What is above a path with names is the path without the last. -/
theorem parent?_of_trimEnd_concat {front : List String} {last : String}
    (h : trimEnd p.pieces.body = front ++ [last]) :
    p.parent? = some (Pieces.path ⟨p.pieces.anchor, trimEnd front⟩) := by
  have hdrop : (front ++ [last]).dropLast = front := List.dropLast_concat
  unfold parent?
  simp only [h]
  cases front <;> cases p.pieces.anchor <;> simp_all

/-- A path with nothing above it has no names. -/
theorem names_of_parent?_eq_none (h : p.parent? = none) : p.names = [] := by
  rcases trimEnd_cases p.pieces.body with ⟨-, hnone⟩ | ⟨front, last, htrim, -, -, -⟩
  · rw [names_eq, hnone]
  · rw [parent?_of_trimEnd_concat htrim] at h
    exact nomatch h

/-- The path above has the names without the last. It is written as a beginning of the path, and
begins at the root if the path does. -/
theorem parent?_eq_some (h : p.parent? = some above) :
    above.names = p.names.dropLast ∧ above.text.toList <+: p.text.toList ∧
      (above.text.toList.head? = some '/' ↔ p.text.toList.head? = some '/') := by
  rw [names_eq p]
  rcases trimEnd_cases p.pieces.body with ⟨htrim, hnone⟩ | ⟨front, last, htrim, hlast, hnames, hin⟩
  · rw [parent?_of_trimEnd_nil htrim] at h
    split at h
    · rename_i hanchor
      obtain rfl := Option.some.inj h
      rw [hnone]
      refine ⟨rfl, List.nil_prefix, nofun, fun hhead => absurd hhead ?_⟩
      exact head?_ne_of_anchor (by rw [hanchor]; decide)
    · exact nomatch h
  · rw [parent?_of_trimEnd_concat htrim] at h
    obtain rfl := Option.some.inj h
    have hshort : trimEnd front <+: p.pieces.body :=
      ((trimEnd_starts front).trans (List.prefix_append ..)).trans hin
    have hslash : ∀ s ∈ trimEnd front, '/' ∉ s.toList :=
      fun s hs => slash_notMem_of_mem_body (hshort.subset hs)
    have hstarts := path_starts hshort
    refine ⟨?_, hstarts, fun hhead => ?_, fun hhead => ?_⟩
    · rw [names_path hslash, filter_trimEnd, hnames, List.dropLast_concat]
    · obtain ⟨rest, hrest⟩ := List.head?_eq_some_iff.mp hhead
      obtain ⟨more, hmore⟩ := hrest ▸ hstarts
      rw [← hmore]
      rfl
    · have hroot : p.pieces.anchor = .root := by
        by_contra hanchor
        exact head?_ne_of_anchor hanchor hhead
      rw [hroot]
      simp [Pieces.path]

/-- The path above is shorter. -/
theorem length_parent?_lt (h : p.parent? = some above) : above.text.length < p.text.length := by
  have hstarts := (parent?_eq_some h).2.1
  refine Nat.lt_of_le_of_ne hstarts.length_le fun hlength => ?_
  have hsame : above = p := congrArg Path.mk (String.toList_inj.mp (hstarts.eq_of_length hlength))
  -- A path that is above itself has no names, and a dot is not empty.
  subst hsame
  rcases trimEnd_cases above.pieces.body with ⟨htrim, -⟩ | ⟨front, last, -, -, hnames, -⟩
  · rw [parent?_of_trimEnd_nil htrim] at h
    split at h
    · rename_i hanchor
      have htext := Option.some.inj h
      rw [← htext] at hanchor
      exact absurd hanchor (by decide)
    · exact nomatch h
  · have hnames' := congrArg List.length (parent?_eq_some h).1
    rw [List.length_dropLast, names_eq, hnames, List.length_append,
      List.length_singleton] at hnames'
    omega

/-- A path whose last component is a name ends with it. -/
theorem getLast?_names_of_fileName? {name : String} (h : p.fileName? = some name) :
    p.names.getLast? = some name ∧ name ≠ ".." := by
  unfold fileName? at h
  split at h
  · exact nomatch h
  · rename_i hdots
    rcases trimEnd_cases p.pieces.body with ⟨htrim, -⟩ | ⟨front, last, htrim, -, hnames, -⟩
    · rw [htrim] at h
      exact nomatch h
    · rw [htrim, List.getLast?_concat] at h
      obtain rfl := Option.some.inj h
      refine ⟨by rw [names_eq, hnames, List.getLast?_concat], ?_⟩
      rintro rfl
      exact hdots (by rw [htrim, List.getLast?_concat])

/-- The last name of a path is its file name, unless it goes up. -/
theorem fileName?_of_getLast?_names {name : String} (h : p.names.getLast? = some name)
    (hdots : name ≠ "..") : p.fileName? = some name := by
  rw [names_eq] at h
  rcases trimEnd_cases p.pieces.body with ⟨-, hnone⟩ | ⟨front, last, htrim, -, hnames, -⟩
  · rw [hnone] at h
    exact nomatch h
  · rw [hnames, List.getLast?_concat] at h
    obtain rfl := Option.some.inj h
    unfold fileName?
    rw [htrim, List.getLast?_concat]
    split
    · rename_i heq
      exact absurd (Option.some.inj heq) hdots
    · rfl

end Above

section Ancestors

/-- The paths above a path, up to the root or the empty path. -/
def ancestors (p : Path) : List Path :=
  match p.parent? with
  | some above => above.upward
  | none => []

/-- The names of a path above another are the first names of that one. -/
theorem names_of_mem_upwardWithin {fuel : Nat} {p above : Path}
    (h : above ∈ p.upwardWithin fuel) : above.names <+: p.names := by
  induction fuel generalizing p with
  | zero => exact nomatch h
  | succ fuel ih =>
    unfold upwardWithin at h
    cases hparent : p.parent? with
    | none =>
      rw [hparent] at h
      obtain rfl := List.mem_singleton.mp h
      exact List.prefix_rfl
    | some next =>
      rw [hparent] at h
      rcases List.mem_cons.mp h with rfl | h
      · exact List.prefix_rfl
      · refine (ih h).trans ?_
        rw [(parent?_eq_some hparent).1]
        exact List.dropLast_prefix _

/-- The names of an ancestor of a path are some of the first names of it, without the last. -/
theorem names_of_mem_ancestors {p above : Path} (h : above ∈ p.ancestors) :
    above.names <+: p.names.dropLast := by
  unfold ancestors at h
  cases hparent : p.parent? with
  | none =>
    rw [hparent] at h
    exact nomatch h
  | some next =>
    rw [hparent] at h
    rw [← (parent?_eq_some hparent).1]
    exact names_of_mem_upwardWithin h

end Ancestors

section Joining

/-- The names on both sides of a slash. -/
theorem names_append_slash (s t : String) :
    names ⟨s ++ "/" ++ t⟩ = names ⟨s⟩ ++ names ⟨t⟩ := by
  have hsplit : split '/' (s ++ "/" ++ t) = split '/' s ++ split '/' t := split_append '/' s t
  rw [names, hsplit, List.filter_append]
  rfl

/-- Going on from a path adds names. -/
theorem names_join {s : String} (h : s.toList.head? ≠ some '/') (p : Path) :
    (p.join s).names = p.names ++ names ⟨s⟩ := by
  have hhead : (s.toList.head? == some '/') = false := by simpa using h
  have hnone : names ⟨""⟩ = [] := by simp [names, split, isIdle]
  unfold join
  rw [hhead]
  by_cases hempty : p.text = ""
  · have hp : p = ⟨""⟩ := congrArg Path.mk hempty
    rw [hp, hnone]
    rfl
  · by_cases hlast : p.text.toList.getLast? = some '/'
    · obtain ⟨init, hinit⟩ := List.getLast?_eq_some_iff.mp hlast
      have htext : p.text = String.ofList init ++ "/" ++ "" := by
        rw [← String.toList_inj, hinit]
        simp
      have hp : p = ⟨String.ofList init ++ "/" ++ ""⟩ := congrArg Path.mk htext
      have hfront : p.names = names ⟨String.ofList init⟩ := by
        rw [hp, names_append_slash, hnone, List.append_nil]
      have hcond : (p.text.isEmpty || p.text.toList.getLast? == some '/') = true := by simp [hlast]
      rw [if_neg Bool.false_ne_true, if_pos hcond, hfront, ← names_append_slash, htext,
        String.append_empty]
    · have hcond : (p.text.isEmpty || p.text.toList.getLast? == some '/') = false := by
        simp [hempty, hlast]
      rw [if_neg Bool.false_ne_true, if_neg (by simp [hcond]), names_append_slash]

/-- A text without a slash is one name, or idle. -/
theorem names_of_notMem {s : String} (h : '/' ∉ s.toList) :
    names ⟨s⟩ = if isIdle s then [] else [s] := by
  rw [names, split_of_notMem h]
  cases hidle : isIdle s <;> simp [hidle]

/-- Going on from a path begins where the path does. -/
theorem head?_join {s : String} (h : s.toList.head? ≠ some '/') (p : Path) :
    (p.join s).text.toList.head? = some '/' ↔ p.text.toList.head? = some '/' := by
  have hhead : (s.toList.head? == some '/') = false := by simpa using h
  unfold join
  rw [hhead, if_neg Bool.false_ne_true]
  by_cases hempty : p.text = ""
  · simp [hempty, h]
  · obtain ⟨first, rest, htext⟩ :=
      List.exists_cons_of_ne_nil (String.toList_eq_nil_iff.not.mpr hempty)
    split <;> simp [htext]

/-- Going on by pieces adds those that are not idle, and begins where the path does. -/
theorem names_foldl_join {pieces : List String} (h : ∀ s ∈ pieces, '/' ∉ s.toList) (p : Path) :
    (pieces.foldl join p).names = p.names ++ pieces.filter (!isIdle ·) ∧
      ((pieces.foldl join p).text.toList.head? = some '/' ↔ p.text.toList.head? = some '/') := by
  induction pieces generalizing p with
  | nil => exact ⟨(List.append_nil _).symm, Iff.rfl⟩
  | cons s pieces ih =>
    have hs := h s (List.mem_cons_self ..)
    have hhead : s.toList.head? ≠ some '/' := fun hhead => hs (List.mem_of_head? hhead)
    obtain ⟨hnames, hbegins⟩ := ih (fun t ht => h t (List.mem_cons_of_mem _ ht)) (p.join s)
    refine ⟨?_, hbegins.trans (head?_join hhead p)⟩
    rw [List.foldl_cons, hnames, names_join hhead, names_of_notMem hs, List.append_assoc]
    cases hidle : isIdle s <;> simp [hidle]

/-- What follows the leading dot of a path has the same names. -/
theorem names_of_afterDot? {p : Path} {s : String} (h : p.afterDot? = some s) :
    names ⟨s⟩ = p.names := by
  have hslash : ∀ piece ∈ trim p.pieces.body, '/' ∉ piece.toList := fun piece hpiece =>
    slash_notMem_of_mem_body
      ((List.dropWhile_sublist _).subset ((trimEnd_starts _).subset hpiece))
  unfold afterDot? at h
  dsimp only at h
  split at h
  · obtain rfl := Option.some.inj h
    have hnames : (Pieces.path ⟨.plain, trim p.pieces.body⟩).names = _ := names_path hslash
    rw [trim, filter_trimEnd, filter_dropWhile, ← names_eq] at hnames
    exact hnames
  · exact nomatch h

end Joining

end Path

namespace Workspace

/-- Idle pieces lead nowhere. -/
theorem follow_filter_idle (place : Place) (pieces : List String) :
    place.follow (pieces.filter (· ≠ "")) = place.follow (pieces.filter (!Path.isIdle ·)) := by
  induction pieces generalizing place with
  | nil => rfl
  | cons s pieces ih =>
    by_cases hempty : s = ""
    · rw [List.filter_cons_of_neg (by simpa using hempty),
        List.filter_cons_of_neg (by simp [Path.isIdle, hempty]), ih]
    · rw [List.filter_cons_of_pos (by simpa using hempty)]
      by_cases hdot : s = "."
      · rw [List.filter_cons_of_neg (by simp [Path.isIdle, hdot]), hdot, Place.follow_current, ih]
      · rw [List.filter_cons_of_pos (by simp [Path.isIdle, hempty, hdot]),
          ← List.singleton_append, Place.follow_append, ih, ← Place.follow_append]
        rfl

/-- The place of a path is where its names lead. -/
theorem placeOf_eq_follow (w : Workspace) (p : Path) :
    w.placeOf p = Place.follow (origin p.text w.here) p.names := by
  have hnames := follow_filter_idle (origin p.text w.here) (split '/' p.text)
  unfold placeOf steps
  by_cases hlast : p.text.toList.getLast? = some '/'
  · simp only [if_pos hlast]
    rw [Place.follow_append, hnames]
    rfl
  · simp only [if_neg hlast]
    exact hnames

/-- A path that goes on from another by names that go up nowhere leads below it. -/
theorem placeOf_eq_append_of_names (w : Workspace) {path next : Path} {more : List String}
    (hnames : next.names = path.names ++ more)
    (hhead : next.text.toList.head? = some '/' ↔ path.text.toList.head? = some '/')
    (hmore : ".." ∉ more) : w.placeOf next = w.placeOf path ++ more := by
  have horigin : origin next.text w.here = origin path.text w.here := if_congr hhead rfl rfl
  rw [placeOf_eq_follow, placeOf_eq_follow, hnames, horigin, Place.follow_append]
  refine Place.follow_names (fun s hs => ⟨?_, fun hdots => hmore (hdots ▸ hs)⟩) _
  rintro rfl
  exact absurd (Path.isIdle_of_mem_names (hnames ▸ List.mem_append_right _ hs)) (by decide)

/-- The place of a path ends with its last name. -/
theorem getLast?_placeOf (w : Workspace) {p : Path} {name : String}
    (h : p.names.getLast? = some name) (hdots : name ≠ "..") :
    (w.placeOf p).getLast? = some name := by
  obtain ⟨front, hfront⟩ := List.getLast?_eq_some_iff.mp h
  have hmem : name ∈ p.names := hfront ▸ List.mem_append_right _ (List.mem_singleton_self name)
  have hdot : name ≠ "." := by
    rintro rfl
    exact absurd (Path.isIdle_of_mem_names hmem) (by decide)
  rw [placeOf_eq_follow, hfront, Place.follow_append, Place.follow_name hdot hdots,
    Place.follow_nil, List.getLast?_concat]

end Workspace

namespace DiskFiles

/-- The file of an artifact is below the place of the output directory. -/
theorem placeOf_pathFor_eq_append {name : String} (h : Name.isQualified name = true) (root : Path)
    (w : Workspace) : w.placeOf (pathFor root name) = w.placeOf root ++ namesFor name := by
  rw [placeOf_pathFor h, Workspace.follow_filter_idle, Workspace.placeOf_eq_follow, Path.names]

end DiskFiles

end ViewBinding
