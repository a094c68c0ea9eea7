import ViewBinding.FileTree.Change

/-!
# Following paths

A path leads along a trail, which jumps where it meets a symbolic link. In a tree without links it
is followed step by step and never jumps, so where it leads is decided by its names alone. A way
into a file lasts as long as the directories on it do.
-/

namespace ViewBinding

/-- The place that names lead to from a place, by the names alone. -/
def Place.follow (place : Place) (names : List String) : Place :=
  names.foldl (fun p name =>
    if name = "." then p else if name = ".." then p.dropLast else p ++ [name]) place

namespace Place

@[simp] theorem follow_nil (place : Place) : place.follow [] = place := rfl

@[simp] theorem follow_current (place : Place) (names : List String) :
    place.follow ("." :: names) = place.follow names := rfl

@[simp] theorem follow_parent (place : Place) (names : List String) :
    place.follow (".." :: names) = Place.follow place.dropLast names := rfl

/-- A name that is no dot is gone into. -/
theorem follow_name {name : String} (hdot : name ≠ ".") (hdots : name ≠ "..") (place : Place)
    (names : List String) :
    place.follow (name :: names) = Place.follow (place ++ [name]) names := by
  rw [follow, List.foldl_cons, if_neg hdot, if_neg hdots]
  rfl

/-- Names are followed one part after the other. -/
theorem follow_append (place : Place) (names more : List String) :
    place.follow (names ++ more) = Place.follow (place.follow names) more := List.foldl_append

/-- Names that are no dots are gone into one after the other. -/
theorem follow_names {names : List String} (h : ∀ s ∈ names, s ≠ "." ∧ s ≠ "..") (place : Place) :
    place.follow names = place ++ names := by
  induction names generalizing place with
  | nil => exact (List.append_nil place).symm
  | cons name names ih =>
    have hname := h name (List.mem_cons_self ..)
    rw [follow_name hname.1 hname.2, ih fun s hs => h s (List.mem_cons_of_mem _ hs)]
    simp

end Place

/-- There are no symbolic links in the tree. -/
def FileTree.LinkFree (t : FileTree) : Prop := ∀ p target, t.get? p ≠ some (.link target)

/-- A tree is free of links if none is listed. -/
theorem FileTree.linkFree_of_entries {t : FileTree}
    (h : ∀ x ∈ t.entries, ∀ target, x.2 ≠ .link target) : t.LinkFree := by
  intro p target hp
  cases p with
  | nil => exact nomatch hp
  | cons name rest => exact h _ (Table.mem_of_get? hp) target rfl

namespace Located

/-- The place that is found, or where an entry would be put. -/
def place : Located → Place
  | present p _ => p
  | absent directory name => directory ++ [name]

/-- Is a directory found? -/
def isDirectory : Located → Bool
  | present _ .directory => true
  | _ => false

end Located

namespace Workspace

/-- A name that is gone into: it is no dot and not too long. -/
structure Enters (name : String) : Prop where
  not_dot : name ≠ "."
  not_dots : name ≠ ".."
  fits : name.utf8ByteSize ≤ maxNameBytes

/-- A way through a tree without jumps: from a place, by names, to where they lead. -/
inductive Way (t : FileTree) : Place → List String → Located → Prop
  | arrived {place} : Way t place [] (.present place .directory)
  | stay {place names r} : Way t place names r → Way t place ("." :: names) r
  | leave {place : Place} {names r} : Way t place.dropLast names r → Way t place (".." :: names) r
  | enter {place : Place} {name names r} : Enters name →
      t.get? (place ++ [name]) = some .directory → Way t (place ++ [name]) names r →
      Way t place (name :: names) r
  | free {place : Place} {name} : Enters name → t.get? (place ++ [name]) = none →
      Way t place [name] (.absent place name)
  | file {place : Place} {name content} : Enters name →
      t.get? (place ++ [name]) = some (.file content) →
      Way t place [name] (.present (place ++ [name]) (.file content))

/-- A trail through a tree: from a place, by names and over links, to where they lead. Over each
link one link less is left, and it goes on at the target. A link at the end is followed only if
asked. -/
inductive Trail (t : FileTree) (followLast : Bool) : Nat → Place → List String → Located → Prop
  | arrived {links place} : Trail t followLast links place [] (.present place .directory)
  | stay {links place names r} : Trail t followLast links place names r →
      Trail t followLast links place ("." :: names) r
  | leave {links} {place : Place} {names r} : Trail t followLast links place.dropLast names r →
      Trail t followLast links place (".." :: names) r
  | enter {links} {place : Place} {name names r} : Enters name →
      t.get? (place ++ [name]) = some .directory →
      Trail t followLast links (place ++ [name]) names r →
      Trail t followLast links place (name :: names) r
  | free {links} {place : Place} {name} : Enters name → t.get? (place ++ [name]) = none →
      Trail t followLast links place [name] (.absent place name)
  | file {links} {place : Place} {name content} : Enters name →
      t.get? (place ++ [name]) = some (.file content) →
      Trail t followLast links place [name] (.present (place ++ [name]) (.file content))
  | link {links} {place : Place} {name target} : followLast = false → Enters name →
      t.get? (place ++ [name]) = some (.link target) →
      Trail t followLast links place [name] (.present (place ++ [name]) (.link target))
  | jump {links} {place : Place} {name names target r} : (names.isEmpty && !followLast) = false →
      Enters name → t.get? (place ++ [name]) = some (.link target) →
      Trail t followLast links (origin target place) (steps target ++ names) r →
      Trail t followLast (links + 1) place (name :: names) r

section Following

variable {t : FileTree} {followLast : Bool} {links : Nat} {place : Place} {names : List String}
  {r : Located}

/-- How it goes on at the target of a link, with so many links left. -/
def jumpWithin (t : FileTree) (followLast : Bool) :
    Nat → Place → String → List String → Except FileFault Located
  | 0 => fun _ _ _ => .error .tooManyLinks
  | links + 1 => fun place target rest =>
    followWithin t followLast links (origin target place) (steps target ++ rest)

theorem followWithin_eq_follow (t : FileTree) (followLast : Bool) (links : Nat) :
    followWithin t followLast links = follow t followLast (jumpWithin t followLast links) := by
  cases links <;> rfl

/-- What is found by following is at the end of a trail, if the same holds at the target of a
link. -/
theorem trail_of_follow
    (hjump : ∀ place target rest, jumpWithin t followLast links place target rest = .ok r →
      ∃ left, links = left + 1 ∧
        Trail t followLast left (origin target place) (steps target ++ rest) r)
    (h : follow t followLast (jumpWithin t followLast links) place names = .ok r) :
    Trail t followLast links place names r := by
  induction names generalizing place with
  | nil =>
    obtain rfl := Except.ok.inj h
    exact .arrived
  | cons name names ih =>
    unfold follow at h
    by_cases hdot : name = "."
    · rw [if_pos hdot] at h
      exact hdot ▸ .stay (ih h)
    rw [if_neg hdot] at h
    by_cases hdots : name = ".."
    · rw [if_pos hdots] at h
      exact hdots ▸ .leave (ih h)
    rw [if_neg hdots] at h
    by_cases hlong : maxNameBytes < name.utf8ByteSize
    · rw [if_pos hlong] at h
      exact nomatch h
    rw [if_neg hlong] at h
    have henters : Enters name := ⟨hdot, hdots, Nat.le_of_not_lt hlong⟩
    cases hentry : t.get? (place ++ [name]) with
    | none =>
      simp only [hentry] at h
      cases names with
      | nil =>
        obtain rfl := Except.ok.inj h
        exact .free henters hentry
      | cons next names => exact nomatch h
    | some e =>
      cases e with
      | directory =>
        simp only [hentry] at h
        exact .enter henters hentry (ih h)
      | file content =>
        simp only [hentry] at h
        cases names with
        | nil =>
          obtain rfl := Except.ok.inj h
          exact .file henters hentry
        | cons next names => exact nomatch h
      | link target =>
        simp only [hentry] at h
        cases hlast : names.isEmpty && !followLast with
        | false =>
          rw [hlast, if_neg Bool.false_ne_true] at h
          obtain ⟨left, rfl, htrail⟩ := hjump _ _ _ h
          exact .jump hlast henters hentry htrail
        | true =>
          rw [hlast, if_pos rfl] at h
          obtain rfl := Except.ok.inj h
          rw [Bool.and_eq_true, List.isEmpty_iff, Bool.not_eq_true'] at hlast
          obtain ⟨rfl, hask⟩ := hlast
          exact .link hask henters hentry

/-- What is at the end of a trail is found by following. -/
theorem Trail.followWithin_eq (h : Trail t followLast links place names r) :
    followWithin t followLast links place names = .ok r := by
  induction h with
  | arrived =>
    rw [followWithin_eq_follow]
    rfl
  | stay _ ih =>
    rw [followWithin_eq_follow] at ih ⊢
    exact ih
  | leave _ ih =>
    rw [followWithin_eq_follow] at ih ⊢
    exact ih
  | enter henters hentry _ ih =>
    rw [followWithin_eq_follow] at ih ⊢
    simp [follow, henters.not_dot, henters.not_dots, Nat.not_lt.mpr henters.fits, hentry, ih]
  | free henters hentry =>
    rw [followWithin_eq_follow]
    simp [follow, henters.not_dot, henters.not_dots, Nat.not_lt.mpr henters.fits, hentry]
  | file henters hentry =>
    rw [followWithin_eq_follow]
    simp [follow, henters.not_dot, henters.not_dots, Nat.not_lt.mpr henters.fits, hentry]
  | link hlast henters hentry =>
    rw [followWithin_eq_follow]
    simp [follow, henters.not_dot, henters.not_dots, Nat.not_lt.mpr henters.fits, hentry, hlast]
  | jump hlast henters hentry _ ih =>
    rw [followWithin_eq_follow]
    simp [follow, henters.not_dot, henters.not_dots, Nat.not_lt.mpr henters.fits, hentry, hlast,
      jumpWithin, ih]

/-- Following finds what is at the end of the trail. -/
theorem followWithin_eq_ok_iff_trail :
    followWithin t followLast links place names = .ok r ↔
      Trail t followLast links place names r := by
  refine ⟨fun h => ?_, Trail.followWithin_eq⟩
  induction links generalizing place names with
  | zero =>
    rw [followWithin_eq_follow] at h
    exact trail_of_follow (fun _ _ _ hjump => nomatch hjump) h
  | succ links ih =>
    rw [followWithin_eq_follow] at h
    exact trail_of_follow (fun _ _ _ hjump => ⟨links, rfl, ih hjump⟩) h

/-- Without links, following finds what is at the end of the way, however many links it may go. -/
theorem followWithin_eq_ok_iff (hfree : t.LinkFree) :
    followWithin t followLast links place names = .ok r ↔ Way t place names r := by
  rw [followWithin_eq_ok_iff_trail]
  constructor
  · intro h
    induction h with
    | arrived => exact .arrived
    | stay _ ih => exact .stay ih
    | leave _ ih => exact .leave ih
    | enter henters hentry _ ih => exact .enter henters hentry ih
    | free henters hentry => exact .free henters hentry
    | file henters hentry => exact .file henters hentry
    | link _ _ hentry => exact absurd hentry (hfree _ _)
    | jump _ _ hentry => exact absurd hentry (hfree _ _)
  · intro h
    induction h with
    | arrived => exact .arrived
    | stay _ ih => exact .stay ih
    | leave _ ih => exact .leave ih
    | enter henters hentry _ ih => exact .enter henters hentry ih
    | free henters hentry => exact .free henters hentry
    | file henters hentry => exact .file henters hentry

end Following

section Ways

variable {t : FileTree} {place : Place} {names : List String} {r : Located}

/-- A way ends where its names lead. -/
theorem Way.place_eq (h : Way t place names r) : r.place = place.follow names := by
  induction h with
  | arrived => rw [Place.follow_nil, Located.place]
  | stay _ ih => rw [ih, Place.follow_current]
  | leave _ ih => rw [ih, Place.follow_parent]
  | enter henters _ _ ih => rw [ih, Place.follow_name henters.not_dot henters.not_dots]
  | free henters _ =>
    rw [Place.follow_name henters.not_dot henters.not_dots]
    rfl
  | file henters _ =>
    rw [Place.follow_name henters.not_dot henters.not_dots]
    rfl

/-- What is at the end of a way, other than a directory, is in the tree. -/
theorem Way.get?_present {p : Place} {e : Entry} (h : Way t place names (.present p e)) :
    e = .directory ∨ t.get? p = some e := by
  generalize hr : Located.present p e = r at h
  induction h with
  | arrived =>
    cases hr
    exact .inl rfl
  | stay _ ih => exact ih hr
  | leave _ ih => exact ih hr
  | enter _ _ _ ih => exact ih hr
  | free _ _ => exact nomatch hr
  | file _ hentry =>
    cases hr
    exact .inr hentry

/-- Where a way does not find a directory, there is none. -/
theorem Way.get?_ne_directory (h : Way t place names r) (hr : r.isDirectory = false) :
    t.get? r.place ≠ some .directory := by
  induction h with
  | arrived => exact nomatch hr
  | stay _ ih => exact ih hr
  | leave _ ih => exact ih hr
  | enter _ _ _ ih => exact ih hr
  | free _ hentry => exact fun hdirectory => nomatch hentry.symm.trans hdirectory
  | file _ hentry => exact fun hdirectory => nomatch hentry.symm.trans hdirectory

/-- A way that does not end in a directory goes on to a file that is put at its end, as long as the
directories stay. -/
theorem Way.of_keeps {t' : FileTree} (h : Way t place names r) (hr : r.isDirectory = false)
    (hkeep : ∀ p, t.get? p = some .directory → t'.get? p = some .directory) {content : Content}
    (hfile : t'.get? r.place = some (.file content)) :
    Way t' place names (.present r.place (.file content)) := by
  induction h with
  | arrived => exact nomatch hr
  | stay _ ih => exact .stay (ih hr hfile)
  | leave _ ih => exact .leave (ih hr hfile)
  | enter henters hentry _ ih => exact .enter henters (hkeep _ hentry) (ih hr hfile)
  | free henters _ => exact .file henters hfile
  | file henters _ => exact .file henters hfile

end Ways

/-- The place that a path leads to in a workspace, by its names alone. -/
def placeOf (w : Workspace) (path : Path) : Place :=
  (origin path.text w.here).follow (steps path.text)

/-- A path has the same place wherever it begins in the same directory. -/
theorem placeOf_congr {w w' : Workspace} (h : w'.here = w.here) (path : Path) :
    w'.placeOf path = w.placeOf path := by
  rw [placeOf, placeOf, h]

section Paths

variable {w : Workspace} {path : Path}

/-- Without links, what a path leads to is at the end of its way. -/
theorem locate_eq_ok_iff (hfree : w.tree.LinkFree) {r : Located} :
    w.locate path = .ok r ↔
      textFault? path = none ∧ Way w.tree (origin path.text w.here) (steps path.text) r := by
  unfold locate
  cases textFault? path with
  | some fault => simp
  | none => simp [followWithin_eq_ok_iff hfree]

/-- Without links, a content is read at the end of the way. -/
theorem read_eq_ok_iff (hfree : w.tree.LinkFree) {content : Content} :
    w.read path = .ok content ↔
      textFault? path = none ∧ Way w.tree (origin path.text w.here) (steps path.text)
        (.present (w.placeOf path) (.file content)) := by
  constructor
  · intro h
    unfold read entry at h
    cases hlocate : w.locate path with
    | error fault => rw [hlocate] at h; exact nomatch h
    | ok r =>
      rw [hlocate] at h
      cases r with
      | absent directory name => exact nomatch h
      | present p e =>
        cases e with
        | directory => exact nomatch h
        | link target => exact nomatch h
        | file found =>
          obtain rfl := Except.ok.inj h
          obtain ⟨htext, hway⟩ := (locate_eq_ok_iff hfree).mp hlocate
          have hplace : p = w.placeOf path := hway.place_eq
          exact ⟨htext, hplace ▸ hway⟩
  · intro h
    have hlocate := (locate_eq_ok_iff hfree).mpr h
    unfold read entry
    rw [hlocate]

end Paths

end Workspace

end ViewBinding
