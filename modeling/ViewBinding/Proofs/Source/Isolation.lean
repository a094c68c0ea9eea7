import Mathlib.Data.List.FinRange
import ViewBinding.Proofs.Source.Emission

/-!
# Isolation of failures

Bindings are emitted to a store in memory by a filer that may fail at each step. Producing one
binding has six exits, of which only the last two put its whole text into the store. From them
follows what a run stores under a name: what was there before, or else what the first binding of
that name leaves there. So the end of each binding depends on its own name, the faults on that
name, and the earlier bindings of the same name, and never on how the others end.
-/

namespace ViewBinding

/-- The name under which a binding is filed, if its package is found. -/
def Round.filedName? (round : Round) (b : Binding) : Option String :=
  (round.packageOf? b.owner).map fun package => (b.source package).qualifiedName

/-- The name by which a report speaks of a binding. -/
def Round.artifact (round : Round) (b : Binding) : String :=
  (round.filedName? b).getD (b.owner.id ++ Source.nameSuffix)

namespace Faults

/-- No step on this name is made to fail. -/
def Spare (faults : Faults) (name : String) : Prop :=
  faults.create.get? name = none ∧ faults.write.get? name = none ∧ faults.flush.get? name = none
deriving Decidable

/-- What is stored under a new name: nothing of the content if writing it fails. -/
def stored (faults : Faults) (name : String) (content : Content) : Content :=
  if (faults.write.get? name).isSome then .empty else content

end Faults

/-- The exits of producing one binding over a store in memory with faults. -/
inductive MemoryExit (round : Round) (faults : Faults) (b : Binding) (m : MemoryFiles) :
    Except EmitFailure String × MemoryFiles → Prop
  | noPackage (hpackage : round.packageOf? b.owner = none) :
    MemoryExit round faults b m
      (.error ⟨b.owner.id ++ Source.nameSuffix, .noPackage b.owner.id⟩, m)
  | createFault {s : Source} {text : String} (hs : round.source b = .ok s)
      (hcreate : faults.create.get? s.qualifiedName = some text) :
    MemoryExit round faults b m
      (.error ⟨s.qualifiedName, .create s.qualifiedName (.injected text)⟩, m)
  | taken {s : Source} (hs : round.source b = .ok s)
      (hcreate : faults.create.get? s.qualifiedName = none)
      (hm : (m.get? s.qualifiedName).isSome) :
    MemoryExit round faults b m
      (.error ⟨s.qualifiedName, .create s.qualifiedName (.alreadyCreated s.qualifiedName)⟩, m)
  | writeFault {s : Source} {text : String} (hs : round.source b = .ok s)
      (hcreate : faults.create.get? s.qualifiedName = none) (hm : m.get? s.qualifiedName = none)
      (hwrite : faults.write.get? s.qualifiedName = some text) :
    MemoryExit round faults b m
      (.error ⟨s.qualifiedName, .write s.qualifiedName (.injected text)⟩,
        ⟨m.files.insert s.qualifiedName .empty⟩)
  | flushFault {s : Source} {text : String} (hs : round.source b = .ok s)
      (hcreate : faults.create.get? s.qualifiedName = none) (hm : m.get? s.qualifiedName = none)
      (hwrite : faults.write.get? s.qualifiedName = none)
      (hflush : faults.flush.get? s.qualifiedName = some text) :
    MemoryExit round faults b m
      (.error ⟨s.qualifiedName, .flush s.qualifiedName (.injected text)⟩,
        ⟨(m.files.insert s.qualifiedName .empty).insert s.qualifiedName (.ofText s.text)⟩)
  | written {s : Source} (hs : round.source b = .ok s) (hspare : faults.Spare s.qualifiedName)
      (hm : m.get? s.qualifiedName = none) :
    MemoryExit round faults b m
      (.ok s.qualifiedName,
        ⟨(m.files.insert s.qualifiedName .empty).insert s.qualifiedName (.ofText s.text)⟩)

/-- Producing one binding ends at one of the exits. -/
theorem memoryExit (round : Round) (faults : Faults) (b : Binding) (m : MemoryFiles) :
    MemoryExit round faults b m
      ((MemoryFiles.filer.withFaults faults).emitOne round b m) := by
  cases hs : round.source b with
  | error fault =>
    cases hp : round.packageOf? b.owner with
    | some package => simp [Round.source, hp] at hs
    | none =>
      have hfault : fault = .noPackage b.owner.id := by simpa [Round.source, hp] using hs.symm
      simpa only [Filer.emitOne, hs, hfault] using MemoryExit.noPackage hp
  | ok s =>
    cases hc : faults.create.get? s.qualifiedName with
    | some text =>
      simpa only [Filer.emitOne, hs, Filer.store, Filer.withFaults, hc] using
        MemoryExit.createFault hs hc
    | none =>
      cases hm : m.get? s.qualifiedName with
      | some content =>
        have htaken : (m.get? s.qualifiedName).isSome := by rw [hm]; rfl
        simpa only [Filer.emitOne, hs, Filer.store, Filer.withFaults, hc, MemoryFiles.filer,
          MemoryFiles.create, if_pos htaken] using MemoryExit.taken hs hc htaken
      | none =>
        have hfree : ¬(m.get? s.qualifiedName).isSome := by rw [hm]; simp
        cases hw : faults.write.get? s.qualifiedName with
        | some text =>
          simpa only [Filer.emitOne, hs, Filer.store, Filer.withFaults, hc, MemoryFiles.filer,
            MemoryFiles.create, if_neg hfree, hw] using MemoryExit.writeFault hs hc hm hw
        | none =>
          cases hf : faults.flush.get? s.qualifiedName with
          | some text =>
            simpa only [Filer.emitOne, hs, Filer.store, Filer.withFaults, hc, MemoryFiles.filer,
              MemoryFiles.create, if_neg hfree, hw, MemoryFiles.write, hf] using
              MemoryExit.flushFault hs hc hm hw hf
          | none =>
            simpa only [Filer.emitOne, hs, Filer.store, Filer.withFaults, hc, MemoryFiles.filer,
              MemoryFiles.create, if_neg hfree, hw, MemoryFiles.write, hf] using
              MemoryExit.written hs ⟨hc, hw, hf⟩ hm

/-- A source is found exactly under the name that its binding is filed under. -/
theorem Round.filedName?_of_source {round : Round} {b : Binding} {s : Source}
    (hs : round.source b = .ok s) : round.filedName? b = some s.qualifiedName := by
  cases hp : round.packageOf? b.owner with
  | none => simp [Round.source, hp] at hs
  | some package =>
    have hb : b.source package = s := by simpa [Round.source, hp] using hs
    rw [Round.filedName?, hp, Option.map_some, hb]

/-- A binding that is filed under a name has a source with that name. -/
theorem Round.source_of_filedName? {round : Round} {b : Binding} {name : String}
    (h : round.filedName? b = some name) :
    ∃ s, round.source b = .ok s ∧ s.qualifiedName = name := by
  obtain ⟨package, hp, hn⟩ := Option.map_eq_some_iff.mp h
  exact ⟨b.source package, by rw [Round.source, hp], hn⟩

/-- What a binding leaves under a name that nothing else has taken. -/
def Round.deposit (round : Round) (faults : Faults) (name : String) (b : Binding) :
    Option Content :=
  match round.source b with
  | .error _ => none
  | .ok s =>
    if s.qualifiedName = name ∧ faults.create.get? name = none then
      some (faults.stored name (.ofText s.text))
    else none

/-- A binding leaves something under its own name only, unless it cannot be created. -/
theorem Round.isSome_deposit {round : Round} {faults : Faults} {name : String} {b : Binding} :
    (round.deposit faults name b).isSome ↔
      round.filedName? b = some name ∧ faults.create.get? name = none := by
  cases hs : round.source b with
  | error fault =>
    have hnone : round.filedName? b ≠ some name := by
      intro h
      obtain ⟨s, hok, -⟩ := Round.source_of_filedName? h
      rw [hs] at hok
      exact nomatch hok
    simp [deposit, hs, hnone]
  | ok s =>
    rw [Round.filedName?_of_source hs, deposit, hs]
    by_cases h : s.qualifiedName = name ∧ faults.create.get? name = none <;> simp [h]

/-- Under its own name a source is stored, as far as it can be written. -/
theorem Round.deposit_self {round : Round} {faults : Faults} {b : Binding} {s : Source}
    (hs : round.source b = .ok s) (hcreate : faults.create.get? s.qualifiedName = none) :
    round.deposit faults s.qualifiedName b =
      some (faults.stored s.qualifiedName (.ofText s.text)) := by
  simp [deposit, hs, hcreate]

/-- Under other names a source leaves nothing. -/
theorem Round.deposit_of_ne {round : Round} {b : Binding} {s : Source} {name : String}
    (hs : round.source b = .ok s) (hne : name ≠ s.qualifiedName) (faults : Faults) :
    round.deposit faults name b = none := by
  simp [deposit, hs, Ne.symm hne]

/-- Creating a free name and writing its whole text leaves what the binding deposits. -/
theorem get?_after_stored {round : Round} {faults : Faults} {b : Binding} {m : MemoryFiles}
    {s : Source} (hs : round.source b = .ok s)
    (hcreate : faults.create.get? s.qualifiedName = none) (hm : m.get? s.qualifiedName = none)
    (hwrite : faults.write.get? s.qualifiedName = none) (name : String) :
    MemoryFiles.get?
        ⟨(m.files.insert s.qualifiedName .empty).insert s.qualifiedName (.ofText s.text)⟩ name =
      (m.get? name).or (round.deposit faults name b) := by
  rw [MemoryFiles.get?_insert_insert]
  by_cases hn : name = s.qualifiedName
  · rw [if_pos hn, hn, hm, Option.none_or, Round.deposit_self hs hcreate, Faults.stored, hwrite]
    rfl
  · rw [if_neg hn, Round.deposit_of_ne hs hn, Option.or_none]

section Step

variable {round : Round} {faults : Faults} {b : Binding} {m : MemoryFiles}
  {after : Except EmitFailure String × MemoryFiles} (h : MemoryExit round faults b m after)

include h

/-- Producing one binding keeps what is stored, and adds what the binding leaves. -/
theorem MemoryExit.get?_after (name : String) :
    after.2.get? name = (m.get? name).or (round.deposit faults name b) := by
  cases h with
  | noPackage hp =>
    have hd : round.deposit faults name b = none := by simp [Round.deposit, Round.source, hp]
    rw [hd, Option.or_none]
  | createFault hs hc =>
    have hd : round.deposit faults name b = none := by
      rw [← Option.not_isSome_iff_eq_none, Round.isSome_deposit, Round.filedName?_of_source hs]
      rintro ⟨hn, hnone⟩
      rw [← Option.some.inj hn, hc] at hnone
      exact nomatch hnone
    rw [hd, Option.or_none]
  | @taken s hs hc hm =>
    by_cases hn : name = s.qualifiedName
    · obtain ⟨content, hcontent⟩ := Option.isSome_iff_exists.mp (hn ▸ hm)
      rw [hcontent, Option.some_or]
    · rw [Round.deposit_of_ne hs hn, Option.or_none]
  | @writeFault s text hs hc hm hw =>
    rw [MemoryFiles.get?_insert]
    by_cases hn : name = s.qualifiedName
    · rw [if_pos hn, hn, hm, Option.none_or, Round.deposit_self hs hc, Faults.stored, hw]
      rfl
    · rw [if_neg hn, Round.deposit_of_ne hs hn, Option.or_none]
  | @flushFault s text hs hc hm hw hf =>
    exact get?_after_stored hs hc hm hw name
  | @written s hs hspare hm =>
    exact get?_after_stored hs hspare.1 hm hspare.2.1 name

/-- A binding is written exactly if its package is found, no step on its name is made to fail and
its name is free. -/
theorem MemoryExit.written_iff {name : String} :
    after.1 = .ok name ↔
      round.filedName? b = some name ∧ faults.Spare name ∧ m.get? name = none := by
  have hnot : ∀ {s : Source}, round.source b = .ok s →
      ¬(faults.Spare s.qualifiedName ∧ m.get? s.qualifiedName = none) →
      ¬(round.filedName? b = some name ∧ faults.Spare name ∧ m.get? name = none) := by
    rintro s hs hbusy ⟨hn, hspare, hfree⟩
    rw [Round.filedName?_of_source hs] at hn
    obtain rfl := Option.some.inj hn
    exact hbusy ⟨hspare, hfree⟩
  cases h with
  | noPackage hp => simp [Round.filedName?, hp]
  | createFault hs hc =>
    exact iff_of_false (by simp) (hnot hs (by simp [Faults.Spare, hc]))
  | taken hs hc hm =>
    have hsome := Option.isSome_iff_ne_none.mp hm
    exact iff_of_false (by simp) (hnot hs fun hfree => hsome hfree.2)
  | writeFault hs hc hm hw =>
    exact iff_of_false (by simp) (hnot hs (by simp [Faults.Spare, hw]))
  | flushFault hs hc hm hw hf =>
    exact iff_of_false (by simp) (hnot hs (by simp [Faults.Spare, hf]))
  | written hs hspare hm =>
    rw [Round.filedName?_of_source hs]
    constructor
    · intro h
      cases h
      exact ⟨rfl, hspare, hm⟩
    · rintro ⟨hn, -, -⟩
      rw [Option.some.inj hn]

/-- The report speaks of a binding by its artifact, whether it was written or failed. -/
theorem MemoryExit.artifact_eq :
    (∀ name, after.1 = .ok name → name = round.artifact b) ∧
      ∀ failure, after.1 = .error failure → failure.artifact = round.artifact b := by
  have hnamed : ∀ s, round.source b = .ok s → round.artifact b = s.qualifiedName := by
    intro s hs
    rw [Round.artifact, Round.filedName?_of_source hs, Option.getD_some]
  cases h with
  | noPackage hp => simp [Round.artifact, Round.filedName?, hp]
  | createFault hs | taken hs | writeFault hs | flushFault hs | written hs =>
    simp [hnamed _ hs]

/-- A binding whose name is taken, or cannot be created, changes nothing. -/
theorem MemoryExit.unchanged
    (hsettled : ∀ name, round.filedName? b = some name → faults.create.get? name = none →
      (m.get? name).isSome) :
    after.2 = m ∧ ∃ failure, after.1 = .error failure := by
  cases h with
  | noPackage hp => exact ⟨rfl, _, rfl⟩
  | createFault hs hc => exact ⟨rfl, _, rfl⟩
  | taken hs hc hm => exact ⟨rfl, _, rfl⟩
  | writeFault hs hc hm =>
    have htaken := hsettled _ (Round.filedName?_of_source hs) hc
    rw [hm] at htaken
    exact nomatch htaken
  | flushFault hs hc hm =>
    have htaken := hsettled _ (Round.filedName?_of_source hs) hc
    rw [hm] at htaken
    exact nomatch htaken
  | written hs hspare hm =>
    have htaken := hsettled _ (Round.filedName?_of_source hs) hspare.1
    rw [hm] at htaken
    exact nomatch htaken

end Step

/-- The binding at this place is the first of its name that finds it free and without faults. -/
def Round.WritesAt (round : Round) (faults : Faults) (m : MemoryFiles) (bs : List Binding)
    (i : Fin bs.length) : Prop :=
  ∃ name ∈ round.filedName? bs[i], faults.Spare name ∧ m.get? name = none ∧
    ∀ j < i, round.filedName? bs[j] ≠ some name
deriving Decidable

section Run

variable (round : Round) (faults : Faults)

/-- A run keeps what is stored, and adds what the first binding of each name leaves. -/
theorem get?_emit_withFaults (bs : List Binding) (m : MemoryFiles) (name : String) :
    ((MemoryFiles.filer.withFaults faults).emit round bs m).2.get? name =
      (m.get? name).or (bs.findSome? (round.deposit faults name)) := by
  induction bs generalizing m with
  | nil => simp
  | cons b bs ih =>
    rw [Filer.emit_cons, ih, (memoryExit round faults b m).get?_after, List.findSome?_cons]
    cases m.get? name <;> cases round.deposit faults name b <;> rfl

/-- A name is still free after a binding exactly if it was free and the binding is of another
name. -/
theorem get?_emitOne_eq_none_iff {b : Binding} {m : MemoryFiles} {name : String}
    (hspare : faults.Spare name) :
    ((MemoryFiles.filer.withFaults faults).emitOne round b m).2.get? name = none ↔
      m.get? name = none ∧ round.filedName? b ≠ some name := by
  have hdeposit : round.deposit faults name b = none ↔ round.filedName? b ≠ some name := by
    rw [← Option.not_isSome_iff_eq_none, Round.isSome_deposit]
    simp [hspare.1]
  rw [(memoryExit round faults b m).get?_after, Option.or_eq_none_iff, hdeposit]

/-- The first binding writes exactly if its name is free and without faults. -/
theorem Round.writesAt_zero (b : Binding) (bs : List Binding) (m : MemoryFiles) :
    round.WritesAt faults m (b :: bs) (0 : Fin (bs.length + 1)) ↔
      ∃ name, ((MemoryFiles.filer.withFaults faults).emitOne round b m).1 = .ok name := by
  have hexit := memoryExit round faults b m
  constructor
  · rintro ⟨name, hname, hspare, hfree, -⟩
    exact ⟨name, hexit.written_iff.mpr ⟨hname, hspare, hfree⟩⟩
  · rintro ⟨name, hok⟩
    obtain ⟨hname, hspare, hfree⟩ := hexit.written_iff.mp hok
    exact ⟨name, hname, hspare, hfree, fun j hj => absurd hj (Fin.not_lt_zero j)⟩

/-- A later binding writes exactly if it does so over what the first binding leaves. -/
theorem Round.writesAt_succ (b : Binding) (bs : List Binding) (m : MemoryFiles)
    (i : Fin bs.length) :
    round.WritesAt faults m (b :: bs) i.succ ↔
      round.WritesAt faults ((MemoryFiles.filer.withFaults faults).emitOne round b m).2 bs i := by
  have hearlier : ∀ name, (∀ j < i.succ, round.filedName? (b :: bs)[j] ≠ some name) ↔
      round.filedName? b ≠ some name ∧ ∀ j < i, round.filedName? bs[j] ≠ some name := by
    intro name
    constructor
    · intro h
      exact ⟨h 0 (Fin.succ_pos i), fun j hj => h j.succ (Fin.succ_lt_succ_iff.mpr hj)⟩
    · rintro ⟨hb, hbs⟩ j hj
      cases j using Fin.cases with
      | zero => exact hb
      | succ j => exact hbs j (Fin.succ_lt_succ_iff.mp hj)
  constructor
  · rintro ⟨name, hname, hspare, hfree, hbefore⟩
    obtain ⟨hb, hbs⟩ := (hearlier name).mp hbefore
    exact ⟨name, hname, hspare, (get?_emitOne_eq_none_iff round faults hspare).mpr ⟨hfree, hb⟩,
      hbs⟩
  · rintro ⟨name, hname, hspare, hfree, hbs⟩
    obtain ⟨hfree, hb⟩ := (get?_emitOne_eq_none_iff round faults hspare).mp hfree
    exact ⟨name, hname, hspare, hfree, (hearlier name).mpr ⟨hb, hbs⟩⟩

/-- Picking places of a longer list is a question about its head, and then about its tail. -/
theorem map_filter_finRange_cons {α β : Type} {x : α} {xs : List α}
    {p : Fin (x :: xs).length → Prop} [DecidablePred p] {q : Fin xs.length → Prop}
    [DecidablePred q] (hq : ∀ i : Fin xs.length, p i.succ ↔ q i) (f : α → β) :
    ((List.finRange (x :: xs).length).filter (p ·)).map (fun i => f (x :: xs)[i]) =
      (if p (0 : Fin (xs.length + 1)) then [f x] else []) ++
        ((List.finRange xs.length).filter (q ·)).map fun i => f xs[i] := by
  have hrange : List.finRange (x :: xs).length = 0 :: (List.finRange xs.length).map Fin.succ :=
    List.finRange_succ
  have hcomp : (fun i => decide (p i)) ∘ Fin.succ = fun i => decide (q i) :=
    funext fun i => decide_eq_decide.mpr (hq i)
  have hrest : (((List.finRange xs.length).map Fin.succ).filter (p ·)).map
      (fun i => f (x :: xs)[i]) =
      ((List.finRange xs.length).filter (q ·)).map fun i => f xs[i] := by
    rw [List.filter_map, List.map_map, hcomp]
    rfl
  rw [hrange, List.filter_cons, ← hrest]
  by_cases h : p (0 : Fin (xs.length + 1))
  · rw [if_pos (decide_eq_true h), if_pos h, List.map_cons]
    rfl
  · rw [if_neg (by simpa using h), if_neg h, List.nil_append]

/-- The report names the bindings that write and those that do not, each in their order. -/
theorem report_emit_withFaults (bs : List Binding) (m : MemoryFiles) :
    ((MemoryFiles.filer.withFaults faults).emit round bs m).1.written =
        ((List.finRange bs.length).filter (round.WritesAt faults m bs ·)).map
          (fun i => round.artifact bs[i]) ∧
      ((MemoryFiles.filer.withFaults faults).emit round bs m).1.failures.map (·.artifact) =
        ((List.finRange bs.length).filter (¬round.WritesAt faults m bs ·)).map
          (fun i => round.artifact bs[i]) := by
  induction bs generalizing m with
  | nil => exact ⟨rfl, rfl⟩
  | cons b bs ih =>
    obtain ⟨hwritten, hfailures⟩ :=
      ih ((MemoryFiles.filer.withFaults faults).emitOne round b m).2
    have hexit := memoryExit round faults b m
    have hzero := round.writesAt_zero faults b bs m
    have hsucc := round.writesAt_succ faults b bs m
    rw [Filer.emit_cons, map_filter_finRange_cons hsucc,
      map_filter_finRange_cons fun i => not_congr (hsucc i), ← hwritten, ← hfailures]
    cases hend : ((MemoryFiles.filer.withFaults faults).emitOne round b m).1 with
    | ok name =>
      have hw := hzero.mpr ⟨name, hend⟩
      have hname := hexit.artifact_eq.1 name hend
      simp [EmitReport.add, hw, hname]
    | error failure =>
      have hw : ¬round.WritesAt faults m (b :: bs) (0 : Fin (bs.length + 1)) := by
        rw [hzero, hend]
        rintro ⟨name, h⟩
        exact nomatch h
      have hname := hexit.artifact_eq.2 failure hend
      simp [EmitReport.add, hw, hname]

/-- Where every name that can be created is taken, a run writes nothing and changes nothing. -/
theorem emit_withFaults_of_settled (bs : List Binding) {m : MemoryFiles}
    (hsettled : ∀ b ∈ bs, ∀ name, round.filedName? b = some name →
      faults.create.get? name = none → (m.get? name).isSome) :
    ((MemoryFiles.filer.withFaults faults).emit round bs m).1.written = [] ∧
      ((MemoryFiles.filer.withFaults faults).emit round bs m).2 = m := by
  induction bs with
  | nil => exact ⟨rfl, rfl⟩
  | cons b bs ih =>
    obtain ⟨hm, failure, hout⟩ :=
      (memoryExit round faults b m).unchanged (hsettled b (List.mem_cons_self ..))
    obtain ⟨hwritten, hstate⟩ := ih fun c hc => hsettled c (List.mem_cons_of_mem _ hc)
    rw [Filer.emit_cons, hm, hout]
    exact ⟨hwritten, hstate⟩

/-- After a run the store has the names it had, and those of bindings that could be created. -/
theorem isSome_get?_emit_withFaults (bs : List Binding) (m : MemoryFiles) (name : String) :
    (((MemoryFiles.filer.withFaults faults).emit round bs m).2.get? name).isSome ↔
      (m.get? name).isSome ∨
        (faults.create.get? name = none ∧ ∃ b ∈ bs, round.filedName? b = some name) := by
  rw [get?_emit_withFaults, Option.isSome_or, Bool.or_eq_true, List.isSome_findSome?]
  simp only [List.any_eq_true, Round.isSome_deposit]
  constructor
  · rintro (h | ⟨b, hb, hname, hcreate⟩)
    · exact .inl h
    · exact .inr ⟨hcreate, b, hb, hname⟩
  · rintro (h | ⟨hcreate, b, hb, hname⟩)
    · exact .inl h
    · exact .inr ⟨b, hb, hname, hcreate⟩

/-- A new name holds what the first binding of that name leaves there. -/
theorem get?_emit_of_first (bs : List Binding) (m : MemoryFiles) (i : Fin bs.length) {s : Source}
    (hs : round.source bs[i] = .ok s) (hcreate : faults.create.get? s.qualifiedName = none)
    (hfree : m.get? s.qualifiedName = none)
    (hfirst : ∀ j < i, round.filedName? bs[j] ≠ some s.qualifiedName) :
    ((MemoryFiles.filer.withFaults faults).emit round bs m).2.get? s.qualifiedName =
      some (faults.stored s.qualifiedName (.ofText s.text)) := by
  rw [get?_emit_withFaults, hfree, Option.none_or, List.findSome?_eq_some_iff]
  refine ⟨bs.take i, bs[i], bs.drop (i + 1), ?_, Round.deposit_self hs hcreate, ?_⟩
  · have hsplit : bs = bs.take i ++ bs.drop i := (List.take_append_drop i.val bs).symm
    rwa [List.drop_eq_getElem_cons i.isLt] at hsplit
  · intro b hb
    obtain ⟨j, hj, rfl⟩ := List.mem_take_iff_getElem.mp hb
    have hji : j < i.val := by omega
    rw [← Option.not_isSome_iff_eq_none, Round.isSome_deposit]
    exact fun h => hfirst ⟨j, by omega⟩ hji h.1

end Run

/-- Emission to memory isolates failures. The bindings that write are those whose package is found,
whose name has no fault and was free, and that come first of their name; the report lists them and
the others in order. The store keeps what it had and gains the names that could be created, each
with the text of its first binding or, if that could not be written, nothing. A second run over the
same store writes nothing and changes nothing. -/
theorem emit_withFaults_isolated (round : Round) (faults : Faults) (bs : List Binding)
    (m : MemoryFiles) :
    let run := (MemoryFiles.filer.withFaults faults).emit round bs
    let after := (run m).2
    (run m).1.written =
      ((List.finRange bs.length).filter (round.WritesAt faults m bs ·)).map
        (fun i => round.artifact bs[i]) ∧
    (run m).1.failures.map (·.artifact) =
      ((List.finRange bs.length).filter (¬round.WritesAt faults m bs ·)).map
        (fun i => round.artifact bs[i]) ∧
    (∀ name, (after.get? name).isSome ↔ (m.get? name).isSome ∨
      (faults.create.get? name = none ∧ ∃ b ∈ bs, round.filedName? b = some name)) ∧
    (∀ name content, m.get? name = some content → after.get? name = some content) ∧
    (∀ (i : Fin bs.length) (s : Source), round.source bs[i] = .ok s →
      faults.create.get? s.qualifiedName = none → m.get? s.qualifiedName = none →
      (∀ j < i, round.filedName? bs[j] ≠ some s.qualifiedName) →
      after.get? s.qualifiedName =
        some (faults.stored s.qualifiedName (.ofText s.text))) ∧
    (run after).1.written = [] ∧ (run after).2 = after := by
  intro run after
  obtain ⟨hwritten, hfailures⟩ := report_emit_withFaults round faults bs m
  have hnames := isSome_get?_emit_withFaults round faults bs m
  refine ⟨hwritten, hfailures, hnames, ?_, ?_, ?_⟩
  · intro name content h
    exact (get?_emit_withFaults round faults bs m name).trans (by rw [h, Option.some_or])
  · exact fun i s hs hcreate hfree hfirst =>
      get?_emit_of_first round faults bs m i hs hcreate hfree hfirst
  · exact emit_withFaults_of_settled round faults bs fun b hb name hname hcreate =>
      (hnames name).mpr (.inr ⟨hcreate, b, hb, hname⟩)

end ViewBinding
