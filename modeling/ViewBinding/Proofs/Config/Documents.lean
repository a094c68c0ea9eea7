import ViewBinding.Config.Basic
import ViewBinding.Proofs.Json.Writing

/-!
# The format of configurations

A configuration is read back as it was written. Its members may stand in any order, and each of them
may be left out; a setting that is left out has its default.
-/

namespace ViewBinding

open Json Json.Reader

namespace Config

/-- The fields of a configuration. -/
def schema : Schema recordType where
  slots := [
    .defaulted "modelRoot" decodes_text modelRoot (fun v c => { c with modelRoot := v })
      fun _ _ => rfl,
    .defaulted "includes" (decodes_list decodes_text) includes
      (fun v c => { c with includes := v }) fun _ _ => rfl,
    .defaulted "ignores" (decodes_list decodes_text) ignores
      (fun v c => { c with ignores := v }) fun _ _ => rfl,
    .defaulted "outputRoot" decodes_text outputRoot (fun v c => { c with outputRoot := v })
      fun _ _ => rfl,
    .defaulted "strictMarkers" decodes_boolean strictMarkers
      (fun v c => { c with strictMarkers := v }) fun _ _ => rfl]
  fields := rfl
  apart := by simp [Slot.apart_iff, Slot.defaulted, Slot.kept, Slot.key]
  ext r r' h := by
    cases r
    cases r'
    simpa [Slot.defaulted, Slot.kept] using h

/-- The members of a configuration as it is written. -/
def members (c : Config) : List (String × Value) :=
  [("modelRoot", .text c.modelRoot), ("includes", .list (c.includes.map .text)),
    ("ignores", .list (c.ignores.map .text)), ("outputRoot", .text c.outputRoot),
    ("strictMarkers", .boolean c.strictMarkers)]

theorem value_eq (c : Config) : c.value = .object c.members := rfl

/-- The configuration that has only the settings with these keys, and else the defaults. -/
def keeping (c : Config) (keys : List String) : Config where
  modelRoot := if "modelRoot" ∈ keys then c.modelRoot else ({} : Config).modelRoot
  includes := if "includes" ∈ keys then c.includes else ({} : Config).includes
  ignores := if "ignores" ∈ keys then c.ignores else ({} : Config).ignores
  outputRoot := if "outputRoot" ∈ keys then c.outputRoot else ({} : Config).outputRoot
  strictMarkers := if "strictMarkers" ∈ keys then c.strictMarkers else ({} : Config).strictMarkers

theorem list?_map_text (texts : List String) :
    (Value.list (texts.map .text)).list? Value.text? = some texts := by
  unfold Value.list?
  induction texts with
  | nil => rfl
  | cons s texts ih => simp [Value.text?, ih]

theorem writes_members (c : Config) : schema.Writes c.members c where
  keys := rfl
  decodes := by
    simp [schema, members, Slot.defaulted, Slot.kept, Slot.key, list?_map_text, Value.text?,
      Value.boolean?]

theorem numberFree_members (c : Config) : ∀ m ∈ c.members, m.2.NumberFree := by
  have htexts : ∀ texts : List String, (Value.list (texts.map .text)).NumberFree := by
    intro texts
    refine .list fun v hv => ?_
    obtain ⟨s, -, rfl⟩ := List.mem_map.mp hv
    exact .text s
  simp [members, htexts, Value.NumberFree.text, Value.NumberFree.boolean]

/-- Where the members are texts, lists of texts and booleans, a document of them is decoded. -/
theorem domain_of_subset {c : Config} {ms : List (String × Value)} (h : ms ⊆ c.members) :
    schema.Domain (.object ms) := by
  refine ⟨ms, rfl, fun m hm => ⟨.inr ?_, ?_⟩⟩
  · have hkey := (writes_members c).keys ▸ List.mem_map_of_mem (f := Prod.fst) (h hm)
    obtain ⟨s, hs, hkey⟩ := List.mem_map.mp hkey
    exact ⟨s, hs, hkey⟩
  · simp [schema, Slot.defaulted, Slot.kept, Value.ForItems]

end Config

/-- A configuration is read back as it was written. A document with some of its members, in whatever
order and however they are spelled, is read as the configuration that has those settings, and the
defaults for the others; as it is written, such a document spells them. -/
theorem Config.parse_written (c : Config) :
    Config.parse c.document = .ok c ∧
    ∀ ms : List (String × Value), ms ⊆ c.members → (ms.map Prod.fst).Nodup →
      DocumentSpelled (Value.object ms).document (.object ms) ∧
      ∀ document, DocumentSpelled document (.object ms) →
        Config.parse document = .ok (c.keeping (ms.map Prod.fst)) := by
  have hparts : ∀ ms : List (String × Value), ms ⊆ c.members → (ms.map Prod.fst).Nodup →
      DocumentSpelled (Value.object ms).document (.object ms) ∧
      ∀ document, DocumentSpelled document (.object ms) →
        Config.parse document = .ok (c.keeping (ms.map Prod.fst)) := by
    intro ms hms honce
    have hfree : (Value.object ms).NumberFree :=
      .object fun m hm => numberFree_members c m (hms hm)
    refine ⟨hfree.documentSpelled, fun document hdocument => ?_⟩
    have hdescribes : schema.Describes ms (c.keeping (ms.map Prod.fst)) :=
      (writes_members c).describes schema hms honce
        (by simp [schema, Slot.defaulted, Slot.kept])
        (by simp only [schema, List.forall_mem_cons]; exact ⟨rfl, rfl, rfl, rfl, rfl, nofun⟩)
    exact (decode_eq_ok_iff schema.decodes_read hdocument (domain_of_subset hms)).mpr
      (schema.decode?_eq_some_iff.mpr ⟨ms, rfl, hdescribes⟩)
  obtain ⟨hwritten, hread⟩ := hparts c.members (List.Subset.refl _) (by simp [members])
  have hwhole : c.keeping (c.members.map Prod.fst) = c := by
    simp [keeping, members]
  have hdocument : DocumentSpelled c.document (.object c.members) := by
    rw [Config.document, value_eq]
    exact hwritten
  exact ⟨(hread c.document hdocument).trans (by rw [hwhole]), hparts⟩

/-- Settings with quotes, backslashes, a control character and one beyond the basic plane. -/
def escapedConfig : Config where
  modelRoot := "./a \"b\"\\c"
  includes := ["\x01\n", "𝄞"]
  strictMarkers := true

/-- They are read back, and so are two of them in another order. -/
theorem parse_written_escapedConfig :
    Config.parse escapedConfig.document = .ok escapedConfig ∧
    Config.parse (Value.object [("strictMarkers", .boolean true),
      ("includes", .list [.text "\x01\n", .text "𝄞"])]).document =
        .ok { includes := ["\x01\n", "𝄞"], strictMarkers := true } := by
  obtain ⟨hwhole, hparts⟩ := Config.parse_written escapedConfig
  obtain ⟨hwritten, hread⟩ := hparts [("strictMarkers", .boolean true),
    ("includes", .list [.text "\x01\n", .text "𝄞"])]
    (by simp [Config.members, escapedConfig]) (by simp)
  exact ⟨hwhole, hread _ hwritten⟩

end ViewBinding
