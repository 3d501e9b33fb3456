import WebOfThings.Proofs.Description.Bindings
import WebOfThings.Proofs.Description.Thing
import WebOfThings.Proofs.Description.Writable

/-!
# The members of an export

A description that was read is exported with the members that it was read from: the unknown ones as they
were, the known ones unless they are `null` or, where they hold a collection, empty. Besides these there is
only the vocabulary, which is always written.

On one side stands what each reader makes of `null` and of an empty collection
(`isSome_iff_of_optionalValue?`, `ne_nil_iff_of_defaultValue?`), on the other the list of the known fields
as they are written (`members_eq_known`). `knownExported_of_fieldsRead` joins them, field by field; main
statement: `exportedFrom_of_ofJson`.

What is exported is told by names and by values. The names are those that `IsExported` admits, no member
stands twice, and the unknown members have the values that they had. The converse holds as well: a member of
the original is missing from the export only if it says nothing, which is the exact meaning of a member that
is `null` or empty.
-/

namespace WebOfThings

namespace Json

variable {α : Type}

/-! ## What readers make of `null` and of empty collections -/

/-- An array without items or an object without members. -/
def IsEmpty : Json → Prop
  | .arr items => items = []
  | .obj members => members = []
  | _ => False

/-- The names of the members of an object. -/
def memberNames : Json → List String
  | .obj members => Dict.keys members
  | _ => []

/-- An optional field has been given if it was there and not `null`. -/
theorem isSome_iff_of_optionalValue? {read : Json → Option α} {v? : Option Json} {x : Option α}
    (h : optionalValue? read v? = some x) : x.isSome = true ↔ ∃ v, v? = some v ∧ v ≠ .null := by
  cases x with
  | some y =>
    obtain ⟨v, hv, hnull, -⟩ := exists_of_optionalValue? h
    exact iff_of_true rfl ⟨v, hv, hnull⟩
  | none =>
    refine iff_of_false nofun ?_
    intro ⟨v, hv, hnull⟩
    subst hv
    unfold optionalValue? at h
    split at h
    · next hv => cases hv
    · next hv => exact hnull (Option.some.inj hv)
    · simp at h

/-- Readers of collections do not read `null`, and read nothing from what is empty only. -/
structure ReadsCollection (read : Json → Option (List α)) : Prop where
  read_null : read .null = none
  nil_iff : ∀ {v xs}, read v = some xs → (xs = [] ↔ v.IsEmpty)

theorem eq_nil_iff_of_mapM {γ : Type} {f : γ → Option α} {items : List γ} {xs : List α}
    (h : items.mapM f = some xs) : xs = [] ↔ items = [] := by
  rw [← List.length_eq_zero_iff, ← (forall₂_of_mapM h).length_eq, List.length_eq_zero_iff]

/-- A list is read as empty just if it is. -/
theorem readsCollection_asList? (read : Json → Option α) : ReadsCollection (asList? read) where
  read_null := rfl
  nil_iff {v xs} h := by
    cases v with
    | arr items => exact eq_nil_iff_of_mapM h
    | _ => cases h

/-- A dictionary is read as empty just if it is. -/
theorem readsCollection_asDict? (read : Json → Option α) : ReadsCollection (asDict? read) where
  read_null := rfl
  nil_iff {v xs} h := by
    cases v with
    | obj members => exact eq_nil_iff_of_mapM h
    | _ => cases h

/-- A bare text is one element. -/
theorem readsCollection_strings : ReadsCollection (oneOrMany? asString?) where
  read_null := rfl
  nil_iff {v xs} h := by
    cases v with
    | arr items => exact eq_nil_iff_of_mapM h
    | str s =>
      cases h
      exact iff_of_false (List.cons_ne_nil _ _) id
    | _ => cases h

/-- A collection has elements if it was there and not empty. -/
theorem ne_nil_iff_of_defaultValue? {read : Json → Option (List α)} (hread : ReadsCollection read)
    {v? : Option Json} {xs : List α} (h : defaultValue? read [] v? = some xs) :
    xs ≠ [] ↔ ∃ v, v? = some v ∧ v ≠ .null ∧ ¬ v.IsEmpty := by
  cases v? with
  | none =>
    cases h
    exact iff_of_false (fun hne => hne rfl) nofun
  | some v =>
    have hv : read v = some xs := h
    have hnull : v ≠ .null := by
      intro hnull
      rw [hnull, hread.read_null] at hv
      cases hv
    rw [ne_eq, hread.nil_iff hv]
    simp [hnull]

theorem listField_eq_field (key : String) (write : List α → Json) (xs : List α) :
    listField key write xs = field key (listValue? write xs) := by
  cases xs <;> rfl

theorem isSome_listValue? (write : List α → Json) (xs : List α) :
    (listValue? write xs).isSome = true ↔ xs ≠ [] := by
  cases xs <;> simp [listValue?]

theorem mem_keys_field {k : String} {v : Option Json} {key : String} :
    key ∈ Dict.keys (field k v) ↔ k = key ∧ v.isSome = true := by
  cases v <;> simp [field, Dict.keys, eq_comm]

end Json

namespace Thing

open Json

/-! ## The known fields -/

/-- The names of the known members that hold a collection. -/
def collectionNames : List String :=
  ["properties", "actions", "events", "links", "forms", "security", "securityDefinitions", "uriVariables"]

/-- The known fields, with what is written under their names, if anything is. -/
def known (t : Thing) : List (String × Option Json) :=
  [("@context", some t.context.toJson),
   ("id", some (.str t.id)),
   ("@type", t.labels.types.map (oneOrMany .str)),
   ("title", t.labels.title.map .str),
   ("titles", t.labels.titles.map (ofDict .str)),
   ("description", t.labels.description.map .str),
   ("descriptions", t.labels.descriptions.map (ofDict .str)),
   ("version", t.version.map VersionInfo.toJson),
   ("created", t.created.map fun c => .str c.toString),
   ("modified", t.modified.map fun m => .str m.toString),
   ("support", t.support.map .str),
   ("base", t.base.map .str),
   ("properties", listValue? (ofDict PropertyAffordance.toJson) t.properties),
   ("actions", listValue? (ofDict ActionAffordance.toJson) t.actions),
   ("events", listValue? (ofDict EventAffordance.toJson) t.events),
   ("links", listValue? (fun links => .arr (links.map Link.toJson)) t.links),
   ("forms", listValue? (fun forms => .arr (forms.map Form.toJson)) t.forms),
   ("security", listValue? (oneOrMany .str) t.security),
   ("securityDefinitions", listValue? (ofDict SecurityScheme.toJson) t.securityDefinitions),
   ("uriVariables", listValue? (ofDict DataSchema.toJson) t.uriVariables)]

theorem names_known (t : Thing) : t.known.map Prod.fst = fieldNames := rfl

/-- A description writes its known fields, and after them the unknown members. -/
theorem members_eq_known (t : Thing) :
    t.members = (t.known.flatMap fun f => field f.1 f.2) ++ t.metadata := by
  simp [members, Labels.members, known, listField_eq_field, field]

/-- The members of a description are the known ones that have a value, and its metadata. -/
theorem mem_keys_members_iff {t : Thing} {key : String} :
    key ∈ Dict.keys t.members ↔
      (∃ f ∈ t.known, f.1 = key ∧ f.2.isSome = true) ∨ key ∈ Dict.keys t.metadata := by
  rw [members_eq_known, Dict.keys, List.map_append, List.mem_append, List.map_flatMap, List.mem_flatMap]
  exact or_congr_left (exists_congr fun f => and_congr_right fun _ => mem_keys_field)

/-! ## What is exported of what was read -/

/-- A member that the export of a description has: one that is not known, or one that says something. -/
def IsExported (key : String) (v : Json) : Prop :=
  key ∈ fieldNames → v ≠ .null ∧ (key ∈ collectionNames → ¬ v.IsEmpty)

/-- A known field is exported if it says something; the vocabulary and the identifier always are. -/
def KnownExported (m : List (String × Json)) (f : String × Option Json) : Prop :=
  f.2.isSome = true ↔ f.1 = "@context" ∨ f.1 = "id" ∨ ∃ v, Dict.get? f.1 m = some v ∧ IsExported f.1 v

variable {α : Type} {m : List (String × Json)}

/-- An optional member is written where one was read. -/
theorem knownExported_optional {key : String} (hplain : key ∈ fieldNames ∧ key ∉ collectionNames)
    (hown : key ≠ "@context" ∧ key ≠ "id") {read : Json → Option α} {x : Option α}
    (h : optionalValue? read (Dict.get? key m) = some x) (write : α → Json) :
    KnownExported m (key, x.map write) := by
  simp [KnownExported, IsExported, isSome_iff_of_optionalValue? h, hplain, hown]

/-- A collection is written where one was read that is not empty. -/
theorem knownExported_collection {key : String} (hkey : key ∈ fieldNames ∧ key ∈ collectionNames)
    (hown : key ≠ "@context" ∧ key ≠ "id") {read : Json → Option (List α)} (hread : ReadsCollection read)
    {xs : List α} (h : defaultValue? read [] (Dict.get? key m) = some xs) (write : List α → Json) :
    KnownExported m (key, listValue? write xs) := by
  simp [KnownExported, IsExported, isSome_listValue?, ne_nil_iff_of_defaultValue? hread h, hkey, hown]

/-- Labels are written where they were read. -/
theorem knownExported_labels {l : Labels} (h : Labels.ofMembers? m = some l) :
    KnownExported m ("@type", l.types.map (oneOrMany .str)) ∧
      KnownExported m ("title", l.title.map .str) ∧
      KnownExported m ("titles", l.titles.map (ofDict .str)) ∧
      KnownExported m ("description", l.description.map .str) ∧
      KnownExported m ("descriptions", l.descriptions.map (ofDict .str)) := by
  simp only [Labels.ofMembers?, optional?_eq, Option.bind_eq_bind, Option.bind_eq_some_iff] at h
  obtain ⟨types, htypes, title, htitle, titles, htitles, description, hdescription, descriptions,
    hdescriptions, h⟩ := h
  cases h
  exact ⟨knownExported_optional (by decide) (by decide) htypes _,
    knownExported_optional (by decide) (by decide) htitle _,
    knownExported_optional (by decide) (by decide) htitles _,
    knownExported_optional (by decide) (by decide) hdescription _,
    knownExported_optional (by decide) (by decide) hdescriptions _⟩

/-- Every known field is exported exactly if it says something. -/
theorem knownExported_of_fieldsRead {c : Context} {t : Thing} (h : FieldsRead c m t) :
    ∀ f ∈ t.known, KnownExported m f := by
  obtain ⟨htypes, htitle, htitles, hdescription, hdescriptions⟩ := knownExported_labels h.labels
  -- The vocabulary and the identifier, the optional fields, and the collections.
  simp only [known, List.forall_mem_cons]
  refine ⟨by simp [KnownExported], by simp [KnownExported], htypes, htitle, htitles, hdescription,
    hdescriptions,
    knownExported_optional (by decide) (by decide) h.version _,
    knownExported_optional (by decide) (by decide) h.created _,
    knownExported_optional (by decide) (by decide) h.modified _,
    knownExported_optional (by decide) (by decide) h.support _,
    knownExported_optional (by decide) (by decide) h.base _,
    knownExported_collection (by decide) (by decide) (readsCollection_asDict? _) h.properties _,
    knownExported_collection (by decide) (by decide) (readsCollection_asDict? _) h.actions _,
    knownExported_collection (by decide) (by decide) (readsCollection_asDict? _) h.events _,
    knownExported_collection (by decide) (by decide) (readsCollection_asList? _) h.links _,
    knownExported_collection (by decide) (by decide) (readsCollection_asList? _) h.forms _,
    knownExported_collection (by decide) (by decide) readsCollection_strings h.security _,
    knownExported_collection (by decide) (by decide) (readsCollection_asDict? _) h.securityDefinitions _,
    knownExported_collection (by decide) (by decide) (readsCollection_asDict? _) h.uriVariables _,
    List.forall_mem_nil _⟩

/-- What an export has of the value that the description was read from. -/
structure ExportedFrom (v : Json) (t : Thing) : Prop where
  /-- The vocabulary, the identifier, the members that are not known and the known ones that say something. -/
  memberNames : ∀ key, key ∈ t.toJson.memberNames ↔
    key = "@context" ∨ key = "id" ∨ ∃ w, Json.get? key v = some w ∧ IsExported key w
  /-- What is not known is as it was. -/
  unknown : ∀ key, key ∉ fieldNames → Json.get? key t.toJson = Json.get? key v
  /-- No member is written twice, in the text of the description neither. -/
  once : t.toJson.memberNames.Nodup ∧ (Dict.keys t.members).Perm t.toJson.memberNames

/-- The unknown members are those with other names than the fields. -/
theorem mem_keys_unknownMembers_iff {key : String} :
    key ∈ Dict.keys (unknownMembers m) ↔ key ∉ fieldNames ∧ key ∈ Dict.keys m := by
  simp only [unknownMembers, Dict.keys, List.mem_map, List.mem_filter]
  constructor
  · intro h
    obtain ⟨e, ⟨he, hunknown⟩, rfl⟩ := h
    exact ⟨by simpa using hunknown, e, he, rfl⟩
  · intro h
    obtain ⟨hunknown, e, he, rfl⟩ := h
    exact ⟨e, ⟨he, by simpa using hunknown⟩, rfl⟩

theorem mem_memberNames_toJson {t : Thing} {key : String} :
    key ∈ t.toJson.memberNames ↔ key ∈ Dict.keys t.members :=
  Dict.mem_keys_ofList

/-- The names of the members that an export has. -/
theorem mem_memberNames_iff {c : Context} {t : Thing} (h : FieldsRead c m t) (key : String) :
    key ∈ t.toJson.memberNames ↔
      key = "@context" ∨ key = "id" ∨ ∃ w, Dict.get? key m = some w ∧ IsExported key w := by
  have hknown : ∀ f ∈ t.known, (f.2.isSome = true ↔
      f.1 = "@context" ∨ f.1 = "id" ∨ ∃ w, Dict.get? f.1 m = some w ∧ IsExported f.1 w) :=
    knownExported_of_fieldsRead h
  rw [mem_memberNames_toJson, mem_keys_members_iff, h.metadata, mem_keys_unknownMembers_iff]
  by_cases hkey : key ∈ fieldNames
  · -- A known name is that of one of the known fields.
    obtain ⟨f, hf, rfl⟩ := List.mem_map.1 (t.names_known ▸ hkey)
    rw [← hknown f hf]
    constructor
    · rintro (⟨g, hg, hfg, hsome⟩ | ⟨hunknown, -⟩)
      · rw [hknown f hf, ← hfg]
        exact (hknown g hg).1 hsome
      · exact absurd hkey hunknown
    · exact fun hsome => .inl ⟨f, hf, rfl, hsome⟩
  · have hnone : ¬ ∃ f ∈ t.known, f.1 = key ∧ f.2.isSome = true := by
      intro ⟨f, hf, hfkey, _⟩
      exact hkey (hfkey ▸ t.names_known ▸ List.mem_map_of_mem hf)
    have hne : key ≠ "@context" ∧ key ≠ "id" := by
      constructor <;> intro h <;> subst h <;> exact hkey (by decide)
    have hget : key ∈ Dict.keys m ↔ ∃ w, Dict.get? key m = some w := by
      rw [← not_iff_not, ← Dict.get?_eq_none_iff, ← Option.isSome_iff_exists, Option.not_isSome_iff_eq_none]
    simp [hnone, hkey, hne, hget, IsExported]

/-- A description that was read is exported with the members that it was read from, but for those that say
nothing. -/
theorem exportedFrom_of_ofJson {v : Json} {t : Thing} (h : ofJson v.normal = .ok t) :
    ExportedFrom v.normal t := by
  have ht : t.WellFormed := wellFormed_of_ofJson v.isNormal_normal h
  obtain ⟨m, c, hm, -, hread⟩ := exists_of_ofJson h
  rw [hm]
  have honce : t.toJson.memberNames.Nodup := (Dict.sorted_ofList t.members).nodup_keys
  refine ⟨mem_memberNames_iff hread, fun key hkey => ?_, honce, ?_⟩
  · have hmetadata := unknownMembers_members ht
    rw [hread.metadata] at hmetadata
    have hget := congrArg (Dict.get? key) hmetadata
    simp only [unknownMembers, Dict.get?_filter (fun k => !fieldNames.contains k)] at hget
    have hsame : Dict.get? key (Dict.ofList t.members) = Dict.get? key m := by simpa [hkey] using hget
    exact hsame
  · have hnodup := nodup_keys_members ht.sortedMetadata ht.unknown
    exact (List.perm_ext_iff_of_nodup hnodup honce).2 fun key => mem_memberNames_toJson.symm

/-- A description with members that say nothing, known ones and unknown ones. -/
def sparseDescription : Json :=
  .obj
    [("id", .str "urn:lamp"), ("title", .null), ("titles", .obj []), ("forms", .arr []), ("events", .obj []),
     ("security", .str ""), ("x:rooms", .arr []), ("x:owner", .null)]

/-- The thing that is described. -/
def sparse : Thing :=
  { id := "urn:lamp"
    labels := { titles := some [] }
    security := [""]
    metadata := [("x:owner", .null), ("x:rooms", .arr [])] }

theorem exportedFrom_of_ofJson_sparse :
    ofJson sparseDescription.normal = .ok sparse ∧ ExportedFrom sparseDescription.normal sparse ∧
      sparse.toJson.memberNames = ["@context", "id", "security", "titles", "x:owner", "x:rooms"] := by
  have hread : ofJson sparseDescription.normal = .ok sparse := rfl
  exact ⟨hread, exportedFrom_of_ofJson hread, rfl⟩

end Thing
end WebOfThings
