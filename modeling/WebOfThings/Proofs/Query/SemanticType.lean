import WebOfThings.Proofs.Description.Thing
import WebOfThings.Query

/-!
# Queries for a semantic type

A query may ask for a semantic type by its text, or by an array that holds the text. What it is compared
with is the export of a thing, where a list of one type has become that type (`Json.oneOrMany`).

A text is found in itself and in arrays (`contains_str_iff`), texts in an array are found in arrays only
(`contains_texts_iff`). So the two ways of asking tell the same things apart, except for those that have
just the type that is asked for: they are found by its text and never by the array (`ofType_agrees_iff`),
however their description writes the type.

The export of a thing writes a list of one type as that type, and the types stand in one of two forms in a
description. A query is a value too, so it has the same choice, and the two choices do not meet where there
is one type. This is exact: asking by the text and asking by the array differ on no other thing, unless an
unknown member took the place of the types.
-/

namespace WebOfThings

namespace Json

/-! ## Texts in a value -/

theorem eqv_str_iff {v : Json} {s : String} : (v == .str s) = true ↔ v = .str s := by
  show v.eqv (.str s) = true ↔ v = .str s
  cases v <;> simp [eqv]

/-- A text is contained in itself and in the arrays that hold it. -/
theorem contains_str_iff {v : Json} {s : String} :
    v.contains (.str s) = true ↔ v = .str s ∨ ∃ items, v = .arr items ∧ .str s ∈ items := by
  cases v with
  | arr items => simp [contains, eqv_str_iff]
  | _ => simp [contains, eqv_str_iff]

/-- Texts in an array are contained in arrays only. -/
theorem contains_texts_iff {v : Json} {texts : List String} :
    v.contains (.arr (texts.map .str)) = true ↔
      ∃ items, v = .arr items ∧ ∀ s ∈ texts, ∃ item ∈ items, item.contains (.str s) = true := by
  cases v with
  | arr items => simp [contains_arr_iff]
  | _ => simp [contains]

theorem str_mem_map_iff {xs : List String} {s : String} : Json.str s ∈ xs.map .str ↔ s ∈ xs :=
  List.mem_map_of_injective fun _ _ h => Json.str.inj h

/-- A list in the *one or many* form contains each of its texts. -/
theorem contains_str_oneOrMany_iff {xs : List String} {s : String} :
    (oneOrMany .str xs).contains (.str s) = true ↔ s ∈ xs := by
  rw [contains_str_iff]
  unfold oneOrMany
  split
  · simp [eq_comm]
  · simp [str_mem_map_iff]

/-- A text is held by an array, but as an item of another array only. -/
def Nests (v : Json) (s : String) : Prop :=
  ∃ items inner, v = .arr items ∧ .str s ∉ items ∧ .arr inner ∈ items ∧ .str s ∈ inner

/-- A text and an array with this text are contained in the same values, except for the text itself and for
arrays that hold it one level deeper. -/
theorem contains_text_agrees_iff {v : Json} {s : String} :
    (v.contains (.str s) = true ↔ v.contains (.arr [.str s]) = true) ↔ v ≠ .str s ∧ ¬ v.Nests s := by
  have htext := contains_str_iff (v := v) (s := s)
  have harray : v.contains (.arr ([s].map .str)) = true ↔ _ := contains_texts_iff
  rw [List.map_singleton] at harray
  simp only [List.forall_mem_singleton, contains_str_iff] at harray
  rw [htext, harray]
  constructor
  · intro h
    constructor
    · -- The text itself is no array.
      rintro rfl
      obtain ⟨items, hitems, -⟩ := h.1 (.inl rfl)
      cases hitems
    · rintro ⟨items, inner, rfl, hnot, hinner, hs⟩
      rcases h.2 ⟨items, rfl, .arr inner, hinner, .inr ⟨inner, rfl, hs⟩⟩ with hv | ⟨items', heq, hmem⟩
      · cases hv
      · cases heq
        exact hnot hmem
  · rintro ⟨hne, hnests⟩
    constructor
    · rintro (hv | ⟨items, hitems, hs⟩)
      · exact absurd hv hne
      · exact ⟨items, hitems, .str s, hs, .inl rfl⟩
    · rintro ⟨items, hitems, item, hitem, rfl | ⟨inner, rfl, hs⟩⟩
      · exact .inr ⟨items, hitems, hitem⟩
      · by_contra hnot
        exact hnests ⟨items, inner, hitems, fun hs => hnot (.inr ⟨items, hitems, hs⟩), hitem, hs⟩

/-- A list in the *one or many* form contains some of its texts in an array unless it has just one. -/
theorem contains_texts_oneOrMany_iff {xs texts : List String} :
    (oneOrMany .str xs).contains (.arr (texts.map .str)) = true ↔
      xs.length ≠ 1 ∧ ∀ s ∈ texts, s ∈ xs := by
  rw [contains_texts_iff]
  unfold oneOrMany
  split
  · simp
  · next hmany =>
    have hlength : xs.length ≠ 1 := by
      intro h
      obtain ⟨x, hx⟩ := List.length_eq_one_iff.1 h
      exact hmany x hx
    simp [hlength, contains_str_iff]

end Json

namespace ThingQuery

open Json

/-- The query for a semantic type. -/
def ofType (s : String) : ThingQuery := ⟨[("@type", .str s)]⟩

/-- The query for semantic types that are given in an array. -/
def ofTypes (types : List String) : ThingQuery := ⟨[("@type", .arr (types.map .str))]⟩

/-- A query with one member is about the member of that name. -/
theorem matchesThing_member_iff {key : String} {template : Json} {t : Thing} :
    (⟨[(key, template)]⟩ : ThingQuery).matchesThing t = true ↔
      ∃ v, t.toJson.get? key = some v ∧ v.contains template = true := by
  show (Json.obj (Dict.ofList t.members)).contains (.obj [(key, template)]) = true ↔ _
  rw [contains_obj_iff, List.forall_mem_singleton]
  rfl

/-! ## What an export says of types -/

/-- Metadata under the name of the types takes their place. -/
theorem get?_type_toJson (t : Thing) :
    t.toJson.get? "@type" =
      (Dict.get? "@type" (Dict.ofList t.metadata)).or (t.labels.types.map (oneOrMany .str)) := by
  show Dict.get? "@type" (Dict.ofList t.members) = _
  simp [Thing.members, Labels.members]

theorem get?_type_of_plain {t : Thing} (h : ∀ m ∈ t.metadata, m.1 ≠ "@type") :
    t.toJson.get? "@type" = t.labels.types.map (oneOrMany .str) := by
  rw [get?_type_toJson, Dict.get?_ofList_eq_none h, Option.none_or]

/-- Who asks for the text of a type finds the things that have it. -/
theorem matchesThing_ofType_iff {t : Thing} (h : ∀ m ∈ t.metadata, m.1 ≠ "@type") (s : String) :
    (ofType s).matchesThing t = true ↔ s ∈ t.labels.types.getD [] := by
  rw [ofType, matchesThing_member_iff, get?_type_of_plain h]
  cases t.labels.types <;> simp [contains_str_oneOrMany_iff]

/-- Who asks for types in an array finds the things that have them, but for those with a single type. -/
theorem matchesThing_ofTypes_iff {t : Thing} (h : ∀ m ∈ t.metadata, m.1 ≠ "@type") (types : List String) :
    (ofTypes types).matchesThing t = true ↔
      ∃ own, t.labels.types = some own ∧ own.length ≠ 1 ∧ ∀ s ∈ types, s ∈ own := by
  rw [ofTypes, matchesThing_member_iff, get?_type_of_plain h]
  cases t.labels.types <;> simp [contains_texts_oneOrMany_iff]

/-- Of several types, a given one is not the only one. -/
theorem exists_several_iff {types : Option (List String)} {s : String} :
    (∃ own, types = some own ∧ own.length ≠ 1 ∧ ∀ r ∈ [s], r ∈ own) ↔
      s ∈ types.getD [] ∧ types ≠ some [s] := by
  match types with
  | none => simp
  | some [] => simp
  | some [x] => simp [eq_comm]
  | some (x :: y :: rest) => simp

/-- A description that was read has no metadata under the name of the types. -/
theorem plain_of_ofJson {description : Json} {t : Thing} (h : Thing.ofJson description.normal = .ok t) :
    ∀ m ∈ t.metadata, m.1 ≠ "@type" := by
  intro m hm he
  exact (Thing.wellFormed_of_ofJson description.isNormal_normal h).unknown m hm (by rw [he]; decide)

/-- A single type may be written bare or in an array. -/
theorem types_of_ofJson_single {description : Json} {t : Thing} {s : String}
    (h : Thing.ofJson description.normal = .ok t)
    (hs : description.normal.get? "@type" = some (.str s) ∨
      description.normal.get? "@type" = some (.arr [.str s])) :
    t.labels.types = some [s] := by
  obtain ⟨m, c, hm, -, hread⟩ := Thing.exists_of_ofJson h
  rw [hm] at hs
  have hlabels := hread.labels
  simp only [Labels.ofMembers?, optional?_eq, Option.bind_eq_bind, Option.bind_eq_some_iff] at hlabels
  obtain ⟨types, htypes, _, -, _, -, _, -, _, -, hl⟩ := hlabels
  have hown : types = t.labels.types := congrArg Labels.types (Option.some.inj hl)
  rw [← hown]
  rcases hs with hs | hs
  · rw [show Dict.get? "@type" m = some (.str s) from hs] at htypes
    exact (Option.some.inj htypes).symm
  · rw [show Dict.get? "@type" m = some (.arr [.str s]) from hs] at htypes
    exact (Option.some.inj htypes).symm

/-- Asking for a type by its text and by an array with this text tells the same of a thing, unless its export
has just this text for its types, or metadata there that nests it. For things without such metadata, among them
all that are read from a description: by its text every thing is found that has the type, by the array every
such thing that has other types besides. So a thing of one type is found by the text and not by the array,
whichever of the two its description has. -/
theorem ofType_agrees_iff (t : Thing) (s : String) :
    (((ofType s).matchesThing t = true ↔ (ofTypes [s]).matchesThing t = true) ↔
        ∀ v, t.toJson.get? "@type" = some v → v ≠ .str s ∧ ¬ v.Nests s) ∧
      ((∀ m ∈ t.metadata, m.1 ≠ "@type") →
        ((ofType s).matchesThing t = true ↔ s ∈ t.labels.types.getD []) ∧
        ((ofTypes [s]).matchesThing t = true ↔
          s ∈ t.labels.types.getD [] ∧ t.labels.types ≠ some [s])) ∧
      ∀ description : Json, Thing.ofJson description.normal = .ok t →
        (∀ m ∈ t.metadata, m.1 ≠ "@type") ∧
        (description.normal.get? "@type" = some (.str s) ∨
            description.normal.get? "@type" = some (.arr [.str s]) →
          (ofType s).matchesThing t = true ∧ (ofTypes [s]).matchesThing t = false) := by
  refine ⟨?_, fun hplain => ⟨matchesThing_ofType_iff hplain s, ?_⟩, fun description h => ?_⟩
  · rw [ofType, ofTypes, List.map_singleton, matchesThing_member_iff, matchesThing_member_iff]
    cases t.toJson.get? "@type" with
    | none => simp
    | some v => simpa using contains_text_agrees_iff
  · rw [matchesThing_ofTypes_iff hplain]
    exact exists_several_iff
  · have hplain := plain_of_ofJson h
    refine ⟨hplain, fun hs => ?_⟩
    have htypes := types_of_ofJson_single h hs
    rw [matchesThing_ofType_iff hplain, ← Bool.not_eq_true, matchesThing_ofTypes_iff hplain, htypes]
    simp

/-- The description of a lamp that is a light switch, in the given form. -/
def switchDescription (types : Json) : Json := .obj [("id", .str "urn:lamp"), ("@type", types)]

/-- The lamp that is described. -/
def switch : Thing := { id := "urn:lamp", labels := { types := some ["saref:LightSwitch"] } }

/-- Asked for the one type of a switch, the text finds it and the array does not. -/
theorem ofType_agrees_iff_switch :
    Thing.ofJson (switchDescription (.arr [.str "saref:LightSwitch"])).normal = .ok switch ∧
      (∀ m ∈ switch.metadata, m.1 ≠ "@type") ∧
      (ofType "saref:LightSwitch").matchesThing switch = true ∧
      (ofTypes ["saref:LightSwitch"]).matchesThing switch = false ∧
      ((ofTypes ["saref:Sensor"]).matchesThing switch = true ↔
        "saref:Sensor" ∈ switch.labels.types.getD [] ∧ switch.labels.types ≠ some ["saref:Sensor"]) := by
  have hread : Thing.ofJson (switchDescription (.arr [.str "saref:LightSwitch"])).normal = .ok switch := rfl
  obtain ⟨-, -, hdescribed⟩ := ofType_agrees_iff switch "saref:LightSwitch"
  obtain ⟨hplain, hsingle⟩ := hdescribed _ hread
  obtain ⟨htext, harray⟩ := hsingle (.inr rfl)
  exact ⟨hread, hplain, htext, harray, ((ofType_agrees_iff switch "saref:Sensor").2.1 hplain).2⟩

/-- A thing of one type, whether its description writes the type bare or in an array, is not found by the array
that its description may have. -/
theorem misses_single_type :
    Thing.ofJson (switchDescription (.str "saref:LightSwitch")).normal = .ok switch ∧
      Thing.ofJson (switchDescription (.arr [.str "saref:LightSwitch"])).normal = .ok switch ∧
      (ofType "saref:LightSwitch").matchesThing switch = true ∧
      (ofTypes ["saref:LightSwitch"]).matchesThing switch = false :=
  ⟨rfl, rfl, rfl, rfl⟩

end ThingQuery
end WebOfThings
