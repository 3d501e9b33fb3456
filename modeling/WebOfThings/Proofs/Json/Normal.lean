import WebOfThings.Json.Basic
import WebOfThings.Proofs.Dict

/-!
# Normal values

A value in normal form has the members of every object in increasing order of their keys, at every depth.
That is what a value is once its text has been read; the sorted lists of entries are then the maps that
they stand for, and equality of values is equality of trees.

`isNormal_arr_iff` and `isNormal_obj_iff` say what normal form means for each kind of value,
`isNormal_normal` that every value has one. `forall_of_parts` is the induction over values on which all
statements about nested values rest; `Everywhere` is what holds at every depth.
-/

namespace WebOfThings

namespace Json

/-! ## Induction over values -/

/-- What holds of the scalars, of every array of whose items it holds and of every object of whose
members it holds, holds of every value. -/
theorem forall_of_parts {P : Json → Prop}
    (scalar : ∀ v : Json, (∀ items, v ≠ .arr items) → (∀ members, v ≠ .obj members) → P v)
    (arr : ∀ items, (∀ v ∈ items, P v) → P (.arr items))
    (obj : ∀ members : List (String × Json), (∀ e ∈ members, P e.2) → P (.obj members)) (v : Json) : P v :=
  -- Along with a value the statement is about lists of items, lists of members and single members.
  @Json.rec P (fun items => ∀ v ∈ items, P v) (fun members => ∀ e ∈ members, P e.2) (fun e => P e.2)
    (scalar _ (fun _ => Json.noConfusion) (fun _ => Json.noConfusion))
    (fun _ => scalar _ (fun _ => Json.noConfusion) (fun _ => Json.noConfusion))
    (fun _ => scalar _ (fun _ => Json.noConfusion) (fun _ => Json.noConfusion))
    (fun _ => scalar _ (fun _ => Json.noConfusion) (fun _ => Json.noConfusion))
    arr obj (List.forall_mem_nil _) (fun _ _ hv hrest => List.forall_mem_cons.2 ⟨hv, hrest⟩)
    (List.forall_mem_nil _) (fun _ _ he hrest => List.forall_mem_cons.2 ⟨he, hrest⟩) (fun _ _ hv => hv) v

/-- The items of an array, the values of the members of an object. -/
def parts : Json → List Json
  | .arr items => items
  | .obj members => Dict.values members
  | _ => []

/-- Induction over values by their parts. -/
theorem forall_of_forall_parts {P : Json → Prop} (h : ∀ v, (∀ w ∈ v.parts, P w) → P v) (v : Json) :
    P v := by
  refine forall_of_parts ?_ ?_ ?_ v
  · intro v harr hobj
    cases v with
    | arr items => exact absurd rfl (harr items)
    | obj members => exact absurd rfl (hobj members)
    | _ => exact h _ (List.forall_mem_nil _)
  · exact fun items ih => h _ ih
  · exact fun members ih => h _ (List.forall_mem_map.2 ih)

/-- Induction that steps over two levels of a value at once, as readers of collections do. -/
theorem forall_of_two_levels {P : Json → Prop}
    (h : ∀ v, (∀ w ∈ v.parts, P w ∧ ∀ u ∈ w.parts, P u) → P v) (v : Json) : P v :=
  -- The statement for a value goes together with the one for its parts.
  (forall_of_forall_parts (P := fun v => P v ∧ ∀ w ∈ v.parts, P w)
    (fun v ih => ⟨h v ih, fun w hw => (ih w hw).1⟩) v).1

/-- A value contains itself, and what its parts contain. -/
inductive Contains : Json → Json → Prop where
  | self (v : Json) : Contains v v
  | part {v w u : Json} (hw : w ∈ v.parts) (h : Contains w u) : Contains v u

/-- A statement holds of a value and of all values inside of it. -/
def Everywhere (P : Json → Prop) (v : Json) : Prop := ∀ w, v.Contains w → P w

/-- What holds everywhere in a value holds of it and everywhere in its parts. -/
theorem everywhere_iff {P : Json → Prop} {v : Json} :
    v.Everywhere P ↔ P v ∧ ∀ w ∈ v.parts, w.Everywhere P := by
  constructor
  · exact fun h => ⟨h v (.self v), fun w hw u hu => h u (.part hw hu)⟩
  · rintro ⟨hv, hparts⟩ w hw
    cases hw with
    | self => exact hv
    | part hpart hw => exact hparts _ hpart _ hw

/-- What holds everywhere in an array holds of it and everywhere in its items. -/
theorem everywhere_arr_iff {P : Json → Prop} {items : List Json} :
    Everywhere P (.arr items) ↔ P (.arr items) ∧ ∀ v ∈ items, v.Everywhere P :=
  everywhere_iff

/-- What holds everywhere in an object holds of it and everywhere in the values of its members. -/
theorem everywhere_obj_iff {P : Json → Prop} {members : List (String × Json)} :
    Everywhere P (.obj members) ↔ P (.obj members) ∧ ∀ e ∈ members, e.2.Everywhere P := by
  rw [everywhere_iff]
  exact and_congr_right fun _ => List.forall_mem_map

theorem everywhere_iff_of_parts_eq_nil {P : Json → Prop} {v : Json} (h : v.parts = []) :
    v.Everywhere P ↔ P v := by
  rw [everywhere_iff, h]
  exact and_iff_left (List.forall_mem_nil _)

theorem everywhere_num_iff {P : Json → Prop} {n : Number} : Everywhere P (.num n) ↔ P (.num n) :=
  everywhere_iff_of_parts_eq_nil rfl

theorem everywhere_str_iff {P : Json → Prop} {s : String} : Everywhere P (.str s) ↔ P (.str s) :=
  everywhere_iff_of_parts_eq_nil rfl

/-! ## Normal form -/

/-- The members of every object are in order, without repetition. -/
def IsNormal (v : Json) : Prop := v.normal = v

/-- Items are put in normal form one by one. -/
theorem normalItems_eq_map (items : List Json) : normalItems items = items.map normal := by
  induction items with
  | nil => rfl
  | cons v rest ih => rw [normalItems, ih, List.map_cons]

/-- The members of an object are put in normal form one by one. -/
theorem normalMembers_eq_mapValues (members : List (String × Json)) :
    normalMembers members = Dict.mapValues normal members := by
  induction members with
  | nil => rfl
  | cons e rest ih =>
    obtain ⟨k, v⟩ := e
    rw [normalMembers, ih]
    rfl

/-- A value that is neither an array nor an object is normal. -/
theorem isNormal_scalar {v : Json} (harr : ∀ items, v ≠ .arr items)
    (hobj : ∀ members, v ≠ .obj members) : v.IsNormal := by
  cases v with
  | arr items => exact absurd rfl (harr items)
  | obj members => exact absurd rfl (hobj members)
  | _ => rfl

@[simp] theorem isNormal_null : IsNormal .null := rfl

@[simp] theorem isNormal_bool (b : Bool) : (bool b).IsNormal := rfl

@[simp] theorem isNormal_num (n : Number) : (num n).IsNormal := rfl

@[simp] theorem isNormal_str (s : String) : (str s).IsNormal := rfl

/-- An array is normal if its items are. -/
theorem isNormal_arr_iff {items : List Json} :
    (arr items).IsNormal ↔ ∀ v ∈ items, v.IsNormal := by
  simp only [IsNormal, normal, normalItems_eq_map, arr.injEq]
  induction items with
  | nil => simp
  | cons v rest ih => simp [ih]

/-- The members of a normal object are a dictionary of normal values. -/
theorem isNormal_obj_iff {members : List (String × Json)} :
    (obj members).IsNormal ↔ Dict.Sorted members ∧ ∀ e ∈ members, e.2.IsNormal := by
  simp only [IsNormal, normal, normalMembers_eq_mapValues, obj.injEq]
  constructor
  · intro h
    have hsorted : Dict.Sorted members := h ▸ Dict.sorted_ofList _
    -- Nothing is left to sort, so the values are the normal ones.
    rw [Dict.ofList_eq_self (hsorted.mapValues normal)] at h
    refine ⟨hsorted, fun e he => ?_⟩
    have hmap : members.map (fun e => (e.1, normal e.2)) = members.map id := by
      rw [List.map_id]
      exact h
    exact congrArg Prod.snd (List.map_inj_left.1 hmap e he)
  · rintro ⟨hsorted, hvalues⟩
    rw [Dict.mapValues_eq_self hvalues, Dict.ofList_eq_self hsorted]

/-- The parts of a normal value are normal. -/
theorem IsNormal.of_mem_parts {v w : Json} (hv : v.IsNormal) (hw : w ∈ v.parts) : w.IsNormal := by
  cases v with
  | arr items => exact isNormal_arr_iff.1 hv w hw
  | obj members =>
    obtain ⟨e, he, rfl⟩ := List.mem_map.1 hw
    exact (isNormal_obj_iff.1 hv).2 e he
  | _ => cases hw

/-- So do normal members. -/
theorem normalMembers_eq_self {members : List (String × Json)} (h : ∀ e ∈ members, e.2.IsNormal) :
    normalMembers members = members := by
  rw [normalMembers_eq_mapValues]
  exact Dict.mapValues_eq_self h

theorem normalItems_eq_self {items : List Json} (h : ∀ v ∈ items, v.IsNormal) :
    normalItems items = items :=
  arr.inj (isNormal_arr_iff.2 h)

/-- Sorting the members of an object leaves it normal if their values are. -/
theorem isNormal_object {members : List (String × Json)} (h : ∀ e ∈ members, e.2.IsNormal) :
    (object members).IsNormal :=
  isNormal_obj_iff.2 ⟨Dict.sorted_ofList members, fun e he => h e (Dict.mem_of_mem_ofList he)⟩

/-- The normal form of a value is normal. -/
theorem isNormal_normal (v : Json) : v.normal.IsNormal := by
  refine forall_of_parts (P := fun v => v.normal.IsNormal) ?_ ?_ ?_ v
  · intro v harr hobj
    have hv : v.normal = v := isNormal_scalar harr hobj
    rw [hv]
    exact hv
  · intro items ih
    rw [normal, normalItems_eq_map, isNormal_arr_iff]
    intro w hw
    obtain ⟨v, hv, rfl⟩ := List.mem_map.1 hw
    exact ih v hv
  · intro members ih
    rw [normal, normalMembers_eq_mapValues]
    refine isNormal_object fun e he => ?_
    obtain ⟨m, hm, rfl⟩ := List.mem_map.1 he
    exact ih m hm

end Json
end WebOfThings
