import Mathlib.Data.List.Forall2
import WebOfThings.Json.Fields
import WebOfThings.Proofs.Json.Normal

/-!
# Fields that read back

Descriptions are written as a list of members, field after field, and read by looking up one key after
the other. The first half says what stands under a key among the members that were written: the value of
the field of that name (`get?_ofList_field`), or what another part of the list holds
(`get?_ofList_append`).

The second half says when a reader gets back what a writer made. `ReadsAs read v y` is the property of a
single value; `asList?_map`, `asDict?_ofDict` and `oneOrMany?_oneOrMany_of` lift it to collections, and
`optionalValue?_map` and `defaultValue?_list` to fields that are left out when there is nothing to say.
Throughout, what is read may differ from what was written by a given function `g`.
-/

namespace WebOfThings

namespace Json

variable {α β : Type}

/-! ## What stands under a key -/

@[simp] theorem get?_ofList_field (k : String) (v : Option Json) (key : String) :
    Dict.get? key (Dict.ofList (field k v)) = if k = key then v else none := by
  cases v <;> simp [field]

theorem mem_field {k : String} {v : Option Json} {e : String × Json} (h : e ∈ field k v) : e.1 = k := by
  cases v with
  | none => cases h
  | some w => exact congrArg Prod.fst (List.mem_singleton.1 h)

/-- The value that a list contributes, unless it is empty. -/
def listValue? (write : List α → Json) (xs : List α) : Option Json :=
  if xs.isEmpty then none else some (write xs)

/-- Under the key of a list stands what the list contributes. -/
@[simp] theorem get?_ofList_listField (k : String) (write : List α → Json) (xs : List α)
    (key : String) :
    Dict.get? key (Dict.ofList (listField k write xs)) =
      if k = key then listValue? write xs else none := by
  by_cases h : xs = [] <;> simp [listField, listValue?, h]

theorem mem_listField {k : String} {write : List α → Json} {xs : List α} {e : String × Json}
    (h : e ∈ listField k write xs) : e.1 = k := by
  unfold listField at h
  split at h
  · cases h
  · exact congrArg Prod.fst (List.mem_singleton.1 h)

/-- The value that a flag contributes, unless it is down. -/
def flagValue? (b : Bool) : Option Json := if b then some (.bool true) else none

@[simp] theorem get?_ofList_flag (k : String) (b : Bool) (key : String) :
    Dict.get? key (Dict.ofList (flag k b)) = if k = key then flagValue? b else none := by
  cases b <;> simp [flag, flagValue?]

theorem mem_flag {k : String} {b : Bool} {e : String × Json} (h : e ∈ flag k b) : e.1 = k := by
  cases b with
  | false => cases h
  | true => exact congrArg Prod.fst (List.mem_singleton.1 h)

/-! ## The keys that fields write -/

/-- Members that are written one after the other have their keys one after the other. -/
theorem keys_append_sublist {d e : List (String × Json)} {names others : List String}
    (hd : (Dict.keys d).Sublist names) (he : (Dict.keys e).Sublist others) :
    (Dict.keys (d ++ e)).Sublist (names ++ others) := by
  rw [Dict.keys, List.map_append]
  exact hd.append he

theorem keys_field_sublist (k : String) (v : Option Json) : (Dict.keys (field k v)).Sublist [k] := by
  cases v with
  | none => exact List.nil_sublist _
  | some w => exact List.Sublist.refl _

theorem keys_listField_sublist {α : Type} (k : String) (write : List α → Json) (xs : List α) :
    (Dict.keys (listField k write xs)).Sublist [k] := by
  unfold listField
  split
  · exact List.nil_sublist _
  · exact List.Sublist.refl _

theorem keys_flag_sublist (k : String) (b : Bool) : (Dict.keys (flag k b)).Sublist [k] := by
  cases b with
  | false => exact List.nil_sublist _
  | true => exact List.Sublist.refl _

/-! ## The values of written members are normal -/

/-- Members with normal values. -/
def AllNormal (members : List (String × Json)) : Prop := ∀ e ∈ members, e.2.IsNormal

@[simp] theorem allNormal_nil : AllNormal [] := List.forall_mem_nil _

@[simp] theorem allNormal_cons {k : String} {v : Json} {rest : List (String × Json)} :
    AllNormal ((k, v) :: rest) ↔ v.IsNormal ∧ AllNormal rest := List.forall_mem_cons

@[simp] theorem allNormal_append {d e : List (String × Json)} :
    AllNormal (d ++ e) ↔ AllNormal d ∧ AllNormal e := List.forall_mem_append

@[simp] theorem allNormal_field {k : String} {v : Option Json} :
    AllNormal (field k v) ↔ ∀ w, v = some w → w.IsNormal := by
  cases v <;> simp [field]

theorem allNormal_field_map {k : String} {write : α → Json} {x : Option α}
    (h : ∀ a, x = some a → (write a).IsNormal) : AllNormal (field k (x.map write)) := by
  rw [allNormal_field]
  intro w hw
  obtain ⟨a, ha, rfl⟩ := Option.map_eq_some_iff.1 hw
  exact h a ha

@[simp] theorem allNormal_flag {k : String} {b : Bool} : AllNormal (flag k b) := by
  cases b <;> simp [flag]

/-- The member of a list is normal if the list is, where it is not empty. -/
@[simp] theorem allNormal_listField {k : String} {write : List α → Json} {xs : List α} :
    AllNormal (listField k write xs) ↔ (xs ≠ [] → (write xs).IsNormal) := by
  by_cases h : xs = [] <;> simp [listField, h]

/-- The list of an array is normal if its items are. -/
theorem isNormal_arr_map {write : α → Json} {xs : List α} (h : ∀ x ∈ xs, (write x).IsNormal) :
    (arr (xs.map write)).IsNormal :=
  isNormal_arr_iff.2 fun _ hv => by
    obtain ⟨x, hx, rfl⟩ := List.mem_map.1 hv
    exact h x hx

/-- A list in the *one or many* form is normal if its elements are. -/
theorem isNormal_oneOrMany {write : α → Json} {xs : List α} (h : ∀ x ∈ xs, (write x).IsNormal) :
    (oneOrMany write xs).IsNormal := by
  unfold oneOrMany
  split
  · next x => exact h x (by simp)
  · exact isNormal_arr_map h

/-- The object of a dictionary is normal if its values are. -/
theorem isNormal_ofDict {write : α → Json} {d : Dict α} (hd : d.Sorted)
    (h : ∀ e ∈ d, (write e.2).IsNormal) : (ofDict write d).IsNormal :=
  isNormal_obj_iff.2 ⟨hd.mapValues write, fun _ hw => by
    obtain ⟨e, he, rfl⟩ := List.mem_map.1 hw
    exact h e he⟩

/-! ## Reading what was written -/

/-- The value `v` is read as `y`. It is not `null`, which would stand for a field that is missing. -/
structure ReadsAs (read : Json → Option β) (v : Json) (y : β) : Prop where
  read_eq : read v = some y
  ne_null : v ≠ .null

@[simp] theorem asString?_str (s : String) : asString? (.str s) = some s := rfl

theorem readsAs_str (s : String) : ReadsAs asString? (.str s) s := ⟨rfl, by simp⟩

theorem readsAs_bool (b : Bool) : ReadsAs asBool? (.bool b) b := ⟨rfl, by simp⟩

/-- Elements that read back read back one by one. -/
theorem mapM_map_eq {read : Json → Option β} {write : α → Json} {g : α → β} {xs : List α}
    (h : ∀ x ∈ xs, read (write x) = some (g x)) : (xs.map write).mapM read = some (xs.map g) := by
  induction xs with
  | nil => rfl
  | cons x rest ih =>
    rw [List.map_cons, List.mapM_cons, h x (by simp), ih fun y hy => h y (by simp [hy])]
    rfl

theorem asList?_some (vs : List Json) : asList? some (.arr vs) = some vs := by
  have h : (vs.map id).mapM some = some vs := mapM_map_of_forall fun _ _ => rfl
  rwa [List.map_id] at h

/-- An array of elements that read back is read as their list. -/
theorem asList?_map {read : Json → Option β} {write : α → Json} {g : α → β} {xs : List α}
    (h : ∀ x ∈ xs, read (write x) = some (g x)) :
    asList? read (.arr (xs.map write)) = some (xs.map g) :=
  mapM_map_eq h

/-- A list in the *one or many* form is read, provided that the array of it is no element. -/
theorem oneOrMany?_oneOrMany_of {read : Json → Option β} {write : α → Json} {g : α → β} {xs : List α}
    (h : ∀ x ∈ xs, read (write x) = some (g x)) (harr : read (.arr (xs.map write)) = none) :
    oneOrMany? read (oneOrMany write xs) = some (xs.map g) := by
  -- A single element stands for itself; any other list is an array, which must not pass for an element.
  match xs, h, harr with
  | [], _, harr =>
    simp only [oneOrMany, oneOrMany?, harr]
    rfl
  | [x], h, _ => simp [oneOrMany, oneOrMany?, h x (by simp)]
  | x :: y :: rest, h, harr =>
    simp only [oneOrMany, oneOrMany?, harr]
    exact asList?_map h

/-- An object of values that read back is read as their dictionary. -/
theorem asDict?_ofDict {read : Json → Option β} {write : α → Json} {g : α → β} {d : Dict α}
    (h : ∀ e ∈ d, read (write e.2) = some (g e.2)) :
    asDict? read (ofDict write d) = some (d.mapValues g) := by
  induction d with
  | nil => rfl
  | cons e rest ih =>
    have hrest := ih fun x hx => h x (List.mem_cons_of_mem _ hx)
    simp only [asDict?, ofDict, Dict.mapValues] at hrest ⊢
    rw [List.map_cons, List.mapM_cons, hrest, h e (List.mem_cons_self ..)]
    rfl

theorem asDict?_ofDict_self {read : Json → Option α} {write : α → Json} {d : Dict α}
    (h : ∀ e ∈ d, read (write e.2) = some e.2) : asDict? read (ofDict write d) = some d := by
  rw [asDict?_ofDict (g := fun x => x) h, Dict.mapValues_eq_self fun _ _ => rfl]

/-- A list of texts in the *one or many* form reads back. -/
theorem readsAs_strings (xs : List String) :
    ReadsAs (oneOrMany? asString?) (oneOrMany .str xs) xs where
  read_eq := oneOrMany?_oneOrMany (fun _ _ => rfl) fun _ => rfl
  ne_null := by
    unfold oneOrMany
    split <;> simp

theorem readsAs_texts (d : Dict String) : ReadsAs (asDict? asString?) (ofDict .str d) d where
  read_eq := asDict?_ofDict_self fun _ _ => rfl
  ne_null := by simp [ofDict]

/-! ## Reading the fields of an object -/

/-- An optional field, from what stands under its key. -/
def optionalValue? (read : Json → Option α) : Option Json → Option (Option α)
  | none | some .null => some none
  | some v => (read v).map some

theorem optional?_eq (read : Json → Option α) (key : String) (members : List (String × Json)) :
    optional? read key members = optionalValue? read (Dict.get? key members) := rfl

/-- A field with a default, from what stands under its key. -/
def defaultValue? (read : Json → Option α) (default : α) : Option Json → Option α
  | none => some default
  | some v => read v

theorem withDefault?_eq (read : Json → Option α) (default : α) (key : String)
    (members : List (String × Json)) :
    withDefault? read default key members = defaultValue? read default (Dict.get? key members) := rfl

/-- A value that is read and is not null is read under an optional field. -/
theorem optionalValue?_some {read : Json → Option α} {v : Json} {x : α} (h : ReadsAs read v x) :
    optionalValue? read (some v) = some (some x) := by
  unfold optionalValue?
  split
  · next hv => cases hv
  · next hv => exact absurd (Option.some.inj hv) h.ne_null
  · next hv =>
    cases hv
    rw [h.read_eq, Option.map_some]

/-- An optional field that may be missing reads back. -/
theorem optionalValue?_map {read : Json → Option α} {write : α → Json} {x : Option α}
    (h : ∀ a, x = some a → ReadsAs read (write a) a) : optionalValue? read (x.map write) = some x := by
  cases x with
  | none => rfl
  | some a => exact optionalValue?_some (h a rfl)

@[simp] theorem optionalValue?_str (x : Option String) :
    optionalValue? asString? (x.map .str) = some x :=
  optionalValue?_map fun a _ => readsAs_str a

@[simp] theorem optionalValue?_bool (x : Option Bool) :
    optionalValue? asBool? (x.map .bool) = some x :=
  optionalValue?_map fun a _ => readsAs_bool a

@[simp] theorem optionalValue?_strings (x : Option (List String)) :
    optionalValue? (oneOrMany? asString?) (x.map (oneOrMany .str)) = some x :=
  optionalValue?_map fun a _ => readsAs_strings a

@[simp] theorem optionalValue?_texts (x : Option (Dict String)) :
    optionalValue? (asDict? asString?) (x.map (ofDict .str)) = some x :=
  optionalValue?_map fun a _ => readsAs_texts a

/-- A list that is left out while it is empty. -/
theorem defaultValue?_list {read : Json → Option (List β)} {write : List α → Json} {g : List α → List β}
    {xs : List α} (hnil : g [] = []) (h : read (write xs) = some (g xs)) :
    defaultValue? read [] (listValue? write xs) = some (g xs) := by
  unfold listValue?
  split
  · next hxs =>
    rw [List.isEmpty_iff.1 hxs, hnil]
    rfl
  · exact h

theorem defaultValue?_list_self {read : Json → Option (List α)} {write : List α → Json} {xs : List α}
    (h : read (write xs) = some xs) : defaultValue? read [] (listValue? write xs) = some xs :=
  defaultValue?_list (g := id) rfl h

/-- An array of elements that read back is read, and an empty list where it is missing. -/
theorem defaultValue?_array {read : Json → Option β} {write : α → Json} {g : α → β} {xs : List α}
    (h : ∀ x ∈ xs, read (write x) = some (g x)) :
    defaultValue? (asList? read) [] (listValue? (fun xs => .arr (xs.map write)) xs) =
      some (xs.map g) :=
  defaultValue?_list (g := List.map g) rfl (asList?_map h)

/-- A dictionary that is left out while it is empty reads back. -/
theorem defaultValue?_dict {read : Json → Option β} {write : α → Json} {g : α → β} {d : Dict α}
    (h : ∀ e ∈ d, read (write e.2) = some (g e.2)) :
    defaultValue? (asDict? read) [] (listValue? (ofDict write) d) = some (d.mapValues g) :=
  defaultValue?_list (g := Dict.mapValues g) rfl (asDict?_ofDict h)

@[simp] theorem defaultValue?_flag (b : Bool) :
    defaultValue? asBool? false (flagValue? b) = some b := by
  cases b <;> rfl

/-! ## What a reader has found -/

theorem AllNormal.of_get? {members : List (String × Json)} (h : AllNormal members) {key : String}
    {v : Json} (hv : Dict.get? key members = some v) : v.IsNormal :=
  h (key, v) (Dict.mem_of_get? hv)

/-- What an optional field holds was read from what stands under its key, which is not null. -/
theorem exists_of_optionalValue? {read : Json → Option α} {v? : Option Json} {x : α}
    (h : optionalValue? read v? = some (some x)) :
    ∃ v, v? = some v ∧ v ≠ .null ∧ read v = some x := by
  unfold optionalValue? at h
  split at h
  · simp at h
  · simp at h
  · next v hv =>
    obtain ⟨y, hy, hyx⟩ := Option.map_eq_some_iff.1 h
    cases hyx
    exact ⟨v, rfl, hv, hy⟩

/-- Where every item is read, what was read stands side by side with the items. -/
theorem forall₂_of_mapM {γ : Type} {f : γ → Option α} {items : List γ} {xs : List α}
    (h : items.mapM f = some xs) : List.Forall₂ (fun v x => f v = some x) items xs := by
  induction items generalizing xs with
  | nil =>
    cases h
    exact .nil
  | cons v rest ih =>
    rw [List.mapM_cons] at h
    obtain ⟨y, hy, h⟩ := Option.bind_eq_some_iff.1 h
    obtain ⟨ys, hys, h⟩ := Option.bind_eq_some_iff.1 h
    cases h
    exact .cons hy (ih hys)

theorem filterMap_of_mapM {γ : Type} {f : γ → Option α} {items : List γ} {xs : List α}
    (h : items.mapM f = some xs) : items.filterMap f = xs := by
  have hread := forall₂_of_mapM h
  clear h
  induction hread with
  | nil => rfl
  | cons hv _ ih => rw [List.filterMap_cons_some hv, ih]

/-- The elements of a list were read from its items. -/
theorem exists_of_mapM {γ : Type} {f : γ → Option α} {items : List γ} {xs : List α}
    (h : items.mapM f = some xs) : ∀ x ∈ xs, ∃ v ∈ items, f v = some x := by
  intro x hx
  rw [← filterMap_of_mapM h] at hx
  exact List.mem_filterMap.1 hx

section

variable {read : Json → Option α} {P : α → Prop} {v : Json}

/-- The elements of a list were read from the parts of the value. -/
theorem exists_of_asList? {xs : List α} (h : asList? read v = some xs) :
    ∀ x ∈ xs, ∃ w ∈ v.parts, read w = some x := by
  cases v with
  | arr items => exact exists_of_mapM h
  | _ => cases h

/-- In the *one or many* form, an element was read from the value itself or from one of its parts. -/
theorem exists_of_oneOrMany? {xs : List α} (h : oneOrMany? read v = some xs) :
    ∀ x ∈ xs, ∃ w, (w = v ∨ w ∈ v.parts) ∧ read w = some x := by
  unfold oneOrMany? at h
  split at h
  · next x hx =>
    -- the value itself is the one element
    cases h
    exact List.forall_mem_singleton.2 ⟨v, .inl rfl, hx⟩
  · intro x hx
    obtain ⟨w, hw, hwx⟩ := exists_of_asList? h x hx
    exact ⟨w, .inr hw, hwx⟩

/-- The values of a dictionary were read from the parts of an object. -/
theorem exists_of_asDict? {d : Dict α} (h : asDict? read v = some d) :
    ∀ e ∈ d, ∃ w ∈ v.parts, read w = some e.2 := by
  intro e he
  cases v with
  | obj members =>
    obtain ⟨m, hm, hme⟩ := exists_of_mapM h e he
    obtain ⟨x, hx, rfl⟩ := Option.map_eq_some_iff.1 hme
    exact ⟨m.2, List.mem_map_of_mem hm, hx⟩
  | _ => cases h

/-- What holds of whatever is read from a normal value holds of the elements of a list. -/
theorem forall_of_asList? {xs : List α} (hP : ∀ w x, w.IsNormal → read w = some x → P x)
    (hv : v.IsNormal) (h : asList? read v = some xs) : ∀ x ∈ xs, P x := by
  intro x hx
  obtain ⟨w, hw, hwx⟩ := exists_of_asList? h x hx
  exact hP w x (hv.of_mem_parts hw) hwx

/-- So it holds of the values of a dictionary. -/
theorem forall_of_asDict? {d : Dict α} (hP : ∀ w x, w.IsNormal → read w = some x → P x)
    (hv : v.IsNormal) (h : asDict? read v = some d) : ∀ e ∈ d, P e.2 := by
  intro e he
  obtain ⟨w, hw, hwx⟩ := exists_of_asDict? h e he
  exact hP w e.2 (hv.of_mem_parts hw) hwx

/-- The keys of a dictionary are those of the object. -/
theorem keys_of_asDict? {members : List (String × Json)} {d : Dict α}
    (h : asDict? read (.obj members) = some d) : Dict.keys d = Dict.keys members := by
  simp only [asDict?] at h
  induction members generalizing d with
  | nil =>
    cases h
    rfl
  | cons m rest ih =>
    rw [List.mapM_cons] at h
    obtain ⟨e, he, h⟩ := Option.bind_eq_some_iff.1 h
    obtain ⟨others, hothers, h⟩ := Option.bind_eq_some_iff.1 h
    obtain ⟨x, -, rfl⟩ := Option.map_eq_some_iff.1 he
    cases h
    exact congrArg (List.cons m.1) (ih hothers)

/-- The dictionary of a normal object is in order. -/
theorem sorted_of_asDict? {d : Dict α} (hv : v.IsNormal) (h : asDict? read v = some d) :
    d.Sorted := by
  cases v with
  | obj members =>
    rw [Dict.sorted_iff_keys, keys_of_asDict? h, ← Dict.sorted_iff_keys]
    exact (isNormal_obj_iff.1 hv).1
  | _ => cases h

end

/-- A field with a default holds the default or what was read. -/
theorem of_defaultValue? {read : Json → Option α} {default x : α} {P : α → Prop}
    {members : List (String × Json)} {key : String} (hm : AllNormal members)
    (h : defaultValue? read default (Dict.get? key members) = some x) (hdefault : P default)
    (hread : ∀ v, v.IsNormal → read v = some x → P x) : P x := by
  cases hv : Dict.get? key members with
  | none =>
    rw [hv] at h
    cases h
    exact hdefault
  | some v =>
    rw [hv] at h
    exact hread v (hm.of_get? hv) h

/-- A dictionary is in order, and its values are what was read. -/
theorem of_dictField {read : Json → Option α} {d : Dict α} {P : α → Prop}
    {members : List (String × Json)} {key : String} (hm : AllNormal members)
    (h : defaultValue? (asDict? read) [] (Dict.get? key members) = some d)
    (hread : ∀ v x, v.IsNormal → read v = some x → P x) : d.Sorted ∧ ∀ e ∈ d, P e.2 :=
  of_defaultValue? (P := fun d : Dict α => d.Sorted ∧ ∀ e ∈ d, P e.2) hm h
    ⟨List.Pairwise.nil, List.forall_mem_nil _⟩
    fun _ hv hd => ⟨sorted_of_asDict? hv hd, forall_of_asDict? hread hv hd⟩

/-- The values of a field that holds a dictionary are what was read. -/
theorem forall_of_dictField {read : Json → Option α} {d : Dict α} {P : α → Prop}
    {members : List (String × Json)} {key : String}
    (h : defaultValue? (asDict? read) [] (Dict.get? key members) = some d)
    (hread : ∀ {v x}, read v = some x → P x) : ∀ x ∈ Dict.values d, P x := by
  intro x hx
  obtain ⟨e, he, rfl⟩ := List.mem_map.1 hx
  cases hv : Dict.get? key members with
  | none =>
    -- no field, no entries
    rw [hv] at h
    cases h
    cases he
  | some v =>
    rw [hv] at h
    obtain ⟨w, -, hw⟩ := exists_of_asDict? h e he
    exact hread hw

/-- What holds of whatever is read holds of an optional field. -/
theorem forall_of_optionalField {read : Json → Option α} {x : Option α} {P : α → Prop}
    {v? : Option Json} (h : optionalValue? read v? = some x) (hread : ∀ {v y}, read v = some y → P y) :
    ∀ y ∈ x.toList, P y := by
  intro y hy
  rw [Option.mem_toList.1 hy] at h
  obtain ⟨v, -, -, hv⟩ := exists_of_optionalValue? h
  exact hread hv

/-- An optional field holds what was read. -/
theorem of_optionalValue? {read : Json → Option α} {x : Option α} {P : α → Prop}
    {members : List (String × Json)} {key : String} (hm : AllNormal members)
    (h : optionalValue? read (Dict.get? key members) = some x)
    (hread : ∀ v y, v.IsNormal → v ≠ .null → read v = some y → P y) : ∀ y, x = some y → P y := by
  rintro y rfl
  obtain ⟨v, hv, hnull, hy⟩ := exists_of_optionalValue? h
  exact hread v y (hm.of_get? hv) hnull hy

end Json
end WebOfThings
