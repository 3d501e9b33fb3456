import Mathlib.Data.List.Basic
import Mathlib.Data.List.Perm.Subperm
import WebOfThings.Dict

/-!
# More about dictionaries

What proofs about descriptions, registries and stores need to know of finite maps, in addition to how one
operation changes a look-up.

A dictionary is made from a list of entries in which a key may be repeated (`Dict.ofList`). Of the entries
under a key, its *bindings*, the last one counts, and nothing else about the list does: lists with the same
bindings under every key make the same dictionary (`ofList_congr`). Where no key is repeated there is one
binding or none (`bindings_of_nodup`), and look-ups find exactly the entries that are listed
(`get?_eq_some_iff_mem`).

The rest is about dictionaries whose values are replaced (`mapValues_congr`, `get?_modify`), or whose
entries are dropped (`get?_filter`) or added (`mem_insert_iff`, `values_insert_subperm`).

Nothing here knows of descriptions. The lemmas are stated for dictionaries of any values and for lists of
entries, and the modules that use them differ in what their values are: schemas that were built, members
that were read, codecs, factories, secrets. Inductions are over the list of entries, from its end where the
last entry decides.
-/

namespace WebOfThings.Dict

universe u v

variable {α : Type u} {β : Type v}

/-! ## Keys -/

theorem sorted_iff_keys {d : Dict α} : d.Sorted ↔ (keys d).Pairwise (· < ·) := by
  rw [keys, List.pairwise_map]
  rfl

theorem Sorted.nodup_keys {d : Dict α} (h : d.Sorted) : (keys d).Nodup :=
  (sorted_iff_keys.1 h).imp fun {a b} (hlt : a < b) (he : a = b) => String.lt_irrefl b (he ▸ hlt)

/-- A dictionary contains the keys of its entries. -/
theorem contains_iff {d : Dict α} {key : String} : d.contains key = true ↔ ∃ v, (key, v) ∈ d := by
  induction d with
  | nil => simp [Dict.contains]
  | cons e rest ih =>
    obtain ⟨k, v⟩ := e
    rw [contains] at ih ⊢
    rw [get?_cons]
    split
    · next hk => exact iff_of_true rfl ⟨v, by rw [hk]; exact List.mem_cons_self ..⟩
    · next hk =>
      rw [ih]
      constructor
      · rintro ⟨w, hw⟩
        exact ⟨w, List.mem_cons_of_mem _ hw⟩
      · rintro ⟨w, hw⟩
        rcases List.mem_cons.1 hw with he | hw
        · exact absurd (Prod.mk.inj he).1.symm hk
        · exact ⟨w, hw⟩

/-- Where no key is repeated, a look-up finds the entries that there are. -/
theorem get?_eq_some_iff_mem {d : Dict α} (hkeys : (Dict.keys d).Nodup) {key : String}
    {x : α} : Dict.get? key d = some x ↔ (key, x) ∈ d := by
  refine ⟨Dict.mem_of_get?, fun hmem => ?_⟩
  induction d with
  | nil => cases hmem
  | cons e rest ih =>
    obtain ⟨k, y⟩ := e
    obtain ⟨hk, hrest⟩ := List.nodup_cons.1 hkeys
    rw [Dict.get?_cons]
    rcases List.mem_cons.1 hmem with h | h
    · cases h
      exact if_pos rfl
    · have hne : k ≠ key := by
        rintro rfl
        exact hk (List.mem_map.2 ⟨_, h, rfl⟩)
      rw [if_neg hne]
      exact ih hrest h

/-! ## Entries that are added -/

/-- There is something in a dictionary to which something was added. -/
theorem insert_ne_nil (key : String) (v : α) (d : Dict α) : insert key v d ≠ [] := by
  cases d with
  | nil => simp [insert]
  | cons e rest =>
    unfold insert
    split
    · simp
    · split <;> simp

/-- A dictionary contains a key that was added, and those that it contained before. -/
theorem contains_insert (d : Dict α) (key other : String) (v : α) :
    (insert key v d).contains other = (decide (key = other) || d.contains other) := by
  rw [contains, get?_insert, contains]
  split
  · next h => simp [h]
  · next h => simp [h]

/-- A new entry goes beside those that are there. -/
theorem mem_insert_iff {d : Dict α} {key : String} {v : α} (h : d.contains key = false) {e : String × α} :
    e ∈ insert key v d ↔ e = (key, v) ∨ e ∈ d := by
  refine ⟨mem_insert, ?_⟩
  induction d with
  | nil => simp [insert]
  | cons entry rest ih =>
    obtain ⟨k, old⟩ := entry
    rw [contains, get?_cons] at h
    split at h
    · cases h
    next hk =>
    unfold insert
    split
    · simp
    · rw [if_neg (Ne.symm hk)]
      rintro (he | he)
      · exact List.mem_cons_of_mem _ (ih h (.inl he))
      · rcases List.mem_cons.1 he with rfl | he
        · exact List.mem_cons_self ..
        · exact List.mem_cons_of_mem _ (ih h (.inr he))

/-- Adding an entry adds its value to those that there are, and may drop the one whose place it takes. -/
theorem values_insert_subperm (d : Dict α) (key : String) (v : α) :
    (Dict.values (d.insert key v)).Subperm (v :: Dict.values d) := by
  induction d with
  | nil => exact List.Subperm.refl _
  | cons e rest ih =>
    obtain ⟨k, old⟩ := e
    unfold Dict.insert
    split
    · exact List.Subperm.refl _
    · split
      · exact ((List.sublist_cons_self old _).cons_cons v).subperm
      · exact ((List.subperm_cons old).2 ih).trans (List.Perm.swap v old _).subperm

/-- What holds of entries, and of one that is added to them, holds of all. -/
theorem forall_mem_concat {κ : Type v} {P : α → Prop} {entries : List (κ × α)} (h : ∀ e ∈ entries, P e.2)
    {key : κ} {x : α} (hx : P x) : ∀ e ∈ entries ++ [(key, x)], P e.2 :=
  List.forall_mem_append.2 ⟨h, List.forall_mem_singleton.2 hx⟩

/-! ## Dictionaries made from entries -/

/-- What is in a dictionary after entries were added is one of them or was there before. -/
theorem mem_foldl_insert {entries : List (String × α)} {d : Dict α} {e : String × α}
    (h : e ∈ entries.foldl (fun d (k, value) => insert k value d) d) : e ∈ entries ∨ e ∈ d := by
  induction entries generalizing d with
  | nil => exact .inr h
  | cons entry rest ih =>
    rcases ih h with h | h
    · exact .inl (List.mem_cons_of_mem _ h)
    · rcases mem_insert h with rfl | h
      · exact .inl (List.mem_cons_self ..)
      · exact .inr h

/-- The dictionary of a list has no other entries than the list. -/
theorem mem_of_mem_ofList {entries : List (String × α)} {e : String × α}
    (h : e ∈ ofList entries) : e ∈ entries := by
  rcases mem_foldl_insert h with h | h
  · exact h
  · cases h

@[simp] theorem get?_ofList_nil (key : String) : get? key (ofList ([] : List (String × α))) = none :=
  rfl

@[simp] theorem get?_ofList_append (d e : List (String × α)) (key : String) :
    get? key (ofList (d ++ e)) = (get? key (ofList e)).or (get? key (ofList d)) := by
  simp only [get?_ofList, List.reverse_append, get?_append]

/-- The first of some entries counts last. -/
@[simp] theorem get?_ofList_cons (k : String) (value : α) (rest : List (String × α)) (key : String) :
    get? key (ofList ((k, value) :: rest)) =
      (get? key (ofList rest)).or (if k = key then some value else none) := by
  simp only [get?_ofList, List.reverse_cons, get?_append, get?_cons, get?_nil]

theorem get?_ofList_eq_none {entries : List (String × α)} {key : String}
    (h : ∀ e ∈ entries, e.1 ≠ key) : get? key (ofList entries) = none :=
  get?_eq_none_of_forall_ne fun e he => h e (mem_of_mem_ofList he)

/-- Adding an entry at the end of a list puts it into the dictionary. -/
theorem ofList_concat (entries : List (String × α)) (key : String) (value : α) :
    ofList (entries ++ [(key, value)]) = insert key value (ofList entries) := by
  rw [ofList, List.foldl_append]
  rfl

/-! ## Bindings of a key -/

/-- The entries under a key, in order. -/
def bindings (key : String) (entries : List (String × α)) : List (String × α) :=
  entries.filter fun e => decide (e.1 = key)

theorem mem_bindings {key : String} {entries : List (String × α)} {e : String × α} :
    e ∈ bindings key entries ↔ e ∈ entries ∧ e.1 = key := by
  simp [bindings]

/-- The bindings in two lists are those in the first and then those in the second. -/
@[simp] theorem bindings_append (key : String) (d e : List (String × α)) :
    bindings key (d ++ e) = bindings key d ++ bindings key e :=
  List.filter_append ..

/-- A key has no bindings if it is not among the keys. -/
theorem bindings_eq_nil_iff {key : String} {entries : List (String × α)} :
    bindings key entries = [] ↔ key ∉ keys entries := by
  rw [bindings, List.filter_eq_nil_iff, keys, List.mem_map, not_exists]
  exact forall_congr' fun e => by simp

/-- A look-up finds the first binding. -/
theorem get?_eq_head?_bindings (key : String) (entries : List (String × α)) :
    get? key entries = (bindings key entries).head?.map Prod.snd := by
  induction entries with
  | nil => rfl
  | cons e rest ih =>
    obtain ⟨k, v⟩ := e
    rw [get?_cons, ih]
    by_cases hk : k = key <;> simp [bindings, hk]

theorem get?_eq_none_iff {key : String} {entries : List (String × α)} :
    get? key entries = none ↔ key ∉ keys entries := by
  rw [get?_eq_head?_bindings, Option.map_eq_none_iff, List.head?_eq_none_iff, bindings_eq_nil_iff]

/-- A look-up from the end finds the last binding. -/
theorem get?_reverse_eq_getLast?_bindings (key : String) (entries : List (String × α)) :
    get? key entries.reverse = (bindings key entries).getLast?.map Prod.snd := by
  rw [get?_eq_head?_bindings, bindings, List.filter_reverse, List.head?_reverse]
  rfl

/-- A dictionary depends on the bindings of each key only. -/
theorem ofList_congr {d e : List (String × α)} (h : ∀ key, bindings key d = bindings key e) :
    ofList d = ofList e :=
  ext_get? (sorted_ofList d) (sorted_ofList e) fun key => by
    rw [get?_ofList, get?_ofList, get?_reverse_eq_getLast?_bindings, get?_reverse_eq_getLast?_bindings, h]

/-- Without a repeated key there is what is looked up, or nothing. -/
theorem bindings_of_nodup {d : List (String × α)} (hd : (keys d).Nodup) (key : String) :
    bindings key d = ((get? key d).map (Prod.mk key)).toList := by
  induction d with
  | nil => rfl
  | cons e rest ih =>
    obtain ⟨k, v⟩ := e
    obtain ⟨hfresh, hrest⟩ : k ∉ keys rest ∧ (keys rest).Nodup := List.nodup_cons.1 hd
    by_cases hk : k = key
    · subst hk
      have hnone := bindings_eq_nil_iff.2 hfresh
      rw [bindings] at hnone
      simp [bindings, get?_cons, hnone]
    · have ih := ih hrest
      rw [bindings] at ih
      simp [bindings, get?_cons, hk, ih]

/-- Entries without a repeated key are those of their dictionary. -/
theorem bindings_ofList {d : List (String × α)} (hd : (keys d).Nodup) (key : String) :
    bindings key (ofList d) = bindings key d := by
  rw [bindings_of_nodup (sorted_ofList d).nodup_keys, get?_ofList, get?_reverse_eq_getLast?_bindings,
    bindings_of_nodup hd]
  cases get? key d <;> rfl

/-- A key that no entry has is no key of their dictionary. -/
theorem not_mem_keys_ofList {entries : List (String × α)} {key : String} (h : key ∉ keys entries) :
    key ∉ keys (ofList entries) := by
  intro hkey
  obtain ⟨e, he, rfl⟩ := List.mem_map.1 hkey
  exact h (List.mem_map_of_mem (mem_of_mem_ofList he))

/-- The keys of a dictionary are those of the entries it was made from. -/
theorem mem_keys_ofList {entries : List (String × α)} {key : String} :
    key ∈ Dict.keys (Dict.ofList entries) ↔ key ∈ Dict.keys entries := by
  rw [← not_iff_not, ← Dict.get?_eq_none_iff, Dict.get?_ofList, Dict.get?_eq_none_iff]
  simp [Dict.keys]

/-- Entries with different keys may be gathered in one dictionary or in two. -/
theorem bindings_ofList_append {d e : List (String × α)} (hdisjoint : (keys d).Disjoint (keys e))
    (key : String) :
    bindings key (ofList (d ++ e)) = bindings key (ofList d) ++ bindings key (ofList e) := by
  have hget : get? key (ofList (d ++ e)) = (get? key (ofList e)).or (get? key (ofList d)) := by
    rw [get?_ofList, get?_ofList, get?_ofList, List.reverse_append, get?_append]
  have hnodup : ∀ entries : List (String × α), (keys (ofList entries)).Nodup :=
    fun entries => (sorted_ofList entries).nodup_keys
  rw [bindings_of_nodup (hnodup _), hget]
  by_cases hd : key ∈ keys d
  · have he := not_mem_keys_ofList (hdisjoint hd)
    rw [bindings_eq_nil_iff.2 he, get?_eq_none_iff.2 he, bindings_of_nodup (hnodup d),
      Option.none_or, List.append_nil]
  · have hd := not_mem_keys_ofList hd
    rw [bindings_eq_nil_iff.2 hd, get?_eq_none_iff.2 hd, bindings_of_nodup (hnodup e),
      Option.or_none, List.nil_append]

/-- Where entries are dropped by their keys, so are bindings. -/
theorem bindings_filter (p : String → Bool) (key : String) (entries : List (String × α)) :
    bindings key (entries.filter fun e => p e.1) = (bindings key entries).filter fun e => p e.1 := by
  rw [bindings, bindings, List.filter_filter, List.filter_filter]
  simp only [Bool.and_comm]

/-- Where values are replaced or dropped, so are those of bindings. -/
theorem bindings_filterMap (f : α → Option β) (key : String) (entries : List (String × α)) :
    bindings key (entries.filterMap fun e => (f e.2).map (Prod.mk e.1)) =
      (bindings key entries).filterMap fun e => (f e.2).map (Prod.mk e.1) := by
  induction entries with
  | nil => rfl
  | cons e rest ih =>
    obtain ⟨k, v⟩ := e
    rw [bindings, bindings] at *
    cases hf : f v <;> by_cases hk : k = key <;> simp [hf, hk, ih]

/-! ## Values that are replaced, entries that are dropped -/

/-- Replacing values depends on what becomes of those that there are. -/
theorem mapValues_congr {f g : α → β} {d : Dict α} (h : ∀ e ∈ d, f e.2 = g e.2) :
    d.mapValues f = d.mapValues g := by
  apply List.map_congr_left
  intro e he
  exact congrArg (Prod.mk e.1) (h e he)

/-- A dictionary stays as it is where every value is replaced by itself. -/
theorem mapValues_eq_self {f : α → α} {d : Dict α} (h : ∀ e ∈ d, f e.2 = e.2) :
    d.mapValues f = d := by
  rw [mapValues_congr (g := fun x => x) h]
  simp [mapValues]

/-- A dictionary with the values that a function makes of its entries. -/
def mapEntries (f : String → α → β) (d : Dict α) : Dict β :=
  d.map fun (k, x) => (k, f k x)

/-- A look-up finds what was made of the value under the key. -/
theorem get?_mapEntries (f : String → α → β) (d : Dict α) (key : String) :
    Dict.get? key (Dict.mapEntries f d) = (Dict.get? key d).map (f key) := by
  induction d with
  | nil => rfl
  | cons e rest ih =>
    obtain ⟨k, x⟩ := e
    simp only [mapEntries, List.map_cons, get?_cons] at ih ⊢
    by_cases hk : k = key
    · simp [hk]
    · rw [if_neg hk, if_neg hk]
      exact ih

/-- A dictionary with another value under a key. -/
def modify (key : String) (f : α → α) (d : Dict α) : Dict α :=
  d.mapEntries fun k x => if k = key then f x else x

theorem get?_modify (key : String) (f : α → α) (d : Dict α) :
    Dict.get? key (Dict.modify key f d) = (Dict.get? key d).map f := by
  simp [modify, get?_mapEntries]

/-- What is left of a dictionary when some of the keys are dropped. -/
theorem get?_filter (p : String → Bool) (d : Dict α) (key : String) :
    get? key (d.filter fun (k, _) => p k) = if p key then get? key d else none := by
  induction d with
  | nil => simp
  | cons entry rest ih =>
    obtain ⟨k, value⟩ := entry
    by_cases hk : k = key
    · subst hk
      by_cases hp : p k = true
      · rw [List.filter_cons_of_pos (by exact hp), get?_cons, get?_cons, if_pos hp]
        simp
      · rw [List.filter_cons_of_neg (by exact hp), ih, if_neg hp, if_neg hp]
    · rw [get?_cons, if_neg hk, ← ih]
      by_cases hp : p k = true
      · rw [List.filter_cons_of_pos (by exact hp), get?_cons, if_neg hk]
      · rw [List.filter_cons_of_neg (by exact hp)]

theorem Sorted.filter {d : Dict α} (hd : d.Sorted) (p : String × α → Bool) :
    Sorted (List.filter p d) :=
  List.Pairwise.sublist List.filter_sublist hd

end WebOfThings.Dict
