/-!
# Dictionaries

Finite maps from texts, kept as lists of entries in increasing order of their keys. A dictionary has one
form only, so that two dictionaries with the same entries are the same list, and every output lists entries
in that order.

All tables of the model are dictionaries: the members of objects, affordances by name, security definitions,
prefixes, credentials, codecs, factories and things. Where the program iterates over a hash table the order
of its output is not determined, and what is compared with it is sorted; here the order is part of the
type's use and nothing depends on how a table was filled.

`insert` replaces what was there, `erase` takes it out, and `ofList` inserts from left to right, so of two
entries under one key the last one counts. That the entries are in order is the predicate `Sorted`; it is
kept by every operation, and the values the program can hold carry it as part of their canonical form.

Main statements: `get?_insert`, `get?_erase` (what one operation does to every key), `mem_insert`,
`sorted_ofList` (a dictionary made from a list is in order) and `ext_get?` (a sorted dictionary is
determined by its look-ups).
-/

namespace WebOfThings

universe u v

/-- Entries by key. -/
abbrev Dict (α : Type u) := List (String × α)

namespace Dict

variable {α : Type u} {β : Type v}

/-- The keys increase strictly. -/
def Sorted (d : Dict α) : Prop := d.Pairwise fun a b => a.1 < b.1

/-- The value under a key. -/
def get? (key : String) : Dict α → Option α
  | [] => none
  | (k, value) :: rest => if k = key then some value else get? key rest

/-- Whether a key has a value. -/
def contains (d : Dict α) (key : String) : Bool := (get? key d).isSome

/-- The dictionary with `value` under `key`, in place of what was there. -/
def insert (key : String) (value : α) : Dict α → Dict α
  | [] => [(key, value)]
  | (k, old) :: rest =>
    if key < k then (key, value) :: (k, old) :: rest
    else if key = k then (key, value) :: rest
    else (k, old) :: insert key value rest

/-- The dictionary without a key. -/
def erase (key : String) : Dict α → Dict α
  | [] => []
  | (k, value) :: rest => if k = key then rest else (k, value) :: erase key rest

/-- The dictionary of a list of entries, of which the last one under a key counts. -/
def ofList (entries : List (String × α)) : Dict α :=
  entries.foldl (fun d (k, value) => insert k value d) []

/-- The keys in order. -/
def keys (d : Dict α) : List String := d.map Prod.fst

/-- The values in the order of their keys. -/
def values (d : Dict α) : List α := d.map Prod.snd

/-- The dictionary with every value replaced. -/
def mapValues (f : α → β) (d : Dict α) : Dict β := d.map fun (k, value) => (k, f value)

/-! ## Look-ups after one operation -/

@[simp] theorem get?_nil (key : String) : get? key ([] : Dict α) = none := rfl

theorem get?_cons (key k : String) (value : α) (rest : Dict α) :
    get? key ((k, value) :: rest) = if k = key then some value else get? key rest := rfl

/-- What an added entry does to every look-up. -/
theorem get?_insert (d : Dict α) (key other : String) (value : α) :
    get? other (insert key value d) = if key = other then some value else get? other d := by
  induction d with
  | nil => simp [insert, get?_cons]
  | cons entry rest ih =>
    obtain ⟨k, old⟩ := entry
    unfold insert
    split
    · rw [get?_cons]
    · split
      · next h =>
        subst h
        simp only [get?_cons]
        split <;> rfl
      · next h =>
        simp only [get?_cons, ih]
        by_cases hk : k = other
        · have : key ≠ other := fun e => h (e.trans hk.symm)
          simp [hk, this]
        · simp [hk]

/-- Under a key that no entry has nothing is found. -/
theorem get?_eq_none_of_forall_ne {d : Dict α} {key : String} (h : ∀ e ∈ d, e.1 ≠ key) :
    get? key d = none := by
  induction d with
  | nil => rfl
  | cons entry rest ih =>
    rw [get?_cons, if_neg (h entry (by simp))]
    exact ih fun e he => h e (by simp [he])

/-- What erasing a key does to every look-up. -/
theorem get?_erase {d : Dict α} (hd : d.Sorted) (key other : String) :
    get? other (erase key d) = if key = other then none else get? other d := by
  induction d with
  | nil => simp [erase]
  | cons entry rest ih =>
    obtain ⟨k, value⟩ := entry
    have hrest := List.pairwise_cons.1 hd
    unfold erase
    split
    · next h =>
      subst h
      by_cases ho : k = other
      · subst ho
        rw [if_pos rfl]
        refine get?_eq_none_of_forall_ne fun e he hek => ?_
        have := hrest.1 e he
        rw [hek] at this
        exact String.lt_irrefl _ this
      · rw [if_neg ho, get?_cons, if_neg ho]
    · next h =>
      rw [get?_cons, ih hrest.2, get?_cons]
      by_cases ho : k = other
      · have : key ≠ other := fun e => h (ho.trans e.symm)
        simp [ho, this]
      · simp [ho]

/-- A look-up finds what became of the value under the key. -/
theorem get?_mapValues (f : α → β) (d : Dict α) (key : String) :
    get? key (d.mapValues f) = (get? key d).map f := by
  induction d with
  | nil => rfl
  | cons entry rest ih =>
    obtain ⟨k, value⟩ := entry
    rw [mapValues, List.map_cons, get?_cons, get?_cons]
    by_cases hk : k = key
    · simp [hk]
    · rw [if_neg hk, if_neg hk]
      exact ih

/-- Values may be replaced before or after one is added. -/
theorem mapValues_insert (f : α → β) (d : Dict α) (key : String) (value : α) :
    (d.insert key value).mapValues f = (d.mapValues f).insert key (f value) := by
  induction d with
  | nil => rfl
  | cons entry rest ih =>
    obtain ⟨k, old⟩ := entry
    unfold mapValues at ih ⊢
    rw [insert, List.map_cons, insert]
    split
    · rfl
    · split
      · rfl
      · rw [List.map_cons, ih]

/-! ## Operations keep the order -/

theorem sorted_nil : Sorted ([] : Dict α) := List.Pairwise.nil

/-- After an entry was added there is it and what was there before. -/
theorem mem_insert {d : Dict α} {key : String} {value : α} {e : String × α}
    (h : e ∈ insert key value d) : e = (key, value) ∨ e ∈ d := by
  induction d with
  | nil => simpa [insert] using h
  | cons entry rest ih =>
    obtain ⟨k, old⟩ := entry
    unfold insert at h
    split at h
    · simpa using h
    · split at h
      · simp only [List.mem_cons] at h ⊢
        exact h.imp_right .inr
      · simp only [List.mem_cons] at h ⊢
        rcases h with h | h
        · exact .inr (.inl h)
        · rcases ih h with h | h
          · exact .inl h
          · exact .inr (.inr h)

/-- Of two different texts one comes first. -/
theorem lt_of_not_lt_of_ne {a b : String} (h : ¬ a < b) (hne : a ≠ b) : b < a := by
  grind

/-- Adding an entry keeps the order. -/
protected theorem Sorted.insert {d : Dict α} (hd : d.Sorted) (key : String) (value : α) :
    (Dict.insert key value d).Sorted := by
  induction d with
  | nil => simp [Dict.insert, Sorted]
  | cons entry rest ih =>
    obtain ⟨k, old⟩ := entry
    have hrest := List.pairwise_cons.1 hd
    unfold Dict.insert
    split
    · next h =>
      refine List.pairwise_cons.2 ⟨fun e he => ?_, hd⟩
      rcases List.mem_cons.1 he with rfl | he
      · exact h
      · exact String.lt_trans h (hrest.1 e he)
    · next hlt =>
      split
      · next h =>
        subst h
        exact List.pairwise_cons.2 ⟨hrest.1, hrest.2⟩
      · next hne =>
        refine List.pairwise_cons.2 ⟨fun e he => ?_, ih hrest.2⟩
        rcases mem_insert he with rfl | he
        · exact lt_of_not_lt_of_ne hlt hne
        · exact hrest.1 e he

/-- What is left after erasing was there before. -/
theorem mem_of_mem_erase {d : Dict α} {key : String} {e : String × α} (h : e ∈ erase key d) :
    e ∈ d := by
  induction d with
  | nil => exact h
  | cons entry rest ih =>
    obtain ⟨k, value⟩ := entry
    unfold erase at h
    split at h
    · exact List.mem_cons_of_mem _ h
    · rcases List.mem_cons.1 h with rfl | h
      · exact List.mem_cons_self ..
      · exact List.mem_cons_of_mem _ (ih h)

/-- Erasing a key keeps the order. -/
protected theorem Sorted.erase {d : Dict α} (hd : d.Sorted) (key : String) :
    (Dict.erase key d).Sorted := by
  induction d with
  | nil => exact hd
  | cons entry rest ih =>
    obtain ⟨k, value⟩ := entry
    have hrest := List.pairwise_cons.1 hd
    unfold Dict.erase
    split
    · exact hrest.2
    · exact List.pairwise_cons.2 ⟨fun e he => hrest.1 e (mem_of_mem_erase he), ih hrest.2⟩

/-- Adding many entries keeps the order. -/
theorem sorted_foldl_insert (entries : List (String × α)) {d : Dict α} (hd : d.Sorted) :
    (entries.foldl (fun d (k, value) => insert k value d) d).Sorted := by
  induction entries generalizing d with
  | nil => exact hd
  | cons entry rest ih => exact ih (hd.insert entry.1 entry.2)

/-- The dictionary of a list is in order. -/
theorem sorted_ofList (entries : List (String × α)) : (ofList entries).Sorted :=
  sorted_foldl_insert entries sorted_nil

/-- Replacing values keeps the order. -/
theorem Sorted.mapValues {d : Dict α} (hd : d.Sorted) (f : α → β) : (d.mapValues f).Sorted := by
  unfold Dict.mapValues Sorted at *
  exact List.pairwise_map.2 hd

/-! ## A sorted dictionary is determined by its look-ups -/

/-- Sorted dictionaries in which every look-up finds the same are the same. -/
theorem ext_get? {d e : Dict α} (hd : d.Sorted) (he : e.Sorted)
    (h : ∀ key, get? key d = get? key e) : d = e := by
  induction d generalizing e with
  | nil =>
    cases e with
    | nil => rfl
    | cons entry rest =>
      have := h entry.1
      rw [get?_nil, show entry = (entry.1, entry.2) from rfl, get?_cons, if_pos rfl] at this
      cases this
  | cons entry rest ih =>
    obtain ⟨k, value⟩ := entry
    cases e with
    | nil =>
      have := h k
      simp [get?_cons] at this
    | cons entry' rest' =>
      obtain ⟨k', value'⟩ := entry'
      have hr := List.pairwise_cons.1 hd
      have hr' := List.pairwise_cons.1 he
      have absent : ∀ {k l : String} {r : Dict α}, (∀ e ∈ r, l < e.1) → k ≤ l →
          get? k r = none := by
        intro k l r hl hkl
        refine get?_eq_none_of_forall_ne fun e he hek => ?_
        have := hl e he
        rw [hek] at this
        exact String.not_lt.2 hkl this
      -- The smaller of the two first keys would be missing in the other dictionary.
      have hk : k = k' := by
        by_cases hk : k = k'
        · exact hk
        · rcases String.le_total k k' with hle | hle
          · have := h k
            rw [get?_cons, if_pos rfl, get?_cons, if_neg (Ne.symm hk), absent hr'.1 hle] at this
            cases this
          · have := h k'
            rw [get?_cons, if_neg hk, get?_cons, if_pos rfl, absent hr.1 hle] at this
            cases this
      subst hk
      have hv := h k
      simp only [get?_cons, if_true, Option.some.injEq] at hv
      subst hv
      congr 1
      -- Neither rest holds the common first key, so dropping it keeps all look-ups equal.
      refine ih hr.2 hr'.2 fun key => ?_
      by_cases hkey : k = key
      · subst hkey
        rw [absent hr.1 (String.le_refl k), absent hr'.1 (String.le_refl k)]
      · have := h key
        rwa [get?_cons, if_neg hkey, get?_cons, if_neg hkey] at this

/-! ## Dictionaries from lists -/

/-- The first of two lists of entries is looked at first. -/
theorem get?_append (d e : List (String × α)) (key : String) :
    get? key (d ++ e) = (get? key d).or (get? key e) := by
  induction d with
  | nil => simp
  | cons entry rest ih =>
    obtain ⟨k, value⟩ := entry
    rw [List.cons_append, get?_cons, get?_cons, ih]
    split <;> simp

/-- After entries were added, the last one under a key is found, or else what was there before. -/
theorem get?_foldl_insert (entries : List (String × α)) (d : Dict α) (key : String) :
    get? key (entries.foldl (fun d (k, value) => insert k value d) d)
      = (get? key entries.reverse).or (get? key d) := by
  induction entries generalizing d with
  | nil => simp
  | cons entry rest ih =>
    obtain ⟨k, value⟩ := entry
    rw [List.foldl_cons, ih, get?_insert, List.reverse_cons, get?_append, get?_cons, get?_nil]
    cases get? key rest.reverse <;> by_cases h : k = key <;> simp [h]

/-- Of the entries under a key the last one counts. -/
theorem get?_ofList (entries : List (String × α)) (key : String) :
    get? key (ofList entries) = get? key entries.reverse := by
  simp [ofList, get?_foldl_insert]

/-- What is found under a key is one of the entries. -/
theorem mem_of_get? {d : Dict α} {key : String} {value : α} (h : get? key d = some value) :
    (key, value) ∈ d := by
  induction d with
  | nil => cases h
  | cons entry rest ih =>
    obtain ⟨k, old⟩ := entry
    rw [get?_cons] at h
    split at h
    · next hk =>
      cases h
      simp [hk]
    · exact List.mem_cons_of_mem _ (ih h)

/-- In a sorted dictionary every entry is found under its key. -/
theorem get?_of_mem {d : Dict α} (hd : d.Sorted) {key : String} {value : α}
    (h : (key, value) ∈ d) : get? key d = some value := by
  induction d with
  | nil => cases h
  | cons entry rest ih =>
    obtain ⟨k, old⟩ := entry
    have hr := List.pairwise_cons.1 hd
    rw [get?_cons]
    rcases List.mem_cons.1 h with h | h
    · cases h
      simp
    · have : k ≠ key := fun e => String.lt_irrefl key (by have := hr.1 _ h; rwa [e] at this)
      rw [if_neg this]
      exact ih hr.2 h

/-- In a sorted dictionary it does not matter from which end a key is looked up. -/
theorem get?_reverse {d : Dict α} (hd : d.Sorted) (key : String) :
    get? key d.reverse = get? key d := by
  induction d with
  | nil => rfl
  | cons entry rest ih =>
    obtain ⟨k, old⟩ := entry
    have hr := List.pairwise_cons.1 hd
    rw [List.reverse_cons, get?_append, ih hr.2, get?_cons, get?_cons, get?_nil]
    by_cases h : k = key
    · subst h
      rw [get?_eq_none_of_forall_ne fun e he hek => ?_]
      · simp
      · have := hr.1 e he
        rw [hek] at this
        exact String.lt_irrefl _ this
    · simp [h]

/-- A dictionary is the dictionary of its entries. -/
theorem ofList_eq_self {d : Dict α} (hd : d.Sorted) : ofList d = d :=
  ext_get? (sorted_ofList d) hd fun key => by rw [get?_ofList, get?_reverse hd]

end Dict
end WebOfThings
