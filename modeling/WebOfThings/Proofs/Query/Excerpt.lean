import WebOfThings.Proofs.Json.Normal
import WebOfThings.Query

/-!
# Weaker queries

An *excerpt* of a value is that value with members of its objects and items of its arrays left out, at any
depth (`Excerpt`). A query asks for less if its template is an excerpt.

A normal value contains its excerpts (`contains_excerpt`). Asking for less finds at least as much as long as
objects are compared with objects only (`contains_excerpt_or_heldWhole`, by induction over the template). Where
an object of the template stands opposite an array, it is looked for among the items as a whole, and an excerpt
of it need not be there: every query that asks for a non-empty object inside of objects has a description that
it finds and that a weaker query does not find (`exists_losesExcerpt`).
-/

namespace WebOfThings

namespace Json

/-! ## Excerpts -/

mutual

/-- The first value is the second one with members of objects or items of arrays left out, at any depth. -/
inductive Excerpt : Json → Json → Prop where
  | all (v : Json) : Excerpt v v
  | arr {items others : List Json} (h : ExcerptItems items others) : Excerpt (.arr items) (.arr others)
  | obj {members others : List (String × Json)} (h : ExcerptMembers members others) :
    Excerpt (.obj members) (.obj others)

/-- Items of arrays are left out, or kept as an excerpt. -/
inductive ExcerptItems : List Json → List Json → Prop where
  | nil : ExcerptItems [] []
  | drop (v : Json) {items others : List Json} (h : ExcerptItems items others) :
    ExcerptItems items (v :: others)
  | keep {v w : Json} {items others : List Json} (hv : Excerpt v w) (h : ExcerptItems items others) :
    ExcerptItems (v :: items) (w :: others)

/-- Members of objects are left out, or kept under their names as an excerpt. -/
inductive ExcerptMembers : List (String × Json) → List (String × Json) → Prop where
  | nil : ExcerptMembers [] []
  | drop (m : String × Json) {members others : List (String × Json)} (h : ExcerptMembers members others) :
    ExcerptMembers members (m :: others)
  | keep (key : String) {v w : Json} {members others : List (String × Json)} (hv : Excerpt v w)
    (h : ExcerptMembers members others) : ExcerptMembers ((key, v) :: members) ((key, w) :: others)

end

/-- An item of an excerpt is an excerpt of an item. -/
theorem ExcerptItems.exists_mem {items others : List Json} (h : ExcerptItems items others) :
    ∀ v ∈ items, ∃ w ∈ others, Excerpt v w := by
  induction others generalizing items with
  | nil =>
    cases h
    exact List.forall_mem_nil _
  | cons w rest ih =>
    intro v hv
    cases h with
    | drop _ h =>
      obtain ⟨u, hu, hvu⟩ := ih h v hv
      exact ⟨u, List.mem_cons_of_mem _ hu, hvu⟩
    | keep hw h =>
      rcases List.mem_cons.1 hv with rfl | hv
      · exact ⟨w, List.mem_cons_self .., hw⟩
      · obtain ⟨u, hu, hvu⟩ := ih h v hv
        exact ⟨u, List.mem_cons_of_mem _ hu, hvu⟩

/-- A member of an excerpt is an excerpt of the member of its name. -/
theorem ExcerptMembers.exists_mem {members others : List (String × Json)}
    (h : ExcerptMembers members others) :
    ∀ m ∈ members, ∃ w, (m.1, w) ∈ others ∧ Excerpt m.2 w := by
  induction others generalizing members with
  | nil =>
    cases h
    exact List.forall_mem_nil _
  | cons n rest ih =>
    intro m hm
    cases h with
    | drop _ h =>
      obtain ⟨w, hw, hmw⟩ := ih h m hm
      exact ⟨w, List.mem_cons_of_mem _ hw, hmw⟩
    | keep key hn h =>
      rcases List.mem_cons.1 hm with rfl | hm
      · exact ⟨_, List.mem_cons_self .., hn⟩
      · obtain ⟨w, hw, hmw⟩ := ih h m hm
        exact ⟨w, List.mem_cons_of_mem _ hw, hmw⟩

theorem excerptMembers_nil (members : List (String × Json)) : ExcerptMembers [] members := by
  induction members with
  | nil => exact .nil
  | cons m rest ih => exact .drop m ih

/-- An excerpt may be made of a single member. -/
theorem excerptMembers_singleton {members : List (String × Json)} {key : String} {v w : Json}
    (hw : (key, w) ∈ members) (hv : Excerpt v w) : ExcerptMembers [(key, v)] members := by
  induction members with
  | nil => cases hw
  | cons m rest ih =>
    rcases List.mem_cons.1 hw with rfl | hw
    · exact .keep key hv (excerptMembers_nil rest)
    · exact .drop m (ih hw)

/-! ## What excerpts are found in -/

/-- An excerpt of an array is an array of excerpts of its items. -/
theorem Excerpt.exists_arr {part : Json} {items : List Json} (h : Excerpt part (.arr items)) :
    ∃ kept, part = .arr kept ∧ ∀ v ∈ kept, ∃ w ∈ items, Excerpt v w := by
  cases h with
  | all => exact ⟨items, rfl, fun v hv => ⟨v, hv, .all v⟩⟩
  | arr hitems => exact ⟨_, rfl, hitems.exists_mem⟩

/-- An excerpt of an object is an object of excerpts of its members, each under its name. -/
theorem Excerpt.exists_obj {part : Json} {members : List (String × Json)}
    (h : Excerpt part (.obj members)) :
    ∃ kept, part = .obj kept ∧ ∀ m ∈ kept, ∃ w, (m.1, w) ∈ members ∧ Excerpt m.2 w := by
  cases h with
  | all => exact ⟨members, rfl, fun m hm => ⟨m.2, hm, .all m.2⟩⟩
  | obj hmembers => exact ⟨_, rfl, hmembers.exists_mem⟩

/-- A normal value contains its excerpts: each item that is left is found in the item it is left of, each
member under its name. -/
theorem contains_excerpt {v : Json} : ∀ {part : Json}, v.IsNormal → Excerpt part v →
    v.contains part = true := by
  refine forall_of_parts (P := fun v => ∀ {part : Json}, v.IsNormal → Excerpt part v →
    v.contains part = true) ?_ ?_ ?_ v
  · intro v harr hobj part _ hpart
    cases hpart with
    | all =>
      cases v with
      | arr items => exact absurd rfl (harr items)
      | obj members => exact absurd rfl (hobj members)
      | _ => exact eqv_refl _
    | arr => exact absurd rfl (harr _)
    | obj => exact absurd rfl (hobj _)
  · -- Nothing is asked about places: two items that are left may be found in one.
    intro items ih part hnormal hpart
    obtain ⟨kept, rfl, hkept⟩ := hpart.exists_arr
    rw [contains_arr_iff]
    intro p hp
    obtain ⟨w, hw, hpw⟩ := hkept p hp
    exact ⟨w, hw, ih w hw (isNormal_arr_iff.1 hnormal w hw) hpw⟩
  · intro members ih part hnormal hpart
    obtain ⟨kept, rfl, hkept⟩ := hpart.exists_obj
    obtain ⟨hsorted, hmembers⟩ := isNormal_obj_iff.1 hnormal
    rw [contains_obj_iff]
    intro p hp
    obtain ⟨w, hw, hpw⟩ := hkept p hp
    exact ⟨w, Dict.get?_of_mem hsorted hw, ih _ hw (hmembers _ hw) hpw⟩

/-- A normal value contains itself. -/
theorem contains_self {v : Json} (hv : v.IsNormal) : v.contains v = true :=
  contains_excerpt hv (.all v)

/-- Among the items of an array there is a non-empty object, as a whole, that the template has in the place
of the array. -/
inductive HeldWhole : Json → Json → Prop where
  | here {items : List Json} {members : List (String × Json)} (hne : members ≠ [])
    (h : ∃ v ∈ items, (v == .obj members) = true) : HeldWhole (.arr items) (.obj members)
  | member {members template : List (String × Json)} {key : String} {v t : Json}
    (hv : Dict.get? key members = some v) (ht : (key, t) ∈ template) (h : HeldWhole v t) :
    HeldWhole (.obj members) (.obj template)
  | item {items template : List Json} {v t : Json} (hv : v ∈ items) (ht : t ∈ template)
    (h : HeldWhole v t) : HeldWhole (.arr items) (.arr template)

/-- What contains a template contains its excerpts, unless it holds an object of the template as an item. -/
theorem contains_excerpt_or_heldWhole {template : Json} :
    ∀ {value part : Json}, Excerpt part template → value.contains template = true →
      value.contains part = true ∨ HeldWhole value template := by
  -- By induction over the template; the case that its own object is held is put aside at every level.
  refine forall_of_parts (P := fun template => ∀ {value part : Json}, Excerpt part template →
    value.contains template = true → value.contains part = true ∨ HeldWhole value template) ?_ ?_ ?_ template
  · intro v harr hobj value part hpart h
    cases hpart with
    | all => exact .inl h
    | arr => exact absurd rfl (harr _)
    | obj => exact absurd rfl (hobj _)
  · intro template ih value part hpart h
    by_cases hheld : HeldWhole value (.arr template)
    · exact .inr hheld
    obtain ⟨kept, rfl, hkept⟩ := hpart.exists_arr
    cases value with
    | arr items =>
      left
      rw [contains_arr_iff] at h ⊢
      intro p hp
      obtain ⟨t, ht, hpt⟩ := hkept p hp
      obtain ⟨v, hv, hvt⟩ := h t ht
      exact ⟨v, hv, (ih t ht hpt hvt).resolve_right fun hw => hheld (.item hv ht hw)⟩
    | _ => cases h
  · intro template ih value part hpart h
    by_cases hheld : HeldWhole value (.obj template)
    · exact .inr hheld
    obtain ⟨kept, rfl, hkept⟩ := hpart.exists_obj
    cases value with
    | obj members =>
      left
      rw [contains_obj_iff] at h ⊢
      intro p hp
      obtain ⟨t, ht, hpt⟩ := hkept p hp
      obtain ⟨v, hv, hvt⟩ := h _ ht
      exact ⟨v, hv, (ih _ ht hpt hvt).resolve_right fun hw => hheld (.member hv ht hw)⟩
    | arr items =>
      -- The object is one of the items; were it empty, there would be nothing to leave out.
      have hitem : ∃ v ∈ items, (v == .obj template) = true := List.any_eq_true.1 h
      by_cases hne : template = []
      · subst hne
        have hempty : kept = [] := List.eq_nil_iff_forall_not_mem.2 fun m hm =>
          List.not_mem_nil (hkept m hm).choose_spec.1
        exact .inl (hempty ▸ h)
      · exact absurd (.here hne hitem) hheld
    | _ => cases h

/-! ## What excerpts are not found in -/

/-- An object that stands in a value, inside of objects only. -/
inductive InsideObjects (members : List (String × Json)) : Json → Prop where
  | self : InsideObjects members (.obj members)
  | member {others : List (String × Json)} {key : String} {v : Json} (hv : (key, v) ∈ others)
    (h : InsideObjects members v) : InsideObjects members (.obj others)

/-- An object contains a template if it has the members of that, but for one that it has in another form. -/
theorem contains_insert {template : List (String × Json)} (hnormal : (Json.obj template).IsNormal)
    {key : String} {v t : Json} (ht : (key, t) ∈ template) (h : v.contains t = true) :
    (Json.obj (Dict.insert key v template)).contains (.obj template) = true := by
  obtain ⟨hsorted, hmembers⟩ := isNormal_obj_iff.1 hnormal
  rw [contains_obj_iff]
  intro m hm
  rw [Dict.get?_insert]
  split
  · next hkey =>
    have hm' : Dict.get? key template = some m.2 := hkey ▸ Dict.get?_of_mem hsorted hm
    have hmt : m.2 = t := Option.some.inj (hm'.symm.trans (Dict.get?_of_mem hsorted ht))
    exact ⟨v, rfl, hmt ▸ h⟩
  · exact ⟨m.2, Dict.get?_of_mem hsorted hm, contains_self (hmembers m hm)⟩

/-- A value contains a template, but not an excerpt of it. -/
structure LosesExcerpt (value part template : Json) : Prop where
  normal : value.IsNormal
  excerpt : Excerpt part template
  contains_template : value.contains template = true
  contains_part : value.contains part = false

/-- An array with an object as its only item loses the empty object. -/
theorem losesExcerpt_item {members : List (String × Json)} (hne : members ≠ [])
    (hnormal : (Json.obj members).IsNormal) :
    LosesExcerpt (.arr [.obj members]) (.obj []) (.obj members) where
  normal := isNormal_arr_iff.2 (List.forall_mem_singleton.2 hnormal)
  excerpt := .obj (excerptMembers_nil members)
  contains_template := by
    have hself : (Json.obj members == .obj members) = true := eqv_refl _
    simp [contains, hself]
  contains_part := by
    have hempty : (Json.obj members == .obj []) = false := by
      obtain ⟨m, rest, rfl⟩ := List.exists_cons_of_ne_nil hne
      rfl
    simp [contains, hempty]

/-- What the value of a member loses, an object with that member loses. -/
theorem LosesExcerpt.member {template : List (String × Json)} (hnormal : (Json.obj template).IsNormal)
    {key : String} {v p t : Json} (ht : (key, t) ∈ template) (h : LosesExcerpt v p t) :
    LosesExcerpt (.obj (Dict.insert key v template)) (.obj [(key, p)]) (.obj template) where
  normal := by
    obtain ⟨hsorted, hmembers⟩ := isNormal_obj_iff.1 hnormal
    refine isNormal_obj_iff.2 ⟨hsorted.insert key v, fun e he => ?_⟩
    rcases Dict.mem_insert he with rfl | he
    · exact h.normal
    · exact hmembers e he
  excerpt := .obj (excerptMembers_singleton ht h.excerpt)
  contains_template := contains_insert hnormal ht h.contains_template
  contains_part := by
    have hget : Dict.get? key (Dict.insert key v template) = some v := by
      rw [Dict.get?_insert, if_pos rfl]
    simp [contains, containsMembers, hget, h.contains_part]

/-- A template with a non-empty object inside of objects is contained in a value that does not contain all of
its excerpts: the value has an array in the place of that object. -/
theorem exists_losesExcerpt {template : Json} {members : List (String × Json)} (hne : members ≠ [])
    (hnormal : template.IsNormal) (h : InsideObjects members template) :
    ∃ value part, LosesExcerpt value part template := by
  induction h with
  | self => exact ⟨_, _, losesExcerpt_item hne hnormal⟩
  | member hv h ih =>
    obtain ⟨value, part, hlost⟩ := ih ((isNormal_obj_iff.1 hnormal).2 _ hv)
    exact ⟨_, _, hlost.member hnormal hv⟩

end Json

/-! ## Queries -/

namespace ThingQuery

open Json

/-- A description that a query matches is matched by every weaker query, unless it has an array that holds a
non-empty object of the template as a whole. Wherever a query asks for a non-empty object inside of objects,
such an array can stand: then there is a description that it matches and that a weaker query does not match. -/
theorem matchesValue_excerpt (q : ThingQuery) :
    (∀ (weaker : ThingQuery) (description : Json), Excerpt weaker.template q.template →
        q.matchesValue description = true →
        weaker.matchesValue description = true ∨ HeldWhole description q.template) ∧
      (q.template.IsNormal → ∀ (key : String) (v : Json) (members : List (String × Json)),
        (key, v) ∈ q.members → InsideObjects members v → members ≠ [] →
        ∃ (weaker : ThingQuery) (description : List (String × Json)),
          (Json.obj description).IsNormal ∧ Excerpt weaker.template q.template ∧
            q.matchesValue (.obj description) = true ∧ weaker.matchesValue (.obj description) = false) := by
  constructor
  · intro weaker description hweaker hmatch
    exact contains_excerpt_or_heldWhole hweaker hmatch
  · intro hnormal key v members hv hinside hne
    obtain ⟨value, part, hpart⟩ := exists_losesExcerpt hne ((isNormal_obj_iff.1 hnormal).2 _ hv) hinside
    have hlost := hpart.member hnormal hv
    exact ⟨⟨[(key, part)]⟩, Dict.insert key value q.members, hlost.normal, hlost.excerpt,
      hlost.contains_template, hlost.contains_part⟩

/-- A query for a form with a given target. -/
def formQuery : ThingQuery := ⟨[("forms", .obj [("href", .str "/all")])]⟩

/-- A weaker query, which asks for nothing of the form. -/
def anyFormQuery : ThingQuery := ⟨[("forms", .obj [])]⟩

theorem excerpt_anyFormQuery : Excerpt anyFormQuery.template formQuery.template :=
  .obj (.keep "forms" (.obj (excerptMembers_nil _)) .nil)

/-- The query for a form finds itself as a description and so does the weaker one; some weaker query does not find
some description that the query for a form finds. -/
theorem matchesValue_excerpt_form :
    (formQuery.matchesValue formQuery.template = true ∧
      (anyFormQuery.matchesValue formQuery.template = true ∨
        HeldWhole formQuery.template formQuery.template)) ∧
      ∃ (weaker : ThingQuery) (description : List (String × Json)),
        (Json.obj description).IsNormal ∧ Excerpt weaker.template formQuery.template ∧
          formQuery.matchesValue (.obj description) = true ∧
          weaker.matchesValue (.obj description) = false := by
  obtain ⟨hkeeps, hloses⟩ := matchesValue_excerpt formQuery
  refine ⟨⟨rfl, hkeeps anyFormQuery _ excerpt_anyFormQuery rfl⟩, ?_⟩
  exact hloses rfl "forms" _ _ (List.mem_singleton_self _) .self (List.cons_ne_nil _ _)

/-- The description of a thing with one form. -/
def roomDescription : Json :=
  .obj [("forms", .arr [.obj [("href", .str "/all")]]), ("id", .str "urn:room")]

/-- The query for an object finds the form among the forms of the thing; the query for an object of which
nothing is asked finds nothing. -/
theorem misses_weaker :
    ∃ t : Thing, Thing.ofJson roomDescription.normal = .ok t ∧ formQuery.template.IsNormal ∧
      Excerpt anyFormQuery.template formQuery.template ∧
      formQuery.matchesThing t = true ∧ anyFormQuery.matchesThing t = false :=
  ⟨_, rfl, rfl, excerpt_anyFormQuery, rfl, rfl⟩

end ThingQuery
end WebOfThings
