import WebOfThings.Context
import WebOfThings.Proofs.Json.Fields
import WebOfThings.Proofs.Results

/-!
# Vocabularies that read back

A vocabulary is built up member by member, in any order. What has been seen of the default vocabulary is an
IRI, keywords, or both, and `ContextEntry.ofParts?` is the entry for that: the invariant of the reader
(`Context.WellFormed`) says that the default entry always has this form, that the keys of its keywords and
those of the prefixes are kept apart by their first character, and that everything is in order.

`wellFormed_of_ofJson` establishes the invariant, `ofJson_toJson` uses it to read a vocabulary from what it
is written as.

The states of the reader are kept together by `Context.WellFormed`, with one lemma for each kind of step:
setting the default, adding a keyword, binding a name. A run over members or over elements is an induction
over them. What is written is read back by following these steps in the order in which the writer gives the
members, which is not the order in which they were read.
-/

namespace WebOfThings

open Json

namespace ContextEntry

/-- The default entry that names an IRI and has keywords, as far as there are any. -/
def ofParts? (iri : Option Iri) (keywords : Dict Json) : Option ContextEntry :=
  match iri, keywords with
  | none, [] => none
  | some i, [] => some (.iri i)
  | iri, k :: rest => some (.object iri (k :: rest))

/-- Where there are keywords, a vocabulary is an object. -/
theorem ofParts?_of_ne_nil {iri : Option Iri} {keywords : Dict Json} (h : keywords ≠ []) :
    ofParts? iri keywords = some (.object iri keywords) := by
  cases keywords with
  | nil => exact absurd rfl h
  | cons k rest => cases iri <;> rfl

end ContextEntry

namespace Context

open ContextEntry (ofParts? ofParts?_of_ne_nil)

/-- Whether a key is a keyword: it starts with `@`. -/
def IsKeyword (key : String) : Prop := key.toList.head? = some '@'

theorem isKeyword_id : IsKeyword "@id" := rfl

/-- A dictionary of normal values that has nothing under `@id`. -/
structure Others (others : Dict Json) : Prop where
  sorted : others.Sorted
  ne_id : ∀ e ∈ others, e.1 ≠ "@id"
  normal : AllNormal others

/-- What reading a vocabulary keeps true of it. -/
structure WellFormed (context : Context) : Prop where
  /-- The default entry is what has been seen of an IRI and of keywords. -/
  default : ∃ iri keywords, Others keywords ∧ (∀ e ∈ keywords, IsKeyword e.1) ∧
    context.default = ofParts? iri keywords
  sorted : context.named.Sorted
  names : ∀ e ∈ context.named, ¬ IsKeyword e.1
  terms : ∀ e ∈ context.named, ∀ iri others, e.2 = .object iri others → Others others

/-- What an entry keeps beside its IRI are normal values. -/
def NormalOthers (entry : ContextEntry) : Prop :=
  ∀ iri others, entry = .object iri others → AllNormal others

/-- What is true of every vocabulary, read or made: its table is in order and its entries keep normal
values. -/
structure Canonical (context : Context) : Prop where
  default : ∀ entry, context.default = some entry → NormalOthers entry
  sorted : context.named.Sorted
  terms : ∀ e ∈ context.named, NormalOthers e.2

/-! ## One step of the reader -/

theorem others_nil : Others [] :=
  ⟨Dict.sorted_nil, List.forall_mem_nil _, allNormal_nil⟩

/-- One more member that is normal and not the IRI is such a member. -/
theorem Others.insert {others : Dict Json} (h : Others others) {key : String} {v : Json}
    (hkey : key ≠ "@id") (hv : v.IsNormal) : Others (Dict.insert key v others) where
  sorted := h.sorted.insert key v
  ne_id e he := by
    rcases Dict.mem_insert he with rfl | he
    · exact hkey
    · exact h.ne_id e he
  normal e he := by
    rcases Dict.mem_insert he with rfl | he
    · exact hv
    · exact h.normal e he

/-- What an object keeps beside its `@id`. -/
theorem Others.erase {members : Dict Json} (hsorted : members.Sorted) (hm : AllNormal members) :
    Others (Dict.erase "@id" members) where
  sorted := hsorted.erase "@id"
  ne_id e he hid := by
    have h := Dict.get?_of_mem (hsorted.erase "@id") he
    rw [Dict.get?_erase hsorted, if_pos hid.symm] at h
    cases h
  normal e he := hm e (Dict.mem_of_mem_erase he)

/-- The default vocabulary is named once. -/
theorem setDefault_eq {context : Context} {iri : Option Iri} {keywords : Dict Json} {i : Iri}
    (h : context.default = ofParts? iri keywords) :
    context.setDefault i.text =
      if iri.isNone then .ok { context with default := ofParts? (some i) keywords }
      else .error .defaultTwice := by
  unfold setDefault
  rw [Iri.of?_text, h]
  cases iri <;> cases keywords <;> rfl

/-- A keyword is added to those of the default vocabulary. -/
theorem setKeyword_eq {context : Context} {iri : Option Iri} {keywords : Dict Json}
    (h : context.default = ofParts? iri keywords) (key : String) (v : Json) :
    context.setKeyword key v =
      { context with default := ofParts? iri (Dict.insert key v keywords) } := by
  rw [ofParts?_of_ne_nil (Dict.insert_ne_nil key v keywords)]
  unfold setKeyword
  rw [h]
  cases iri <;> cases keywords <;> rfl

/-- An IRI has the text that it was made from. -/
theorem iri_of_of? {s : String} {i : Iri} (h : Iri.of? s = some i) : i.text = s := by
  unfold Iri.of? at h
  split at h
  · cases h
    rfl
  · cases h

/-- Setting the default vocabulary keeps contexts well-formed. -/
theorem WellFormed.setDefault {context context' : Context} (hc : context.WellFormed) {s : String}
    (h : context.setDefault s = .ok context') : context'.WellFormed := by
  obtain ⟨iri, keywords, hothers, hkeys, hdefault⟩ := hc.default
  cases hs : Iri.of? s with
  | none => simp [Context.setDefault, hs] at h
  | some i =>
    rw [← iri_of_of? hs, setDefault_eq hdefault] at h
    split at h
    · cases h
      exact ⟨⟨some i, keywords, hothers, hkeys, rfl⟩, hc.sorted, hc.names, hc.terms⟩
    · cases h

/-- Setting a keyword keeps contexts well-formed. -/
theorem WellFormed.setKeyword {context : Context} (hc : context.WellFormed) {key : String} {v : Json}
    (hkey : IsKeyword key) (hid : key ≠ "@id") (hv : v.IsNormal) :
    (context.setKeyword key v).WellFormed := by
  obtain ⟨iri, keywords, hothers, hkeys, hdefault⟩ := hc.default
  rw [setKeyword_eq hdefault]
  refine ⟨⟨iri, _, hothers.insert hid hv, fun e he => ?_, rfl⟩, hc.sorted, hc.names, hc.terms⟩
  rcases Dict.mem_insert he with rfl | he
  · exact hkey
  · exact hkeys e he

/-- Binding a name keeps the invariant. -/
theorem WellFormed.insert {context : Context} (hc : context.WellFormed) {key : String}
    {entry : ContextEntry} (hkey : ¬ IsKeyword key)
    (hentry : ∀ iri others, entry = .object iri others → Others others) :
    WellFormed { context with named := context.named.insert key entry } where
  default := hc.default
  sorted := hc.sorted.insert key entry
  names e he := by
    rcases Dict.mem_insert he with rfl | he
    · exact hkey
    · exact hc.names e he
  terms e he := by
    rcases Dict.mem_insert he with rfl | he
    · exact hentry
    · exact hc.terms e he

/-- Reading a member keeps contexts well-formed. -/
theorem WellFormed.addMember {context context' : Context} (hc : context.WellFormed) {key : String}
    {v : Json} (hv : v.IsNormal) (h : context.addMember key v = .ok context') :
    context'.WellFormed := by
  unfold Context.addMember at h
  split at h
  · split at h
    · exact hc.setDefault h
    · cases h
  · next hid =>
    split at h
    · next hkey =>
      cases h
      exact hc.setKeyword hkey hid hv
    · next hkey =>
      split at h
      · next s =>
        split at h
        · next c hins =>
          cases h
          obtain ⟨i, -, rfl⟩ := Option.map_eq_some_iff.1 hins
          exact hc.insert hkey nofun
        · cases h
      · next members =>
        obtain ⟨hsorted, hm⟩ := isNormal_obj_iff.1 hv
        split at h
        · cases h
        · cases h
          refine hc.insert hkey fun iri others he => ?_
          cases he
          exact Others.erase hsorted hm
      · cases h

/-! ## The reader keeps the invariant -/

/-- Reading members keeps contexts well-formed. -/
theorem WellFormed.addMembers {context context' : Context} (hc : context.WellFormed)
    {members : List (String × Json)} (hm : AllNormal members)
    (h : context.addMembers members = .ok context') : context'.WellFormed :=
  Except.foldlM_keeps (fun _ e _ he hc h => WellFormed.addMember hc (hm e he) h) hc h

/-- Reading an element keeps contexts well-formed. -/
theorem WellFormed.addElement {context context' : Context} (hc : context.WellFormed) {v : Json}
    (hv : v.IsNormal) (h : context.addElement v = .ok context') : context'.WellFormed := by
  cases v with
  | str s => exact hc.setDefault h
  | obj members => exact hc.addMembers (isNormal_obj_iff.1 hv).2 h
  | _ => cases h

theorem wellFormed_empty : empty.WellFormed :=
  ⟨⟨none, [], others_nil, List.forall_mem_nil _, rfl⟩, Dict.sorted_nil, List.forall_mem_nil _,
    List.forall_mem_nil _⟩

theorem wellFormed_iri (i : Iri) : WellFormed ⟨some (.iri i), []⟩ :=
  ⟨⟨some i, [], others_nil, List.forall_mem_nil _, rfl⟩, Dict.sorted_nil, List.forall_mem_nil _,
    List.forall_mem_nil _⟩

/-- A context that is read from a normal value is well-formed. -/
theorem wellFormed_of_ofJson {v : Json} (hv : v.IsNormal) {context : Context}
    (h : ofJson v = .ok context) : context.WellFormed := by
  cases v with
  | str s =>
    simp only [ofJson] at h
    split at h
    · next c hc =>
      cases h
      obtain ⟨i, -, rfl⟩ := Option.map_eq_some_iff.1 hc
      exact wellFormed_iri i
    · cases h
  | obj members =>
    have hm := (isNormal_obj_iff.1 hv).2
    rw [ofJson, normalMembers_eq_self hm] at h
    exact wellFormed_empty.addMembers hm h
  | arr items =>
    have hitems := isNormal_arr_iff.1 hv
    rw [ofJson, normalItems_eq_self hitems] at h
    exact Except.foldlM_keeps (fun _ v _ hv hc h => WellFormed.addElement hc (hitems v hv) h)
      wellFormed_empty h
  | _ => cases h

/-! ## Reading what was written -/

/-- The IRI under `@id`. -/
def idOf (members : List (String × Json)) : Option Iri :=
  (Dict.get? "@id" members).bind fun v => v.asString?.bind Iri.of?

/-- Members are added one after the other. -/
theorem addMembers_cons {context context' : Context} {key : String} {v : Json}
    (h : context.addMember key v = .ok context') (rest : List (String × Json)) :
    context.addMembers ((key, v) :: rest) = context'.addMembers rest := by
  rw [addMembers, List.foldlM_cons]
  show (context.addMember key v).bind _ = _
  rw [h]
  rfl

/-- Keywords and at most one `@id`, in any order, end up in the default entry. -/
theorem addMembers_keywords {members : List (String × Json)} (hnodup : (Dict.keys members).Nodup)
    (hkeys : ∀ e ∈ members, IsKeyword e.1) (hid : ∀ e ∈ members, e.1 = "@id" → ∃ i : Iri, e.2 = .str i.text)
    {context : Context} {iri : Option Iri} {keywords : Dict Json}
    (hdefault : context.default = ofParts? iri keywords)
    (hfree : ∀ e ∈ members, e.1 = "@id" → iri = none) :
    context.addMembers members =
      .ok { context with
        default := ofParts? (iri.or (idOf members))
          ((members.filter fun (k, _) => k ≠ "@id").foldl (fun d (k, v) => Dict.insert k v d) keywords) } := by
  induction members generalizing context iri keywords with
  | nil =>
    simp only [idOf, Dict.get?_nil, Option.bind_none, Option.or_none, List.filter_nil, List.foldl_nil,
      ← hdefault]
    rfl
  | cons e rest ih =>
    obtain ⟨key, v⟩ := e
    obtain ⟨hfresh, hrestNodup⟩ : key ∉ Dict.keys rest ∧ (Dict.keys rest).Nodup :=
      List.nodup_cons.1 hnodup
    have hkey : IsKeyword key := hkeys _ (List.mem_cons_self ..)
    have hkeys' := fun x hx => hkeys x (List.mem_cons_of_mem _ hx)
    have hid' := fun x hx => hid x (List.mem_cons_of_mem _ hx)
    by_cases hk : key = "@id"
    · -- There is no second `@id` behind this one, so the IRI stays what it is now.
      subst hk
      obtain ⟨i, hi⟩ := hid _ (List.mem_cons_self ..) rfl
      have hnone := hfree _ (List.mem_cons_self ..) rfl
      have hrest : ∀ x ∈ rest, x.1 ≠ "@id" := fun x hx hx' =>
        hfresh (List.mem_map.2 ⟨x, hx, hx'⟩)
      have hnoid : idOf rest = none := by
        rw [idOf, Dict.get?_eq_none_of_forall_ne hrest, Option.bind_none]
      simp only at hi
      subst hi hnone
      have hadd : context.addMember "@id" (.str i.text) = .ok ⟨ofParts? (some i) keywords, context.named⟩ :=
        setDefault_eq hdefault
      rw [addMembers_cons hadd, ih hrestNodup hkeys' hid' rfl fun x hx hx' => absurd hx' (hrest x hx)]
      simp [idOf, Dict.get?_cons, Iri.of?_text]
    · -- A keyword joins the others, whatever has been seen of an IRI.
      have hadd : context.addMember key v = .ok ⟨ofParts? iri (Dict.insert key v keywords), context.named⟩ := by
        unfold addMember
        rw [if_neg hk, if_pos (show key.toList.head? = some '@' from hkey), setKeyword_eq hdefault]
      rw [addMembers_cons hadd, ih hrestNodup hkeys' hid' rfl fun x hx => hfree x (List.mem_cons_of_mem _ hx)]
      simp [idOf, Dict.get?_cons, hk]

/-- The object of a default entry or of a term. -/
def membersOf (iri : Option Iri) (others : Dict Json) : Dict Json :=
  Dict.ofList (field "@id" (iri.map fun i => .str i.text) ++ others)

theorem toJson_object (iri : Option Iri) (others : Dict Json) :
    (ContextEntry.object iri others).toJson = .obj (membersOf iri others) := rfl

/-- The IRI of a vocabulary is written under its key. -/
theorem get?_id_membersOf {iri : Option Iri} {others : Dict Json} (h : Others others) :
    Dict.get? "@id" (membersOf iri others) = iri.map fun i => .str i.text := by
  have hnone : Dict.get? "@id" (Dict.ofList others) = none := Dict.get?_ofList_eq_none h.ne_id
  simp [membersOf, hnone]

/-- The members of a vocabulary are normal. -/
theorem allNormal_membersOf {iri : Option Iri} {others : Dict Json} (h : AllNormal others) :
    AllNormal (membersOf iri others) := by
  intro e he
  have hall : AllNormal (field "@id" (iri.map fun i => .str i.text) ++ others) := by
    simp [h]
  exact hall e (Dict.mem_of_mem_ofList he)

/-- Apart from its `@id`, the object holds what it was made of. -/
theorem get?_membersOf {iri : Option Iri} {others : Dict Json} (h : Others others) {key : String}
    (hkey : key ≠ "@id") : Dict.get? key (membersOf iri others) = Dict.get? key others := by
  simp [membersOf, hkey.symm, Dict.ofList_eq_self h.sorted]

/-- Without the IRI, the members of a vocabulary are the others. -/
theorem filter_membersOf {iri : Option Iri} {others : Dict Json} (h : Others others) :
    ((membersOf iri others).filter fun (k, _) => k ≠ "@id") = others := by
  refine Dict.ext_get? ((Dict.sorted_ofList _).filter _) h.sorted fun key => ?_
  rw [Dict.get?_filter (fun k => decide (k ≠ "@id"))]
  split
  · next hkey => exact get?_membersOf h (of_decide_eq_true hkey)
  · next hkey =>
    have hid : key = "@id" := by simpa using hkey
    rw [hid, Dict.get?_eq_none_of_forall_ne h.ne_id]

/-- Erasing the IRI leaves the others. -/
theorem erase_membersOf {iri : Option Iri} {others : Dict Json} (h : Others others) :
    Dict.erase "@id" (membersOf iri others) = others := by
  have hsorted : Dict.Sorted (membersOf iri others) := Dict.sorted_ofList _
  refine Dict.ext_get? (hsorted.erase _) h.sorted fun key => ?_
  rw [Dict.get?_erase hsorted]
  split
  · next hid => rw [← hid, Dict.get?_eq_none_of_forall_ne h.ne_id]
  · next hid => exact get?_membersOf h (Ne.symm hid)

/-- The IRI of a vocabulary is read as it was written. -/
theorem idOf_membersOf {iri : Option Iri} {others : Dict Json} (h : Others others) :
    idOf (membersOf iri others) = iri := by
  rw [idOf, get?_id_membersOf h]
  cases iri with
  | none => rfl
  | some i => exact Iri.of?_text i

/-- A member of a vocabulary is the IRI or one of the others. -/
theorem mem_membersOf {iri : Option Iri} {others : Dict Json} {e : String × Json}
    (h : e ∈ membersOf iri others) :
    (∃ i, iri = some i ∧ e = ("@id", .str i.text)) ∨ e ∈ others := by
  rcases List.mem_append.1 (Dict.mem_of_mem_ofList h) with he | he
  · cases iri with
    | none => cases he
    | some i => exact .inl ⟨i, rfl, List.mem_singleton.1 he⟩
  · exact .inr he

/-- An entry for the default vocabulary, read into a context that has none. -/
theorem addMembers_membersOf {iri : Option Iri} {others : Dict Json} (h : Others others)
    (hkeys : ∀ e ∈ others, IsKeyword e.1) {context : Context} (hdefault : context.default = none) :
    context.addMembers (membersOf iri others) =
      .ok { context with default := ofParts? iri others } := by
  have hsorted : Dict.Sorted (membersOf iri others) := Dict.sorted_ofList _
  have hkeyword : ∀ e ∈ membersOf iri others, IsKeyword e.1 := by
    intro e he
    rcases mem_membersOf he with ⟨i, -, rfl⟩ | he
    · exact isKeyword_id
    · exact hkeys e he
  have hid : ∀ e ∈ membersOf iri others, e.1 = "@id" → ∃ i : Iri, e.2 = .str i.text := by
    intro e he hid
    rcases mem_membersOf he with ⟨i, -, rfl⟩ | he
    · exact ⟨i, rfl⟩
    · exact absurd hid (h.ne_id e he)
  have hread := addMembers_keywords hsorted.nodup_keys hkeyword hid
    (show context.default = ofParts? none [] from hdefault) fun _ _ _ => rfl
  rw [idOf_membersOf h, filter_membersOf h, Option.none_or] at hread
  rw [hread]
  -- The keywords were in order before they were added one after the other.
  exact congrArg (fun d => Except.ok (Context.mk (ofParts? iri d) context.named))
    (Dict.ofList_eq_self h.sorted)

/-- A term is bound again to what it was written as. -/
theorem addMember_entry {key : String} {entry : ContextEntry} (hkey : ¬ IsKeyword key)
    (hentry : ∀ iri others, entry = .object iri others → Others others) (context : Context) :
    context.addMember key entry.toJson =
      .ok { context with named := context.named.insert key entry } := by
  have hid : key ≠ "@id" := fun e => hkey (e ▸ isKeyword_id)
  unfold addMember
  rw [if_neg hid, if_neg (show ¬ key.toList.head? = some '@' from hkey)]
  cases entry with
  | iri i =>
    have hinsert : context.insertPrefix? key i.text =
        some { context with named := context.named.insert key (.iri i) } := by
      rw [insertPrefix?, Iri.of?_text, Option.map_some]
    simp only [ContextEntry.toJson, hinsert]
  | object iri others =>
    have h := hentry iri others rfl
    have hread : readId (membersOf iri others) = .ok iri := by
      rw [readId, get?_id_membersOf h]
      cases iri with
      | none => rfl
      | some i => simp only [Option.map_some, Iri.of?_text]
    simp only [toJson_object, hread, erase_membersOf h]

/-- The table of prefixes, read into a context. -/
theorem addMembers_table {named : Dict ContextEntry} (hnames : ∀ e ∈ named, ¬ IsKeyword e.1)
    (hterms : ∀ e ∈ named, ∀ iri others, e.2 = .object iri others → Others others)
    (context : Context) :
    context.addMembers (named.mapValues ContextEntry.toJson) =
      .ok { context with
        named := named.foldl (fun d (k, entry) => Dict.insert k entry d) context.named } := by
  induction named generalizing context with
  | nil => rfl
  | cons e rest ih =>
    obtain ⟨key, entry⟩ := e
    have hadd := addMember_entry (hnames _ (List.mem_cons_self ..)) (hterms _ (List.mem_cons_self ..))
      context
    exact (addMembers_cons hadd _).trans (ih (fun x hx => hnames x (List.mem_cons_of_mem _ hx))
      (fun x hx => hterms x (List.mem_cons_of_mem _ hx)) _)

/-- An entry of a context is written as a normal value. -/
theorem isNormal_entry {entry : ContextEntry} (hentry : NormalOthers entry) : entry.toJson.IsNormal := by
  cases entry with
  | iri i => exact isNormal_str i.text
  | object iri others =>
    exact isNormal_obj_iff.2 ⟨Dict.sorted_ofList _, allNormal_membersOf (hentry iri others rfl)⟩

/-- The default vocabulary has no IRI among its other members. -/
theorem WellFormed.default_others {context : Context} (h : context.WellFormed) {entry : ContextEntry}
    (hentry : context.default = some entry) :
    ∀ iri others, entry = .object iri others → Others others := by
  obtain ⟨iri, keywords, hothers, -, hdefault⟩ := h.default
  rw [hentry] at hdefault
  rintro i others rfl
  cases iri <;> cases keywords <;> cases hdefault <;> exact hothers

/-- A well-formed context can be written. -/
theorem WellFormed.canonical {context : Context} (h : context.WellFormed) : context.Canonical where
  default := fun _ hentry iri others hothers => (h.default_others hentry iri others hothers).normal
  sorted := h.sorted
  terms := fun e he iri others hothers => (h.terms e he iri others hothers).normal

/-- A context that can be written is written as a normal value. -/
theorem Canonical.isNormal_toJson {context : Context} (h : context.Canonical) : context.toJson.IsNormal := by
  have htable : (ofDict ContextEntry.toJson context.named).IsNormal :=
    isNormal_ofDict h.sorted fun e he => isNormal_entry (h.terms e he)
  unfold toJson
  split
  · next entry hentry _ => exact isNormal_entry (h.default entry hentry)
  · exact isNormal_arr_iff.2 (List.forall_mem_nil _)
  · exact htable
  · next entry hentry _ =>
    refine isNormal_arr_iff.2 fun v hv => ?_
    simp only [List.mem_cons, List.not_mem_nil, or_false] at hv
    rcases hv with rfl | rfl
    · exact isNormal_entry (h.default entry hentry)
    · exact htable

/-- The default entry, read into a context that has none. -/
theorem addElement_entry {context : Context} {entry : ContextEntry} (h : context.WellFormed)
    (hentry : context.default = some entry) {c : Context} (hc : c.default = none) :
    c.addElement entry.toJson = .ok { c with default := some entry } := by
  obtain ⟨iri, keywords, hothers, hkeys, hdefault⟩ := h.default
  rw [hentry] at hdefault
  cases entry with
  | iri i =>
    show c.setDefault i.text = _
    rw [setDefault_eq (show c.default = ofParts? none [] from hc)]
    rfl
  | object i others =>
    -- An entry with an object says what its parts are.
    have hi : i = iri ∧ others = keywords := by
      cases iri <;> cases keywords <;> cases hdefault <;> exact ⟨rfl, rfl⟩
    obtain ⟨rfl, rfl⟩ := hi
    show c.addMembers (membersOf i others) = _
    rw [addMembers_membersOf hothers hkeys hc, ← hdefault]

/-- An entry by itself is read as the only element of a context. -/
theorem ofJson_entry {entry : ContextEntry} (h : entry.toJson.IsNormal) :
    ofJson entry.toJson = empty.addElement entry.toJson := by
  cases entry with
  | iri i =>
    have hiri : ofIri? i.text = some ⟨some (.iri i), []⟩ := by rw [ofIri?, Iri.of?_text, Option.map_some]
    simp only [ContextEntry.toJson, ofJson, hiri, addElement, setDefault, Iri.of?_text]
    rfl
  | object i others =>
    show addMembers empty (normalMembers (membersOf i others)) = addMembers empty (membersOf i others)
    rw [toJson_object, isNormal_obj_iff] at h
    rw [normalMembers_eq_self h.2]

/-- A vocabulary is read as it was written. -/
theorem ofJson_toJson {context : Context} (h : context.WellFormed) :
    ofJson context.toJson = .ok context := by
  obtain ⟨default, named⟩ := context
  have hnormal := h.canonical.isNormal_toJson
  have htable := addMembers_table h.names h.terms
  have hnamed : named.foldl (fun d (k, entry) => Dict.insert k entry d) [] = named :=
    Dict.ofList_eq_self h.sorted
  simp only at htable
  -- The four ways in which a vocabulary is written: with or without default entry, with or without table.
  cases default with
  | none =>
    cases named with
    | nil => rfl
    | cons e rest =>
      show addMembers empty (normalMembers (Dict.mapValues ContextEntry.toJson (e :: rest))) = _
      rw [normalMembers_eq_self (isNormal_obj_iff.1 hnormal).2, htable empty]
      exact congrArg (fun d => Except.ok (Context.mk none d)) hnamed
  | some entry =>
    have hentry := isNormal_entry (h.canonical.default entry rfl)
    cases named with
    | nil =>
      show ofJson entry.toJson = _
      rw [ofJson_entry hentry, addElement_entry h rfl rfl]
      rfl
    | cons e rest =>
      show List.foldlM addElement empty
        (normalItems [entry.toJson, ofDict ContextEntry.toJson (e :: rest)]) = _
      rw [normalItems_eq_self (isNormal_arr_iff.1 hnormal), List.foldlM_cons, addElement_entry h rfl rfl]
      show List.foldlM addElement ⟨some entry, []⟩ [ofDict ContextEntry.toJson (e :: rest)] = _
      rw [List.foldlM_cons]
      show (addMembers ⟨some entry, []⟩ (Dict.mapValues ContextEntry.toJson (e :: rest))).bind _ = _
      rw [htable]
      exact congrArg (fun d => Except.ok (Context.mk (some entry) d)) hnamed

end Context
end WebOfThings
