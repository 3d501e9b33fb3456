import Mathlib.Data.List.Induction
import Mathlib.Data.List.Perm.Basic
import WebOfThings.Proofs.Description.Vocabulary

/-!
# What a vocabulary is read from

A vocabulary is a text, an object or an array of those, and comes down to the bindings that it holds one
after the other (`entries`); a text binds `@id`. Which bindings are admissible, and the vocabulary that they
describe, can be said without the states that the reader goes through: `addMembers_eq_ok_iff` follows the
reader binding by binding. As both depend on the bindings of each key only (`described_congr`), it plays no
part how the bindings are spread over objects, nor in which order elements without a common key stand.
`ofJson_grammar` puts this together.

The reader is a state machine over members, after the visitor of `Context`, and what it accepts depends on
what it has seen. The grammar has no states. It asks three things of the bindings taken together
(`Admissible`): that there is at most one default vocabulary, that each IRI is not empty, and that each term
is bound to something that a term may stand for. `Reordered` says in which way the elements of an array may
change places, as long as the ones that bind a common key keep their order.
-/

namespace WebOfThings

open Json

namespace Context

open ContextEntry (ofParts?)

instance : DecidablePred IsKeyword := fun key => inferInstanceAs (Decidable (key.toList.head? = some '@'))

/-! ## The grammar -/

/-- A text that is not empty. -/
def IsIri : Json → Prop
  | .str s => s ≠ ""
  | _ => False

/-- What a term may be bound to: an IRI, or an object with an IRI under `@id` if there is anything. -/
def IsTerm : Json → Prop
  | .str s => s ≠ ""
  | .obj members => ∀ v, Dict.get? "@id" members = some v → IsIri v
  | _ => False

/-- The bindings that a vocabulary may hold together. -/
structure Admissible (entries : List (String × Json)) : Prop where
  /-- A default vocabulary is named by an IRI. -/
  ids : ∀ e ∈ entries, e.1 = "@id" → IsIri e.2
  /-- There is one default vocabulary at most. -/
  once : (Dict.bindings "@id" entries).length ≤ 1
  /-- Keywords are bound to anything, all other names are terms. -/
  terms : ∀ e ∈ entries, ¬ IsKeyword e.1 → IsTerm e.2

/-- What a term stands for. -/
def termOf? : Json → Option ContextEntry
  | .str s => (Iri.of? s).map .iri
  | .obj members => some (.object (idOf members) (Dict.erase "@id" members))
  | _ => none

/-- The keywords among bindings, of which the last one of a name counts. -/
def keywordsOf (entries : List (String × Json)) : Dict Json :=
  Dict.ofList (entries.filter fun e => IsKeyword e.1 ∧ e.1 ≠ "@id")

/-- The terms among bindings, of which the last one of a name counts. -/
def termsOf (entries : List (String × Json)) : Dict ContextEntry :=
  Dict.ofList ((entries.filter fun e => ¬ IsKeyword e.1).filterMap fun e => (termOf? e.2).map (Prod.mk e.1))

/-- The vocabulary that bindings describe. -/
def described (entries : List (String × Json)) : Context :=
  ⟨ofParts? (idOf entries) (keywordsOf entries), termsOf entries⟩

/-! ## One binding more -/

/-- An IRI is a text that is not empty. -/
theorem isIri_iff {v : Json} : IsIri v ↔ ∃ i : Iri, v = .str i.text := by
  constructor
  · intro h
    cases v with
    | str s => exact ⟨⟨s, h⟩, rfl⟩
    | _ => exact h.elim
  · rintro ⟨i, rfl⟩
    exact i.nonempty

theorem of?_eq_none_iff {s : String} : Iri.of? s = none ↔ s = "" := by
  simp [Iri.of?]

/-- What a term may stand for is read as an entry. -/
theorem exists_termOf? {v : Json} (h : IsTerm v) : ∃ entry, termOf? v = some entry := by
  cases v with
  | str s =>
    obtain ⟨i, hi⟩ := Option.ne_none_iff_exists'.1 (mt of?_eq_none_iff.1 h)
    exact ⟨.iri i, by rw [termOf?, hi, Option.map_some]⟩
  | obj members => exact ⟨_, rfl⟩
  | _ => exact h.elim

/-- The IRI of a vocabulary is read if it is one, and is missing if there is none. -/
theorem readId_eq_ok_iff {members : Dict Json} {iri : Option Iri} :
    readId members = .ok iri ↔
      (∀ v, Dict.get? "@id" members = some v → IsIri v) ∧ iri = idOf members := by
  unfold readId idOf
  cases hget : Dict.get? "@id" members with
  | none => simp [eq_comm]
  | some v =>
    cases v with
    | str s =>
      cases hs : Iri.of? s with
      | none =>
        obtain rfl := of?_eq_none_iff.1 hs
        simp [IsIri, hs]
      | some i =>
        have hne : s ≠ "" := fun he => by simp [of?_eq_none_iff.2 he] at hs
        simp [IsIri, asString?, hs, hne, eq_comm]
    | _ => simp [IsIri]

/-- A name that is no keyword is bound to a term. -/
theorem addMember_term {context context' : Context} {key : String} {v : Json} (hkey : ¬ IsKeyword key) :
    context.addMember key v = .ok context' ↔
      IsTerm v ∧ ∃ entry, termOf? v = some entry ∧
        context' = { context with named := context.named.insert key entry } := by
  have hid : key ≠ "@id" := fun e => hkey (e ▸ isKeyword_id)
  unfold addMember
  rw [if_neg hid, if_neg (show ¬ key.toList.head? = some '@' from hkey)]
  cases v with
  | str s =>
    cases hs : Iri.of? s with
    | none =>
      obtain rfl := of?_eq_none_iff.1 hs
      simp [insertPrefix?, hs, IsTerm]
    | some i =>
      have hne : s ≠ "" := fun he => by simp [of?_eq_none_iff.2 he] at hs
      simp [insertPrefix?, hs, IsTerm, termOf?, hne, eq_comm]
  | obj members =>
    have hread := @readId_eq_ok_iff members
    cases h : readId members with
    | error e =>
      have hnot : ¬ IsTerm (.obj members) := fun hterm => by
        rw [hread.2 ⟨hterm, rfl⟩] at h
        cases h
      simp [h, hnot]
    | ok iri =>
      obtain ⟨hterm, rfl⟩ := hread.1 h
      simp [h, termOf?, eq_comm, show IsTerm (.obj members) from hterm]
  | _ => simp [IsTerm]

/-- Entries with one more are admissible if they are and the new one is. -/
theorem admissible_concat_iff {entries : List (String × Json)} {key : String} {v : Json} :
    Admissible (entries ++ [(key, v)]) ↔
      Admissible entries ∧ (key = "@id" → IsIri v ∧ "@id" ∉ Dict.keys entries) ∧
        (¬ IsKeyword key → IsTerm v) := by
  constructor
  · intro h
    have hlast : (key, v) ∈ entries ++ [(key, v)] := List.mem_append_right _ List.mem_cons_self
    have honce := h.once
    rw [Dict.bindings_append, List.length_append] at honce
    refine ⟨⟨fun e he => h.ids e (List.mem_append_left _ he), by omega,
      fun e he => h.terms e (List.mem_append_left _ he)⟩, fun hid => ⟨h.ids _ hlast hid, ?_⟩, h.terms _ hlast⟩
    subst hid
    rw [← Dict.bindings_eq_nil_iff, ← List.length_eq_zero_iff]
    simp only [Dict.bindings, List.filter_cons_of_pos, decide_true, List.length_cons] at honce ⊢
    omega
  · rintro ⟨h, hid, hterm⟩
    refine ⟨List.forall_mem_append.2 ⟨h.ids, ?_⟩, ?_, List.forall_mem_append.2 ⟨h.terms, ?_⟩⟩
    · simpa using fun he => (hid he).1
    · rw [Dict.bindings_append, List.length_append]
      by_cases he : key = "@id"
      · rw [Dict.bindings_eq_nil_iff.2 (hid he).2]
        exact Nat.le_trans (Nat.le_of_eq (Nat.zero_add _)) (List.length_filter_le _ [(key, v)])
      · have hnone : Dict.bindings "@id" [(key, v)] = [] := by simp [Dict.bindings, he]
        rw [hnone]
        exact h.once
    · simpa using hterm

theorem idOf_concat {entries : List (String × Json)} {key : String} (hkey : key ≠ "@id") (v : Json) :
    idOf (entries ++ [(key, v)]) = idOf entries := by
  simp [idOf, Dict.get?_append, Dict.get?_cons, hkey]

theorem keywordsOf_concat_of_not {entries : List (String × Json)} {key : String} (v : Json)
    (hkey : ¬ (IsKeyword key ∧ key ≠ "@id")) : keywordsOf (entries ++ [(key, v)]) = keywordsOf entries := by
  simp [keywordsOf, hkey]

/-- An entry about a keyword adds it. -/
theorem keywordsOf_concat {entries : List (String × Json)} {key : String} (v : Json)
    (hkey : IsKeyword key) (hid : key ≠ "@id") :
    keywordsOf (entries ++ [(key, v)]) = Dict.insert key v (keywordsOf entries) := by
  rw [keywordsOf, List.filter_append, keywordsOf, ← Dict.ofList_concat]
  simp [hkey, hid]

theorem termsOf_concat_of_keyword {entries : List (String × Json)} {key : String} (v : Json)
    (hkey : IsKeyword key) : termsOf (entries ++ [(key, v)]) = termsOf entries := by
  simp [termsOf, hkey]

/-- An entry about a term adds it. -/
theorem termsOf_concat {entries : List (String × Json)} {key : String} {v : Json} {entry : ContextEntry}
    (hkey : ¬ IsKeyword key) (hentry : termOf? v = some entry) :
    termsOf (entries ++ [(key, v)]) = Dict.insert key entry (termsOf entries) := by
  rw [termsOf, List.filter_append, List.filterMap_append, termsOf, ← Dict.ofList_concat]
  simp [hkey, hentry]

/-- Admissible entries have an IRI if one of them is about it. -/
theorem idOf_eq_none_iff {entries : List (String × Json)} (hentries : Admissible entries) :
    idOf entries = none ↔ "@id" ∉ Dict.keys entries := by
  refine ⟨fun hnone hmem => ?_, fun h => by rw [idOf, Dict.get?_eq_none_iff.2 h, Option.bind_none]⟩
  cases hv : Dict.get? "@id" entries with
  | none => exact Dict.get?_eq_none_iff.1 hv hmem
  | some v =>
    obtain ⟨i, rfl⟩ := isIri_iff.1 (hentries.ids _ (Dict.mem_of_get? hv) rfl)
    rw [idOf, hv] at hnone
    simp [asString?, Iri.of?_text] at hnone

theorem idOf_concat_id {entries : List (String × Json)} (h : "@id" ∉ Dict.keys entries) (i : Iri) :
    idOf (entries ++ [("@id", .str i.text)]) = some i := by
  simp [idOf, Dict.get?_append, Dict.get?_eq_none_iff.2 h, Dict.get?_cons, asString?, Iri.of?_text]

/-- The default vocabulary is named once, by an IRI. -/
theorem addMember_id {context context' : Context} {iri : Option Iri} {keywords : Dict Json} {v : Json}
    (h : context.default = ofParts? iri keywords) :
    context.addMember "@id" v = .ok context' ↔
      ∃ i : Iri, v = .str i.text ∧ iri = none ∧
        context' = { context with default := ofParts? (some i) keywords } := by
  unfold addMember
  rw [if_pos rfl]
  cases v with
  | str s =>
    cases hs : Iri.of? s with
    | none =>
      obtain rfl := of?_eq_none_iff.1 hs
      have hempty : ∀ i : Iri, "" ≠ i.text := fun i => i.nonempty.symm
      simp [setDefault, hs, hempty]
    | some i =>
      obtain rfl := iri_of_of? hs
      have hsame : ∀ j : Iri, i.text = j.text ↔ j = i := fun j =>
        ⟨fun h => by rw [← Option.some.injEq, ← Iri.of?_text, ← Iri.of?_text, h], fun h => h ▸ rfl⟩
      cases iri <;> simp [setDefault_eq h, hsame, eq_comm]
  | _ => simp

/-- A binding more is accepted if it is admissible beside those before it, and is part of what is described. -/
theorem addMember_described {entries : List (String × Json)} (hentries : Admissible entries) (key : String)
    (v : Json) (context : Context) :
    (described entries).addMember key v = .ok context ↔
      Admissible (entries ++ [(key, v)]) ∧ context = described (entries ++ [(key, v)]) := by
  rw [admissible_concat_iff, and_iff_right hentries]
  -- The three kinds of keys touch three different parts of what is described.
  by_cases hid : key = "@id"
  · subst hid
    rw [addMember_id (show (described entries).default = _ from rfl), idOf_eq_none_iff hentries]
    have hterms : termsOf (entries ++ [("@id", v)]) = termsOf entries :=
      termsOf_concat_of_keyword v isKeyword_id
    have hkeywords : keywordsOf (entries ++ [("@id", v)]) = keywordsOf entries :=
      keywordsOf_concat_of_not v fun h => h.2 rfl
    constructor
    · rintro ⟨i, rfl, hfree, rfl⟩
      refine ⟨⟨fun _ => ⟨i.nonempty, hfree⟩, fun h => absurd isKeyword_id h⟩, ?_⟩
      rw [described, described, idOf_concat_id hfree, hkeywords, hterms]
    · rintro ⟨⟨hid, -⟩, rfl⟩
      obtain ⟨hiri, hfree⟩ := hid rfl
      obtain ⟨i, rfl⟩ := isIri_iff.1 hiri
      refine ⟨i, rfl, hfree, ?_⟩
      rw [described, described, idOf_concat_id hfree, hkeywords, hterms]
  by_cases hkey : IsKeyword key
  · have hadd : (described entries).addMember key v = .ok (described (entries ++ [(key, v)])) := by
      unfold addMember
      rw [if_neg hid, if_pos (show key.toList.head? = some '@' from hkey), setKeyword_eq rfl, described,
        described, idOf_concat hid, keywordsOf_concat v hkey hid, termsOf_concat_of_keyword v hkey]
    rw [hadd, Except.ok.injEq, eq_comm, and_iff_right ⟨fun h => absurd h hid, fun h => absurd hkey h⟩]
  · rw [addMember_term hkey]
    have hdescribed : ∀ entry, termOf? v = some entry → described (entries ++ [(key, v)]) =
        { described entries with named := (described entries).named.insert key entry } := by
      intro entry hentry
      rw [described, described, idOf_concat hid, keywordsOf_concat_of_not v fun h => hkey h.1,
        termsOf_concat hkey hentry]
    constructor
    · rintro ⟨hterm, entry, hentry, rfl⟩
      exact ⟨⟨fun h => absurd h hid, fun _ => hterm⟩, (hdescribed entry hentry).symm⟩
    · rintro ⟨⟨-, hterm⟩, rfl⟩
      obtain ⟨entry, hentry⟩ := exists_termOf? (hterm hkey)
      exact ⟨hterm hkey, entry, hentry, hdescribed entry hentry⟩

theorem addMembers_append (context : Context) (a b : List (String × Json)) :
    context.addMembers (a ++ b) = (context.addMembers a).bind fun context => context.addMembers b :=
  List.foldlM_append

theorem addMembers_singleton (context : Context) (key : String) (v : Json) :
    context.addMembers [(key, v)] = context.addMember key v :=
  bind_pure (context.addMember key v)

/-- Bindings are read one after the other just if they are admissible together, and what is read is what they
describe. -/
theorem addMembers_eq_ok_iff (entries : List (String × Json)) (context : Context) :
    empty.addMembers entries = .ok context ↔ Admissible entries ∧ context = described entries := by
  induction entries using List.reverseRecOn generalizing context with
  | nil =>
    have hempty : Admissible [] := ⟨List.forall_mem_nil _, Nat.zero_le 1, List.forall_mem_nil _⟩
    rw [and_iff_right hempty]
    exact ⟨fun h => (Except.ok.inj h).symm, fun h => congrArg Except.ok h.symm⟩
  | append_singleton entries e ih =>
    obtain ⟨key, v⟩ := e
    simp only [addMembers_append, addMembers_singleton]
    by_cases hentries : Admissible entries
    · rw [(ih _).2 ⟨hentries, rfl⟩]
      exact addMember_described hentries key v context
    · -- What is wrong with the first bindings stays wrong.
      rw [admissible_concat_iff]
      cases h : empty.addMembers entries with
      | error e => simp [Except.bind, hentries]
      | ok c => exact absurd ((ih c).1 h).1 hentries

/-! ## Order -/

/-- Every key has the same bindings, in the same order; only default vocabularies may have changed places. -/
structure SameBindings (entries entries' : List (String × Json)) : Prop where
  ids : (Dict.bindings "@id" entries).Perm (Dict.bindings "@id" entries')
  others : ∀ key, key ≠ "@id" → Dict.bindings key entries = Dict.bindings key entries'

section

variable {entries entries' : List (String × Json)}

theorem SameBindings.symm (h : SameBindings entries entries') : SameBindings entries' entries :=
  ⟨h.ids.symm, fun key hkey => (h.others key hkey).symm⟩

/-- Entries with the same bindings are the same in some order. -/
theorem SameBindings.mem {e : String × Json} (h : SameBindings entries entries') (he : e ∈ entries') :
    e ∈ entries := by
  have hmem' : e ∈ Dict.bindings e.1 entries' := Dict.mem_bindings.2 ⟨he, rfl⟩
  have hmem : e ∈ Dict.bindings e.1 entries := by
    by_cases hid : e.1 = "@id"
    · rw [hid] at hmem' ⊢
      exact h.ids.mem_iff.2 hmem'
    · rwa [h.others e.1 hid]
  exact (Dict.mem_bindings.1 hmem).1

/-- Whether entries are admissible does not depend on their order. -/
theorem Admissible.congr (hentries : Admissible entries) (h : SameBindings entries entries') :
    Admissible entries' where
  ids e he := hentries.ids e (h.mem he)
  once := h.ids.length_eq ▸ hentries.once
  terms e he := hentries.terms e (h.mem he)

/-- One default vocabulary has no place to change with. -/
theorem SameBindings.bindings_eq (h : SameBindings entries entries') (hentries : Admissible entries)
    (key : String) : Dict.bindings key entries = Dict.bindings key entries' := by
  by_cases hid : key = "@id"
  · subst hid
    have honce := hentries.once
    have hids := h.ids
    match hlist : Dict.bindings "@id" entries with
    | [] =>
      rw [hlist] at hids
      exact (List.nil_perm.1 hids).symm
    | [e] =>
      rw [hlist] at hids
      exact (List.singleton_perm.1 hids)
    | _ :: _ :: _ =>
      rw [hlist] at honce
      simp at honce
  · exact h.others key hid

/-- What is described depends on the bindings of each key only. -/
theorem described_congr (h : ∀ key, Dict.bindings key entries = Dict.bindings key entries') :
    described entries = described entries' := by
  have hid : idOf entries = idOf entries' := by
    rw [idOf, idOf, Dict.get?_eq_head?_bindings, Dict.get?_eq_head?_bindings, h]
  have hkeywords : keywordsOf entries = keywordsOf entries' := by
    refine Dict.ofList_congr fun key => ?_
    rw [Dict.bindings_filter fun k => decide (IsKeyword k ∧ k ≠ "@id"), h,
      Dict.bindings_filter fun k => decide (IsKeyword k ∧ k ≠ "@id")]
  have hterms : termsOf entries = termsOf entries' := by
    refine Dict.ofList_congr fun key => ?_
    rw [Dict.bindings_filterMap, Dict.bindings_filter fun k => decide (¬ IsKeyword k), h,
      Dict.bindings_filterMap, Dict.bindings_filter fun k => decide (¬ IsKeyword k)]
  rw [described, described, hid, hkeywords, hterms]

end

/-! ## Values -/

/-- An array holds texts and objects. -/
def IsElement : Json → Prop
  | .str _ => True
  | .obj _ => True
  | _ => False

/-- A vocabulary is a text, an object or an array of those. -/
def IsVocabulary : Json → Prop
  | .arr items => ∀ item ∈ items, IsElement item
  | v => IsElement v

/-- The bindings of an element. A text names the default vocabulary, and of the members of an object the last one
under a key counts. -/
def elementEntries : Json → List (String × Json)
  | .str iri => [("@id", .str iri)]
  | .obj members => Dict.ofList (normalMembers members)
  | _ => []

/-- The bindings of a value, one after the other. An object that stands alone is taken as it is written. -/
def entries : Json → List (String × Json)
  | .str iri => [("@id", .str iri)]
  | .obj members => normalMembers members
  | .arr items => items.flatMap elementEntries
  | _ => []

/-- An element of a vocabulary adds its entries. -/
theorem addElement_normal {item : Json} (hitem : IsElement item) (context : Context) :
    context.addElement item.normal = context.addMembers (elementEntries item) := by
  cases item with
  | str iri => exact (addMembers_singleton context "@id" (.str iri)).symm
  | obj members => rfl
  | _ => exact hitem.elim

/-- What is no element of a vocabulary is refused. -/
theorem addElement_normal_ne_ok {item : Json} (hitem : ¬ IsElement item) (context context' : Context) :
    context.addElement item.normal ≠ .ok context' := by
  cases item with
  | str iri => exact absurd trivial hitem
  | obj members => exact absurd trivial hitem
  | _ =>
    intro h
    cases h

/-- The elements of a vocabulary add the entries of all of them. -/
theorem foldlM_addElement_eq_ok_iff (items : List Json) (context context' : Context) :
    (normalItems items).foldlM addElement context = .ok context' ↔
      (∀ item ∈ items, IsElement item) ∧ context.addMembers (items.flatMap elementEntries) = .ok context' := by
  induction items generalizing context with
  | nil => exact (and_iff_right (List.forall_mem_nil _)).symm
  | cons item rest ih =>
    rw [normalItems, List.foldlM_cons, List.forall_mem_cons, List.flatMap_cons, addMembers_append]
    by_cases hitem : IsElement item
    · rw [addElement_normal hitem, and_iff_right hitem]
      cases h : context.addMembers (elementEntries item) with
      | error e =>
        have hstop : ∀ f : Context → Except ContextError Context, (Except.error e).bind f ≠ .ok context' := by
          intro f hf
          cases hf
        exact ⟨fun h => absurd h (hstop _), fun h => absurd h.2 (hstop _)⟩
      | ok next => exact ih next
    · simp only [hitem, false_and, iff_false]
      intro h
      cases hadd : context.addElement item.normal with
      | error e =>
        rw [hadd] at h
        cases h
      | ok next => exact addElement_normal_ne_ok hitem context next hadd

/-- A value is read just if it is a vocabulary of admissible bindings, and what is read is what they describe. -/
theorem ofJson_eq_ok_iff (v : Json) (context : Context) :
    ofJson v = .ok context ↔
      IsVocabulary v ∧ Admissible (entries v) ∧ context = described (entries v) := by
  rw [← addMembers_eq_ok_iff]
  cases v with
  | str iri =>
    have hread : ofJson (.str iri) = empty.addMember "@id" (.str iri) := by
      show _ = empty.setDefault iri
      simp only [ofJson, setDefault, ofIri?]
      cases Iri.of? iri <;> rfl
    rw [hread, entries, addMembers_singleton]
    exact (and_iff_right trivial).symm
  | obj members => exact (and_iff_right trivial).symm
  | arr items => exact foldlM_addElement_eq_ok_iff items empty context
  | _ => simp [ofJson, IsVocabulary, IsElement]

/-- Values with the same bindings are read alike. -/
theorem toOption_ofJson_congr {v w : Json} (hvocabulary : IsVocabulary v ↔ IsVocabulary w)
    (h : SameBindings (entries v) (entries w)) : (ofJson v).toOption = (ofJson w).toOption := by
  have hsome : ∀ (u : Json) (context : Context),
      (ofJson u).toOption = some context ↔ ofJson u = .ok context := by
    intro u context
    cases ofJson u <;> simp [Except.toOption]
  refine Option.ext fun context => ?_
  rw [hsome, hsome, ofJson_eq_ok_iff, ofJson_eq_ok_iff, hvocabulary]
  constructor
  · rintro ⟨hw, hentries, rfl⟩
    exact ⟨hw, hentries.congr h, described_congr (h.bindings_eq hentries)⟩
  · rintro ⟨hw, hentries, rfl⟩
    exact ⟨hw, hentries.congr h.symm, described_congr (h.symm.bindings_eq hentries)⟩

/-! ## Elements -/

/-- Whether an element is an object with a member under a key. -/
def Binds (key : String) : Json → Prop
  | .obj members => key ∈ Dict.keys members
  | _ => False

/-- Lists of elements that come from each other by exchanging neighbours that bind no common key. -/
inductive Reordered : List Json → List Json → Prop
  | refl (items : List Json) : Reordered items items
  | swap {items : List Json} (before : List Json) (x y : Json) (after : List Json) :
    Reordered items (before ++ x :: y :: after) → (∀ key, ¬ (Binds key x ∧ Binds key y)) →
      Reordered items (before ++ y :: x :: after)

/-- The keys of members are the same in normal form. -/
theorem keys_normalMembers (members : List (String × Json)) :
    Dict.keys (normalMembers members) = Dict.keys members := by
  rw [normalMembers_eq_mapValues, Dict.keys, Dict.mapValues, List.map_map]
  rfl

theorem normalMembers_append (a b : List (String × Json)) :
    normalMembers (a ++ b) = normalMembers a ++ normalMembers b := by
  simp only [normalMembers_eq_mapValues, Dict.mapValues, List.map_append]

/-- An element that does not bind a key has no entry under it. -/
theorem bindings_elementEntries {key : String} (hkey : key ≠ "@id") {item : Json} (h : ¬ Binds key item) :
    Dict.bindings key (elementEntries item) = [] := by
  cases item with
  | str iri => simp [elementEntries, Dict.bindings, hkey.symm]
  | obj members =>
    refine Dict.bindings_eq_nil_iff.2 (Dict.not_mem_keys_ofList ?_)
    rwa [keys_normalMembers]
  | _ => rfl

/-- Two elements next to each other that bind nothing in common may change places. -/
theorem sameBindings_swap (before : List Json) {x y : Json} (after : List Json)
    (h : ∀ key, ¬ (Binds key x ∧ Binds key y)) :
    SameBindings (entries (.arr (before ++ x :: y :: after))) (entries (.arr (before ++ y :: x :: after))) := by
  simp only [entries, List.flatMap_append, List.flatMap_cons]
  constructor
  · simp only [Dict.bindings_append]
    exact (List.perm_append_comm_assoc ..).append_left _
  · intro key hkey
    simp only [Dict.bindings_append]
    by_cases hx : Binds key x
    · rw [bindings_elementEntries hkey fun hy => h key ⟨hx, hy⟩, List.nil_append, List.nil_append]
    · rw [bindings_elementEntries hkey hx, List.nil_append, List.nil_append]

/-- So may any elements that bind nothing in common. -/
theorem toOption_ofJson_reordered {items items' : List Json} (h : Reordered items items') :
    (ofJson (.arr items)).toOption = (ofJson (.arr items')).toOption := by
  induction h with
  | refl => rfl
  | swap before x y after _ hfree ih =>
    refine ih.trans (toOption_ofJson_congr ?_ (sameBindings_swap before after hfree))
    simp only [IsVocabulary, List.forall_mem_append, List.forall_mem_cons, and_left_comm]

/-- Reading a vocabulary succeeds for the admissible ones, and gives what its bindings describe: a default entry for
the default vocabulary and the keywords, if there are any, and an entry for each term, bound as it was bound last.
Hence an object may stand in an array by itself, may be taken apart into objects with different keys, and the
elements of an array may be reordered as long as those that bind a common key keep their places. -/
theorem ofJson_grammar :
    (∀ v context, ofJson v = .ok context ↔
      IsVocabulary v ∧ Admissible (entries v) ∧ context = described (entries v)) ∧
    (∀ members, (Dict.keys members).Nodup →
      (ofJson (.obj members)).toOption = (ofJson (.arr [.obj members])).toOption) ∧
    (∀ before a b after, (Dict.keys a).Disjoint (Dict.keys b) →
      (ofJson (.arr (before ++ .obj a :: .obj b :: after))).toOption =
        (ofJson (.arr (before ++ .obj (a ++ b) :: after))).toOption) ∧
    ∀ items items', Reordered items items' →
      (ofJson (.arr items)).toOption = (ofJson (.arr items')).toOption := by
  refine ⟨ofJson_eq_ok_iff, fun members hnodup => ?_, fun before a b after hdisjoint => ?_,
    fun items items' => toOption_ofJson_reordered⟩
  · -- What is described depends on the bindings of each key only, in their order.
    refine toOption_ofJson_congr (by simp [IsVocabulary, IsElement]) ?_
    have hbindings : ∀ key, Dict.bindings key (entries (.obj members)) =
        Dict.bindings key (entries (.arr [.obj members])) := by
      intro key
      have hkeys : (Dict.keys (normalMembers members)).Nodup := keys_normalMembers members ▸ hnodup
      rw [entries, entries, List.flatMap_singleton, elementEntries, Dict.bindings_ofList hkeys]
    exact ⟨.of_eq (hbindings _), fun key _ => hbindings key⟩
  · refine toOption_ofJson_congr ?_ ?_
    · simp only [IsVocabulary, IsElement, List.forall_mem_append, List.forall_mem_cons, true_and]
    have hbindings : ∀ key, Dict.bindings key (entries (.arr (before ++ .obj a :: .obj b :: after))) =
        Dict.bindings key (entries (.arr (before ++ .obj (a ++ b) :: after))) := by
      intro key
      have hkeys : (Dict.keys (normalMembers a)).Disjoint (Dict.keys (normalMembers b)) := by
        rwa [keys_normalMembers, keys_normalMembers]
      simp only [entries, List.flatMap_append, List.flatMap_cons, elementEntries, Dict.bindings_append,
        normalMembers_append, Dict.bindings_ofList_append hkeys, List.append_assoc]
    exact ⟨.of_eq (hbindings _), fun key _ => hbindings key⟩

theorem ofJson_grammar_language :
    let language : List (String × Json) := [("@language", .str "en")]
    let terms : List (String × Json) := [("saref", .str "urn:saref")]
    (∃ context, ofJson (.arr [.str "urn:td", .obj language, .obj terms]) = .ok context) ∧
      (ofJson (.obj language)).toOption = (ofJson (.arr [.obj language])).toOption ∧
      (ofJson (.arr [.str "urn:td", .obj language, .obj terms])).toOption =
        (ofJson (.arr [.str "urn:td", .obj (language ++ terms)])).toOption ∧
      (ofJson (.arr [.obj language, .str "urn:td"])).toOption =
        (ofJson (.arr [.str "urn:td", .obj language])).toOption := by
  intro language terms
  have hentries : entries (.arr [.str "urn:td", .obj language, .obj terms]) =
      [("@id", .str "urn:td"), ("@language", .str "en"), ("saref", .str "urn:saref")] := rfl
  have hadmissible : Admissible [("@id", .str "urn:td"), ("@language", .str "en"), ("saref", .str "urn:saref")] :=
    ⟨by simp [IsIri], by decide, by simp [IsKeyword, IsTerm]⟩
  obtain ⟨hread, halone, hmerge, hreorder⟩ := ofJson_grammar
  refine ⟨⟨_, (hread _ _).2 ⟨by simp [IsVocabulary, IsElement], hentries ▸ hadmissible, rfl⟩⟩,
    halone language (by decide), hmerge [.str "urn:td"] language terms [] ?_, hreorder _ _ ?_⟩
  · simp [Dict.keys, language, terms]
  · exact .swap [] (.obj language) (.str "urn:td") [] (.refl _) fun _ h => h.2

/-- Of an object that stands alone a repeated `@id` shows, whereas in an array the last one counts. -/
example : (ofJson (.obj [("@id", .str "urn:a"), ("@id", .str "urn:b")])).toOption.isNone ∧
    (ofJson (.arr [.obj [("@id", .str "urn:a"), ("@id", .str "urn:b")]])).toOption.isSome := by
  decide

end Context
end WebOfThings
