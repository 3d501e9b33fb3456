import WebOfThings.Proofs.Text
import WebOfThings.Thing.Basic

/-!
# Compact and expanded types

Things are asked for their properties of a semantic type, which may be a compact term or the IRI that the
term stands for. The type that is asked for is expanded, so the two ways of asking agree exactly if the IRI
is not expanded once more (`expand_expand_iff`).

What the table of prefixes has to do with it says `Settled`: an IRI that a prefix stands for must not begin
with another prefix and a colon, nor be the beginning of another prefix. Both are admitted
(`expanded_not_found`).

`properties_by_object_type` expands what it is asked for and the types of the properties, and `expand` takes
whatever stands before a colon for a prefix if it is bound. So the IRI that a term stands for may be
expanded again, when it begins with a bound prefix or its scheme is bound. `expand_expand_iff` gives the
exact condition for a single term, `Settled` the one for a whole table, and the statement about properties
follows from both.
-/

namespace WebOfThings

namespace Context

variable {context : Context}

/-! ## Expanding once -/

theorem expand_of_not_mem {term : String} (h : ':' ∉ term.toList) : context.expand term = term := by
  rw [expand, Text.cut_of_not_mem h]

/-- A term that is not expanded stands for itself. -/
theorem expand_of_prefix?_eq_none {name : List Char} (hname : ':' ∉ name) (suffix : List Char)
    (h : context.prefix? (String.ofList name) = none) :
    context.expand (String.ofList (name ++ ':' :: suffix)) = String.ofList (name ++ ':' :: suffix) := by
  simp [expand, Text.cut_append_cons hname, h]

/-- A compact IRI whose name is bound expands to what the name stands for and its suffix. -/
theorem expand_append {name : List Char} (hname : ':' ∉ name) (suffix : List Char) {iri : Iri}
    (h : context.prefix? (String.ofList name) = some iri) :
    context.expand (String.ofList (name ++ ':' :: suffix)) = iri.text ++ String.ofList suffix :=
  expand_of_prefix (by simp [Text.cut_append_cons hname]) h

/-- A text without a colon, or a text with its first colon. -/
theorem not_mem_or_exists_append (s : List Char) :
    ':' ∉ s ∨ ∃ name suffix, ':' ∉ name ∧ s = name ++ ':' :: suffix := by
  cases h : (Text.cut ':' s).2 with
  | none => exact .inl (Text.cut_snd_eq_none_iff.1 h)
  | some suffix => exact .inr ⟨_, suffix, Text.not_mem_cut_fst ':' s, Text.cut_eq_some (Prod.ext rfl h)⟩

/-- A compact term is what it stands for if its prefix stands for itself. -/
theorem expand_append_eq_self_iff {name : List Char} (hname : ':' ∉ name) (suffix : List Char) {iri : Iri}
    (h : context.prefix? (String.ofList name) = some iri) :
    context.expand (String.ofList (name ++ ':' :: suffix)) = String.ofList (name ++ ':' :: suffix) ↔
      iri.text.toList = name ++ [':'] := by
  have hassoc : name ++ ':' :: suffix = name ++ [':'] ++ suffix := by simp
  rw [expand_append hname suffix h, ← String.toList_inj, String.toList_append, String.toList_ofList,
    String.toList_ofList, hassoc, List.append_left_inj]

/-! ## Expanding twice -/

/-- An IRI that a prefix stands for is not taken for a compact term, whatever follows it: where it begins with
another prefix and a colon, or is the beginning of another prefix, that one stands for itself. -/
def Settled (context : Context) : Prop :=
  ∀ (name other : List Char) (iri further : Iri), ':' ∉ name → ':' ∉ other →
    context.prefix? (String.ofList name) = some iri → context.prefix? (String.ofList other) = some further →
    other ++ [':'] <+: iri.text.toList ∨ iri.text.toList <+: other →
    further.text.toList = other ++ [':']

/-- A text can be continued to a compact term of a prefix if it begins with that prefix and a colon, or is the
beginning of the prefix. -/
theorem exists_append_eq_iff {iri other : List Char} :
    (∃ suffix rest, iri ++ suffix = other ++ ':' :: rest) ↔ other ++ [':'] <+: iri ∨ iri <+: other := by
  constructor
  · rintro ⟨suffix, rest, h⟩
    have hiri : iri <+: other ++ ':' :: rest := ⟨suffix, h⟩
    have hother : other ++ [':'] <+: other ++ ':' :: rest := ⟨rest, by simp⟩
    rcases List.prefix_or_prefix_of_prefix hiri hother with hle | hle
    · rcases List.prefix_concat_iff.1 hle with rfl | hle
      · exact .inl (List.prefix_refl _)
      · exact .inr hle
    · exact .inl hle
  · rintro (⟨rest, rfl⟩ | ⟨suffix, rfl⟩)
    · exact ⟨[], rest, by simp⟩
    · exact ⟨suffix ++ [':'], [], by simp⟩

/-- Terms are not expanded once more if the table is settled, and in no other table. -/
theorem expand_expand_iff :
    (∀ term, context.expand (context.expand term) = context.expand term) ↔ context.Settled := by
  constructor
  · intro h name other iri further hname hother hiri hfurther hmeet
    obtain ⟨suffix, rest, happend⟩ := exists_append_eq_iff.2 hmeet
    have htwice := h (String.ofList (name ++ ':' :: suffix))
    have hout : iri.text ++ String.ofList suffix = String.ofList (other ++ ':' :: rest) := by
      rw [← String.toList_inj]
      simpa using happend
    rw [expand_append hname suffix hiri, hout] at htwice
    exact (expand_append_eq_self_iff hother rest hfurther).1 htwice
  · intro h term
    rcases not_mem_or_exists_append term.toList with hterm | ⟨name, suffix, hname, hterm⟩
    · rw [expand_of_not_mem hterm, expand_of_not_mem hterm]
    obtain rfl : term = String.ofList (name ++ ':' :: suffix) := by rw [← hterm, String.ofList_toList]
    cases hiri : context.prefix? (String.ofList name) with
    | none => rw [expand_of_prefix?_eq_none hname suffix hiri, expand_of_prefix?_eq_none hname suffix hiri]
    | some iri =>
      rw [expand_append hname suffix hiri]
      -- The IRI with the suffix may be a compact term again.
      rcases not_mem_or_exists_append (iri.text ++ String.ofList suffix).toList with
        hout | ⟨other, rest, hother, hout⟩
      · exact expand_of_not_mem hout
      rw [← String.ofList_toList (s := iri.text ++ String.ofList suffix), hout]
      cases hfurther : context.prefix? (String.ofList other) with
      | none => exact expand_of_prefix?_eq_none hother rest hfurther
      | some further =>
        refine (expand_append_eq_self_iff hother rest hfurther).2 ?_
        exact h name other iri further hname hother hiri hfurther
          (exists_append_eq_iff.1 ⟨suffix, rest, by simpa using hout⟩)

end Context

/-! ## Properties of a type -/

namespace Thing

/-- Asked for what a term stands for, all things with a vocabulary tell the same properties as asked for the
term, if the term is not expanded once more. -/
theorem propertiesOfType_expand_term_iff (context : Context) (term : String) :
    (∀ t : Thing, propertiesOfType { t with context } (context.expand term) =
        propertiesOfType { t with context } term) ↔
      context.expand (context.expand term) = context.expand term := by
  constructor
  · intro h
    -- A thing with one property, whose type is the term, tells the difference.
    let p : PropertyAffordance := { interaction := { labels := { types := some [term] } } }
    have hmem : ("", p) ∈ propertiesOfType { id := "", context, properties := [("", p)] } term :=
      mem_propertiesOfType_iff.2 ⟨List.mem_singleton_self _, term, List.mem_singleton_self _, rfl⟩
    rw [← h { id := "", properties := [("", p)] }] at hmem
    obtain ⟨-, own, hown, hexpand⟩ := mem_propertiesOfType_iff.1 hmem
    rw [List.mem_singleton.1 hown] at hexpand
    exact hexpand.symm
  · intro h t
    simp only [propertiesOfType, propertyHasType, h]

/-- A term and the IRI that it stands for have the same properties, whatever the thing, exactly if the IRI is
not expanded once more; for all terms of a vocabulary, exactly if its table of prefixes is settled. -/
theorem propertiesOfType_expand_iff (context : Context) :
    (∀ term, (∀ t : Thing, propertiesOfType { t with context } (context.expand term) =
          propertiesOfType { t with context } term) ↔
        context.expand (context.expand term) = context.expand term) ∧
      ((∀ (term : String) (t : Thing), propertiesOfType { t with context } (context.expand term) =
          propertiesOfType { t with context } term) ↔
        context.Settled) := by
  refine ⟨propertiesOfType_expand_term_iff context, ?_⟩
  rw [← Context.expand_expand_iff]
  exact forall_congr' (propertiesOfType_expand_term_iff context)

/-- A thing with one property, described with a table of prefixes and the type of the property. -/
def describedWith (table : List (String × Json)) (type : String) : Json :=
  .obj
    [("@context", .obj table), ("id", .str "urn:lamp"),
     ("properties", .obj [("on", .obj [("@type", .str type)])])]

/-- A prefix that is bound to a compact term, and a prefix with the name of a scheme: the property has the type
that is asked for, and not the IRI that the type stands for. -/
theorem expanded_not_found :
    (∃ t, ofJson (describedWith [("a", .str "b:x"), ("b", .str "http://y/")] "a:z").normal = .ok t ∧
      t.context.expand "a:z" = "b:xz" ∧ (t.propertiesOfType "a:z").keys = ["on"] ∧
        t.propertiesOfType "b:xz" = []) ∧
    ∃ t, ofJson (describedWith [("http", .str "urn:web:"), ("saref", .str "http://saref/")] "saref:OnOff").normal =
        .ok t ∧
      t.context.expand "saref:OnOff" = "http://saref/OnOff" ∧
        (t.propertiesOfType "saref:OnOff").keys = ["on"] ∧ t.propertiesOfType "http://saref/OnOff" = [] :=
  ⟨⟨_, rfl, rfl, rfl, rfl⟩, ⟨_, rfl, rfl, rfl, rfl⟩⟩

end Thing
end WebOfThings
