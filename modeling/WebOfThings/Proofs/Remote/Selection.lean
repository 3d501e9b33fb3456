import WebOfThings.Proofs.Dict
import WebOfThings.Proofs.MediaType.Letters
import WebOfThings.Remote

/-!
# The form that an interaction uses

A form is usable for an operation if it supports the operation and there is a client for the scheme of its
href, seen from the base of the thing (`Usable`). Of the usable forms the first one is chosen, or the one at
the index that was asked for (`Chosen`); the case of schemes does not matter (`factoryFor?`).

What becomes of an interaction is settled by the chosen form alone (`attempt`): where its template, its
security or its credentials fail, no other form is tried, and forms after it do not matter.
`dispatch_selection` puts this together.

The choice is made before anything is asked of anybody, and it depends on the description, on the operation
and on the schemes that have clients, so it can be said without the clients themselves.
`select_eq_noForm_iff` and `select_eq_invalidFormIndex_iff` are the two ways in which there is nothing to
choose, and they are exact: with an index only that form counts, and it has to be usable like any other.
`dispatch_of_chosen` says that what follows is the business of the chosen form alone.
-/

namespace WebOfThings

/-! ## Registered clients -/

variable {ω : Type}

/-- The client factory that was registered last for a scheme, whatever the case of the letters. -/
def factoryFor? (registered : List (ClientFactory ω)) (scheme : String) : Option (ClientFactory ω) :=
  registered.reverse.find? fun g => MediaType.lowerCase g.scheme = MediaType.lowerCase scheme

/-- A client factory was registered for a scheme, whatever the case of the letters. -/
def Registered (registered : List (ClientFactory ω)) (scheme : String) : Prop :=
  ∃ g ∈ registered, MediaType.lowerCase g.scheme = MediaType.lowerCase scheme

/-- A scheme has a factory if one was registered for it, in any case. -/
theorem isSome_factoryFor?_iff {registered : List (ClientFactory ω)} {scheme : String} :
    (factoryFor? registered scheme).isSome = true ↔ Registered registered scheme := by
  simp [factoryFor?, Registered]

namespace Host

/-- The host with these factories in place of those it has, registered one after the other. -/
def withFactories (h : Host ω) (registered : List (ClientFactory ω)) : Host ω :=
  registered.foldl addFactory { h with factories := [] }

/-- A factory takes the place of the one for its own scheme. -/
theorem factory?_addFactory (h : Host ω) (g : ClientFactory ω) (scheme : String) :
    (h.addFactory g).factory? scheme =
      if MediaType.lowerCase g.scheme = MediaType.lowerCase scheme then some g else h.factory? scheme := by
  rw [factory?, addFactory, Dict.get?_insert]
  rfl

/-- Of factories that are registered one after the other, the last one for a scheme counts. -/
theorem factory?_foldl_addFactory (registered : List (ClientFactory ω)) (h : Host ω) (scheme : String) :
    (registered.foldl addFactory h).factory? scheme =
      (factoryFor? registered scheme).or (h.factory? scheme) := by
  -- The host changes with every registration; a factory counts unless a later one takes its scheme.
  induction registered generalizing h with
  | nil => rfl
  | cons g rest ih =>
    rw [List.foldl_cons, ih, factory?_addFactory, factoryFor?, factoryFor?, List.reverse_cons,
      List.find?_append, Option.or_assoc]
    congr 1
    by_cases hg : MediaType.lowerCase g.scheme = MediaType.lowerCase scheme <;> simp [hg]

/-- A host finds the factory that was registered last for a scheme. -/
theorem factory?_withFactories (h : Host ω) (registered : List (ClientFactory ω)) (scheme : String) :
    (h.withFactories registered).factory? scheme = factoryFor? registered scheme := by
  rw [withFactories, factory?_foldl_addFactory]
  exact Option.or_none

/-- The host finds a client for a scheme. -/
def HasClient (h : Host ω) (scheme : String) : Prop := (h.factory? scheme).isSome = true

theorem hasClient_withFactories (h : Host ω) (registered : List (ClientFactory ω)) :
    (h.withFactories registered).HasClient = Registered registered := by
  funext scheme
  rw [HasClient, factory?_withFactories]
  exact propext isSome_factoryFor?_iff

theorem factory?_lowerCase (h : Host ω) (scheme : String) :
    h.factory? (MediaType.lowerCase scheme) = h.factory? scheme :=
  factory?_of_lowerCase_eq h (MediaType.lowerCase_lowerCase scheme)

end Host

/-! ## Other forms of a thing -/

/-- The thing with other forms of one affordance. -/
def Thing.setForms (t : Thing) (type : AffordanceType) (name : String) (forms : List Form) : Thing :=
  match type with
  | .property =>
    { t with properties := t.properties.modify name fun p =>
        { p with interaction := { p.interaction with forms } } }
  | .action =>
    { t with actions := t.actions.modify name fun a =>
        { a with interaction := { a.interaction with forms } } }
  | .event =>
    { t with events := t.events.modify name fun e =>
        { e with interaction := { e.interaction with forms } } }

/-- The affordance has the forms that were set. -/
theorem Thing.interaction?_setForms (t : Thing) (type : AffordanceType) (name : String)
    (forms : List Form) :
    (t.setForms type name forms).interaction? type name =
      (t.interaction? type name).map fun i => { i with forms } := by
  cases type <;> simp [setForms, interaction?, Dict.get?_modify, Function.comp_def]

namespace Remote

/-! ## What becomes of the chosen form -/

/-- A request through a form that has been chosen, up to the consent of the client. -/
def complete (h : Host ω) (t : Thing) (declared : Dict DataSchema) (supplied : Dict Json) (f : Form)
    (client : ProtocolClient ω) : Except RemoteError (Prepared ω) :=
  match PlacedForm.resolve ⟨f, t⟩ declared supplied with
  | .error e => .error (.template e)
  | .ok form =>
    match PlacedForm.schemes ⟨f, t⟩ with
    | .error e => .error (.undeclaredSecurity e)
    | .ok schemes =>
      match h.credentials.resolve schemes form.href (some t.id) with
      | .error e => .error (.credentials e)
      | .ok credentials => .ok ⟨client, form, schemes, credentials⟩

/-- What becomes of an interaction once its form is chosen. Other forms play no part. -/
def attempt (h : Host ω) (t : Thing) (declared : Dict DataSchema) (supplied : Dict Json) (f : Form)
    (client : ProtocolClient ω) (w : ω) : Except RemoteError (Prepared ω) × ω :=
  match complete h t declared supplied f client with
  | .error e => (.error e, w)
  | .ok p =>
    match client.setSecurity p.schemes p.credentials w with
    | (true, w) => (.ok p, w)
    | (false, w) => (.error p.declined, w)

/-- A request that is complete has the client that it was made for. -/
theorem client_of_complete {h : Host ω} {t : Thing} {declared : Dict DataSchema} {supplied : Dict Json}
    {f : Form} {client : ProtocolClient ω} {p : Prepared ω}
    (hp : complete h t declared supplied f client = .ok p) : p.client = client := by
  unfold complete at hp
  split at hp
  · cases hp
  · split at hp
    · cases hp
    · split at hp
      · cases hp
      · cases hp
        rfl

theorem error_of_complete {h : Host ω} {t : Thing} {declared : Dict DataSchema} {supplied : Dict Json}
    {f : Form} {client : ProtocolClient ω} {e : RemoteError}
    (he : complete h t declared supplied f client = .error e) :
    (∃ x, e = .template x) ∨ (∃ x, e = .undeclaredSecurity x) ∨ ∃ x, e = .credentials x := by
  unfold complete at he
  split at he
  · next x _ =>
    cases he
    exact .inl ⟨x, rfl⟩
  · split at he
    · next x _ =>
      cases he
      exact .inr (.inl ⟨x, rfl⟩)
    · split at he
      · next x _ =>
        cases he
        exact .inr (.inr ⟨x, rfl⟩)
      · cases he

/-- A request is prepared in two steps: its form is chosen, and everything else is settled for it. -/
theorem prepare_eq (h : Host ω) (t : Thing) (target : Target) (options : InteractionOptions) :
    prepare h t target options =
      match t.interaction? target.type target.name with
      | none => .error (.unknown ⟨t.id, target.type, target.name⟩)
      | some i =>
        match select h t target i options.formIndex with
        | .error e => .error e
        | .ok (f, factory) =>
          complete h t i.uriVariables options.uriVariables f factory.client := rfl

/-- Where no form can be chosen, that is the result. -/
theorem dispatch_of_select_error {h : Host ω} {t : Thing} {target : Target}
    {options : InteractionOptions} {i : Interaction} {e : RemoteError} (w : ω)
    (hi : t.interaction? target.type target.name = some i)
    (hs : select h t target i options.formIndex = .error e) :
    dispatch h t target options w = (.error e, w) := by
  simp only [dispatch, prepare_eq, hi, hs]

/-- Where a form is chosen, what becomes of it is the result. -/
theorem dispatch_of_select_ok {h : Host ω} {t : Thing} {target : Target} {options : InteractionOptions}
    {i : Interaction} {f : Form} {factory : ClientFactory ω} (w : ω)
    (hi : t.interaction? target.type target.name = some i)
    (hs : select h t target i options.formIndex = .ok (f, factory)) :
    dispatch h t target options w =
      attempt h t i.uriVariables options.uriVariables f factory.client w := by
  obtain ⟨_, client⟩ := factory
  simp only [dispatch, prepare_eq, hi, hs, attempt]
  cases hc : complete h t i.uriVariables options.uriVariables f client with
  | error e => rfl
  | ok p =>
    obtain rfl : p.client = client := client_of_complete hc
    rfl

/-- What becomes of a form does not depend on the forms of affordances. -/
theorem attempt_setForms (h : Host ω) (t : Thing) (type : AffordanceType) (name : String)
    (forms : List Form) (declared : Dict DataSchema) (supplied : Dict Json) (f : Form)
    (client : ProtocolClient ω) (w : ω) :
    attempt h (t.setForms type name forms) declared supplied f client w =
      attempt h t declared supplied f client w := by
  cases type <;> rfl

/-! ## Usable forms -/

/-- A form is usable for an operation, given the schemes that there are clients for. -/
def Usable (reachable : String → Prop) (t : Thing) (op : Operation) (f : Form) : Prop :=
  (f.op = .any ∨ ∃ ops, f.op = .only ops ∧ op ∈ ops) ∧
  ∃ scheme, Href.scheme? (PlacedForm.href ⟨f, t⟩) = some scheme ∧ reachable scheme

/-- The form at a place is the one to use: it is usable, and either no earlier one is, or its index was
asked for. -/
structure Chosen (usable : Form → Prop) (forms : List Form) (index : Option Nat) (place : Nat)
    (f : Form) : Prop where
  here : forms[place]? = some f
  fits : usable f
  first : index = none → ∀ j < place, ∀ g, forms[j]? = some g → ¬ usable g
  asked : ∀ k, index = some k → k = place

/-- None of the forms to choose from is usable. -/
def NoneUsable (usable : Form → Prop) (forms : List Form) (index : Option Nat) : Prop :=
  match index with
  | none => ∀ f ∈ forms, ¬ usable f
  | some k => ∃ f, forms[k]? = some f ∧ ¬ usable f

/-- Forms after the chosen one do not matter for the choice. -/
theorem Chosen.of_take_eq {usable : Form → Prop} {forms forms' : List Form} {index : Option Nat}
    {place : Nat} {f : Form} (hc : Chosen usable forms index place f)
    (htake : forms'.take (place + 1) = forms.take (place + 1)) :
    Chosen usable forms' index place f := by
  have hget : ∀ j ≤ place, forms'[j]? = forms[j]? := by
    intro j hj
    have hj' : j < place + 1 := by omega
    rw [← List.getElem?_take_of_lt hj', htake, List.getElem?_take_of_lt hj']
  refine ⟨?_, hc.fits, ?_, hc.asked⟩
  · rw [hget place (Nat.le_refl _)]
    exact hc.here
  · intro hindex j hj g hg
    rw [hget j (by omega)] at hg
    exact hc.first hindex j hj g hg

/-- The usable forms are the same whatever the forms of the affordance. -/
theorem usable_setForms (reachable : String → Prop) (t : Thing) (type : AffordanceType) (name : String)
    (forms : List Form) (op : Operation) :
    Usable reachable (t.setForms type name forms) op = Usable reachable t op := by
  cases type <;> rfl

section

variable (h : Host ω) (t : Thing)

/-- A form is suitable if it supports the operation and its scheme has a client. -/
theorem suitable?_eq (op : Operation) (f : Form) :
    suitable? h t op f =
      if f.supports op then (Href.scheme? (PlacedForm.href ⟨f, t⟩)).bind h.factory? else none := by
  unfold suitable?
  congr 1
  rw [PlacedForm.scheme?]
  cases Href.scheme? (PlacedForm.href ⟨f, t⟩) with
  | none => rfl
  | some scheme => rw [Option.map_some, Option.bind_some, Option.bind_some, h.factory?_lowerCase]

/-- A form is usable if a factory is found for it. -/
theorem isSome_suitable?_iff {op : Operation} {f : Form} :
    (suitable? h t op f).isSome = true ↔ Usable h.HasClient t op f := by
  rw [suitable?_eq, Usable, ← Form.supports_iff]
  by_cases hop : f.supports op = true
  · cases hscheme : Href.scheme? (PlacedForm.href ⟨f, t⟩) with
    | none => simp [hop]
    | some scheme => simp [hop, Host.HasClient]
  · simp [hop]

theorem suitable?_eq_none_iff {op : Operation} {f : Form} :
    suitable? h t op f = none ↔ ¬ Usable h.HasClient t op f := by
  rw [← isSome_suitable?_iff, Bool.not_eq_true, Option.isSome_eq_false_iff, Option.isNone_iff_eq_none]

theorem suitable?_of_usable {op : Operation} {f : Form} (hf : Usable h.HasClient t op f) :
    ∃ scheme factory, Href.scheme? (PlacedForm.href ⟨f, t⟩) = some scheme ∧
      h.factory? scheme = some factory ∧ suitable? h t op f = some factory := by
  obtain ⟨hop, scheme, hscheme, hclient⟩ := hf
  obtain ⟨factory, hfactory⟩ := Option.isSome_iff_exists.1 hclient
  refine ⟨scheme, factory, hscheme, hfactory, ?_⟩
  rw [suitable?_eq, if_pos ((f.supports_iff op).2 hop), hscheme]
  exact hfactory

/-- There is no usable form if none of them is. -/
theorem firstSuitable?_eq_none_iff {op : Operation} {forms : List Form} :
    firstSuitable? h t op forms = none ↔ ∀ f ∈ forms, ¬ Usable h.HasClient t op f := by
  induction forms with
  | nil => simp [firstSuitable?]
  | cons f rest ih =>
    rw [firstSuitable?, List.forall_mem_cons, ← ih, ← suitable?_eq_none_iff]
    cases suitable? h t op f <;> simp

/-! ## The choice -/

variable (target : Target)

/-- There is no form if none is usable, and the answer says which operation was asked for. -/
theorem select_eq_noForm_iff {i : Interaction} {index : Option Nat} {label : String} {op : Operation} :
    select h t target i index = .error (.noForm label op) ↔
      label = target.label t ∧ op = target.op ∧
        NoneUsable (Usable h.HasClient t target.op) i.forms index := by
  cases index with
  | none =>
    simp only [select, candidates, NoneUsable]
    rw [← firstSuitable?_eq_none_iff]
    cases firstSuitable? h t target.op i.forms <;> simp [eq_comm]
  | some k =>
    simp only [select, candidates, NoneUsable]
    cases hk : i.forms[k]? with
    | none => simp
    | some f =>
      have hone : firstSuitable? h t target.op [f] = none ↔ ¬ Usable h.HasClient t target.op f := by
        rw [firstSuitable?_eq_none_iff, List.forall_mem_singleton]
      simp only [Option.some.injEq, exists_eq_left', ← hone]
      cases firstSuitable? h t target.op [f] <;> simp [eq_comm]

/-- An index without a form says which index it was. -/
theorem select_eq_invalidFormIndex_iff {i : Interaction} {index : Option Nat} {label : String} {k : Nat} :
    select h t target i index = .error (.invalidFormIndex label k) ↔
      label = target.label t ∧ index = some k ∧ i.forms.length ≤ k := by
  cases index with
  | none =>
    simp only [select, candidates]
    cases firstSuitable? h t target.op i.forms <;> simp
  | some j =>
    simp only [select, candidates]
    cases hj : i.forms[j]? with
    | none =>
      have hlength : i.forms.length ≤ j := List.getElem?_eq_none_iff.1 hj
      simp only [Except.error.injEq, RemoteError.invalidFormIndex.injEq, Option.some.injEq]
      constructor
      · rintro ⟨rfl, rfl⟩
        exact ⟨rfl, rfl, hlength⟩
      · rintro ⟨rfl, rfl, -⟩
        exact ⟨rfl, rfl⟩
    | some f =>
      have hlength : j < i.forms.length := (List.getElem?_eq_some_iff.1 hj).1
      have hfalse : ¬ (label = target.label t ∧ some j = some k ∧ i.forms.length ≤ k) := by
        rintro ⟨-, hjk, hle⟩
        have : j = k := Option.some.inj hjk
        omega
      simp only [hfalse, iff_false]
      cases firstSuitable? h t target.op [f] <;> simp

/-- The chosen form is selected, with the factory that the host finds for its scheme. -/
theorem select_of_chosen {i : Interaction} {index : Option Nat} {place : Nat} {f : Form}
    (hc : Chosen (Usable h.HasClient t target.op) i.forms index place f) :
    ∃ scheme factory, Href.scheme? (PlacedForm.href ⟨f, t⟩) = some scheme ∧
      h.factory? scheme = some factory ∧ select h t target i index = .ok (f, factory) := by
  obtain ⟨scheme, factory, hscheme, hfactory, hsuitable⟩ := suitable?_of_usable h t hc.fits
  refine ⟨scheme, factory, hscheme, hfactory, ?_⟩
  cases index with
  | none =>
    -- The list is split at the chosen place; everything before it is skipped.
    obtain ⟨hplace, hf⟩ := List.getElem?_eq_some_iff.1 hc.here
    refine select_eq_ok_iff.2 ⟨i.forms.take place, i.forms.drop (place + 1), ?_, hsuitable, ?_⟩
    · rw [← hf, ← List.drop_eq_getElem_cons hplace, List.take_append_drop]
    · intro g hg
      obtain ⟨j, hj, hjg⟩ := List.mem_take_iff_getElem.1 hg
      have hlt : j < place := by omega
      rw [suitable?_eq_none_iff]
      exact hc.first rfl j hlt g (List.getElem?_eq_some_iff.2 ⟨by omega, hjg⟩)
  | some k =>
    -- Only the form that was asked for is looked at.
    have hk : k = place := hc.asked k rfl
    simp only [select, candidates, hk, hc.here, firstSuitable?, hsuitable]

theorem usable_of_suitable? {op : Operation} {f : Form} {factory : ClientFactory ω}
    (hf : suitable? h t op f = some factory) :
    Usable h.HasClient t op f ∧ ∃ scheme, Href.scheme? (PlacedForm.href ⟨f, t⟩) = some scheme ∧
      h.factory? scheme = some factory := by
  refine ⟨(isSome_suitable?_iff h t).1 (by rw [hf, Option.isSome_some]), ?_⟩
  rw [suitable?_eq] at hf
  split at hf
  · exact Option.bind_eq_some_iff.1 hf
  · cases hf

/-- A form that is selected is the chosen one. -/
theorem chosen_of_select {i : Interaction} {index : Option Nat} {f : Form} {factory : ClientFactory ω}
    (hs : select h t target i index = .ok (f, factory)) :
    (∃ place, Chosen (Usable h.HasClient t target.op) i.forms index place f) ∧
      ∃ scheme, Href.scheme? (PlacedForm.href ⟨f, t⟩) = some scheme ∧ h.factory? scheme = some factory := by
  cases index with
  | none =>
    obtain ⟨before, after, hforms, hsuitable, hbefore⟩ := select_eq_ok_iff.1 hs
    obtain ⟨husable, hscheme⟩ := usable_of_suitable? h t hsuitable
    refine ⟨⟨before.length, by simp [hforms], husable, ?_, fun _ h => by cases h⟩, hscheme⟩
    intro _ j hj g hg
    rw [hforms, List.getElem?_append_left hj] at hg
    exact (suitable?_eq_none_iff h t).1 (hbefore g (List.mem_of_getElem? hg))
  | some k =>
    simp only [select, candidates] at hs
    cases hk : i.forms[k]? with
    | none =>
      rw [hk] at hs
      cases hs
    | some g =>
      simp only [hk, firstSuitable?] at hs
      cases hsuitable : suitable? h t target.op g with
      | none =>
        rw [hsuitable] at hs
        cases hs
      | some factory' =>
        rw [hsuitable] at hs
        cases hs
        obtain ⟨husable, hscheme⟩ := usable_of_suitable? h t hsuitable
        exact ⟨⟨k, hk, husable, (fun h => by cases h), fun _ hj => (Option.some.inj hj).symm⟩, hscheme⟩

/-- There is no other reason for having no form. -/
theorem select_error_cases {i : Interaction} {index : Option Nat} {e : RemoteError}
    (hs : select h t target i index = .error e) :
    (∃ label op, e = .noForm label op) ∨ ∃ label k, e = .invalidFormIndex label k := by
  unfold select at hs
  split at hs
  · next e' hcandidates =>
    -- There is nothing to choose from: the index is out of range.
    cases hs
    unfold candidates at hcandidates
    split at hcandidates
    · cases hcandidates
    · split at hcandidates
      · cases hcandidates
      · cases hcandidates
        exact .inr ⟨_, _, rfl⟩
  · split at hs
    · cases hs
    · cases hs
      exact .inl ⟨_, _, rfl⟩

end

/-- The chosen form never fails for want of a form. -/
theorem attempt_ne_selection {h : Host ω} {t : Thing} {declared : Dict DataSchema} {supplied : Dict Json}
    {f : Form} {client : ProtocolClient ω} {w : ω} {e : RemoteError}
    (he : (attempt h t declared supplied f client w).1 = .error e) :
    (∀ label op, e ≠ .noForm label op) ∧ ∀ label k, e ≠ .invalidFormIndex label k := by
  unfold attempt at he
  split at he
  · next e' hc =>
    -- the template, the security or the credentials
    cases he
    rcases error_of_complete hc with ⟨x, rfl⟩ | ⟨x, rfl⟩ | ⟨x, rfl⟩ <;> simp
  · split at he
    · cases he
    · cases he
      simp [Prepared.declined]

/-! ## The outcome -/

section

variable {h : Host ω} {t : Thing} {target : Target} {options : InteractionOptions} {i : Interaction}

/-- The chosen form settles what becomes of an interaction. -/
theorem dispatch_of_chosen (w : ω) (hi : t.interaction? target.type target.name = some i) {place : Nat}
    {f : Form} (hc : Chosen (Usable h.HasClient t target.op) i.forms options.formIndex place f) :
    ∃ scheme factory, Href.scheme? (PlacedForm.href ⟨f, t⟩) = some scheme ∧
      h.factory? scheme = some factory ∧
      dispatch h t target options w =
        attempt h t i.uriVariables options.uriVariables f factory.client w := by
  obtain ⟨scheme, factory, hscheme, hfactory, hselect⟩ := select_of_chosen h t target hc
  exact ⟨scheme, factory, hscheme, hfactory, dispatch_of_select_ok w hi hselect⟩

/-- Forms after the chosen one do not matter for what becomes of an interaction. -/
theorem dispatch_setForms (w : ω) (hi : t.interaction? target.type target.name = some i) {place : Nat}
    {f : Form} (hc : Chosen (Usable h.HasClient t target.op) i.forms options.formIndex place f)
    {forms : List Form} (htake : forms.take (place + 1) = i.forms.take (place + 1)) :
    dispatch h (t.setForms target.type target.name forms) target options w =
      dispatch h t target options w := by
  have hi' : (t.setForms target.type target.name forms).interaction? target.type target.name =
      some { i with forms } := by
    rw [Thing.interaction?_setForms, hi, Option.map_some]
  have hhref : PlacedForm.href ⟨f, t.setForms target.type target.name forms⟩ =
      PlacedForm.href ⟨f, t⟩ := by
    cases target.type <;> rfl
  -- The same form is chosen among the other forms.
  have hc' := hc.of_take_eq htake
  rw [← usable_setForms _ t target.type target.name forms] at hc'
  obtain ⟨scheme, factory, hscheme, hfactory, hdispatch⟩ := dispatch_of_chosen w hi hc
  obtain ⟨scheme', factory', hscheme', hfactory', hdispatch'⟩ :=
    dispatch_of_chosen (i := { i with forms }) w hi' hc'
  -- It has the same href there, and so the same client.
  rw [hhref, hscheme] at hscheme'
  cases hscheme'
  rw [hfactory] at hfactory'
  cases hfactory'
  rw [hdispatch, hdispatch', attempt_setForms]

theorem dispatch_noForm_iff (w : ω) (hi : t.interaction? target.type target.name = some i)
    {label : String} {op : Operation} :
    (dispatch h t target options w).1 = .error (.noForm label op) ↔
      label = target.label t ∧ op = target.op ∧
        NoneUsable (Usable h.HasClient t target.op) i.forms options.formIndex := by
  rw [← select_eq_noForm_iff]
  cases hs : select h t target i options.formIndex with
  | error e =>
    rw [dispatch_of_select_error w hi hs]
    simp
  | ok chosen =>
    obtain ⟨f, factory⟩ := chosen
    rw [dispatch_of_select_ok w hi hs]
    refine ⟨fun he => absurd rfl ((attempt_ne_selection he).1 label op), fun he => ?_⟩
    cases he

theorem dispatch_invalidFormIndex_iff (w : ω) (hi : t.interaction? target.type target.name = some i)
    {label : String} {k : Nat} :
    (dispatch h t target options w).1 = .error (.invalidFormIndex label k) ↔
      label = target.label t ∧ options.formIndex = some k ∧ i.forms.length ≤ k := by
  rw [← select_eq_invalidFormIndex_iff h]
  cases hs : select h t target i options.formIndex with
  | error e =>
    rw [dispatch_of_select_error w hi hs]
    simp
  | ok chosen =>
    obtain ⟨f, factory⟩ := chosen
    rw [dispatch_of_select_ok w hi hs]
    refine ⟨fun he => absurd rfl ((attempt_ne_selection he).2 label k), fun he => ?_⟩
    cases he

end

/-- Of the forms of an affordance, the chosen one settles what becomes of an interaction: `attempt` looks at
no other form, and those after it may be different. Without a usable form, and only then, the interaction
fails for want of one; with an index that no form has, and only then, it fails for the index. -/
theorem dispatch_selection (h : Host ω) (registered : List (ClientFactory ω)) (t : Thing) (target : Target)
    (options : InteractionOptions) (w : ω) {i : Interaction}
    (hi : t.interaction? target.type target.name = some i) :
    (∀ place f, Chosen (Usable (Registered registered) t target.op) i.forms options.formIndex place f →
      (∃ scheme factory, Href.scheme? (PlacedForm.href ⟨f, t⟩) = some scheme ∧
        factoryFor? registered scheme = some factory ∧
        dispatch (h.withFactories registered) t target options w =
          attempt (h.withFactories registered) t i.uriVariables options.uriVariables f factory.client w) ∧
      ∀ forms, forms.take (place + 1) = i.forms.take (place + 1) →
        dispatch (h.withFactories registered) (t.setForms target.type target.name forms) target options w =
          dispatch (h.withFactories registered) t target options w) ∧
    (∀ label op, (dispatch (h.withFactories registered) t target options w).1 = .error (.noForm label op) ↔
      label = target.label t ∧ op = target.op ∧
        NoneUsable (Usable (Registered registered) t target.op) i.forms options.formIndex) ∧
    ∀ label k,
      (dispatch (h.withFactories registered) t target options w).1 =
          .error (.invalidFormIndex label k) ↔
        label = target.label t ∧ options.formIndex = some k ∧ i.forms.length ≤ k := by
  -- The registered schemes are the ones that the host has clients for.
  rw [← h.hasClient_withFactories]
  refine ⟨fun place f hc => ⟨?_, fun forms htake => dispatch_setForms w hi hc htake⟩,
    fun label op => dispatch_noForm_iff w hi, fun label k => dispatch_invalidFormIndex_iff w hi⟩
  obtain ⟨scheme, factory, hscheme, hfactory, hdispatch⟩ := dispatch_of_chosen w hi hc
  rw [h.factory?_withFactories] at hfactory
  exact ⟨scheme, factory, hscheme, hfactory, hdispatch⟩

/-- A client that consents to everything and can do nothing. -/
def idleClient : ProtocolClient Unit where
  setSecurity _ _ w := (true, w)
  read _ := Effect.fail (.unsupported "reading")
  write _ _ := Effect.fail (.unsupported "writing")
  invoke _ _ := Effect.fail (.unsupported "invoking")
  observe _ := Effect.fail (.unsupported "observing")

/-- The factory of these clients, registered in capital letters. -/
def idleFactory : ClientFactory Unit where
  scheme := "HTTP"
  client := idleClient

/-- The temperature of a room: to be written through the first form, to be read through the others. -/
def temperature : Interaction where
  forms :=
    [{ op := .only [.writeProperty], href := "http://room/set" }, { href := "//room/temperature" },
     { href := "http://room/temperature\x7b?unit\x7d" }, { href := "http://room/other" }]

/-- A room with a temperature. -/
def room : Thing where
  id := "urn:room"
  properties := [("temperature", { interaction := temperature })]

/-- The third form of the room is the first one that is usable for reading. -/
theorem chosen_room :
    Chosen (Usable (Registered [idleFactory]) room .readProperty) temperature.forms none 2
      { href := "http://room/temperature\x7b?unit\x7d" } where
  here := rfl
  fits := ⟨.inl rfl, "http", by decide, _, List.mem_singleton_self _, by decide⟩
  first := by
    intro _ j hj g hg hg'
    have hj' : j = 0 ∨ j = 1 := by omega
    rcases hj' with rfl | rfl
    · cases hg
      simpa using hg'.1
    · cases hg
      obtain ⟨-, scheme, hscheme, -⟩ := hg'
      have hnone : Href.scheme? (PlacedForm.href ⟨{ href := "//room/temperature" }, room⟩) = none := by decide
      rw [hnone] at hscheme
      cases hscheme
  asked := by simp

/-- The third form is chosen, and its variable has no value; the fourth one is not tried. -/
theorem dispatch_selection_room :
    room.interaction? .property "temperature" = some temperature ∧
      ∃ factory : ClientFactory Unit,
        dispatch (({} : Host Unit).withFactories [idleFactory]) room
            ⟨.property, "temperature", .readProperty⟩ {} () =
          attempt (({} : Host Unit).withFactories [idleFactory]) room
            [] [] { href := "http://room/temperature\x7b?unit\x7d" } factory.client () := by
  refine ⟨rfl, ?_⟩
  obtain ⟨⟨-, factory, -, -, hdispatch⟩, -⟩ :=
    (dispatch_selection ({} : Host Unit) [idleFactory] room
      ⟨.property, "temperature", .readProperty⟩ {} () (show _ = some temperature from rfl)).1 2 _ chosen_room
  exact ⟨factory, hdispatch⟩

end Remote
end WebOfThings
