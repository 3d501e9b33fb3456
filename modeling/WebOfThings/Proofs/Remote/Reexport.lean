import WebOfThings.Proofs.Draft.Export
import WebOfThings.Proofs.Remote.Selection

/-!
# What a form may be used for after an export

A form that is exported and read again may be used for what it could be used for before, unless it had a
list of operations with nothing in it: that list is not read again, so a form that was suitable for nothing
becomes suitable for everything (`Form.supports_reread_iff`).

Nothing else of a form, and nothing of its surroundings that the choice of a form looks at, is changed by an
export. So the same forms are chosen on the exported thing, for all operations and on all hosts, if and only
if the forms with an empty list cannot be reached in any case, their hrefs being relative
(`select_reread_iff`).

The choice of a form looks at three things: the list of operations, the href against the base, and the
clients. The first is the only one that an export may change, and it changes it in one case. Both halves of
the statement are exact, so a form with an empty list is the only reason why an exported thing behaves
differently.
-/

namespace WebOfThings

variable {ω : Type}

/-! ## Forms -/

namespace Form

instance (f : Form) : Decidable f.ListsNone := inferInstanceAs (Decidable (f.op = .only []))

/-- A form with an empty list may be used for nothing. -/
theorem ListsNone.supports_eq_false {f : Form} (h : f.ListsNone) (op : Operation) :
    f.supports op = false := by
  simp [supports, show f.op = .only [] from h]

/-- It is read again without a list. -/
theorem ListsNone.reread_op {f : Form} (h : f.ListsNone) : f.reread.op = .any := by
  rw [reread, show f.op = .only [] from h]
  rfl

/-- What is read again may be used for what it could be used for before, or for everything if that was
nothing by an empty list. -/
theorem supports_reread_iff (f : Form) (op : Operation) :
    f.reread.supports op = true ↔ f.supports op = true ∨ f.ListsNone := by
  by_cases hnone : f.ListsNone
  · simp [supports, hnone.reread_op, hnone]
  · simp [reread_eq_self hnone, hnone]

end Form

/-! ## Forms of a thing -/

/-- An affordance is there again after an export, with its forms read once more. -/
theorem Thing.interaction?_reread (t : Thing) (type : AffordanceType) (name : String) :
    t.reread.interaction? type name = (t.interaction? type name).map Interaction.reread := by
  cases type <;> simp [interaction?, reread, Dict.get?_mapValues, Function.comp_def] <;> rfl

/-- So is each of its forms, in its place. -/
theorem Thing.form?_reread (t : Thing) (place : Option (AffordanceType × String)) (index : Nat) :
    t.reread.form? place index = (t.form? place index).map fun p => ⟨p.form.reread, t.reread⟩ := by
  have hforms : t.reread.formsOf? place = (t.formsOf? place).map (·.map Form.reread) := by
    cases place with
    | none => rfl
    | some target =>
      rw [formsOf?, formsOf?, interaction?_reread, Option.map_map, Option.map_map]
      rfl
  rw [form?, form?, hforms]
  cases t.formsOf? place with
  | none => rfl
  | some forms => simp [Function.comp_def]

namespace Remote

/-! ## The choice of a form -/

section

variable (h : Host ω) (t : Thing)

/-- A form with an empty list is suitable after an export if it can be reached. -/
theorem suitable?_reread_of_listsNone {f : Form} (hnone : f.ListsNone) (op : Operation) :
    suitable? h t.reread op f.reread = (PlacedForm.scheme? ⟨f, t⟩).bind h.factory? := by
  have hsupports : f.reread.supports op = true := (f.supports_reread_iff op).2 (.inr hnone)
  rw [suitable?, if_pos hsupports]
  rfl

theorem suitable?_eq_none_of_listsNone {f : Form} (hnone : f.ListsNone) (op : Operation) :
    suitable? h t op f = none := by
  simp [suitable?, hnone.supports_eq_false op]

/-- A form is as suitable as before, if it has no empty list or cannot be reached. -/
theorem suitable?_reread {f : Form} (hf : f.ListsNone → PlacedForm.scheme? ⟨f, t⟩ = none) (op : Operation) :
    suitable? h t.reread op f.reread = suitable? h t op f := by
  by_cases hnone : f.ListsNone
  · rw [suitable?_reread_of_listsNone h t hnone, suitable?_eq_none_of_listsNone h t hnone, hf hnone]
    rfl
  · rw [Form.reread_eq_self hnone]
    rfl

/-- The first suitable form is the same after an export, if no form with an empty list can be reached. -/
theorem firstSuitable?_reread {forms : List Form}
    (hforms : ∀ f ∈ forms, f.ListsNone → PlacedForm.scheme? ⟨f, t⟩ = none) (op : Operation) :
    firstSuitable? h t.reread op (forms.map Form.reread) = firstSuitable? h t op forms := by
  induction forms with
  | nil => rfl
  | cons f rest ih =>
    obtain ⟨hf, hrest⟩ := List.forall_mem_cons.1 hforms
    rw [List.map_cons, firstSuitable?, firstSuitable?, suitable?_reread h t hf, ih hrest]
    cases hsuitable : suitable? h t op f with
    | none => rfl
    | some factory =>
      -- What is suitable supports the operation, so it has no empty list.
      have hsome : ¬ f.ListsNone := fun hnone => by
        rw [suitable?_eq_none_of_listsNone h t hnone] at hsuitable
        cases hsuitable
      rw [Form.reread_eq_self hsome]

/-- So is the form that is chosen. -/
theorem select_reread {i : Interaction}
    (hforms : ∀ f ∈ i.forms, f.ListsNone → PlacedForm.scheme? ⟨f, t⟩ = none) (target : Target)
    (index : Option Nat) : select h t.reread target i.reread index = select h t target i index := by
  have hfirst : ∀ forms, (∀ f ∈ forms, f ∈ i.forms) →
      firstSuitable? h t.reread target.op (forms.map Form.reread) = firstSuitable? h t target.op forms :=
    fun forms hsub => firstSuitable?_reread h t (fun f hf => hforms f (hsub f hf)) target.op
  have hlabel : target.label t.reread = target.label t := rfl
  have hreread : i.reread.forms = i.forms.map Form.reread := rfl
  cases index with
  | none =>
    simp only [select, candidates, hlabel, hreread, hfirst i.forms fun _ hf => hf]
  | some k =>
    simp only [select, candidates, hlabel, hreread, List.getElem?_map]
    cases hk : i.forms[k]? with
    | none => rfl
    | some f =>
      have hone := hfirst [f] (List.forall_mem_singleton.2 (List.mem_of_getElem? hk))
      simp only [List.map_cons, List.map_nil] at hone
      simp only [Option.map_some, hone]

end

/-- A factory for a scheme; its clients can do nothing. -/
def uselessFactory (scheme : String) : ClientFactory ω where
  scheme
  client :=
    { setSecurity _ _ w := (false, w)
      read _ := Effect.fail (.unsupported "reading")
      write _ _ := Effect.fail (.unsupported "writing")
      invoke _ _ := Effect.fail (.unsupported "invoking")
      observe _ := Effect.fail (.unsupported "observing") }

theorem factory?_useless (scheme : String) :
    (({} : Host ω).addFactory (uselessFactory scheme)).factory? scheme = some (uselessFactory scheme) := by
  rw [Host.factory?_addFactory]
  exact if_pos rfl

/-- The same forms are chosen after an export, on all hosts, if and only if no form with an empty list of
operations has an absolute href. -/
theorem select_reread_iff (t : Thing) (target : Target) (i : Interaction) :
    (∀ (h : Host ω) index, select h t.reread target i.reread index = select h t target i index) ↔
      ∀ f ∈ i.forms, f.ListsNone → PlacedForm.scheme? ⟨f, t⟩ = none := by
  refine ⟨fun hsame f hf hnone => ?_, fun hforms h index => select_reread h t hforms target index⟩
  cases hscheme : PlacedForm.scheme? ⟨f, t⟩ with
  | none => rfl
  | some scheme =>
    -- On a host with a client for the scheme, the form is chosen by its index after the export only.
    obtain ⟨k, hk⟩ := List.getElem?_of_mem hf
    have hbefore := suitable?_eq_none_of_listsNone
      (({} : Host ω).addFactory (uselessFactory scheme)) t hnone target.op
    have hafter := suitable?_reread_of_listsNone
      (({} : Host ω).addFactory (uselessFactory scheme)) t hnone target.op
    rw [hscheme, Option.bind_some, factory?_useless] at hafter
    have hselect := hsame (({} : Host ω).addFactory (uselessFactory scheme)) (some k)
    simp [select, candidates, Interaction.reread, hk, firstSuitable?, hbefore, hafter] at hselect

/-! ## Exports -/

/-- A form of any description, on its own or inside the description of a thing, may be used after an export
for what it could be used for before, and if it had an empty list of operations for everything; its place
and its href are the same. On the exported thing the same forms are chosen for the interactions with an
affordance as before, whatever clients there are, if and only if none of its forms with an empty list has an
absolute href. -/
theorem supports_exported (v : Json) :
    (∀ f, Form.ofJson? v.normal = some f →
      ∃ f', Form.ofJson? f.toJson = some f' ∧
        ∀ op, f'.supports op = true ↔ f.supports op = true ∨ f.ListsNone) ∧
    ∀ t, Thing.ofJson v.normal = .ok t →
      ∃ t', Thing.ofJson t.toJson = .ok t' ∧
        (∀ place index, t'.form? place index = none ↔ t.form? place index = none) ∧
        (∀ place index p p', t.form? place index = some p → t'.form? place index = some p' →
          p'.href = p.href ∧
            ∀ op, p'.form.supports op = true ↔ p.form.supports op = true ∨ p.form.ListsNone) ∧
        ∀ (target : Target) i, t.interaction? target.type target.name = some i →
          ∃ i', t'.interaction? target.type target.name = some i' ∧
            ((∀ (h : Host ω) index, select h t' target i' index = select h t target i index) ↔
              ∀ f ∈ i.forms, f.ListsNone → PlacedForm.scheme? ⟨f, t⟩ = none) := by
  refine ⟨fun f _ => ⟨f.reread, f.ofJson?_toJson, f.supports_reread_iff⟩, fun t ht => ?_⟩
  refine ⟨t.reread, Thing.ofJson_toJson (Thing.wellFormed_of_ofJson v.isNormal_normal ht), ?_, ?_, ?_⟩
  · intro place index
    rw [Thing.form?_reread, Option.map_eq_none_iff]
  · intro place index p p' hp hp'
    rw [Thing.form?_reread, hp, Option.map_some, Option.some_inj] at hp'
    obtain rfl := hp'
    refine ⟨?_, p.form.supports_reread_iff⟩
    obtain ⟨f, -, rfl⟩ := Option.map_eq_some_iff.1 hp
    rfl
  · intro target i hi
    refine ⟨i.reread, ?_, select_reread_iff t target i⟩
    rw [Thing.interaction?_reread, hi]
    rfl

/-- The form of a lamp has an empty list of operations and a relative href: it may be used for everything
after an export, but cannot be reached then either. -/
theorem supports_exported_lamp :
    Thing.ofJson Thing.lampDescription.normal = .ok Thing.lamp ∧
      ∃ t', Thing.ofJson Thing.lamp.toJson = .ok t' ∧
        (∀ p', t'.form? (some (.property, "state")) 0 = some p' → ∀ op, p'.form.supports op = true) ∧
        ∃ i i', Thing.lamp.interaction? .property "state" = some i ∧
          t'.interaction? .property "state" = some i' ∧
          ∀ (h : Host Unit) index, select h t' ⟨.property, "state", .readProperty⟩ i' index =
            select h Thing.lamp ⟨.property, "state", .readProperty⟩ i index := by
  have ht : Thing.ofJson Thing.lampDescription.normal = .ok Thing.lamp := rfl
  obtain ⟨t', ht', -, hforms, hchoice⟩ := (supports_exported (ω := Unit) Thing.lampDescription).2 _ ht
  obtain ⟨i', hi', hsame⟩ := hchoice ⟨.property, "state", .readProperty⟩ _ rfl
  refine ⟨ht, t', ht', fun p' hp' op => ?_, _, i', rfl, hi', hsame.2 ?_⟩
  · exact ((hforms (some (.property, "state")) 0 _ p' rfl hp').2 op).2 (.inr rfl)
  · intro f hf _
    rw [List.mem_singleton.1 hf]
    decide

/-- A form that may be used for nothing may be used to read a property after an export. -/
theorem supports_more_exported :
    ∃ f f', Form.ofJson? (Json.obj [("href", .str "/status"), ("op", .arr [])]).normal = some f ∧
      Form.ofJson? f.toJson = some f' ∧
      f.supports .readProperty = false ∧ f'.supports .readProperty = true :=
  ⟨_, _, rfl, rfl, rfl, rfl⟩

end Remote
end WebOfThings
