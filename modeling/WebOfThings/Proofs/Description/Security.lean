import WebOfThings.Security
import WebOfThings.Proofs.Json.Fields

/-!
# Security schemes that read back

A scheme is written with the name of its mechanism and the parameters of that mechanism, side by side with
what is said about it; `ofJson?_toJson` says that it is read as it was written. Parameters at their defaults
are written out, and the names of locations and qualities determine them.

The ten mechanisms are one enumeration with a name and a list of parameters for each, so reading back is one
statement about that table (`ofName?_toName`): the parameters written for a mechanism are read under its
name, whatever other members stand beside them. No parameter has the name of a field that all schemes have
(`not_mem_parameterNames`), which is why the two may share an object. What reading keeps true of a scheme is
only that its translations are a dictionary (`SecurityScheme.WellFormed`).
-/

namespace WebOfThings

open Json

@[simp] theorem AuthLocation.ofJson?_name (l : AuthLocation) : ofJson? (.str l.name) = some l := by
  cases l <;> rfl

@[simp] theorem ProtectionQuality.ofJson?_name (q : ProtectionQuality) :
    ofJson? (.str q.name) = some q := by
  cases q <;> rfl

namespace Mechanism

/-- The parameters of a mechanism are read among members that hold them. -/
theorem ofName?_toName {m : Mechanism} {members : List (String × Json)}
    (h : ∀ key ∈ parameterNames m.toName,
      Dict.get? key members = Dict.get? key (Dict.ofList m.parameters)) :
    ofName? m.toName members = some m := by
  cases m <;>
    simp_all [toName, parameterNames, ofName?, parameters, Placement.ofMembers?, Placement.members,
      TokenRules.ofMembers?, TokenRules.members, OAuth2Rules.ofMembers?, OAuth2Rules.members,
      optional?_eq, withDefault?_eq, defaultValue?, required?]

/-- A mechanism writes its own parameters only. -/
theorem mem_parameters {m : Mechanism} {e : String × Json} (h : e ∈ m.parameters) :
    e.1 ∈ parameterNames m.toName := by
  cases m <;>
    simp [toName, parameterNames, parameters, Placement.members, TokenRules.members,
      OAuth2Rules.members, field] at h ⊢ <;> grind

/-- The parameters of a mechanism are normal. -/
theorem allNormal_parameters (m : Mechanism) : AllNormal m.parameters := by
  have hscopes : ∀ xs : List String, (oneOrMany .str xs).IsNormal :=
    fun xs => isNormal_oneOrMany fun _ _ => isNormal_str _
  cases m <;>
    simp [parameters, Placement.members, TokenRules.members, OAuth2Rules.members, hscopes]

end Mechanism

namespace SecurityScheme

/-- The translations are a dictionary. -/
def WellFormed (s : SecurityScheme) : Prop := ∀ d, s.descriptions = some d → d.Sorted

/-- The names of the fields that all schemes have. -/
def fieldNames : List String := ["@type", "description", "descriptions", "proxy", "scheme"]

/-- No parameter has the name of a field that all schemes have. -/
theorem not_mem_parameterNames (m : MechanismName) :
    ∀ key ∈ fieldNames, key ∉ Mechanism.parameterNames m := by
  cases m <;> decide

/-- A scheme is read as it was written. -/
theorem ofJson?_toJson (s : SecurityScheme) : ofJson? s.toJson = some s := by
  have hfields : ∀ key ∈ fieldNames, Dict.get? key (Dict.ofList s.mechanism.parameters) = none :=
    fun key hkey => Dict.get?_ofList_eq_none fun e he hek =>
      not_mem_parameterNames _ key hkey (hek ▸ Mechanism.mem_parameters he)
  simp only [fieldNames, List.forall_mem_cons] at hfields
  simp [ofJson?, toJson, object, optional?_eq, required?, MechanismName.ofJson?,
    MechanismName.ofName?_name, hfields]
  rw [Mechanism.ofName?_toName]
  · rfl
  · intro key hkey
    have hne : ∀ name ∈ fieldNames, name ≠ key :=
      fun name hname e => not_mem_parameterNames _ name hname (e ▸ hkey)
    simp only [fieldNames, List.forall_mem_cons] at hne
    simp [hne]

/-- A scheme that is read from a normal value is well-formed. -/
theorem wellFormed_of_ofJson? {v : Json} {s : SecurityScheme} (hv : v.IsNormal)
    (h : ofJson? v = some s) : s.WellFormed := by
  cases v with
  | obj members =>
    have hm : AllNormal members := (isNormal_obj_iff.1 hv).2
    simp only [ofJson?, optional?_eq, Option.bind_eq_bind, Option.bind_eq_some_iff] at h
    obtain ⟨types, -, description, -, descriptions, hdescriptions, proxy, -, name, -, m, -, h⟩ := h
    cases h
    exact of_optionalValue? hm hdescriptions fun v d hv _ hd => sorted_of_asDict? hv hd
  | _ => cases h

/-- A well-formed scheme is written as a normal value. -/
theorem isNormal_toJson {s : SecurityScheme} (h : s.WellFormed) : s.toJson.IsNormal := by
  refine isNormal_object (show AllNormal _ from ?_)
  have hnames : ∀ xs : List String, (oneOrMany .str xs).IsNormal :=
    fun xs => isNormal_oneOrMany fun _ _ => isNormal_str _
  have htexts : ∀ d, s.descriptions = some d → (ofDict .str d).IsNormal :=
    fun d hd => isNormal_ofDict (h d hd) fun _ _ => isNormal_str _
  simpa [hnames, Mechanism.allNormal_parameters] using htexts

end SecurityScheme
end WebOfThings
