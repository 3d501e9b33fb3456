import WebOfThings.Form
import WebOfThings.Labels
import WebOfThings.Link
import WebOfThings.Proofs.Json.Fields

/-!
# Records that read back

Labels, links, versions and forms, read from what they are written as. Labels are part of larger records, so
`Labels.ofMembers?_of_get?` asks only that the label fields are the ones that were written.

A form comes back as it was but for one thing: a list of operations that is empty is written as `null`,
which is read as no list at all (`FormOperations.reread`).

Records without further structure are proved field by field: a reader finds under a key what the writer put
there, and nothing else has that key. `mem_members` says which keys a record writes, and that no other
record that may stand beside it in one object has the same. The records that can be written as an array are
read from objects here, since this is what writers give.
-/

namespace WebOfThings

open Json

/-! ## Labels -/

namespace Labels

/-- The translations are dictionaries. -/
structure WellFormed (l : Labels) : Prop where
  titles : ∀ d, l.titles = some d → d.Sorted
  descriptions : ∀ d, l.descriptions = some d → d.Sorted

theorem wellFormed_empty : WellFormed {} := ⟨nofun, nofun⟩

/-- The members of labels have their field names. -/
theorem mem_members {l : Labels} {e : String × Json} (h : e ∈ l.members) : e.1 ∈ fieldNames := by
  simp only [members, field, List.mem_append] at h
  simp only [fieldNames]
  grind

theorem get?_members_eq_none {l : Labels} {key : String} (h : key ∉ fieldNames) :
    Dict.get? key (Dict.ofList l.members) = none :=
  Dict.get?_ofList_eq_none fun _ he hkey => h (hkey ▸ mem_members he)

/-- Labels depend on the label fields only. -/
theorem ofMembers?_congr {m m' : List (String × Json)}
    (h : ∀ key ∈ fieldNames, Dict.get? key m = Dict.get? key m') : ofMembers? m = ofMembers? m' := by
  simp only [fieldNames, List.forall_mem_cons] at h
  simp only [ofMembers?, optional?_eq, h]

/-- Labels are read as they were written. -/
theorem ofMembers?_members (l : Labels) : ofMembers? (Dict.ofList l.members) = some l := by
  simp [ofMembers?, members, optional?_eq]

/-- So they are from any members that agree with those under their field names. -/
theorem ofMembers?_of_get? {l : Labels} {m : List (String × Json)}
    (h : ∀ key ∈ fieldNames, Dict.get? key m = Dict.get? key (Dict.ofList l.members)) :
    ofMembers? m = some l :=
  (ofMembers?_congr h).trans l.ofMembers?_members

/-- Labels read from normal members have dictionaries of translations. -/
theorem wellFormed_of_ofMembers? {m : List (String × Json)} {l : Labels} (hm : AllNormal m)
    (h : ofMembers? m = some l) : l.WellFormed := by
  simp only [ofMembers?, optional?_eq, Option.bind_eq_bind, Option.bind_eq_some_iff] at h
  obtain ⟨types, -, title, -, titles, htitles, description, -, descriptions, hdescriptions, h⟩ := h
  cases h
  exact ⟨of_optionalValue? hm htitles fun v d hv _ hd => sorted_of_asDict? hv hd,
    of_optionalValue? hm hdescriptions fun v d hv _ hd => sorted_of_asDict? hv hd⟩

/-- The members that are written for labels are normal. -/
theorem allNormal_members {l : Labels} (h : l.WellFormed) : AllNormal l.members := by
  simp only [members, allNormal_append]
  refine ⟨⟨⟨⟨?_, ?_⟩, ?_⟩, ?_⟩, ?_⟩
  · exact allNormal_field_map fun _ _ => isNormal_oneOrMany fun _ _ => isNormal_str _
  · exact allNormal_field_map fun _ _ => isNormal_str _
  · exact allNormal_field_map fun d hd => isNormal_ofDict (h.titles d hd) fun _ _ => isNormal_str _
  · exact allNormal_field_map fun _ _ => isNormal_str _
  · exact allNormal_field_map fun d hd => isNormal_ofDict (h.descriptions d hd) fun _ _ => isNormal_str _

end Labels

/-! ## Links and versions -/

namespace Link

/-- A link is read as it was written. -/
theorem ofJson?_toJson (l : Link) : ofJson? l.toJson = some l := by
  simp [ofJson?, toJson, object, record?, required?, optional?_eq]

theorem isNormal_toJson (l : Link) : l.toJson.IsNormal :=
  isNormal_object (show AllNormal _ by simp)

end Link

namespace VersionInfo

/-- A version is read as it was written. -/
theorem ofJson?_toJson (v : VersionInfo) : ofJson? v.toJson = some v := by
  simp [ofJson?, toJson, object, record?, required?, optional?_eq]

theorem readsAs_toJson (v : VersionInfo) : ReadsAs ofJson? v.toJson v :=
  ⟨v.ofJson?_toJson, by simp [toJson, object]⟩

theorem isNormal_toJson (v : VersionInfo) : v.toJson.IsNormal :=
  isNormal_object (show AllNormal _ by simp)

end VersionInfo

/-! ## Forms -/

namespace ExpectedResponse

theorem readsAs_toJson (r : ExpectedResponse) : ReadsAs ofJson? r.toJson r where
  read_eq := by simp [ofJson?, toJson, object, record?, required?]
  ne_null := by simp [toJson, object]

theorem isNormal_toJson (r : ExpectedResponse) : r.toJson.IsNormal :=
  isNormal_object (show AllNormal _ by simp)

end ExpectedResponse

namespace AdditionalResponse

/-- An additional response is read as it was written. -/
theorem ofJson?_toJson (r : AdditionalResponse) : ofJson? r.toJson = some r := by
  obtain ⟨success, contentType, schema⟩ := r
  cases success <;> simp [ofJson?, toJson, object, record?, withDefault?, optional?_eq, asBool?]

theorem isNormal_toJson (r : AdditionalResponse) : r.toJson.IsNormal := by
  refine isNormal_object (show AllNormal _ from ?_)
  cases r.success <;> simp

/-- Responses written one after the other are no response of their own: the first field of a record is
a truth value. -/
theorem ofJson?_arr_map (responses : List AdditionalResponse) :
    ofJson? (.arr (responses.map toJson)) = none := by
  cases responses with
  | nil => rfl
  | cons r rest =>
    simp only [ofJson?, record?, List.map_cons]
    split
    · simp [fieldNames, withDefault?, Dict.get?_cons, asBool?, toJson, object]
    · rfl

/-- Additional responses are read as they were written, be it one or many. -/
theorem readsAs_oneOrMany (responses : List AdditionalResponse) :
    ReadsAs (oneOrMany? ofJson?) (oneOrMany toJson responses) responses where
  read_eq := by
    have h := oneOrMany?_oneOrMany_of (g := id) (fun r _ => ofJson?_toJson r) (ofJson?_arr_map responses)
    rwa [List.map_id] at h
  ne_null := by
    unfold oneOrMany
    split <;> simp [toJson, object]

end AdditionalResponse

namespace FormOperations

/-- The operations that are read from what was written: of no operation, nothing is left but that there
is no list. -/
def reread : FormOperations → FormOperations
  | .only [] => .any
  | ops => ops

/-- Operations that are read once more were changed by that already. -/
@[simp] theorem reread_reread : ∀ ops : FormOperations, ops.reread.reread = ops.reread
  | .any => rfl
  | .only [] => rfl
  | .only (_ :: _) => rfl

/-- Operations are read as they were written, except for the empty list. -/
theorem ofJson?_toJson (ops : FormOperations) : ofJson? ops.toJson = some ops.reread := by
  match ops with
  | .any => rfl
  | .only [] => rfl
  | .only (op :: rest) =>
    have hread : ((op :: rest).map fun x => Json.str x.name).mapM
        (fun v => v.asName?.bind Operation.ofName?) = some (op :: rest) :=
      mapM_map_of_forall fun x _ => x.ofName?_name
    exact congrArg (Option.map FormOperations.only) hread

end FormOperations

namespace Form

/-- The form that is read from what was written. -/
def reread (f : Form) : Form := { f with op := f.op.reread }

@[simp] theorem reread_reread (f : Form) : f.reread.reread = f.reread := by
  simp [reread]

/-- A form is read as it was written, an empty list of operations as none. -/
theorem ofJson?_toJson (f : Form) : ofJson? f.toJson = some f.reread := by
  have hop : Dict.get? "op" (Dict.ofList (if f.op = .any then [] else [("op", f.op.toJson)])) =
      if f.op = .any then none else some f.op.toJson := by
    split <;> simp
  have hops : defaultValue? FormOperations.ofJson? .any
      (if f.op = .any then none else some f.op.toJson) = some f.op.reread := by
    split
    · next h => simp [defaultValue?, h, FormOperations.reread]
    · exact f.op.ofJson?_toJson
  have hother : ∀ key, key ≠ "op" →
      Dict.get? key (Dict.ofList (if f.op = .any then [] else [("op", f.op.toJson)])) = none := by
    intro key hkey
    split <;> simp [hkey.symm]
  have hresponse : optionalValue? ExpectedResponse.ofJson? (f.response.map ExpectedResponse.toJson) =
      some f.response := by
    exact optionalValue?_map fun r _ => r.readsAs_toJson
  have hresponses : optionalValue? (oneOrMany? AdditionalResponse.ofJson?)
      (f.additionalResponses.map (oneOrMany AdditionalResponse.toJson)) = some f.additionalResponses := by
    exact optionalValue?_map
      fun rs (_ : f.additionalResponses = some rs) => AdditionalResponse.readsAs_oneOrMany rs
  simp [ofJson?, toJson, object, record?, required?, withDefault?_eq, optional?_eq, hop, hops, hother,
    hresponse, hresponses, reread]

/-- A form is written as a normal value. -/
theorem isNormal_toJson (f : Form) : f.toJson.IsNormal := by
  refine isNormal_object (show AllNormal _ from ?_)
  have hop : f.op.toJson.IsNormal := by
    unfold FormOperations.toJson
    split
    · exact isNormal_null
    · exact isNormal_null
    · exact isNormal_arr_map fun _ _ => isNormal_str _
  have hops : AllNormal (if f.op = .any then [] else [("op", f.op.toJson)]) := by
    split <;> simp [hop]
  have hnames : ∀ xs : List String, (oneOrMany .str xs).IsNormal :=
    fun xs => isNormal_oneOrMany fun _ _ => isNormal_str _
  have hresponses : ∀ rs : List AdditionalResponse, (oneOrMany AdditionalResponse.toJson rs).IsNormal :=
    fun rs => isNormal_oneOrMany fun r _ => r.isNormal_toJson
  simp [hops, hnames, hresponses, ExpectedResponse.isNormal_toJson]

end Form
end WebOfThings
