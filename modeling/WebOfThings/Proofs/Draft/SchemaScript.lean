import WebOfThings.Proofs.Draft.Steps

/-!
# Schemas that scripts write down

A step on a schema does one of four things (`Script.OnSchema`): it chooses the type, it restricts the values
of the type that has been chosen, it adds a part, which is written by a script of its own, or it remarks on
something else. This is all that is used of the steps in what follows.

Choosing the type a second time starts it anew. What was said about the values before does not count any more, and
neither do the items or members; but they are still checked, so a fault in one of them is not forgotten. Hence what
a script says about values is told by its last choice and by the steps after it (`Script.sinceChoice`), where the
last call for every bound counts (`DraftKind.RestrictedBy`), and its parts are those of all its calls, in the roles
that they have after the choices behind them (`Script.partCalls`).

Main statement: `SchemaDraft.writtenBy_of_script`.
-/

namespace WebOfThings

open Script

namespace Script

/-! ## What the arguments say -/

/-- The arguments are a script that writes a schema down. -/
def IsSchema (args : List Json) (d : SchemaDraft) : Prop :=
  ∃ script, args = [.arr script] ∧ SchemaDraft.ofScript? script = some d

/-- The arguments are a name and a script that writes a schema down. -/
def IsNamedSchema (args : List Json) (e : String × SchemaDraft) : Prop :=
  ∃ script, args = [.str e.1, .arr script] ∧ SchemaDraft.ofScript? script = some e.2

theorem sets_schema {script : List Json} {s : SchemaDraft} (h : schema? {} script = some s) (key : String)
    (before : Option SchemaDraft) : Sets IsSchema (calls key [(key, [.arr script])]) before (some s) := by
  simp [calls_singleton, IsSchema, SchemaDraft.ofScript?, h]

/-- The arguments are one value, which is read as `x`. -/
def IsRead {α : Type} (read : Json → Option α) (args : List Json) (x : α) : Prop :=
  ∃ v, args = [v] ∧ read v = some x

/-- The arguments are one text. -/
def IsText (args : List Json) (s : String) : Prop := args = [.str s]

/-! ## Parts -/

/-- The part that a step adds, with its role and a script of its own. -/
def partCall? : String × List Json → Option (PartRole × List Json)
  | ("one_of", [.arr script]) => some (.alternative, script)
  | ("item", [.arr script]) => some (.item, script)
  | ("property", [.str member, .bool required, .arr script]) => some (.member member required, script)
  | _ => none

/-- The parts that steps on a schema add. A choice of the type takes their roles from those before it. -/
def partCalls (steps : List (String × List Json)) : List (PartRole × List Json) :=
  steps.foldl (fun parts step =>
    if (chosenKind? step.1 step.2).isSome then parts.map fun p => (p.1.afterChoice, p.2)
    else parts ++ (partCall? step).toList) []

/-- A script that writes a part of a schema down. -/
def IsPart (call : PartRole × List Json) (part : PartRole × SchemaDraft) : Prop :=
  call.1 = part.1 ∧ SchemaDraft.ofScript? call.2 = some part.2

/-! ## Choices -/

/-- The type that is chosen last, with nothing said about its values yet, and the steps after the choice. -/
def sinceChoice (steps : List (String × List Json)) : DraftKind × List (String × List Json) :=
  steps.foldl (fun since step =>
    match chosenKind? step.1 step.2 with
    | some kind => (kind, [])
    | none => (since.1, since.2 ++ [step])) (.variable, [])

variable {steps : List (String × List Json)} {name : String} {args : List Json}

theorem sinceChoice_concat_of_chosen {kind : DraftKind} (h : chosenKind? name args = some kind) :
    sinceChoice (steps ++ [(name, args)]) = (kind, []) := by
  simp [sinceChoice, h]

/-- A step that is no choice is one more since the last one. -/
theorem sinceChoice_concat (h : chosenKind? name args = none) :
    sinceChoice (steps ++ [(name, args)]) =
      ((sinceChoice steps).1, (sinceChoice steps).2 ++ [(name, args)]) := by
  simp [sinceChoice, h]

/-- A choice replaces the items and the members, and keeps the alternatives. -/
theorem partCalls_concat_of_chosen {kind : DraftKind} (h : chosenKind? name args = some kind) :
    partCalls (steps ++ [(name, args)]) = (partCalls steps).map fun p => (p.1.afterChoice, p.2) := by
  simp [partCalls, h]

theorem partCalls_concat (h : chosenKind? name args = none) :
    partCalls (steps ++ [(name, args)]) = partCalls steps ++ (partCall? (name, args)).toList := by
  simp [partCalls, h]

end Script

/-! ## Restrictions -/

section

variable {α : Type} {read : Json → Option α} {first second : List (String × List Json)}

/-- Steps set bounds; the last call for each of them counts. -/
structure Bounds.SetBy (read : Json → Option α) (steps : List (String × List Json)) (b b' : Bounds α) : Prop where
  minimum : Sets (IsRead read) (calls "minimum" steps) b.minimum b'.minimum
  maximum : Sets (IsRead read) (calls "maximum" steps) b.maximum b'.maximum
  exclusiveMinimum : Sets (IsRead read) (calls "exclusive_minimum" steps) b.exclusiveMinimum b'.exclusiveMinimum
  exclusiveMaximum : Sets (IsRead read) (calls "exclusive_maximum" steps) b.exclusiveMaximum b'.exclusiveMaximum
  multipleOf : Sets (IsRead read) (calls "multiple_of" steps) b.multipleOf b'.multipleOf

/-- Bounds that are set by some steps and then by others are set by all of them. -/
theorem Bounds.SetBy.trans {b b' b'' : Bounds α} (h : b.SetBy read first b') (h' : b'.SetBy read second b'') :
    b.SetBy read (first ++ second) b'' := by
  constructor
  · simpa using h.minimum.trans h'.minimum
  · simpa using h.maximum.trans h'.maximum
  · simpa using h.exclusiveMinimum.trans h'.exclusiveMinimum
  · simpa using h.exclusiveMaximum.trans h'.exclusiveMaximum
  · simpa using h.multipleOf.trans h'.multipleOf

/-- One call for a bound. -/
theorem Bounds.setBy_of_bound? {b b' : Bounds α} {name : String} {v : Json} {x : α} (hread : read v = some x)
    (h : bound? b name x = some b') : b.SetBy read [(name, [v])] b' := by
  unfold bound? at h
  split at h
  all_goals
    first
    | contradiction
    | cases h
      constructor <;> simp [calls_singleton, IsRead, hread]

/-- Steps set restrictions on a text; the last call for each of them counts. -/
structure StringRules.SetBy (steps : List (String × List Json)) (r r' : StringRules) : Prop where
  minLength : Sets (IsRead Json.asUInt32?) (calls "min_length" steps) r.minLength r'.minLength
  maxLength : Sets (IsRead Json.asUInt32?) (calls "max_length" steps) r.maxLength r'.maxLength
  pattern : Sets IsText (calls "pattern" steps) r.pattern r'.pattern
  contentEncoding : Sets IsText (calls "content_encoding" steps) r.contentEncoding r'.contentEncoding
  contentMediaType : Sets IsText (calls "content_media_type" steps) r.contentMediaType r'.contentMediaType

/-- So are rules about texts. -/
theorem StringRules.SetBy.trans {r r' r'' : StringRules} (h : r.SetBy first r') (h' : r'.SetBy second r'') :
    r.SetBy (first ++ second) r'' := by
  constructor
  · simpa using h.minLength.trans h'.minLength
  · simpa using h.maxLength.trans h'.maxLength
  · simpa using h.pattern.trans h'.pattern
  · simpa using h.contentEncoding.trans h'.contentEncoding
  · simpa using h.contentMediaType.trans h'.contentMediaType

end

namespace DraftKind

/-- Steps restrict the values of a type, which stays the same type. -/
inductive RestrictedBy (steps : List (String × List Json)) : DraftKind → DraftKind → Prop
  | variable : RestrictedBy steps .variable .variable
  | boolean : RestrictedBy steps .boolean .boolean
  | null : RestrictedBy steps .null .null
  | object : RestrictedBy steps .object .object
  | number {b b' : Bounds Binary64} (h : b.SetBy double? steps b') : RestrictedBy steps (.number b) (.number b')
  | integer {b b' : Bounds Int64} (h : b.SetBy Json.asInt64? steps b') :
      RestrictedBy steps (.integer b) (.integer b')
  | string {r r' : StringRules} (h : r.SetBy steps r') : RestrictedBy steps (.string r) (.string r')
  | array {low high low' high' : Option UInt32}
      (hlow : Sets (IsRead Json.asUInt32?) (calls "min_items" steps) low low')
      (hhigh : Sets (IsRead Json.asUInt32?) (calls "max_items" steps) high high') :
      RestrictedBy steps (.array low high) (.array low' high')

/-- The names of the steps that restrict values. -/
def restrictionNames : List String :=
  ["minimum", "maximum", "exclusive_minimum", "exclusive_maximum", "multiple_of", "min_length", "max_length",
   "pattern", "content_encoding", "content_media_type", "min_items", "max_items"]

variable {steps first second : List (String × List Json)} {k k' k'' : DraftKind}

/-- Steps that call for none of the restrictions leave a type as it is. -/
theorem restrictedBy_self (h : ∀ name ∈ restrictionNames, calls name steps = []) (k : DraftKind) :
    RestrictedBy steps k k := by
  have hnone : ∀ {α : Type} {R : List Json → α → Prop} {name : String} (x : Option α),
      name ∈ restrictionNames → Sets R (calls name steps) x x := by
    intro α R name x hname
    rw [h name hname, Sets.nil_iff]
  cases k with
  | number b => exact .number (by constructor <;> exact hnone _ (by decide))
  | integer b => exact .integer (by constructor <;> exact hnone _ (by decide))
  | string r => exact .string (by constructor <;> exact hnone _ (by decide))
  | array low high => exact .array (hnone low (by decide)) (hnone high (by decide))
  | _ => constructor

/-- Two stretches of restrictions on one type are one stretch. -/
theorem RestrictedBy.trans (h : RestrictedBy first k k') (h' : RestrictedBy second k' k'') :
    RestrictedBy (first ++ second) k k'' := by
  cases h with
  | number h =>
    cases h' with
    | number h' => exact .number (h.trans h')
  | integer h =>
    cases h' with
    | integer h' => exact .integer (h.trans h')
  | string h =>
    cases h' with
    | string h' => exact .string (h.trans h')
  | array hlow hhigh =>
    cases h' with
    | array hlow' hhigh' =>
      exact .array (by simpa using hlow.trans hlow') (by simpa using hhigh.trans hhigh')
  | _ =>
    cases h'
    constructor

/-- One restriction. -/
theorem restrictedBy_of_restrict? {name : String} {args : List Json} (h : restrict? k name args = some k') :
    RestrictedBy [(name, args)] k k' := by
  unfold restrict? at h
  split at h
  · obtain ⟨x, hx, h⟩ := Option.bind_eq_some_iff.1 h
    obtain ⟨b', hb, rfl⟩ := Option.map_eq_some_iff.1 h
    exact .number (Bounds.setBy_of_bound? hx hb)
  · obtain ⟨x, hx, h⟩ := Option.bind_eq_some_iff.1 h
    obtain ⟨b', hb, rfl⟩ := Option.map_eq_some_iff.1 h
    exact .integer (Bounds.setBy_of_bound? hx hb)
  · obtain ⟨n, hn, rfl⟩ := Option.map_eq_some_iff.1 h
    exact .string (by constructor <;> simp [calls_singleton, IsRead, hn])
  · obtain ⟨n, hn, rfl⟩ := Option.map_eq_some_iff.1 h
    exact .string (by constructor <;> simp [calls_singleton, IsRead, hn])
  iterate 3
    next =>
      cases h
      exact .string (by constructor <;> simp [calls_singleton, IsText])
  · obtain ⟨n, hn, rfl⟩ := Option.map_eq_some_iff.1 h
    exact .array (by simp [calls_singleton, IsRead, hn]) (by simp [calls_singleton])
  · obtain ⟨n, hn, rfl⟩ := Option.map_eq_some_iff.1 h
    exact .array (by simp [calls_singleton]) (by simp [calls_singleton, IsRead, hn])
  · cases h

end DraftKind

/-! ## Steps on schemas -/

namespace Script

/-- The names of the steps that choose a type. -/
def choiceNames : List String := ["bool", "null", "number", "integer", "string", "array", "object"]

/-- The names of the steps that add a part. -/
def partNames : List String := ["one_of", "item", "property"]

/-- The names of the steps on a schema that concern neither its type nor its parts. -/
def remarkNames : List String :=
  ["constant", "default_value", "unit", "format", "enumeration", "read_only", "write_only"] ++ labelNames

variable {name : String} {args : List Json}

/-- Only the steps that name a type choose one. -/
theorem chosenKind?_eq_none (h : name ∉ choiceNames) : chosenKind? name args = none := by
  unfold chosenKind?
  split
  all_goals
    first
    | rfl
    | exact absurd (by decide) h

/-- Only the steps that name a part add one. -/
theorem partCall?_eq_none (h : name ∉ partNames) : partCall? (name, args) = none := by
  unfold partCall?
  split
  case h_4 => rfl
  all_goals
    next heq =>
      cases heq
      exact absurd (by decide) h

/-- A step that adds a part chooses no type. -/
theorem mem_partNames_of_partCall? {call : PartRole × List Json} (h : partCall? (name, args) = some call) :
    name ∈ partNames := by
  by_contra hname
  rw [partCall?_eq_none hname] at h
  cases h

/-- A step that restricts values has the name of a restriction. -/
theorem mem_restrictionNames_of_restrict? {k k' : DraftKind} (h : restrict? k name args = some k') :
    name ∈ DraftKind.restrictionNames := by
  have hbound : ∀ {α : Type} {b b' : Bounds α} {x : α}, bound? b name x = some b' →
      name ∈ DraftKind.restrictionNames := by
    intro α b b' x hb
    unfold bound? at hb
    split at hb
    all_goals
      first
      | contradiction
      | decide
  unfold restrict? at h
  split at h
  all_goals
    first
    | contradiction
    | decide
    | obtain ⟨x, -, h⟩ := Option.bind_eq_some_iff.1 h
      obtain ⟨b, hb, -⟩ := Option.map_eq_some_iff.1 h
      exact hbound hb

/-- What a step does to the type and the parts of a schema. -/
inductive OnSchema (name : String) (args : List Json) (d d' : SchemaDraft) : Prop
  | choice {kind : DraftKind} (hchosen : chosenKind? name args = some kind) (h : d' = d.choose kind)
  | restriction {kind : DraftKind} (hrestrict : restrict? d.kind name args = some kind) (h : d' = { d with kind })
  | part {role : PartRole} {script : List Json} {part : SchemaDraft}
      (hcall : partCall? (name, args) = some (role, script)) (hpart : SchemaDraft.ofScript? script = some part)
      (h : d.addPart? role part = some d')
  | remark (hname : name ∈ remarkNames) (hkind : d'.kind = d.kind) (hparts : d'.parts = d.parts)

/-- What a step on a schema does, if it is about the schema itself. -/
theorem onSchema_of_schemaField? {d d' : SchemaDraft} (h : schemaField? d name args = some d') :
    OnSchema name args d d' := by
  unfold schemaField? at h
  split at h
  case h_8 =>
    split at h
    · next labels hlabels =>
      cases h
      exact .remark (List.mem_append_right _ (label?_name hlabels)) rfl rfl
    · next kind hchosen =>
      cases h
      exact .choice hchosen rfl
    · obtain ⟨kind, hrestrict, rfl⟩ := Option.map_eq_some_iff.1 h
      exact .restriction hrestrict rfl
  all_goals
    cases h
    exact .remark (by decide) rfl rfl

/-- Every step on a schema does one of four things. -/
theorem onSchema_of_step {d d' : SchemaDraft} (h : schemaStep? d name args = some d') : OnSchema name args d d' := by
  unfold schemaStep? at h
  split at h
  · split at h
    · next hname =>
      obtain ⟨part, hpart, h⟩ := Option.bind_eq_some_iff.1 h
      exact .part (by rw [hname]; rfl) hpart h
    split at h
    · next hname =>
      obtain ⟨part, hpart, h⟩ := Option.bind_eq_some_iff.1 h
      exact .part (by rw [hname]; rfl) hpart h
    · exact onSchema_of_schemaField? h
  · split at h
    · next hname =>
      obtain ⟨part, hpart, h⟩ := Option.bind_eq_some_iff.1 h
      exact .part (by rw [hname]; rfl) hpart h
    · cases h
  · exact onSchema_of_schemaField? h

/-- The draft of a schema is what the steps of its script make of an empty one. -/
theorem schema?_eq_steps? (d : SchemaDraft) (script : List Json) :
    schema? d script = steps? schemaStep? d script := by
  fun_induction steps? schemaStep? d script with
  | case1 => rw [schema?]
  | case2 d name args rest ih =>
    rw [schema?]
    cases schemaStep? d name args with
    | none => rfl
    | some e => exact ih e
  | case3 d v rest h =>
    unfold schema?
    split
    · next heq => cases heq
    · next name args rest' heq =>
      cases heq
      exact absurd rfl (h name args)
    · rfl

end Script

/-! ## Whole scripts -/

namespace SchemaDraft

/-- The type and the parts of a schema are what some steps wrote: the last choice of a type with the restrictions
after it, and the parts of all calls in order. -/
structure WrittenBy (steps : List (String × List Json)) (d : SchemaDraft) : Prop where
  kind : DraftKind.RestrictedBy (sinceChoice steps).2 (sinceChoice steps).1 d.kind
  parts : Adds IsPart (partCalls steps) [] d.parts

variable {steps : List (String × List Json)} {name : String} {args : List Json} {d d' : SchemaDraft}

theorem writtenBy_nil : WrittenBy [] {} := ⟨.variable, Adds.nil_iff.2 rfl⟩

/-- A choice takes their roles from the parts and from the calls for them alike. -/
theorem adds_afterChoice {calls : List (PartRole × List Json)} {parts : List (PartRole × SchemaDraft)}
    (h : Adds IsPart calls [] parts) :
    Adds IsPart (calls.map fun p => (p.1.afterChoice, p.2)) [] (parts.map fun p => (p.1.afterChoice, p.2)) := by
  obtain ⟨entries, rfl, h⟩ := h
  refine ⟨_, rfl, List.forall₂_map_left_iff.2 (List.forall₂_map_right_iff.2 (h.imp fun call part hpart => ?_))⟩
  exact ⟨congrArg PartRole.afterChoice hpart.1, hpart.2⟩

/-- A step leaves type and parts written by the steps before it and itself. -/
theorem WrittenBy.step (hd : d.WrittenBy steps) (h : OnSchema name args d d') :
    d'.WrittenBy (steps ++ [(name, args)]) := by
  cases h with
  | choice hchosen h =>
    subst h
    refine ⟨?_, ?_⟩
    · rw [sinceChoice_concat_of_chosen hchosen]
      exact DraftKind.restrictedBy_self (fun _ _ => rfl) _
    · rw [partCalls_concat_of_chosen hchosen]
      exact adds_afterChoice hd.parts
  | restriction hrestrict h =>
    subst h
    -- A restriction continues the type of the last choice and leaves the parts.
    have hname := mem_restrictionNames_of_restrict? hrestrict
    have hdisjoint : ∀ name ∈ DraftKind.restrictionNames, name ∉ choiceNames ∧ name ∉ partNames := by decide
    have hchosen : chosenKind? name args = none := chosenKind?_eq_none (hdisjoint name hname).1
    refine ⟨?_, ?_⟩
    · rw [sinceChoice_concat hchosen]
      exact hd.kind.trans (DraftKind.restrictedBy_of_restrict? hrestrict)
    · rw [partCalls_concat hchosen, partCall?_eq_none (hdisjoint name hname).2]
      simpa using hd.parts
  | part hcall hpart h =>
    -- A part continues the parts; to the type it is a call with nothing to say.
    have hname := mem_partNames_of_partCall? hcall
    have hdisjoint : ∀ name ∈ partNames, name ∉ choiceNames ∧ name ∉ DraftKind.restrictionNames := by decide
    have hchosen : chosenKind? name args = none := chosenKind?_eq_none (hdisjoint name hname).1
    unfold addPart? at h
    split at h
    · cases h
      refine ⟨?_, ?_⟩
      · rw [sinceChoice_concat hchosen]
        refine hd.kind.trans (DraftKind.restrictedBy_self (fun key hkey => ?_) _)
        exact calls_eq_nil hname fun hmem => (hdisjoint key hmem).2 hkey
      · rw [partCalls_concat hchosen, hcall]
        exact hd.parts.trans (Adds.singleton_iff.2 ⟨_, ⟨rfl, hpart⟩, rfl⟩)
    · cases h
  | remark hname hkind hparts =>
    have hdisjoint : ∀ name ∈ remarkNames,
        name ∉ choiceNames ∧ name ∉ partNames ∧ name ∉ DraftKind.restrictionNames := by decide
    obtain ⟨hchoice, hpart, -⟩ := hdisjoint name hname
    have hchosen : chosenKind? name args = none := chosenKind?_eq_none hchoice
    refine ⟨?_, ?_⟩
    · rw [sinceChoice_concat hchosen, hkind]
      refine hd.kind.trans (DraftKind.restrictedBy_self (fun key hkey => ?_) _)
      exact calls_eq_nil hname fun hmem => (hdisjoint key hmem).2.2 hkey
    · rw [partCalls_concat hchosen, partCall?_eq_none hpart, hparts]
      simpa using hd.parts

/-- Type and parts of a schema are what the steps of its script wrote. -/
theorem writtenBy_of_script {script : List Json} (h : SchemaDraft.ofScript? script = some d) :
    d.WrittenBy (stepsOf script) := by
  rw [SchemaDraft.ofScript?, schema?_eq_steps?] at h
  exact steps?_run (fun hd hstep => hd.step (onSchema_of_step hstep)) writtenBy_nil h

/-- An item belongs to the array that was chosen before it, and not to another one that is chosen after it. -/
example :
    partCalls [("array", []), ("item", [.arr []]), ("array", []), ("item", [.arr [.arr [.str "bool"]]])] =
      [(.replaced, []), (.item, [.arr [.str "bool"]])] := rfl

end SchemaDraft
end WebOfThings
