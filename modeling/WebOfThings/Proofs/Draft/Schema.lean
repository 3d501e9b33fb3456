import WebOfThings.Draft.Affordance
import WebOfThings.Proofs.Results

/-!
# Drafts of schemas that can be built

A draft of a schema can be built exactly if what it says is consistent, and what its parts say, at any depth
(`SchemaDraft.build_ok_iff`). For the variable of an href the schema must not have parts in addition
(`SchemaDraft.buildVariables_ok_iff`).

`Consistent` is a condition on the draft alone, stated without building: bounds are in order and are
numbers, divisors are above zero, and the same holds of every draft that is part of it at any depth (`In`).
So the check that the builders make when a schema is built says nothing more than this. The bounds of
integers are words of 64 bits and those of lengths and counts of 32, and both are compared as numbers.
-/

namespace WebOfThings

/-! ## Consistent schemas -/

/-- No lower bound is above the upper one, and the divisor is above zero. -/
structure Bounds.Consistent {α : Type} (lt : α → α → Bool) (zero : α) (b : Bounds α) : Prop where
  inclusive : ∀ lower ∈ b.minimum, ∀ upper ∈ b.maximum, lt upper lower = false
  exclusive : ∀ lower ∈ b.exclusiveMinimum, ∀ upper ∈ b.exclusiveMaximum, lt upper lower = false
  divisor : ∀ d ∈ b.multipleOf, lt zero d = true

/-- None of the bounds is NaN. -/
structure Bounds.Ordered (b : Bounds Binary64) : Prop where
  minimum : ∀ x ∈ b.minimum, x.isNaN = false
  maximum : ∀ x ∈ b.maximum, x.isNaN = false
  exclusiveMinimum : ∀ x ∈ b.exclusiveMinimum, x.isNaN = false
  exclusiveMaximum : ∀ x ∈ b.exclusiveMaximum, x.isNaN = false

namespace DraftKind

/-- What is said about the values of a type is consistent. -/
def Consistent : DraftKind → Prop
  | .number b => b.Ordered ∧ b.Consistent Binary64.lt (.zero false)
  | .integer b => b.Consistent (fun x y => decide (x < y)) 0
  | .string r => ∀ lower ∈ r.minLength, ∀ upper ∈ r.maxLength, lower ≤ upper
  | .array minItems maxItems => ∀ lower ∈ minItems, ∀ upper ∈ maxItems, lower ≤ upper
  | .variable | .boolean | .null | .object => True

/-- Whether the values of a type have parts. -/
def isStructured : DraftKind → Bool
  | .array .. | .object => true
  | _ => false

end DraftKind

namespace SchemaDraft

/-- A draft is in a draft if it is that draft or in a part of it. -/
inductive In : SchemaDraft → SchemaDraft → Prop where
  | self (d : SchemaDraft) : In d d
  | part {d e : SchemaDraft} {p : PartRole × SchemaDraft} (hp : p ∈ d.parts) (h : In e p.2) : In e d

/-- What a draft says, and what the drafts in it say at any depth, is consistent. -/
def Consistent (d : SchemaDraft) : Prop := ∀ e : SchemaDraft, e.In d → e.kind.Consistent

/-- What is said of a draft and of all drafts in it, is said of the drafts in its parts and of itself. -/
theorem forall_in_iff {P : SchemaDraft → Prop} {d : SchemaDraft} :
    (∀ e : SchemaDraft, e.In d → P e) ↔
      (∀ p ∈ d.parts, ∀ e : SchemaDraft, e.In p.2 → P e) ∧ P d := by
  constructor
  · exact fun h => ⟨fun p hp e he => h e (.part hp he), h d (.self d)⟩
  · rintro ⟨hparts, hd⟩ e he
    cases he with
    | self => exact hd
    | part hp he => exact hparts _ hp e he

/-- A draft is consistent if its parts are and what it says itself is. -/
theorem consistent_iff {d : SchemaDraft} :
    d.Consistent ↔ (∀ p ∈ d.parts, p.2.Consistent) ∧ d.kind.Consistent :=
  forall_in_iff

/-- Bounds without NaN can be compared. -/
theorem hasNaN_eq_false_iff {b : Bounds Binary64} : hasNaN b = false ↔ b.Ordered := by
  have hany : ∀ {x : Option Binary64}, x.any Binary64.isNaN = false ↔ ∀ y ∈ x, y.isNaN = false := by
    intro x
    cases x <;> simp
  simp only [hasNaN, Bool.or_eq_false_iff, hany]
  exact ⟨fun ⟨⟨⟨h1, h2⟩, h3⟩, h4⟩ => ⟨h1, h2, h3, h4⟩, fun h => ⟨⟨⟨h.1, h.2⟩, h.3⟩, h.4⟩⟩

/-- Nothing is wrong with bounds if they are consistent. -/
theorem boundsFault?_eq_none_iff_consistent {α : Type} {lt : α → α → Bool} {zero : α} {b : Bounds α} :
    boundsFault? lt (fun d => lt zero d) b = none ↔ b.Consistent lt zero := by
  simp only [boundsFault?_eq_none_iff, isAbove_eq_false_iff]
  exact ⟨fun ⟨h1, h2, h3⟩ => ⟨h1, h2, h3⟩, fun h => ⟨h.1, h.2, h.3⟩⟩

/-- A length or a count is above another one exactly if it is not at most that one. -/
theorem isAbove_eq_false_iff_le {lower upper : Option UInt32} :
    isAbove (fun x y => decide (x < y)) lower upper = false ↔ ∀ l ∈ lower, ∀ u ∈ upper, l ≤ u := by
  simp only [isAbove_eq_false_iff, decide_eq_false_iff_not, UInt32.not_lt]

/-- Nothing is wrong with a type if it is consistent. -/
theorem kindFault?_eq_none_iff {k : DraftKind} : kindFault? k = none ↔ k.Consistent := by
  cases k with
  | number b =>
    simp only [kindFault?, DraftKind.Consistent, ← hasNaN_eq_false_iff,
      ← boundsFault?_eq_none_iff_consistent]
    cases hasNaN b <;> simp
  | integer b => exact boundsFault?_eq_none_iff_consistent
  | string r =>
    simp only [kindFault?, DraftKind.Consistent, ← isAbove_eq_false_iff_le]
    split <;> simp_all
  | array minItems maxItems =>
    simp only [kindFault?, DraftKind.Consistent, ← isAbove_eq_false_iff_le]
    split <;> simp_all
  | _ => exact iff_of_true rfl trivial

/-! ## Building -/

mutual

/-- A schema can be built exactly if it is consistent. -/
theorem build_ok_iff : ∀ d : SchemaDraft, Succeeds d.build ↔ d.Consistent
  | ⟨labels, constant, default, unit, enumeration, readOnly, writeOnly, format, kind, parts⟩ => by
    rw [consistent_iff, ← buildParts_ok_iff parts, ← kindFault?_eq_none_iff, build]
    -- The parts come first; if one of them has a fault, it does not matter which kind the whole is of.
    cases buildParts parts with
    | error e => simp
    | ok built =>
      cases kindFault? kind <;> simp

/-- Parts can be built if each of them is consistent. -/
theorem buildParts_ok_iff :
    ∀ parts : List (PartRole × SchemaDraft), Succeeds (buildParts parts) ↔ ∀ p ∈ parts, p.2.Consistent
  | [] => by simp [buildParts]
  | (role, d) :: rest => by
    rw [List.forall_mem_cons, ← build_ok_iff d, ← buildParts_ok_iff rest, buildParts]
    cases build d with
    | error e => simp
    | ok s => cases buildParts rest <;> simp

end

/-- A schema that may be missing can be built if it is consistent where it is there. -/
theorem buildOptional_ok_iff {d : Option SchemaDraft} :
    Succeeds (buildOptional d) ↔ ∀ s ∈ d, s.Consistent := by
  cases d with
  | none => simp [buildOptional]
  | some d =>
    rw [buildOptional, Succeeds.map_iff, build_ok_iff]
    simp

theorem isStructured_builtKind (parts : List (PartRole × DataSchema)) (k : DraftKind) :
    (builtKind parts k).any SchemaKind.isStructured = k.isStructured := by
  cases k <;> rfl

/-- A built schema has parts where its draft has. -/
theorem kind_of_build {d : SchemaDraft} {s : DataSchema} (h : d.build = .ok s) :
    s.kind.any SchemaKind.isStructured = d.kind.isStructured := by
  obtain ⟨labels, constant, default, unit, enumeration, readOnly, writeOnly, format, kind, parts⟩ := d
  rw [build] at h
  split at h
  · cases h
  · split at h
    · cases h
    · cases h
      exact isStructured_builtKind _ kind

/-- A draft describes a variable of an href: it is consistent, and its values are scalars. -/
def IsVariable (d : SchemaDraft) : Prop := d.Consistent ∧ d.kind.isStructured = false

/-- A variable can be built if its schema is consistent and has no parts. -/
theorem buildVariable_ok_iff {entry : String × SchemaDraft} :
    Succeeds (buildVariable entry) ↔ entry.2.IsVariable := by
  rw [IsVariable, ← build_ok_iff]
  refine Succeeds.bind_iff_and fun s hs => ?_
  rw [← kind_of_build hs]
  cases s.kind with
  | none => simp
  | some kind => cases hkind : kind.isStructured <;> simp [hkind]

/-- Variables can be built if each of them can. -/
theorem buildVariables_ok_iff {entries : List (String × SchemaDraft)} :
    Succeeds (buildVariables entries) ↔ ∀ e ∈ entries, e.2.IsVariable := by
  rw [buildVariables, Succeeds.map_iff, Succeeds.mapM_iff]
  exact forall_congr' fun e => forall_congr' fun _ => buildVariable_ok_iff

end SchemaDraft
end WebOfThings
