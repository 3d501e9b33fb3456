import WebOfThings.Dict
import WebOfThings.Json.Number

/-!
# JSON values

The members of an object are a list of entries. A text may write them in any order and repeat a key;
`Json.normal` sorts them and keeps the last of the members under a key, at every depth. A *normal* value has
one form only, and every value that is kept or written is normal.

The list is what lets one type serve two purposes. A value that has just been read is as it was written, so
that a repeated key can be found; a value of the program is normal, as a map with ordered keys is. The
functions on values look members up by `get?`, which takes the first entry under a key, and are used on
normal values.

Equality is `eqv`, not the equality of the type: numbers of one kind are compared as numbers, so that both
zeros are equal. It is recursive in both values. `depth` counts how many arrays and objects are nested,
which is what the readers of texts and items bound.

Main statement: `eqv_refl` (a value equals itself).
-/

namespace WebOfThings

/-- A JSON value. -/
inductive Json where
  | null
  | bool (b : Bool)
  | num (n : Number)
  | str (s : String)
  | arr (items : List Json)
  | obj (members : List (String × Json))

namespace Json

instance : Inhabited Json := ⟨.null⟩

/-- The object of a list of members, of which the last one under a key counts. -/
def object (members : List (String × Json)) : Json := .obj (Dict.ofList members)

/-- The member of an object under a key. -/
def get? (key : String) : Json → Option Json
  | .obj members => Dict.get? key members
  | _ => none

/-- A natural number below `2 ^ 64`. -/
def ofNat (n : Nat) (h : n < 18446744073709551616 := by decide) : Json :=
  .num (.integer n (by omega))

/-- A double, `null` where it is not finite. -/
def ofBinary64 (x : Binary64) : Json :=
  match Number.ofBinary64? x with
  | some n => .num n
  | none => .null

/-! ## Equality -/

mutual

/-- Equality of normal values: equal texts, equal numbers (both zeros are equal), equal items in
order and equal members. -/
def eqv : Json → Json → Bool
  | .null, .null => true
  | .bool a, .bool b => a == b
  | .num n, .num m => n.eqv m
  | .str s, .str t => s == t
  | .arr xs, .arr ys => eqvItems xs ys
  | .obj xs, .obj ys => eqvMembers xs ys
  | _, _ => false

@[inherit_doc eqv]
def eqvItems : List Json → List Json → Bool
  | [], [] => true
  | x :: xs, y :: ys => eqv x y && eqvItems xs ys
  | _, _ => false

@[inherit_doc eqv]
def eqvMembers : List (String × Json) → List (String × Json) → Bool
  | [], [] => true
  | (k, x) :: xs, (l, y) :: ys => k == l && (eqv x y && eqvMembers xs ys)
  | _, _ => false

end

instance : BEq Json := ⟨eqv⟩

/-! ## Normal form -/

mutual

/-- The value with the members of every object in order and without repetition. -/
def normal : Json → Json
  | .arr items => .arr (normalItems items)
  | .obj members => .obj (Dict.ofList (normalMembers members))
  | v => v

@[inherit_doc normal]
def normalItems : List Json → List Json
  | [] => []
  | v :: rest => normal v :: normalItems rest

@[inherit_doc normal]
def normalMembers : List (String × Json) → List (String × Json)
  | [] => []
  | (k, v) :: rest => (k, normal v) :: normalMembers rest

end

/-! ## Depth -/

mutual

/-- How many arrays and objects are nested in each other. -/
def depth : Json → Nat
  | .arr items => depthItems items + 1
  | .obj members => depthMembers members + 1
  | _ => 0

@[inherit_doc depth]
def depthItems : List Json → Nat
  | [] => 0
  | v :: rest => max (depth v) (depthItems rest)

@[inherit_doc depth]
def depthMembers : List (String × Json) → Nat
  | [] => 0
  | (_, v) :: rest => max (depth v) (depthMembers rest)

end

end Json

/-- A finite double equals itself. -/
theorem Binary64.eqv_refl {x : Binary64} (h : x.isFinite = true) : x.eqv x = true := by
  have : x.isNaN = false := by
    simp only [isFinite, decide_eq_true_eq] at h
    simp only [isNaN, Bool.and_eq_false_iff, decide_eq_false_iff_not]
    exact .inl (by omega)
  simp [eqv, this]

/-- A number equals itself. -/
theorem Number.eqv_refl (n : Number) : n.eqv n = true := by
  cases n with
  | integer n h => simp [eqv]
  | float x h => exact Binary64.eqv_refl h

namespace Json

mutual

/-- A value equals itself. -/
theorem eqv_refl : ∀ v : Json, eqv v v = true
  | .null => rfl
  | .bool b => by simp [eqv]
  | .num n => n.eqv_refl
  | .str s => by simp [eqv]
  | .arr items => eqvItems_refl items
  | .obj members => eqvMembers_refl members

theorem eqvItems_refl : ∀ items : List Json, eqvItems items items = true
  | [] => rfl
  | v :: rest => by simp [eqvItems, eqv_refl v, eqvItems_refl rest]

theorem eqvMembers_refl : ∀ members : List (String × Json), eqvMembers members members = true
  | [] => rfl
  | (k, v) :: rest => by simp [eqvMembers, eqv_refl v, eqvMembers_refl rest]

end

end Json
end WebOfThings
