import WebOfThings.Proofs.Binary64.Leading
import WebOfThings.Proofs.Json.FloatText
import WebOfThings.Proofs.Json.Normal
import WebOfThings.Proofs.Template.Expansion

/-!
# What values bring into a template

Under an operator that leaves no reserved characters, texts and objects are escaped, and numbers and truth
values are copied as they are written. The sign of an exponent is the one reserved character among those
(`Number.mem_text`), and it is written for the doubles from `10 ^ 16` on (`Number.plus_mem_text_iff`). So
the text of a value is safe just if there is no such double in it, alone or among the items of arrays
(`safe_render_iff`); an object is escaped as a whole, whatever numbers it holds.
`expand_escapes_but_large_doubles` says so of every variable of a template.

`Escaped` describes what may be left of a value, and `Safe` adds the commas that separate the items of an
array. The induction follows the values as `renderEach` does, into arrays only: an object is one text, and
its members are not looked at. The exact condition is on the numbers that are written as numbers (`listed`),
since the sign of an exponent is the one character that is copied and not unreserved.
-/

namespace WebOfThings

/-! ## The texts of numbers -/

theorem Text.isUnreserved_of_isDigit {c : Char} (hc : c.isDigit = true) : isUnreserved c = true := by
  simp [isUnreserved, Char.isAlphanum, hc]

namespace Number

variable {ds : List Char} {point : Int}

theorem isUnreserved_of_mem_digits {n : Nat} {c : Char} (hc : c ∈ digits n) : Text.isUnreserved c = true :=
  Text.isUnreserved_of_isDigit (isDigit_of_mem_digits c hc)

theorem isUnreserved_of_mem_zeros {k : Nat} {c : Char} (hc : c ∈ List.replicate k '0') :
    Text.isUnreserved c = true :=
  Text.isUnreserved_of_isDigit (isDigit_of_mem_zeros c hc)

section

variable (hds : ∀ c ∈ ds, c.isDigit = true) {c : Char}

include hds

/-- Without an exponent there are digits and a point. -/
theorem isUnreserved_of_mem_positional (hnear : positionalFrom ≤ point - 1 ∧ point - 1 < positionalBelow)
    (hc : c ∈ layout ds point) : Text.isUnreserved c = true := by
  have hdigit : ∀ c ∈ ds, Text.isUnreserved c = true := fun c hc => Text.isUnreserved_of_isDigit (hds c hc)
  have hpoint : Text.isUnreserved '.' = true := by decide
  have hzero : Text.isUnreserved '0' = true := by decide
  simp only [layout, if_pos hnear] at hc
  split at hc
  · simp only [List.mem_append, List.mem_cons, List.not_mem_nil, or_false] at hc
    rcases hc with (hc | hc) | rfl | rfl
    · exact hdigit c hc
    · exact isUnreserved_of_mem_zeros hc
    · exact hpoint
    · exact hzero
  · split at hc
    · simp only [List.mem_append, List.mem_cons] at hc
      rcases hc with hc | rfl | hc
      · exact hdigit c (List.mem_of_mem_take hc)
      · exact hpoint
      · exact hdigit c (List.mem_of_mem_drop hc)
    · simp only [List.cons_append, List.mem_append, List.mem_cons] at hc
      rcases hc with rfl | rfl | hc | hc
      · exact hzero
      · exact hpoint
      · exact isUnreserved_of_mem_zeros hc
      · exact hdigit c hc

/-- With an exponent there is its sign too, a plus sign where the number is large. -/
theorem mem_scientific (hfar : ¬ (positionalFrom ≤ point - 1 ∧ point - 1 < positionalBelow))
    (hc : c ∈ layout ds point) : Text.isUnreserved c = true ∨ c = '+' ∧ positionalBelow ≤ point - 1 := by
  have hdigit : ∀ c ∈ ds, Text.isUnreserved c = true := fun c hc => Text.isUnreserved_of_isDigit (hds c hc)
  simp only [layout, if_neg hfar] at hc
  rw [List.mem_append, List.mem_cons, List.mem_cons] at hc
  rcases hc with hc | rfl | hc | hc
  · left
    -- The point follows the first digit, unless it is the only one.
    rcases ds with _ | ⟨d, _ | ⟨e, rest⟩⟩
    · cases hc
    · exact hdigit c hc
    · rcases List.mem_cons.1 hc with rfl | hc
      · exact hdigit c List.mem_cons_self
      · rcases List.mem_cons.1 hc with rfl | hc
        · decide
        · exact hdigit c (List.mem_cons_of_mem d hc)
  · exact .inl (by decide)
  · split at hc
    · exact .inl (hc ▸ by decide)
    · next hsign =>
      refine .inr ⟨hc, ?_⟩
      simp only [positionalFrom, positionalBelow] at hfar ⊢
      omega
  · exact .inl (isUnreserved_of_mem_digits hc)

/-- A layout is made of unreserved characters, but for the sign of an exponent that is not negative. -/
theorem mem_layout (hc : c ∈ layout ds point) :
    Text.isUnreserved c = true ∨ c = '+' ∧ positionalBelow ≤ point - 1 := by
  by_cases hnear : positionalFrom ≤ point - 1 ∧ point - 1 < positionalBelow
  · exact .inl (isUnreserved_of_mem_positional hds hnear hc)
  · exact mem_scientific hds hnear hc

end

theorem plus_mem_layout (h : positionalBelow ≤ point - 1) : '+' ∈ layout ds point := by
  have hfar : ¬ (positionalFrom ≤ point - 1 ∧ point - 1 < positionalBelow) := fun hnear => by omega
  have hsign : ¬ point - 1 < 0 := by
    simp only [positionalBelow] at h
    omega
  simp only [layout, if_neg hfar, if_neg hsign]
  exact List.mem_append_right _ (List.mem_cons_of_mem _ List.mem_cons_self)

/-- An integer is written in unreserved characters. -/
theorem mem_integerText {n : Int} {c : Char} (hc : c ∈ integerText n) : Text.isUnreserved c = true := by
  unfold integerText at hc
  split at hc
  · rcases List.mem_cons.1 hc with rfl | hc
    · decide
    · exact isUnreserved_of_mem_digits hc
  · exact isUnreserved_of_mem_digits hc

/-- A double is written as its sign and its digits. -/
theorem floatText_eq {x : Binary64} (h : x.isFinite = true) (hx : x.significand ≠ 0) :
    floatText x = (if x.negative then ['-'] else []) ++
      layout (significant x.shortest.digits) (x.shortest.leading + 1) := by
  have hdigits := Binary64.shortest_digits_ne_zero h hx
  have hcount : (digits x.shortest.digits).length = Decimal.digitCount x.shortest.digits :=
    (if_neg hdigits).symm
  rw [floatText, if_neg (mt Binary64.isZero_iff.1 hx), Decimal.leading, Int.sub_add_cancel, ← hcount]
  rfl

/-- A double is written in unreserved characters and a plus sign where it is large. -/
theorem mem_floatText {x : Binary64} (h : x.isFinite = true) {c : Char} (hc : c ∈ floatText x) :
    Text.isUnreserved c = true ∨ c = '+' ∧ (10 : ℚ) ^ (16 : Int) ≤ x.absolute := by
  have hsign : ∀ c ∈ (if x.negative then ['-'] else []), Text.isUnreserved c = true := by
    split
    · exact List.all_eq_true.1 (by decide)
    · exact List.forall_mem_nil _
  have hzero : ∀ c ∈ ['0', '.', '0'], Text.isUnreserved c = true := List.all_eq_true.1 (by decide)
  by_cases hx : x.significand = 0
  · rw [floatText, if_pos (Binary64.isZero_iff.2 hx), List.mem_append] at hc
    exact .inl (hc.elim (hsign c) (hzero c))
  · rw [floatText_eq h hx, List.mem_append] at hc
    rcases hc with hc | hc
    · exact .inl (hsign c hc)
    · refine (mem_layout isDigit_of_mem_significant hc).imp id fun hplus => ⟨hplus.1, ?_⟩
      refine (Binary64.leading_shortest_iff h hx).1 ?_
      simpa [positionalBelow] using hplus.2

/-- A double from `10 ^ 16` on. -/
def IsLarge : Number → Prop
  | .integer _ _ => False
  | .float x _ => (10 : ℚ) ^ (16 : Int) ≤ x.absolute

/-- A number is written in unreserved characters, but for a large double. -/
theorem mem_text {n : Number} {c : Char} (hc : c ∈ n.text) :
    Text.isUnreserved c = true ∨ c = '+' ∧ n.IsLarge := by
  cases n with
  | integer n _ => exact .inl (mem_integerText hc)
  | float x h => exact mem_floatText h hc

/-- The sign of the exponent is written of the large doubles. -/
theorem plus_mem_text_iff {n : Number} : '+' ∈ n.text ↔ n.IsLarge := by
  constructor
  · intro hplus
    exact (mem_text hplus).elim (fun hplus => absurd hplus (by decide)) And.right
  · intro hlarge
    cases n with
    | integer n _ => exact hlarge.elim
    | float x h =>
      have hx : x.significand ≠ 0 := by
        intro hx
        simp only [IsLarge, Binary64.absolute, hx] at hlarge
        norm_num at hlarge
      have hleading := (Binary64.leading_shortest_iff h hx).2 hlarge
      rw [text, floatText_eq h hx]
      exact List.mem_append_right _ (plus_mem_layout (by simpa [positionalBelow] using hleading))

end Number

/-! ## Escaped texts -/

namespace Text

/-- A text of unreserved characters and percent escapes. -/
inductive Escaped : List Char → Prop
  | nil : Escaped []
  | unreserved {c : Char} {s : List Char} : isUnreserved c = true → Escaped s → Escaped (c :: s)
  | escape {a b : Char} {s : List Char} :
    (hexValue? a).isSome → (hexValue? b).isSome → Escaped s → Escaped ('%' :: a :: b :: s)

/-- Escaped texts may be put together. -/
theorem Escaped.append {s t : List Char} (hs : Escaped s) (ht : Escaped t) : Escaped (s ++ t) := by
  induction hs with
  | nil => exact ht
  | unreserved hc _ ih => exact .unreserved hc ih
  | escape ha hb _ ih => exact .escape ha hb ih

/-- A text of unreserved characters is escaped as it stands. -/
theorem escaped_of_forall_unreserved {s : List Char} (h : ∀ c ∈ s, isUnreserved c = true) : Escaped s := by
  induction s with
  | nil => exact .nil
  | cons c rest ih => exact .unreserved (h c List.mem_cons_self) (ih fun d hd => h d (List.mem_cons_of_mem c hd))

theorem hexValue?_upperHexDigit {n : Nat} (h : n < 16) : (hexValue? (upperHexDigit n)).isSome := by
  have : ∀ m : Fin 16, (hexValue? (upperHexDigit m)).isSome = true := by decide
  exact this ⟨n, h⟩

/-- A byte is encoded as an escape. -/
theorem escaped_percentEncodeByte (b : UInt8) : Escaped (percentEncodeByte b) := by
  have hb : b.toNat < 256 := b.toNat_lt
  unfold percentEncodeByte
  split
  · next h => exact .unreserved h .nil
  · exact .escape (hexValue?_upperHexDigit (by omega)) (hexValue?_upperHexDigit (by omega)) .nil

/-- Every text that is percent-encoded is escaped. -/
theorem escaped_percentEncode (s : String) : Escaped (percentEncode s) := by
  unfold percentEncode
  induction utf8 s with
  | nil => exact .nil
  | cons b rest ih => exact (escaped_percentEncodeByte b).append ih

theorem isUnreserved_of_hexValue? {c : Char} (hc : (hexValue? c).isSome) : isUnreserved c = true := by
  have hlt : c.toNat < 128 := by
    have hle : c ≤ '9' ∨ c ≤ 'f' ∨ c ≤ 'F' := by
      unfold hexValue? at hc
      grind
    rcases hle with hle | hle | hle <;> exact Nat.lt_of_le_of_lt (UInt32.le_iff_toNat_le.1 hle) (by decide)
  have hall : ∀ n : Fin 128, (hexValue? (Char.ofNat n)).isSome → isUnreserved (Char.ofNat n) = true := by decide
  have hchar := hall ⟨c.toNat, hlt⟩
  rw [Char.ofNat_toNat] at hchar
  exact hchar hc

/-- An escaped text is made of unreserved characters and percent signs. -/
theorem Escaped.mem {s : List Char} (hs : Escaped s) {c : Char} (hc : c ∈ s) :
    isUnreserved c = true ∨ c = '%' := by
  induction hs with
  | nil => cases hc
  | unreserved hd _ ih =>
    rcases List.mem_cons.1 hc with rfl | hc
    · exact .inl hd
    · exact ih hc
  | escape ha hb _ ih =>
    simp only [List.mem_cons] at hc
    rcases hc with rfl | rfl | rfl | hc
    · exact .inr rfl
    · exact .inl (isUnreserved_of_hexValue? ha)
    · exact .inl (isUnreserved_of_hexValue? hb)
    · exact ih hc

end Text

/-! ## Values -/

namespace Json

mutual

/-- The numbers that are written as numbers: the value itself, or the items of arrays at any depth. -/
def listed : Json → List Number
  | .num n => [n]
  | .arr items => listedEach items
  | _ => []

@[inherit_doc listed]
def listedEach : List Json → List Number
  | [] => []
  | v :: rest => v.listed ++ listedEach rest

end

/-- The numbers in an array are those in its items. -/
theorem mem_listed_arr {items : List Json} {n : Number} :
    n ∈ (arr items).listed ↔ ∃ v ∈ items, n ∈ v.listed := by
  rw [listed]
  induction items with
  | nil => simp [listedEach]
  | cons v rest ih => simp [listedEach, ih]

/-- Induction over values that looks into arrays only. -/
theorem forall_of_items {P : Json → Prop} (plain : ∀ v : Json, (∀ items, v ≠ .arr items) → P v)
    (array : ∀ items, (∀ v ∈ items, P v) → P (.arr items)) (v : Json) : P v :=
  forall_of_parts (fun v hv _ => plain v hv) array (fun _ _ => plain _ fun _ => Json.noConfusion) v

end Json

namespace Template

/-- Values that stand for nothing in a template. -/
def Undefined (v : Json) : Prop := v = .null ∨ v = .arr []

mutual

/-- The texts of a value that hold no reserved character, but for the commas between the items of arrays. -/
inductive Safe : Json → List Char → Prop
  | plain {v : Json} {s : List Char} : (∀ items, v ≠ .arr items) → Text.Escaped s → Safe v s
  | array {items : List Json} {texts : List (List Char)} :
    EachSafe items texts → Safe (.arr items) ([','].intercalate texts)

/-- Such texts of the items that are defined, in order. -/
inductive EachSafe : List Json → List (List Char) → Prop
  | nil : EachSafe [] []
  | undefined {v : Json} {rest : List Json} {texts : List (List Char)} :
    Undefined v → EachSafe rest texts → EachSafe (v :: rest) texts
  | defined {v : Json} {s : List Char} {rest : List Json} {texts : List (List Char)} :
    ¬ Undefined v → Safe v s → EachSafe rest texts → EachSafe (v :: rest) (s :: texts)

end

mutual

theorem Safe.mem {v : Json} {s : List Char} : Safe v s →
    ∀ c ∈ s, Text.isUnreserved c = true ∨ c = '%' ∨ c = ','
  | .plain _ hs => fun _ hc => (hs.mem hc).imp id .inl
  | .array htexts => fun _ hc => (Text.mem_intercalate_comma hc).elim (fun hc => .inr (.inr hc))
      fun ⟨text, htext, hc⟩ => htexts.mem text htext _ hc

theorem EachSafe.mem {items : List Json} {texts : List (List Char)} : EachSafe items texts →
    ∀ text ∈ texts, ∀ c ∈ text, Text.isUnreserved c = true ∨ c = '%' ∨ c = ','
  | .nil => List.forall_mem_nil _
  | .undefined _ hrest => hrest.mem
  | .defined _ hs hrest => List.forall_mem_cons.2 ⟨hs.mem, hrest.mem⟩

end

variable {op : Operator}

/-- The text of an array is that of its defined items, with commas between them. -/
theorem eq_intercalate_of_render {items : List Json} {s : List Char} (hs : op.render (.arr items) = some s) :
    s = [','].intercalate (items.filterMap op.render) := by
  cases items with
  | nil => cases hs
  | cons v rest =>
    rw [op.render_arr (List.cons_ne_nil v rest)] at hs
    exact (Option.some.inj hs).symm

/-- Where each item has a safe text, the texts of the defined items are safe. -/
theorem eachSafe_render {items : List Json} (h : ∀ v ∈ items, ∀ s, op.render v = some s → Safe v s) :
    EachSafe items (items.filterMap op.render) := by
  induction items with
  | nil => exact .nil
  | cons v rest ih =>
    obtain ⟨hv, hrest⟩ := List.forall_mem_cons.1 h
    cases hs : op.render v with
    | none =>
      rw [List.filterMap_cons_none hs]
      exact .undefined (op.render_eq_none_iff.1 hs) (ih hrest)
    | some s =>
      rw [List.filterMap_cons_some hs]
      refine .defined (fun hundefined => ?_) (hv s hs) (ih hrest)
      rw [op.render_eq_none_iff.2 hundefined] at hs
      cases hs

section

variable (hop : op.allowReserved = false)

include hop

/-- What is not an array is escaped, or else it is a number. -/
theorem render_plain {v : Json} (hv : ∀ items, v ≠ .arr items) {s : List Char} (hs : op.render v = some s) :
    (∃ n, v = .num n ∧ s = n.text) ∨ v.listed = [] ∧ Text.Escaped s := by
  have hencode : ∀ text, Text.Escaped (op.encode text) := fun text => by
    rw [Operator.encode, hop]
    exact Text.escaped_percentEncode text
  cases v with
  | null => cases hs
  | bool b =>
    refine .inr ⟨rfl, Text.escaped_of_forall_unreserved (List.all_eq_true.1 ?_)⟩
    cases Option.some.inj hs
    cases b <;> decide
  | num n => exact .inl ⟨n, rfl, (Option.some.inj hs).symm⟩
  | str text => exact .inr ⟨rfl, Option.some.inj hs ▸ hencode text⟩
  | arr items => exact absurd rfl (hv items)
  | obj members => exact .inr ⟨rfl, Option.some.inj hs ▸ hencode (Json.obj members).text⟩

/-- Without a large double the text of a value is safe. -/
theorem safe_render {v : Json} (hv : ∀ n ∈ v.listed, ¬ n.IsLarge) {s : List Char} (hs : op.render v = some s) :
    Safe v s := by
  induction v using Json.forall_of_items generalizing s with
  | plain v hplain =>
    refine .plain hplain ?_
    rcases render_plain hop hplain hs with ⟨n, rfl, rfl⟩ | ⟨-, hs⟩
    · refine Text.escaped_of_forall_unreserved fun c hc => ?_
      exact (Number.mem_text hc).resolve_right fun hplus => hv n List.mem_cons_self hplus.2
    · exact hs
  | array items ih =>
    obtain rfl := eq_intercalate_of_render hs
    refine .array (eachSafe_render fun v hmem s hs => ih v hmem (fun n hn => ?_) hs)
    exact hv n (Json.mem_listed_arr.2 ⟨v, hmem, hn⟩)

/-- Of a large double the plus sign is copied, however deep in arrays it is. -/
theorem plus_mem_render {v : Json} {n : Number} (hn : n ∈ v.listed) (hlarge : n.IsLarge) {s : List Char}
    (hs : op.render v = some s) : '+' ∈ s := by
  induction v using Json.forall_of_items generalizing s with
  | plain v hplain =>
    rcases render_plain hop hplain hs with ⟨m, rfl, rfl⟩ | ⟨hnone, -⟩
    · exact List.mem_singleton.1 hn ▸ Number.plus_mem_text_iff.2 hlarge
    · rw [hnone] at hn
      cases hn
  | array items ih =>
    obtain ⟨v, hmem, hn⟩ := Json.mem_listed_arr.1 hn
    obtain rfl := eq_intercalate_of_render hs
    cases ht : op.render v with
    | none =>
      exfalso
      rcases op.render_eq_none_iff.1 ht with rfl | rfl <;> cases hn
    | some t =>
      exact Text.mem_intercalate_of_mem (List.mem_filterMap.2 ⟨v, hmem, ht⟩) (ih v hmem hn ht)

/-- A plus sign is the only reserved character, besides commas, that a value may bring along. -/
theorem mem_render {v : Json} {s : List Char} (hs : op.render v = some s) {c : Char} (hc : c ∈ s) :
    Text.isUnreserved c = true ∨ c = '%' ∨ c = ',' ∨ c = '+' := by
  induction v using Json.forall_of_items generalizing s with
  | plain v hplain =>
    rcases render_plain hop hplain hs with ⟨n, rfl, rfl⟩ | ⟨-, hs⟩
    · exact (Number.mem_text hc).imp id fun hplus => .inr (.inr hplus.1)
    · exact (hs.mem hc).imp id .inl
  | array items ih =>
    obtain rfl := eq_intercalate_of_render hs
    rcases Text.mem_intercalate_comma hc with hcomma | ⟨t, ht, hc⟩
    · exact .inr (.inr (.inl hcomma))
    · obtain ⟨v, hmem, ht⟩ := List.mem_filterMap.1 ht
      exact ih v hmem ht hc

/-- The text of a value is safe just if there is no large double in it. -/
theorem safe_render_iff {v : Json} {s : List Char} (hs : op.render v = some s) :
    Safe v s ↔ ∀ n ∈ v.listed, ¬ n.IsLarge := by
  refine ⟨fun hsafe n hn hlarge => ?_, fun hv => safe_render hop hv hs⟩
  have hplus := hsafe.mem '+' (plus_mem_render hop hn hlarge hs)
  revert hplus
  decide

end

/-! ## Templates -/

/-- Two operators leave reserved characters as they are. -/
theorem allowReserved_operatorOf_iff {expression : List Char} :
    (operatorOf expression).allowReserved = true ↔
      expression.head? = some '+' ∨ expression.head? = some '#' := by
  cases expression with
  | nil => simp [operatorOf]
  | cons c rest =>
    simp only [operatorOf, List.head?_cons, Option.bind_some, Option.some.injEq]
    unfold Operator.ofChar?
    split <;> simp_all

/-- Values are escaped wherever the operator leaves no reserved characters, with one exception: a double of
`10 ^ 16` or more is written with a plus sign, which is copied. So what a variable contributes is made of unreserved
characters, percent escapes and the commas between items just if its value holds no such double, alone or in
arrays. -/
theorem expand_escapes_but_large_doubles {supplied : Dict Json} {declared : String → Option DataSchema}
    {template text : String}
    (h : expand (lookup supplied fun name => (declared name).map (·.default)) template = .ok text) :
    ∃ o : Outline, o.WellFormed ∧ o.source = template.toList ∧
      text.toList = o.text ⟨supplied, declared⟩ ∧
      ∀ segment ∈ o.segments,
        segment.expression.head? ≠ some '+' → segment.expression.head? ≠ some '#' →
        ∀ spec ∈ variablesOf segment.expression, ∀ v,
          Scope.valueOf? ⟨supplied, declared⟩ (String.ofList (nameOf spec)) = some v → ¬ Undefined v →
          ∃ s, (operatorOf segment.expression).render v = some s ∧
            Scope.variableText? ⟨supplied, declared⟩ (operatorOf segment.expression) spec =
              some ((operatorOf segment.expression).labelled (nameOf spec) s) ∧
            (Safe v s ↔ ∀ n ∈ v.listed, ¬ n.IsLarge) ∧
            ∀ c ∈ s, Text.isUnreserved c = true ∨ c = '%' ∨ c = ',' ∨ c = '+' := by
  obtain ⟨o, ho, hsource⟩ := exists_outline template.toList
  refine ⟨o, ho, hsource, ?_, fun segment _ hplus hhash spec _ v hv hdefined => ?_⟩
  · have hexpand := expandFrom_source ⟨supplied, declared⟩ ho
    rw [Scope.lookup, hsource] at hexpand
    rw [expand, hexpand] at h
    cases hfaults : o.faults ⟨supplied, declared⟩ with
    | nil =>
      rw [hfaults] at h
      rw [← Except.ok.inj h, String.toList_ofList]
    | cons fault rest =>
      rw [hfaults] at h
      cases h
  · -- Only `+` and `#` let reserved characters through, and these two are excluded.
    have hop : (operatorOf segment.expression).allowReserved = false := by
      rw [← Bool.not_eq_true, allowReserved_operatorOf_iff]
      exact not_or.2 ⟨hplus, hhash⟩
    have hrender := mt (operatorOf segment.expression).render_eq_none_iff.1 hdefined
    obtain ⟨s, hs⟩ := Option.ne_none_iff_exists'.1 hrender
    refine ⟨s, hs, ?_, safe_render_iff hop hs, fun c => mem_render hop hs⟩
    rw [Scope.variableText?, hv, Option.bind_some, hs, Option.map_some]

/-- The least double that is written with a plus sign, `10 ^ 16`. -/
def leastLarge : Number := .float ⟨false, 1076, 496400372629504, by decide, by decide⟩ rfl

/-- In an array of texts, arrays and objects, the large double that is written as a number is the exception. -/
theorem expand_escapes_array :
    let v : Json := .arr [.str "a b", .arr [.null, .num leastLarge], .obj [("x", .num leastLarge)]]
    expand (lookup [("v", v)] fun _ => none) "/\x7bv\x7d" = .ok "/a%20b,1e+16,%7B%22x%22%3A1e%2B16%7D" ∧
      ∃ s, ({} : Operator).render v = some s ∧ (Safe v s ↔ ∀ n ∈ v.listed, ¬ n.IsLarge) := by
  intro v
  have hexpand : expand (lookup [("v", v)] fun _ => none) "/\x7bv\x7d" =
      .ok "/a%20b,1e+16,%7B%22x%22%3A1e%2B16%7D" := by
    decide +kernel
  obtain ⟨o, ho, hsource, -, hvalues⟩ :=
    @expand_escapes_but_large_doubles [("v", v)] (fun _ => none) _ _ hexpand
  obtain rfl : o = ⟨[⟨['/'], ['v']⟩], [], none⟩ :=
    outline_unique ho ⟨by simp, by simp, by simp, by simp⟩ hsource
  obtain ⟨s, hs, -, hsafe, -⟩ := hvalues ⟨['/'], ['v']⟩ List.mem_cons_self (by decide) (by decide)
    ['v'] (by decide) v rfl (by simp [Undefined, v])
  exact ⟨hexpand, s, hs, hsafe⟩

/-- A value brings a plus sign into the text of a template. -/
theorem expand_copies_plus :
    expand (lookup [("v", .num leastLarge)] fun _ => none) "\x7bv\x7d" = .ok "1e+16" ∧
      ¬ Safe (.num leastLarge) "1e+16".toList := by
  constructor
  · decide +kernel
  · intro hsafe
    exact absurd (hsafe.mem '+' (by decide)) (by decide)

end Template
end WebOfThings
