import WebOfThings.Proofs.Template.Expansion

/-!
# Templates one after the other

A template is expanded from left to right, and what has been written is never looked at again. A template
that expands, followed by a second one, is therefore its own text followed by what becomes of the second
(`expandFrom_source_append`, by induction over the segments of the first): neither a brace in one of its
literals nor one in a value has a part in what follows.

Under an operator that leaves reserved characters alone, a value is copied with its braces
(`expandFrom_reserved`). Main statement: `expand_behind`.

The condition is on the first template only: it has to expand by itself, which it does not if it ends inside
of an expression. The second one may be anything. Where it fails the whole fails, with the same fault and
about the same variable, and the error holds the whole template (`behind`).
-/

namespace WebOfThings.Template

/-! ## A template in front of another one -/

theorem verdict_eq_ok_iff {α : Type} {faults : List Fault} {result out : α} :
    verdict faults result = .ok out ↔ faults = [] ∧ result = out := by
  cases faults <;> simp [verdict]

/-- Nothing is wrong with a template if nothing is wrong with its expressions and all of them are closed. -/
theorem Outline.faults_eq_nil_iff {scope : Scope} {o : Outline} :
    o.faults scope = [] ↔ (∀ s ∈ o.segments, scope.faults s.expression = []) ∧ o.unclosed = none := by
  cases hunclosed : o.unclosed <;> simp [faults, hunclosed]

/-- A template in which nothing is wrong leaves alone what follows it. -/
theorem expandFrom_source_append (scope : Scope) {o : Outline} (ho : o.WellFormed)
    (hfaults : o.faults scope = []) (t : List Char) :
    expandFrom scope.lookup (o.source ++ t) = (expandFrom scope.lookup t).map (o.text scope ++ ·) := by
  obtain ⟨hsegments, hunclosed⟩ := Outline.faults_eq_nil_iff.1 hfaults
  obtain ⟨segments, last, unclosed⟩ := o
  subst hunclosed
  clear hfaults
  induction segments with
  | nil =>
    have hsource : Outline.source ⟨[], last, none⟩ = last := by simp [Outline.source]
    rw [hsource]
    exact expandFrom_append scope.lookup ho.last t
  | cons s segments ih =>
    obtain ⟨hliteral, hexpression, hrest⟩ := Outline.wellFormed_cons_iff.1 ho
    obtain ⟨hs, hsegments⟩ := List.forall_mem_cons.1 hsegments
    have hsource : Outline.source ⟨s :: segments, last, none⟩ ++ t =
        s.literal ++ '\x7b' :: (s.expression ++ '\x7d' :: (Outline.source ⟨segments, last, none⟩ ++ t)) := by
      simp [Outline.source_cons]
    rw [hsource, expandFrom_segment scope hliteral hexpression, hs, ih hrest hsegments]
    cases expandFrom scope.lookup t <;> simp [verdict, Outline.text, Except.map]

/-- What a template expands to stays in front of what becomes of a text behind it. -/
theorem expandFrom_append_of_ok (scope : Scope) {s out : List Char}
    (h : expandFrom scope.lookup s = .ok out) (t : List Char) :
    expandFrom scope.lookup (s ++ t) = (expandFrom scope.lookup t).map (out ++ ·) := by
  obtain ⟨o, ho, rfl⟩ := exists_outline s
  rw [expandFrom_source scope ho] at h
  obtain ⟨hfaults, rfl⟩ := verdict_eq_ok_iff.1 h
  exact expandFrom_source_append scope ho hfaults t

/-! ## Values that are copied -/

/-- A variable that has a value is known. -/
theorem Scope.knows_of_valueOf? {scope : Scope} {name : String} {v : Json}
    (h : scope.valueOf? name = some v) : scope.knows name = true := by
  unfold valueOf? at h
  unfold knows
  cases hsupplied : Dict.get? name scope.supplied with
  | some w => rfl
  | none =>
    rw [hsupplied, Option.none_or] at h
    obtain ⟨s, hs, -⟩ := Option.bind_eq_some_iff.1 h
    rw [hs]
    rfl

/-- The operator that leaves reserved characters alone and writes nothing in front of a value. -/
def Operator.reserved : Operator := { allowReserved := true }

/-- The expression for one variable under the reserved operator. -/
def reservedExpression (spec : List Char) : List Char := '\x7b' :: '+' :: (spec ++ ['\x7d'])

/-- The expression for one variable under the reserved operator is the text of its value. -/
theorem expandFrom_reserved (scope : Scope) {spec : List Char} (hcomma : ',' ∉ spec)
    (hbrace : '\x7d' ∉ spec) {v : Json} (hv : scope.valueOf? (String.ofList (nameOf spec)) = some v)
    {text : List Char} (htext : Operator.reserved.render v = some text) :
    expandFrom scope.lookup (reservedExpression spec) = .ok text := by
  have hvariables : variablesOf ('+' :: spec) = [spec] := List.splitOn_eq_singleton hcomma
  have hknown := Scope.knows_of_valueOf? hv
  have hfaults : scope.faults ('+' :: spec) = [] := by
    rw [Scope.faults, if_neg (List.cons_ne_nil _ _), hvariables]
    simp [Scope.unresolved, hknown]
  have hvariable : scope.variableText? Operator.reserved spec = some text := by
    rw [Scope.variableText?, hv, Option.bind_some, htext]
    rfl
  have hexpression : scope.expressionText ('+' :: spec) = text := by
    have hoperator : operatorOf ('+' :: spec) = Operator.reserved := rfl
    simp only [Scope.expressionText, hoperator, hvariables, List.filterMap_cons, hvariable, List.filterMap_nil]
    rw [if_neg (List.cons_ne_nil _ _)]
    show [] ++ [','].intercalate [text] = text
    simp
  -- The template is a single segment without a literal.
  have ho : Outline.WellFormed ⟨[⟨[], '+' :: spec⟩], [], none⟩ := by
    have hnil : Outline.WellFormed ⟨[], [], none⟩ :=
      ⟨List.forall_mem_nil _, List.forall_mem_nil _, List.not_mem_nil, fun _ h => absurd h (Option.not_mem_none _)⟩
    refine Outline.wellFormed_cons_iff.2 ⟨List.not_mem_nil, ?_, hnil⟩
    simpa using hbrace
  have hsource : Outline.source ⟨[⟨[], '+' :: spec⟩], [], none⟩ = reservedExpression spec := by
    simp [Outline.source, Segment.source, reservedExpression]
  rw [← hsource, expandFrom_source scope ho]
  simp [verdict, Outline.faults, Outline.text, hfaults, hexpression]

/-! ## Two templates -/

/-- What becomes of a template behind one that expands to `out`: its text comes behind `out`, and its fault is
one of the whole. -/
def behind (whole out : String) : Except Error String → Except Error String
  | .ok text => .ok (out ++ text)
  | .error e => .error { e with template := whole }

/-- A template expands to a text character by character. -/
theorem expand_eq_ok_iff {value? : Lookup} {template out : String} :
    expand value? template = .ok out ↔ expandFrom value? template.toList = .ok out.toList := by
  unfold expand
  cases expandFrom value? template.toList with
  | ok s => simp [← String.toList_inj]
  | error fault => simp

theorem exists_behind_eq_ok_iff {whole out : String} {result : Except Error String} :
    (∃ s, behind whole out result = .ok s) ↔ ∃ text, result = .ok text := by
  cases result <;> simp [behind]

/-- What becomes of a text behind a template that expands. -/
theorem expand_eq_behind (scope : Scope) {first out : String} (h : expand scope.lookup first = .ok out)
    (second : String) :
    expand scope.lookup (first ++ second) = behind (first ++ second) out (expand scope.lookup second) := by
  have happend := expandFrom_append_of_ok scope (expand_eq_ok_iff.1 h) second.toList
  rw [← String.toList_append] at happend
  rw [expand, happend, expand]
  cases expandFrom scope.lookup second.toList with
  | ok text => simp [Except.map, behind]
  | error fault => rfl

/-- A template behind one that expands is expanded as if it stood alone: its text comes behind the text of the
first, or its fault is reported, about the same variable. Values are not looked at again: where an expression
with one variable under the reserved operator stands between the two, the text of the value is copied, with
any braces in it. -/
theorem expand_behind (supplied : Dict Json) (declared : String → Option DataSchema) {first out : String}
    (h : expand (lookup supplied fun name => (declared name).map (·.default)) first = .ok out)
    (second : String) :
    let value? := lookup supplied fun name => (declared name).map (·.default)
    expand value? (first ++ second) = behind (first ++ second) out (expand value? second) ∧
      ((∃ text, expand value? (first ++ second) = .ok text) ↔ ∃ text, expand value? second = .ok text) ∧
      ∀ (spec : List Char) (v : Json) (text : List Char), ',' ∉ spec → '\x7d' ∉ spec →
        Scope.valueOf? ⟨supplied, declared⟩ (String.ofList (nameOf spec)) = some v →
        Operator.reserved.render v = some text →
        let whole := first ++ String.ofList (reservedExpression spec) ++ second
        expand value? whole = behind whole (out ++ String.ofList text) (expand value? second) := by
  intro value?
  have hbehind := expand_eq_behind ⟨supplied, declared⟩ h
  refine ⟨hbehind second, ?_, fun spec v text hcomma hbrace hv htext => ?_⟩
  · rw [show expand value? (first ++ second) = _ from hbehind second]
    exact exists_behind_eq_ok_iff
  · have hexpression : expand (Scope.lookup ⟨supplied, declared⟩) (String.ofList (reservedExpression spec)) =
        .ok (String.ofList text) := by
      rw [expand_eq_ok_iff, String.toList_ofList, String.toList_ofList]
      exact expandFrom_reserved ⟨supplied, declared⟩ hcomma hbrace hv htext
    have hfirst := hbehind (String.ofList (reservedExpression spec))
    rw [hexpression] at hfirst
    exact expand_eq_behind ⟨supplied, declared⟩ hfirst second

/-- A closing brace that stands alone, a value that looks like an expression, and an unknown variable behind. -/
theorem expand_behind_braces :
    let supplied : Dict Json := [("x", .str "\x7by\x7d"), ("z", .num .zero)]
    let value? := lookup supplied fun _ => none
    expand value? "/\x7d\x7b+x\x7d" = .ok "/\x7d\x7by\x7d" ∧
      expand value? ("/\x7d\x7b+x\x7d" ++ "\x7b?z\x7d") = .ok "/\x7d\x7by\x7d?z=0" ∧
      expand value? ("/\x7d\x7b+x\x7d" ++ "\x7by\x7d") =
        .error ⟨"/\x7d\x7b+x\x7d" ++ "\x7by\x7d", .unresolved "y"⟩ ∧
      expand value? ("/\x7d\x7b+x\x7d" ++ String.ofList (reservedExpression ['x', '*']) ++ "\x7b?z\x7d") =
        .ok "/\x7d\x7by\x7d\x7by\x7d?z=0" := by
  intro supplied value?
  have hfirst : expand value? "/\x7d\x7b+x\x7d" = .ok "/\x7d\x7by\x7d" := by decide +kernel
  have hbehind := expand_behind supplied (fun _ => none) hfirst
  have hcopied := (hbehind "\x7b?z\x7d").2.2 ['x', '*'] (.str "\x7by\x7d") ['\x7b', 'y', '\x7d'] (by decide)
    (by decide) rfl (by decide +kernel)
  refine ⟨hfirst, (hbehind "\x7b?z\x7d").1.trans ?_, (hbehind "\x7by\x7d").1.trans ?_, hcopied.trans ?_⟩
  · decide +kernel
  · decide +kernel
  · decide +kernel

end WebOfThings.Template
