import Mathlib.Data.List.Basic
import Mathlib.Data.List.DropRight
import WebOfThings.DataSchema
import WebOfThings.Proofs.Text
import WebOfThings.Template

/-!
# What a template expands to

A template is a row of literals and of expressions between braces, and there is one way to take it apart
from left to right (`exists_outline`, `outline_unique`). The parts are then looked at one by one. If nothing
is wrong with any of them, the expansion is the literals with the texts of the expressions between them;
else the leftmost fault is reported (`expandFrom_source`). `expand_eq_leftmost_or_text` says so of every
template, whatever the caller supplies and the schemas declare.

An expression is taken apart in the same way: an operator, then variables between commas, then modifiers
that are dropped. Values that are undefined leave no separator behind, so the text of an expression is a
join over the defined ones only, and an expression in which no value is defined is nothing at all. Whether a
variable has a value and whether it is known are two different questions: a declared variable without a
default is known and has none.
-/

namespace WebOfThings

namespace Template

/-! ## Expansion step by step -/

/-- The expansion of a text with an expression. -/
theorem expandFrom_of_cut (value? : Lookup) {s before after : List Char}
    (hs : Text.cut '\x7b' s = (before, some after)) :
    expandFrom value? s =
      match Text.cut '\x7d' after with
      | (_, none) => .error .unterminated
      | ([], some _) => .error .emptyExpression
      | (c :: expression, some rest) =>
        match expandExpression value? (c :: expression) with
        | .error e => .error e
        | .ok text => (expandFrom value? rest).map fun tail => before ++ text ++ tail := by
  rw [expandFrom]
  split
  · next hs' =>
    rw [hs] at hs'
    cases hs'
  · next hs' =>
    rw [hs] at hs'
    cases hs'
    split
    · next h => rw [h]
    · next h => rw [h]
    · next c expression rest h =>
      simp only [h]
      cases expandExpression value? (c :: expression) with
      | error e => rfl
      | ok text => cases expandFrom value? rest <;> rfl

/-- The expansion leaves alone what stands before every expression. -/
theorem expandFrom_append (value? : Lookup) {before : List Char} (hbefore : '\x7b' ∉ before)
    (s : List Char) :
    expandFrom value? (before ++ s) = (expandFrom value? s).map (before ++ ·) := by
  have hcut := Text.cut_append hbefore s
  cases hs : Text.cut '\x7b' s with
  | mk start after? =>
    rw [hs] at hcut
    cases after? with
    | none =>
      -- There is no expression in either text.
      have hnot : '\x7b' ∉ s := Text.cut_snd_eq_none_iff.1 (by rw [hs])
      have hnot' : '\x7b' ∉ before ++ s := Text.cut_snd_eq_none_iff.1 (by rw [hcut])
      rw [expandFrom_of_no_brace value? hnot, expandFrom_of_no_brace value? hnot']
      rfl
    | some after =>
      rw [expandFrom_of_cut value? hs, expandFrom_of_cut value? hcut]
      split
      · rfl
      · rfl
      · next c expression rest _ =>
        cases expandExpression value? (c :: expression) with
        | error e => rfl
        | ok text => cases expandFrom value? rest <;> simp [Except.map]

/-! ## The parts of a template -/

/-- A literal and the expression behind it. -/
structure Segment where
  literal : List Char
  expression : List Char

/-- A template taken apart: literals and expressions in turn, what stands behind the last expression, and what
stands behind an opening brace that is never closed. -/
structure Outline where
  segments : List Segment
  last : List Char
  unclosed : Option (List Char)

/-- The text that a segment is written as. -/
def Segment.source (s : Segment) : List Char := s.literal ++ '\x7b' :: (s.expression ++ ['\x7d'])

namespace Outline

/-- The template that has been taken apart. -/
def source (o : Outline) : List Char :=
  o.segments.flatMap Segment.source ++ (o.last ++ o.unclosed.elim [] ('\x7b' :: ·))

/-- An expression goes from an opening brace to the next closing one, and a literal up to the next opening one. -/
structure WellFormed (o : Outline) : Prop where
  literal : ∀ s ∈ o.segments, '\x7b' ∉ s.literal
  expression : ∀ s ∈ o.segments, '\x7d' ∉ s.expression
  last : '\x7b' ∉ o.last
  unclosed : ∀ rest ∈ o.unclosed, '\x7d' ∉ rest

/-- A segment stands in front of the rest as its literal and its expression in braces. -/
theorem source_cons (s : Segment) (segments : List Segment) (last : List Char)
    (unclosed : Option (List Char)) :
    source ⟨s :: segments, last, unclosed⟩ =
      s.literal ++ '\x7b' :: (s.expression ++ '\x7d' :: source ⟨segments, last, unclosed⟩) := by
  simp [source, Segment.source]

variable {s : Segment} {segments : List Segment} {last : List Char} {unclosed : Option (List Char)}

/-- A segment is well formed if its literal has no opening brace and its expression no closing one. -/
theorem wellFormed_cons_iff :
    WellFormed ⟨s :: segments, last, unclosed⟩ ↔
      '\x7b' ∉ s.literal ∧ '\x7d' ∉ s.expression ∧ WellFormed ⟨segments, last, unclosed⟩ := by
  constructor
  · rintro ⟨hliteral, hexpression, hlast, hunclosed⟩
    obtain ⟨hl, hliteral⟩ := List.forall_mem_cons.1 hliteral
    obtain ⟨he, hexpression⟩ := List.forall_mem_cons.1 hexpression
    exact ⟨hl, he, hliteral, hexpression, hlast, hunclosed⟩
  · rintro ⟨hl, he, hrest⟩
    exact ⟨List.forall_mem_cons.2 ⟨hl, hrest.literal⟩, List.forall_mem_cons.2 ⟨he, hrest.expression⟩, hrest.last,
      hrest.unclosed⟩

end Outline

/-- Every text can be taken apart. -/
theorem exists_outline (template : List Char) : ∃ o : Outline, o.WellFormed ∧ o.source = template := by
  induction hn : template.length using Nat.strong_induction_on generalizing template with
  | _ n ih =>
  subst hn
  -- Cut at the first opening brace, and what is behind it at the next closing one.
  have hbefore := Text.not_mem_cut_fst '\x7b' template
  cases hs : Text.cut '\x7b' template with
  | mk before after? =>
    rw [hs] at hbefore
    cases after? with
    | none =>
      have hnot : '\x7b' ∉ template := Text.cut_snd_eq_none_iff.1 (by rw [hs])
      exact ⟨⟨[], template, none⟩, ⟨nofun, nofun, hnot, nofun⟩, by simp [Outline.source]⟩
    | some after =>
      have hexpression := Text.not_mem_cut_fst '\x7d' after
      cases ha : Text.cut '\x7d' after with
      | mk expression rest? =>
        rw [ha] at hexpression
        cases rest? with
        | none =>
          have hnot : '\x7d' ∉ after := Text.cut_snd_eq_none_iff.1 (by rw [ha])
          refine ⟨⟨[], before, some after⟩, ⟨nofun, nofun, hbefore, ?_⟩, ?_⟩
          · rintro _ ⟨rfl⟩
            exact hnot
          · simp [Outline.source, Text.cut_eq_some hs]
        | some rest =>
          have hshorter : rest.length < template.length :=
            (length_lt_of_cut ha).trans (length_lt_of_cut hs)
          obtain ⟨⟨segments, last, unclosed⟩, ho, hsource⟩ := ih rest.length hshorter rest rfl
          refine ⟨⟨⟨before, expression⟩ :: segments, last, unclosed⟩,
            Outline.wellFormed_cons_iff.2 ⟨hbefore, hexpression, ho⟩, ?_⟩
          rw [Outline.source_cons, hsource, Text.cut_eq_some hs, Text.cut_eq_some ha]

namespace Outline

variable {s : Segment} {segments : List Segment} {last : List Char} {unclosed : Option (List Char)}

/-- Behind the last expression, the first opening brace is the one that is never closed, if there is one. -/
theorem cut_source_nil (hlast : '\x7b' ∉ last) :
    Text.cut '\x7b' (source ⟨[], last, unclosed⟩) = (last, unclosed) := by
  cases unclosed with
  | none => simpa [source] using Text.cut_of_not_mem hlast
  | some rest => simpa [source] using Text.cut_append_cons hlast rest

/-- Cutting at the first opening brace takes the first segment apart. -/
theorem cut_source_cons (hliteral : '\x7b' ∉ s.literal) :
    Text.cut '\x7b' (source ⟨s :: segments, last, unclosed⟩) =
      (s.literal, some (s.expression ++ '\x7d' :: source ⟨segments, last, unclosed⟩)) := by
  rw [source_cons, Text.cut_append_cons hliteral]

/-- An expression that is not closed is no segment. -/
theorem source_nil_ne_source_cons (h : WellFormed ⟨[], last, unclosed⟩) {last' : List Char}
    {unclosed' : Option (List Char)} (hliteral : '\x7b' ∉ s.literal) :
    source ⟨[], last, unclosed⟩ ≠ source ⟨s :: segments, last', unclosed'⟩ := by
  intro hsource
  have hcut := congrArg (Text.cut '\x7b') hsource
  rw [cut_source_nil h.last, cut_source_cons hliteral, Prod.mk.injEq] at hcut
  exact h.unclosed _ hcut.2 (by simp)

end Outline

/-- There is one way to take a text apart. -/
theorem outline_unique {o o' : Outline} (ho : o.WellFormed) (ho' : o'.WellFormed)
    (hsource : o.source = o'.source) : o = o' := by
  obtain ⟨segments, last, unclosed⟩ := o
  obtain ⟨segments', last', unclosed'⟩ := o'
  induction segments generalizing segments' with
  | nil =>
    cases segments' with
    | nil =>
      have hcut := congrArg (Text.cut '\x7b') hsource
      rw [Outline.cut_source_nil ho.last, Outline.cut_source_nil ho'.last, Prod.mk.injEq] at hcut
      obtain ⟨rfl, rfl⟩ := hcut
      rfl
    | cons s' segments' =>
      obtain ⟨hliteral', -, -⟩ := Outline.wellFormed_cons_iff.1 ho'
      exact absurd hsource (Outline.source_nil_ne_source_cons ho hliteral')
  | cons s segments ih =>
    obtain ⟨hliteral, hexpression, hrest⟩ := Outline.wellFormed_cons_iff.1 ho
    cases segments' with
    | nil => exact absurd hsource.symm (Outline.source_nil_ne_source_cons ho' hliteral)
    | cons s' segments' =>
      obtain ⟨hliteral', hexpression', hrest'⟩ := Outline.wellFormed_cons_iff.1 ho'
      have hcut := congrArg (Text.cut '\x7b') hsource
      rw [Outline.cut_source_cons hliteral, Outline.cut_source_cons hliteral', Prod.mk.injEq,
        Option.some.injEq] at hcut
      obtain ⟨hsame, hcut⟩ := hcut
      -- The literals agree; cut once more, at the closing brace.
      have hcut := congrArg (Text.cut '\x7d') hcut
      rw [Text.cut_append_cons hexpression, Text.cut_append_cons hexpression', Prod.mk.injEq,
        Option.some.injEq] at hcut
      obtain ⟨hsame', hcut⟩ := hcut
      obtain ⟨rfl, rfl, rfl⟩ := Outline.mk.inj (ih hrest segments' hrest' hcut)
      obtain ⟨literal, expression⟩ := s
      obtain ⟨literal', expression'⟩ := s'
      cases hsame
      cases hsame'
      rfl

/-! ## Variables -/

/-- What is known of variables: the values that the caller supplies and the schemas that are declared. -/
structure Scope where
  supplied : Dict Json
  declared : String → Option DataSchema

namespace Scope

variable (scope : Scope)

/-- Whether a variable is supplied or declared. -/
def knows (name : String) : Bool :=
  (Dict.get? name scope.supplied).isSome || (scope.declared name).isSome

/-- The value of a variable: the supplied one before the default of the declaration. -/
def valueOf? (name : String) : Option Json :=
  (Dict.get? name scope.supplied).or ((scope.declared name).bind (·.default))

/-- The variables as the expansion looks them up. -/
def lookup : Lookup := Template.lookup scope.supplied fun name => (scope.declared name).map (·.default)

/-- A variable is looked up in two steps: whether it is known, and whether it has a value. -/
theorem lookup_eq (name : String) :
    scope.lookup name = if scope.knows name then some (scope.valueOf? name) else none := by
  unfold lookup Template.lookup knows valueOf?
  cases Dict.get? name scope.supplied with
  | some v => rfl
  | none => cases hdeclared : scope.declared name <;> simp [hdeclared]

end Scope

/-! ## Expressions -/

/-- The operator that an expression starts with. -/
def operatorOf (expression : List Char) : Operator :=
  (expression.head?.bind Operator.ofChar?).getD {}

/-- The variables of an expression, with what modifies them. -/
def variablesOf (expression : List Char) : List (List Char) :=
  (if (expression.head?.bind Operator.ofChar?).isSome then expression.tail else expression).splitOn ','

/-- The name of a variable: without the asterisks at its end, up to the first colon. -/
def nameOf (spec : List Char) : List Char := (spec.rdropWhile (· = '*')).takeWhile (· ≠ ':')

theorem variableName_eq (spec : List Char) : variableName spec = nameOf spec :=
  Text.cut_fst_eq_takeWhile ':' _

/-- An expression is its operator and the variables behind it. -/
theorem split_eq (expression : List Char) :
    Operator.split expression = (operatorOf expression,
      if (expression.head?.bind Operator.ofChar?).isSome then expression.tail else expression) := by
  cases expression with
  | nil => rfl
  | cons c rest =>
    unfold Operator.split operatorOf
    cases hop : Operator.ofChar? c <;> simp [hop]

/-- The text of a defined variable: its value, behind its name under an operator that names the variables. -/
def Operator.labelled (op : Operator) (name text : List Char) : List Char :=
  if op.named = false then text
  else if text = [] then name ++ op.ifEmpty
  else name ++ '=' :: text

theorem Operator.item_eq (op : Operator) : op.item = op.labelled := by
  funext name text
  cases hnamed : op.named <;> simp [item, labelled, hnamed]

namespace Scope

variable (scope : Scope)

/-- The text of a variable under an operator, if its value is defined. -/
def variableText? (op : Operator) (spec : List Char) : Option (List Char) :=
  ((scope.valueOf? (String.ofList (nameOf spec))).bind op.render).map (op.labelled (nameOf spec))

/-- The text of an expression: nothing if no variable is defined, else the texts of the defined ones in order. -/
def expressionText (expression : List Char) : List Char :=
  let op := operatorOf expression
  let texts := (variablesOf expression).filterMap (scope.variableText? op)
  if texts = [] then [] else op.first ++ op.separator.intercalate texts

/-- The variables that are neither supplied nor declared, in order. -/
def unresolved (specs : List (List Char)) : List Fault :=
  ((specs.map fun spec => String.ofList (nameOf spec)).filter fun name => !scope.knows name).map .unresolved

/-- What is wrong with an expression, from left to right. -/
def faults (expression : List Char) : List Fault :=
  if expression = [] then [.emptyExpression] else scope.unresolved (variablesOf expression)

/-- A variable contributes its text if it is known, and is a fault else. -/
theorem expandVariable_eq (op : Operator) (spec : List Char) :
    expandVariable scope.lookup op spec =
      if scope.knows (String.ofList (nameOf spec)) then .ok (scope.variableText? op spec)
      else .error (.unresolved (String.ofList (nameOf spec))) := by
  rw [expandVariable, variableName_eq, scope.lookup_eq, op.item_eq]
  by_cases hknown : scope.knows (String.ofList (nameOf spec)) = true
  · rw [if_pos hknown, if_pos hknown]
    rfl
  · rw [if_neg hknown, if_neg hknown]

end Scope

/-- A result, unless there are faults: then the first of them. -/
def verdict {α : Type} (faults : List Fault) (result : α) : Except Fault α :=
  match faults with
  | [] => .ok result
  | fault :: _ => .error fault

/-- Two results with their faults are one result with the faults of both. -/
theorem verdict_append (faults faults' : List Fault) (s t : List Char) :
    verdict (faults ++ faults') (s ++ t) =
      match verdict faults s with
      | .error fault => .error fault
      | .ok s => (verdict faults' t).map (s ++ ·) := by
  cases faults with
  | nil => cases faults' <;> rfl
  | cons fault rest => rfl

/-- The variables of an expression contribute their texts, or the first unknown one is the fault. -/
theorem mapM_expandVariable (scope : Scope) (op : Operator) (specs : List (List Char)) :
    specs.mapM (expandVariable scope.lookup op) =
      verdict (scope.unresolved specs) (specs.map (scope.variableText? op)) := by
  induction specs with
  | nil => rfl
  | cons spec rest ih =>
    rw [List.mapM_cons, ih, scope.expandVariable_eq]
    by_cases hknown : scope.knows (String.ofList (nameOf spec)) = true
    · have hskip : scope.unresolved (spec :: rest) = scope.unresolved rest := by
        simp [Scope.unresolved, hknown]
      rw [hskip, if_pos hknown]
      cases scope.unresolved rest <;> rfl
    · have hfirst : scope.unresolved (spec :: rest) =
          .unresolved (String.ofList (nameOf spec)) :: scope.unresolved rest := by
        simp [Scope.unresolved, hknown]
      rw [hfirst, if_neg hknown]
      rfl

/-- An expression is its text, unless one of its variables is unknown. -/
theorem expandExpression_eq (scope : Scope) {expression : List Char} (hne : expression ≠ []) :
    expandExpression scope.lookup expression =
      verdict (scope.faults expression) (scope.expressionText expression) := by
  have hmap := mapM_expandVariable scope (operatorOf expression) (variablesOf expression)
  have hitems : (operatorOf expression).items
      (((variablesOf expression).map (scope.variableText? (operatorOf expression))).filterMap id) =
        scope.expressionText expression := by
    rw [List.filterMap_map, Operator.items, Text.join_eq_intercalate]
    rfl
  unfold expandExpression
  rw [split_eq]
  simp only [Text.pieces_eq_splitOn]
  rw [← variablesOf, hmap, Scope.faults, if_neg hne]
  cases scope.unresolved (variablesOf expression) with
  | nil => exact congrArg Except.ok hitems
  | cons fault rest => rfl

/-! ## Templates -/

namespace Outline

variable (scope : Scope)

/-- What is wrong with a template, from left to right. -/
def faults (o : Outline) : List Fault :=
  o.segments.flatMap (fun s => scope.faults s.expression) ++ if o.unclosed.isSome then [.unterminated] else []

/-- The literals of a template with the texts of the expressions between them. -/
def text (o : Outline) : List Char :=
  o.segments.flatMap (fun s => s.literal ++ scope.expressionText s.expression) ++ o.last

end Outline

/-- The expansion of a segment and of what follows it. -/
theorem expandFrom_segment (scope : Scope) {s : Segment} (hliteral : '\x7b' ∉ s.literal)
    (hexpression : '\x7d' ∉ s.expression) (rest : List Char) :
    expandFrom scope.lookup (s.literal ++ '\x7b' :: (s.expression ++ '\x7d' :: rest)) =
      match verdict (scope.faults s.expression) (s.literal ++ scope.expressionText s.expression) with
      | .error fault => .error fault
      | .ok text => (expandFrom scope.lookup rest).map (text ++ ·) := by
  rw [expandFrom_of_cut _ (Text.cut_append_cons hliteral _), Text.cut_append_cons hexpression]
  obtain ⟨literal, expression⟩ := s
  cases expression with
  | nil => rfl
  | cons c expression =>
    simp only [expandExpression_eq scope (List.cons_ne_nil c expression)]
    cases scope.faults (c :: expression) <;> rfl

/-- A template expands to its text, unless something is wrong with it. -/
theorem expandFrom_source (scope : Scope) {o : Outline} (ho : o.WellFormed) :
    expandFrom scope.lookup o.source = verdict (o.faults scope) (o.text scope) := by
  obtain ⟨segments, last, unclosed⟩ := o
  induction segments with
  | nil =>
    cases unclosed with
    | none =>
      have hlast : Outline.source ⟨[], last, none⟩ = last := by simp [Outline.source]
      rw [hlast, expandFrom_of_no_brace scope.lookup ho.last]
      rfl
    | some rest =>
      have hclose : Text.cut '\x7d' rest = (rest, none) := Text.cut_of_not_mem (ho.unclosed rest rfl)
      rw [expandFrom_of_cut _ (Outline.cut_source_nil ho.last), hclose]
      rfl
  | cons s segments ih =>
    obtain ⟨hliteral, hexpression, hrest⟩ := Outline.wellFormed_cons_iff.1 ho
    have hfaults : Outline.faults scope ⟨s :: segments, last, unclosed⟩ =
        scope.faults s.expression ++ Outline.faults scope ⟨segments, last, unclosed⟩ := by
      simp [Outline.faults]
    have htext : Outline.text scope ⟨s :: segments, last, unclosed⟩ =
        (s.literal ++ scope.expressionText s.expression) ++ Outline.text scope ⟨segments, last, unclosed⟩ := by
      simp [Outline.text]
    rw [Outline.source_cons, expandFrom_segment scope hliteral hexpression, ih hrest, hfaults, htext,
      verdict_append]

/-! ## Values -/

namespace Operator

variable (op : Operator)

/-- The items that are defined keep their order. -/
theorem renderEach_eq (items : List Json) : op.renderEach items = items.filterMap op.render := by
  induction items with
  | nil => rfl
  | cons v rest ih =>
    rw [renderEach, List.filterMap_cons, ih]
    cases op.render v <;> rfl

/-- The text of an array is that of its defined items, with commas between them. -/
theorem render_arr {items : List Json} (hne : items ≠ []) :
    op.render (.arr items) = some ([','].intercalate (items.filterMap op.render)) := by
  cases items with
  | nil => exact absurd rfl hne
  | cons v rest => rw [render, renderEach_eq, Text.join_eq_intercalate]

/-- `null` and the empty array have no text; every other value has one. -/
theorem render_eq_none_iff {v : Json} : op.render v = none ↔ v = .null ∨ v = .arr [] := by
  cases v with
  | arr items => cases items <;> simp [render]
  | _ => simp [render]

end Operator

/-- A template is read in one way, from left to right. If something is wrong with it, the leftmost problem is
reported: an unknown variable, an empty expression or a brace that is never closed. Else the literals are copied
and every expression stands for its variables: those that are defined, in order, as its operator writes them.
Supplied values come before declared defaults; `null` and the empty array are undefined, and an undefined item of
an array is passed over as an undefined variable is. -/
theorem expand_eq_leftmost_or_text (supplied : Dict Json) (declared : String → Option DataSchema)
    (template : String) :
    (∃ o : Outline, (o.WellFormed ∧ o.source = template.toList ∧
        ∀ o' : Outline, o'.WellFormed → o'.source = template.toList → o' = o) ∧
      expand (lookup supplied fun name => (declared name).map (·.default)) template =
        match o.faults ⟨supplied, declared⟩ with
        | [] => .ok (String.ofList (o.text ⟨supplied, declared⟩))
        | fault :: _ => .error ⟨template, fault⟩) ∧
    (∀ (op : Operator) (v : Json), op.render v = none ↔ v = .null ∨ v = .arr []) ∧
    ∀ (op : Operator) (items : List Json), items ≠ [] →
      op.render (.arr items) = some ([','].intercalate (items.filterMap op.render)) := by
  refine ⟨?_, fun op v => op.render_eq_none_iff, fun op items => op.render_arr⟩
  obtain ⟨o, ho, hsource⟩ := exists_outline template.toList
  refine ⟨o, ⟨ho, hsource, fun o' ho' hsource' => outline_unique ho' ho (hsource'.trans hsource.symm)⟩, ?_⟩
  have hexpand : expandFrom (lookup supplied fun name => (declared name).map (·.default)) template.toList =
      verdict (o.faults ⟨supplied, declared⟩) (o.text ⟨supplied, declared⟩) := by
    rw [← hsource]
    exact expandFrom_source ⟨supplied, declared⟩ ho
  rw [expand, hexpand]
  cases o.faults ⟨supplied, declared⟩ <;> rfl

/-- An undefined value among the variables of an expression, and one among the items of an array. -/
theorem expand_passes_over_undefined :
    let supplied : Dict Json := [("x", .str "a b"), ("z", .arr [])]
    let items : List Json := [.num .zero, .null, .str ""]
    let declared : String → Option DataSchema := fun name =>
      if name = "y" then some { default := some (.arr items) } else none
    expand (lookup supplied fun name => (declared name).map (·.default)) "/\x7bx\x7d\x7b?x*,z,y:3\x7d" =
        .ok "/a%20b?x=a%20b&y=0," ∧
      ({} : Operator).render (.arr items) = some "0,".toList := by
  intro supplied items declared
  obtain ⟨⟨o, ⟨-, -, hunique⟩, hexpand⟩, -, harray⟩ :=
    expand_eq_leftmost_or_text supplied declared "/\x7bx\x7d\x7b?x*,z,y:3\x7d"
  obtain rfl : ⟨[⟨['/'], ['x']⟩, ⟨[], "?x*,z,y:3".toList⟩], [], none⟩ = o :=
    hunique _ ⟨by simp, by simp, by simp, by simp⟩ rfl
  exact ⟨hexpand.trans (by decide +kernel),
    (harray {} items (List.cons_ne_nil _ _)).trans (by decide +kernel)⟩

end Template
end WebOfThings
