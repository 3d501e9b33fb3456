import WebOfThings.Json.Printer
import WebOfThings.Text.Blank
import WebOfThings.Text.Cut
import WebOfThings.Text.Percent

/-!
# URI templates

A template is text with expressions between braces. An expression may start with an operator, which says how
its variables are joined and whether reserved characters stay; then come the variables, separated by commas.
What a variable stands for is copied and never read as template again.

`expandFrom` is the loop of `expand_uri_template`: it copies the text up to the next opening brace, takes
the expression up to the next closing one, and goes on behind it. The two faults of the text itself, an
expression without an end and an empty one, carry no position; a variable that is neither supplied nor
declared is named. The first fault from the left is the one that is reported.

`render` and `Operator` follow the functions of the same names. `null` and the empty array are undefined and
leave no trace, not even a separator. Texts are percent-encoded unless the operator keeps reserved
characters; truth values and numbers are written as they are in JSON. Of a variable that is declared and not
supplied the default of its schema is taken, if it has one. Modifiers (`*` and `:3`) are dropped from the
name and have no effect.

Main statements: `expandFrom_of_no_brace` and `expand_of_no_brace` (a text without an opening brace stands
for itself).
-/

namespace WebOfThings.Template

/-- What is wrong with a template. -/
inductive Fault where
  /-- A variable is neither supplied nor declared. -/
  | unresolved (name : String)
  /-- An opening brace has no closing one. -/
  | unterminated
  /-- There is nothing between two braces. -/
  | emptyExpression
  deriving DecidableEq

/-- A template with what is wrong with it. -/
structure Error where
  template : String
  fault : Fault
  deriving DecidableEq

/-- The wording of the error. -/
def Error.message (e : Error) : String :=
  match e.fault with
  | .unresolved v =>
    "URI variable \"" ++ v ++ "\" in \"" ++ e.template ++ "\" is neither supplied nor declared"
  | .unterminated => "Unterminated template expression in \"" ++ e.template ++ "\""
  | .emptyExpression => "Empty template expression in \"" ++ e.template ++ "\""

/-- How the variables of an expression are written. -/
structure Operator where
  /-- What stands in front of the first value. -/
  first : List Char := []
  /-- What stands between two values. -/
  separator : List Char := [',']
  /-- Whether the name of a variable stands in front of its value. -/
  named : Bool := false
  /-- What follows the name of a variable whose value is empty. -/
  ifEmpty : List Char := []
  /-- Whether reserved characters are left as they are. -/
  allowReserved : Bool := false

namespace Operator

/-- The operator of a character, if it is one. -/
def ofChar? : Char → Option Operator
  | '+' => some { allowReserved := true }
  | '#' => some { first := ['#'], allowReserved := true }
  | '.' => some { first := ['.'], separator := ['.'] }
  | '/' => some { first := ['/'], separator := ['/'] }
  | ';' => some { first := [';'], separator := [';'], named := true }
  | '?' => some { first := ['?'], separator := ['&'], named := true, ifEmpty := ['='] }
  | '&' => some { first := ['&'], separator := ['&'], named := true, ifEmpty := ['='] }
  | _ => none

/-- The operator of an expression, and its variables. -/
def split : List Char → Operator × List Char
  | [] => ({}, [])
  | c :: rest =>
    match ofChar? c with
    | some op => (op, rest)
    | none => ({}, c :: rest)

/-- A text under an operator. -/
def encode (op : Operator) (s : String) : List Char :=
  if op.allowReserved then s.toList else Text.percentEncode s

mutual

/-- A value under an operator; `null` and the empty array are undefined. -/
def render (op : Operator) : Json → Option (List Char)
  | .null => none
  | .bool b => some (Json.bool b).render
  | .num n => some n.text
  | .str s => some (op.encode s)
  | .arr [] => none
  | .arr (v :: rest) => some (Text.join [','] (op.renderEach (v :: rest)))
  | .obj members => some (op.encode (Json.obj members).text)

/-- The items that are defined. -/
def renderEach (op : Operator) : List Json → List (List Char)
  | [] => []
  | v :: rest =>
    match op.render v with
    | some s => s :: op.renderEach rest
    | none => op.renderEach rest

end

/-- The text of a variable. -/
def item (op : Operator) (name value : List Char) : List Char :=
  if op.named then
    if value = [] then name ++ op.ifEmpty else name ++ '=' :: value
  else value

/-- The text of the variables of an expression. -/
def items (op : Operator) (texts : List (List Char)) : List Char :=
  if texts = [] then [] else op.first ++ Text.join op.separator texts

end Operator

/-- The name of a variable, without the modifiers that may follow it. -/
def variableName (spec : List Char) : List Char :=
  (Text.cut ':' (Text.trimEnd (fun c => c = '*') spec)).1

/-- The value of a variable: `none` if nothing is known of it, `some none` if it is declared but has
no value. -/
abbrev Lookup := String → Option (Option Json)

/-- The variables with these names: the supplied value comes first, then the declared one. -/
def lookup (supplied : Dict Json) (declared : String → Option (Option Json)) : Lookup :=
  fun name =>
    match Dict.get? name supplied with
    | some v => some (some v)
    | none => declared name

/-- The text that one variable of an expression contributes, if its value is defined. -/
def expandVariable (value? : Lookup) (op : Operator) (spec : List Char) :
    Except Fault (Option (List Char)) :=
  let name := variableName spec
  match value? (String.ofList name) with
  | none => .error (.unresolved (String.ofList name))
  | some v => .ok ((v.bind op.render).map (op.item name))

/-- The text of the expression between two braces. -/
def expandExpression (value? : Lookup) (expression : List Char) : Except Fault (List Char) :=
  let (op, names) := Operator.split expression
  match (Text.pieces ',' names).mapM (expandVariable value? op) with
  | .error e => .error e
  | .ok texts => .ok (op.items (texts.filterMap id))

/-- What follows a separator is shorter than the text. -/
theorem length_lt_of_cut {sep : Char} {s before after : List Char}
    (h : Text.cut sep s = (before, some after)) : after.length < s.length := by
  rw [Text.cut_eq_some h]
  simp only [List.length_append, List.length_cons]
  omega

/-- The text of a template from some place on. -/
def expandFrom (value? : Lookup) (s : List Char) : Except Fault (List Char) :=
  match _h : Text.cut '\x7b' s with
  | (before, none) => .ok before
  | (before, some after) =>
    match _h' : Text.cut '\x7d' after with
    | (_, none) => .error .unterminated
    | ([], some _) => .error .emptyExpression
    | (c :: expression, some rest) =>
      match expandExpression value? (c :: expression) with
      | .error e => .error e
      | .ok text =>
        match expandFrom value? rest with
        | .error e => .error e
        | .ok tail => .ok (before ++ text ++ tail)
termination_by s.length
decreasing_by exact Nat.lt_trans (length_lt_of_cut _h') (length_lt_of_cut _h)

/-- The text of a template. -/
def expand (value? : Lookup) (template : String) : Except Error String :=
  match expandFrom value? template.toList with
  | .ok s => .ok (String.ofList s)
  | .error fault => .error ⟨template, fault⟩

/-- A text without an opening brace stands for itself. -/
theorem expandFrom_of_no_brace (value? : Lookup) {s : List Char} (h : '\x7b' ∉ s) :
    expandFrom value? s = .ok s := by
  rw [expandFrom]
  split
  · next before heq =>
    rw [Text.cut_of_not_mem h] at heq
    cases heq
    rfl
  · next before after heq =>
    rw [Text.cut_of_not_mem h] at heq
    cases heq

/-- A template without braces expands to itself. -/
theorem expand_of_no_brace (value? : Lookup) {template : String} (h : '\x7b' ∉ template.toList) :
    expand value? template = .ok template := by
  rw [expand, expandFrom_of_no_brace value? h]
  exact congrArg Except.ok String.ofList_toList

end WebOfThings.Template
