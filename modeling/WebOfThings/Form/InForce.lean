import WebOfThings.Href
import WebOfThings.MediaType
import WebOfThings.Template
import WebOfThings.Thing.Basic

/-!
# Forms in force

A form says only what is special to it. Seen in its thing (`PlacedForm`, the program's `AugmentedForm`), its
href is made absolute with the base of the thing, its security is that of the thing unless it has its own,
and the variables in its href may be declared by the affordance or by the thing.

An own security list replaces that of the thing, and an empty one is an own list: such a form needs no
security. Names without a definition are an error, of the first of them, with the id of the thing.

`resolve` expands the absolute href, not the relative one, so a template in the base is expanded as well. A
supplied value goes before the declared default, and the variables of the affordance before those of the
thing. What comes out is a form that stands on its own, the only kind a client ever receives; the form in
the description is left as it is.
-/

namespace WebOfThings

/-- What a caller may say about one interaction. -/
structure InteractionOptions where
  /-- The form to use, instead of the first suitable one. -/
  formIndex : Option Nat := none
  /-- Values of the variables in the href. -/
  uriVariables : Dict Json := []
  /-- Further data for handlers of a local thing. -/
  data : Option Json := none

/-- A name in a security list that has no definition. -/
structure UndeclaredSecurity where
  thing : String
  name : String
  deriving DecidableEq

/-- The wording of the error. -/
def UndeclaredSecurity.message (e : UndeclaredSecurity) : String :=
  "Security definition \"" ++ e.name ++ "\" used by \"" ++ e.thing ++ "\" is not declared"

/-- A form in the thing that it belongs to. -/
structure PlacedForm where
  form : Form
  thing : Thing

namespace PlacedForm

/-- The href made absolute, with its expressions left alone. -/
def href (p : PlacedForm) : String := Href.resolve p.thing.base p.form.href

/-- The scheme of the href in lower case, if it is absolute. -/
def scheme? (p : PlacedForm) : Option String := (Href.scheme? p.href).map MediaType.lowerCase

/-- The names of the security definitions in force. -/
def securityNames (p : PlacedForm) : List String := p.form.security.getD p.thing.security

/-- The security schemes in force, in the order of their names. -/
def schemes (p : PlacedForm) : Except UndeclaredSecurity (List SecurityScheme) :=
  p.securityNames.mapM fun name =>
    match Dict.get? name p.thing.securityDefinitions with
    | some s => .ok s
    | none => .error ⟨p.thing.id, name⟩

/-- The values of the variables of the href: supplied, else declared by the affordance, else by the thing. -/
def variableValues (p : PlacedForm) (declared : Dict DataSchema) (supplied : Dict Json) :
    Template.Lookup :=
  Template.lookup supplied fun name =>
    ((Dict.get? name declared).or (Dict.get? name p.thing.uriVariables)).map (·.default)

/-- The form on its own: with an absolute href in which nothing is left to expand. -/
def resolve (p : PlacedForm) (declared : Dict DataSchema) (supplied : Dict Json) :
    Except Template.Error Form :=
  match Template.expand (p.variableValues declared supplied) p.href with
  | .ok href => .ok { p.form with href }
  | .error e => .error e

end PlacedForm

/-- A form of a thing: of one of its affordances, or of the thing as a whole. -/
def Thing.form? (t : Thing) (place : Option (AffordanceType × String)) (index : Nat) :
    Option PlacedForm :=
  ((t.formsOf? place).bind (·[index]?)).map (⟨·, t⟩)

end WebOfThings
