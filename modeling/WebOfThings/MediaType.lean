import WebOfThings.Dict
import WebOfThings.Text.Blank
import WebOfThings.Text.Cut

/-!
# Media types

A media type is a base type such as `text/plain`, called its *essence*, with parameters after it. Blanks
around the parts do not matter, nor does the case of the essence and of the names of parameters.

`scan?` is the method `parse`: the text is cut at every semicolon, whatever stands between quotes. The first
piece has to be a type and a subtype with one slash between them and something on either side. Every further
piece that is not blank has to hold an equals sign with a name in front of it; the name is lowered, and from
its value the blanks and then the quotes around it are removed. A parameter that is given twice has its last
value.

Only ASCII letters are lowered. `param` takes the name of a parameter as it is, so an upper case name finds
nothing. The essence chooses the codec; the parameters are handed to it, and only the codec of plain text
looks at one of them, the charset.
-/

namespace WebOfThings

/-- A base type with parameters. -/
structure MediaType where
  essence : String
  params : Dict String
  deriving DecidableEq

namespace MediaType

/-- A text with its ASCII letters in lower case. -/
def lower (s : List Char) : List Char := s.map Char.toLower

/-- A string with its ASCII letters in lower case. -/
def lowerCase (s : String) : String := String.ofList (lower s.toList)

/-- Whether a text is a type and a subtype with a slash between them. -/
def isEssence (s : List Char) : Bool :=
  match Text.cut '/' s with
  | (type, some subtype) => type ≠ [] && subtype ≠ [] && !subtype.contains '/'
  | (_, none) => false

/-- The base type in front of the parameters. -/
def essence? (s : List Char) : Option (List Char) :=
  let essence := lower (Text.trim s)
  if isEssence essence then some essence else none

/-- The name and the value of a parameter. Quotes around the value do not belong to it. -/
def param? (s : List Char) : Option (String × String) :=
  match Text.cut '=' s with
  | (_, none) => none
  | (name, some value) =>
    let name := lower (Text.trim name)
    if name = [] then none
    else
      let value := Text.trimBoth (fun c => c = '"') (Text.trim value)
      some (String.ofList name, String.ofList value)

/-- The media type of a list of characters; parameters that are blank are skipped, and of two
parameters with one name the last one counts. -/
def scan? (s : List Char) : Option MediaType :=
  match Text.pieces ';' s with
  | [] => none
  | head :: rest => do
    let essence ← essence? head
    let params ← (rest.filter fun p => !(Text.trim p).isEmpty).mapM param?
    return ⟨String.ofList essence, Dict.ofList params⟩

/-- The media type that a text names. -/
def ofString? (s : String) : Option MediaType := scan? s.toList

/-- The value of a parameter, whose name is taken as it is. -/
def param (m : MediaType) (name : String) : Option String := Dict.get? name m.params

end MediaType
end WebOfThings
