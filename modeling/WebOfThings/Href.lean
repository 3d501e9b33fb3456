import WebOfThings.Text.Blank
import WebOfThings.Text.Cut

/-!
# Hrefs

An href is absolute if it starts with a URI scheme and a colon. A relative href is joined to a base with
exactly one slash between the two.

`scheme?` is `scheme_of`: what stands before the first colon, provided that it is a letter followed by
letters, digits and the three marks `+`, `-` and `.`. Only the first colon counts: where a slash or a blank
stands in front of it the href is relative, whatever follows. Nothing is lowered here; forms and hosts
compare schemes in lower case.

`resolve` is `resolve_href`. An absolute href is left alone, and so is every href without a base. Otherwise
the slashes at the end of the base and those at the start of the href are dropped before the two are joined,
and an href that is nothing but slashes gives the base without its own. No other part of the base is looked
at: a query or a last segment of the path stays.

Main statements: `resolve_of_absolute` (an absolute href is left alone) and `join_slashes` (however many
slashes stand between, one is left).
-/

namespace WebOfThings.Href

/-- Whether a character may stand in a URI scheme after the first one. -/
def isSchemeChar (c : Char) : Bool :=
  c.isAlphanum || c = '+' || c = '-' || c = '.'

/-- Whether a text is a URI scheme: a letter, then letters, digits and the signs `+`, `-` and `.`. -/
def isScheme : List Char → Bool
  | [] => false
  | c :: rest => c.isAlpha && rest.all isSchemeChar

/-- The scheme of a list of characters. -/
def scanScheme? (s : List Char) : Option (List Char) :=
  match Text.cut ':' s with
  | (_, none) => none
  | (scheme, some _) => if isScheme scheme then some scheme else none

/-- The scheme of an absolute href, none for a relative one. -/
def scheme? (href : String) : Option String := (scanScheme? href.toList).map String.ofList

/-- A base and a relative href with one slash between them, and none after the base alone. -/
def join (base href : List Char) : List Char :=
  let base := Text.trimEnd (fun c => c = '/') base
  let href := Text.trimStart (fun c => c = '/') href
  if href = [] then base else base ++ '/' :: href

/-- The href as seen from a base. -/
def resolve (base : Option String) (href : String) : String :=
  match base with
  | none => href
  | some base =>
    if (scheme? href).isSome then href else String.ofList (join base.toList href.toList)

/-- An href with a scheme of its own is not changed by a base. -/
theorem resolve_of_absolute {href : String} (h : (scheme? href).isSome = true)
    (base : Option String) : resolve base href = href := by
  cases base <;> simp [resolve, h]

/-- Further slashes do not matter where the base and the href meet. -/
theorem join_slashes (base href : List Char) (m n : Nat) :
    join (base ++ List.replicate m '/') (List.replicate n '/' ++ href) = join base href := by
  have hslash : ∀ k, ∀ c ∈ List.replicate k '/', decide (c = '/') = true := fun k c hc =>
    decide_eq_true (List.eq_of_mem_replicate hc)
  simp only [join, Text.trimEnd_append (hslash m), Text.trimStart_append (hslash n)]

end WebOfThings.Href
