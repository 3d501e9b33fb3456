import WebOfThings.Proofs.Href
import WebOfThings.Proofs.Remote.Stages
import WebOfThings.Proofs.Template.Expansion

/-!
# The scheme of a request

The client of a request is chosen by the scheme of the href before its template is expanded, and the request
goes to the href after. The two agree: no brace may stand in a scheme, so the first expression of an
absolute href is behind the first colon, and the expansion leaves everything up to that colon alone
(`Template.expandFrom_append`). What is put in for the variables, escaped or not, comes too late to matter.
`Remote.dispatch_scheme` says so of whole requests.

The base of the thing and the href of the form are templates, and their variables may be supplied by whoever
asks, so a value with a scheme of its own would be a request to another place. The proof shows that it
cannot come to that: what stands in front of the first colon has no brace, because `isSchemeChar` knows
none, and the first expression is behind it. `dispatch_door` is the case that the example turns on, a path
that starts with a scheme.
-/

namespace WebOfThings

/-! ## Expansion behind a scheme -/

namespace Template

/-- The scheme of a template is the scheme of the text that it expands to, whatever the values. -/
theorem scheme?_of_expand {value? : Lookup} {template out scheme : String}
    (hscheme : Href.scheme? template = some scheme) (hout : expand value? template = .ok out) :
    Href.scheme? out = some scheme := by
  obtain ⟨chars, hchars, rfl⟩ := Option.map_eq_some_iff.1 hscheme
  obtain ⟨hvalid, after, htemplate⟩ := Href.scanScheme?_eq_some_iff.1 hchars
  have hbrace : '\x7b' ∉ chars ++ [':'] := by
    simp [Href.not_mem_of_isScheme hvalid (d := '\x7b') (by decide)]
  have happend := expandFrom_append value? hbrace after
  rw [List.append_assoc, List.singleton_append, ← htemplate] at happend
  rw [expand, happend] at hout
  cases htail : expandFrom value? after with
  | error fault =>
    rw [htail] at hout
    cases hout
  | ok tail =>
    rw [htail] at hout
    cases hout
    rw [Href.scheme?, Option.map_eq_some_iff]
    refine ⟨chars, Href.scanScheme?_eq_some_iff.2 ⟨hvalid, tail, ?_⟩, rfl⟩
    simp

end Template

variable {ω : Type}

/-- The factory that is found for a scheme was registered for it. -/
theorem mem_of_factoryFor? {registered : List (ClientFactory ω)} {scheme : String}
    {factory : ClientFactory ω} (hfactory : factoryFor? registered scheme = some factory) :
    factory ∈ registered ∧ MediaType.lowerCase factory.scheme = MediaType.lowerCase scheme := by
  have hmem := List.mem_of_find?_eq_some hfactory
  have hscheme := List.find?_some hfactory
  exact ⟨List.mem_reverse.1 hmem, of_decide_eq_true hscheme⟩

namespace Remote

/-! ## Requests -/

/-- What is handed to the client was ready. -/
theorem ready_of_dispatch {h : Host ω} {t : Thing} {target : Target} {options : InteractionOptions}
    {w : ω} {p : Prepared ω} (hp : (dispatch h t target options w).1 = .ok p) :
    ∃ i f scheme, Ready h t target options i f scheme p := by
  rw [← prepare_eq_ok_iff]
  unfold dispatch at hp
  split at hp
  · cases hp
  · next q hq =>
    split at hp
    · cases hp
      exact hq
    · cases hp

/-- The request has the scheme that was seen before the expansion. -/
theorem Ready.scheme {h : Host ω} {t : Thing} {target : Target} {options : InteractionOptions}
    {i : Interaction} {f : Form} {scheme : String} {p : Prepared ω}
    (hr : Ready h t target options i f scheme p) : Href.scheme? p.form.href = some scheme :=
  Template.scheme?_of_expand hr.absolute hr.href

/-- Requests through the same choice of forms have the same scheme and the same client. -/
theorem Ready.same_client {h : Host ω} {t : Thing} {target : Target} {options options' : InteractionOptions}
    {i i' : Interaction} {f f' : Form} {scheme scheme' : String} {p p' : Prepared ω}
    (hr : Ready h t target options i f scheme p) (hr' : Ready h t target options' i' f' scheme' p')
    (hindex : options'.formIndex = options.formIndex) : scheme' = scheme ∧ p'.client = p.client := by
  have hi := hr.uses.affordance
  rw [hr'.uses.affordance] at hi
  cases hi
  -- The choice of the form does not look at anything else that the caller supplies.
  obtain ⟨_, factory, -, -, hs⟩ := select_of_uses hr.uses
  obtain ⟨_, factory', -, -, hs'⟩ := select_of_uses hr'.uses
  rw [hindex, hs] at hs'
  cases hs'
  have hscheme := hr.absolute
  rw [hr'.absolute] at hscheme
  cases hscheme
  have hclient := hr.client
  rw [hr'.client] at hclient
  exact ⟨rfl, Option.some.inj hclient⟩

/-- A request goes to the client of its own scheme: the form handed to the client is one of the affordance
with an absolute href in its place, the scheme of that href is the one seen before the expansion, and the
client comes from the factory registered last for it. Whatever else the caller supplies, a request through the
same choice of forms has the same scheme and the same client. -/
theorem dispatch_scheme (h : Host ω) (registered : List (ClientFactory ω)) (t : Thing) (target : Target)
    (options : InteractionOptions) (w : ω) {p : Prepared ω}
    (hp : (dispatch (h.withFactories registered) t target options w).1 = .ok p) :
    (∃ i f scheme factory, t.interaction? target.type target.name = some i ∧ f ∈ i.forms ∧
      p.form = { f with href := p.form.href } ∧
      PlacedForm.scheme? ⟨f, t⟩ = some scheme ∧
      (Href.scheme? p.form.href).map MediaType.lowerCase = some scheme ∧
      factoryFor? registered scheme = some factory ∧
      factory ∈ registered ∧ MediaType.lowerCase factory.scheme = scheme ∧
      p.client = factory.client) ∧
    ∀ (options' : InteractionOptions) (w' : ω) (p' : Prepared ω),
      options'.formIndex = options.formIndex →
      (dispatch (h.withFactories registered) t target options' w').1 = .ok p' →
      Href.scheme? p'.form.href = Href.scheme? p.form.href ∧ p'.client = p.client := by
  obtain ⟨i, f, scheme, hr⟩ := ready_of_dispatch hp
  refine ⟨?_, ?_⟩
  · obtain ⟨place, hchosen⟩ := hr.uses.chosen
    obtain ⟨factory, hfactory, hclient⟩ := Option.map_eq_some_iff.1 hr.client
    have hlower : factoryFor? registered (MediaType.lowerCase scheme) = some factory := by
      rw [← h.factory?_withFactories, Host.factory?_lowerCase]
      exact hfactory
    obtain ⟨hmem, hsame⟩ := mem_of_factoryFor? hlower
    rw [MediaType.lowerCase_lowerCase] at hsame
    refine ⟨i, f, MediaType.lowerCase scheme, factory, hr.uses.affordance,
      List.mem_of_getElem? hchosen.here, hr.form, ?_, ?_, hlower, hmem, hsame, hclient.symm⟩
    · rw [PlacedForm.scheme?, hr.absolute, Option.map_some]
    · rw [hr.scheme, Option.map_some]
  · -- The choice of the form reads nothing of the options but the index.
    intro options' w' p' hindex hp'
    obtain ⟨i', f', scheme', hr'⟩ := ready_of_dispatch hp'
    obtain ⟨hscheme, hclient⟩ := hr.same_client hr' hindex
    rw [hr.scheme, hr'.scheme, hscheme]
    exact ⟨rfl, hclient⟩

/-- A door whose form leaves the whole path to the caller. -/
def door : Thing where
  id := "urn:door"
  base := some "Http://door/"
  properties := [("open", { interaction := { forms := [{ href := "\x7b+path\x7d" }] } })]

/-- The caller of the door supplies a path. -/
def doorOptions (path : String) : InteractionOptions := { uriVariables := [("path", .str path)] }

/-- The path that the caller supplies stands behind the scheme and the host. -/
theorem expand_door (declared : String → Option (Option Json)) (path : String) :
    Template.expand (Template.lookup [("path", .str path)] declared) "Http://door/\x7b+path\x7d" =
      .ok ("Http://door/" ++ path) := by
  have hcut : Text.cut '\x7b' "Http://door/\x7b+path\x7d".toList =
      ("Http://door/".toList, some "+path\x7d".toList) := by decide
  have hend : Template.expandFrom (Template.lookup [("path", .str path)] declared) [] = .ok [] :=
    Template.expandFrom_of_no_brace _ List.not_mem_nil
  have hvalue : Template.expandExpression (Template.lookup [("path", .str path)] declared)
      ['+', 'p', 'a', 't', 'h'] = .ok path.toList := rfl
  rw [Template.expand, Template.expandFrom_of_cut _ hcut]
  have hclose : Text.cut '\x7d' "+path\x7d".toList = (['+', 'p', 'a', 't', 'h'], some []) := by decide
  rw [hclose]
  simp only [hvalue, hend]
  exact congrArg Except.ok (String.toList_inj.1 (by simp))

/-- The request that goes to the door for a path. -/
def doorRequest (path : String) : Prepared Unit where
  client := idleClient
  form := { href := "Http://door/" ++ path }
  schemes := []
  credentials := none

/-- The request for the door goes to the host of the door. -/
theorem dispatch_door (path : String) :
    (dispatch (({} : Host Unit).withFactories [idleFactory]) door ⟨.property, "open", .readProperty⟩
      (doorOptions path) ()).1 = .ok (doorRequest path) := by
  have hs : select (({} : Host Unit).withFactories [idleFactory]) door ⟨.property, "open", .readProperty⟩
      { forms := [{ href := "\x7b+path\x7d" }] } none = .ok ({ href := "\x7b+path\x7d" }, idleFactory) := by
    rfl
  rw [dispatch_of_select_ok () (by rfl) hs]
  have hhref : PlacedForm.href ⟨{ href := "\x7b+path\x7d" }, door⟩ = "Http://door/\x7b+path\x7d" := by
    decide
  have hform : PlacedForm.resolve ⟨{ href := "\x7b+path\x7d" }, door⟩ [] [("path", .str path)] =
      .ok { href := "Http://door/" ++ path } := by
    rw [PlacedForm.resolve, hhref, PlacedForm.variableValues, expand_door]
  show (attempt _ door [] [("path", .str path)] _ idleClient ()).1 = _
  rw [attempt, complete, hform]
  rfl

/-- Two callers of the door: what the first one supplies for the path looks like an URL of another scheme. -/
theorem dispatch_scheme_door :
    (dispatch (({} : Host Unit).withFactories [idleFactory]) door ⟨.property, "open", .readProperty⟩
        (doorOptions "ftp://garden/") ()).1 = .ok (doorRequest "ftp://garden/") ∧
      Href.scheme? "Http://door/ftp://garden/" = some "Http" ∧
      Href.scheme? "Http://door/" = Href.scheme? "Http://door/ftp://garden/" := by
  have hfirst := dispatch_door "ftp://garden/"
  have hsecond := dispatch_door ""
  obtain ⟨-, hother⟩ := dispatch_scheme {} [idleFactory] door ⟨.property, "open", .readProperty⟩
    (doorOptions "ftp://garden/") () hfirst
  obtain ⟨hscheme, -⟩ := hother (doorOptions "") () (doorRequest "") rfl hsecond
  exact ⟨hfirst, by decide, hscheme⟩

end Remote
end WebOfThings
