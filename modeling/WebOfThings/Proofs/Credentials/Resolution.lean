import Mathlib.Data.List.Infix
import WebOfThings.Credentials
import WebOfThings.Proofs.Dict

/-!
# The secret that serves an interaction

Of the keys of a store that are for an href, one goes before all others (`Foremost`): the longest one, of
several the smallest one. The secret under it serves the interaction, and only where no key is for the href
does the one under the id of the thing (`Serves`). Since this says nothing about the place of an entry in
the store, neither the order of the entries nor those under other keys matter.

The first security scheme alone decides what becomes of the secret that serves: `resolve_foremost`.

`find_for_href` walks through a store whose order is not determined, so its result has to be a choice that
does not depend on it. `precedes` is a strict order on keys in which any two different keys can be compared,
and the foremost of some entries is least in it (`foremost?_spec`); two descriptions of the same store
therefore give the same answer. The rest of `resolve_credentials` is a case distinction on the first scheme:
whether it needs a secret, and of which kind.
-/

namespace WebOfThings

namespace CredentialStore

/-! ## Keys for an href -/

/-- One text occurs in another if it is a part of it. -/
theorem occursIn_iff_isInfix {part text : List Char} : occursIn part text = true ↔ part <:+: text := by
  induction text with
  | nil => simp [occursIn]
  | cons c rest ih => simp [occursIn, ih, List.infix_cons_iff]

/-- A key is for an href: it is not empty, and stands somewhere in the href. -/
def Fits (key href : String) : Prop := key ≠ "" ∧ key.toList <:+: href.toList

theorem isFor_iff_fits {key href : String} : isFor key href = true ↔ Fits key href := by
  simp [isFor, Fits, occursIn_iff_isInfix]

/-- An entry of a store comes first for an href: no key that is for the href is longer in bytes, and none that
is equally long is smaller. -/
structure Foremost (store : CredentialStore) (href key : String) (c : Credentials) : Prop where
  stored : (key, c) ∈ store
  fits : Fits key href
  longest : ∀ e ∈ store, Fits e.1 href → e.1.utf8ByteSize ≤ key.utf8ByteSize
  smallest : ∀ e ∈ store, Fits e.1 href → e.1.utf8ByteSize = key.utf8ByteSize → key ≤ e.1

/-- The secret that serves an href: the one under the foremost key or, where no key is for the href, the one
under the id of the thing. -/
def Serves (store : CredentialStore) (href : String) (thing : Option String) (c : Credentials) : Prop :=
  (∃ key, Foremost store href key c) ∨
    (∀ e ∈ store, ¬ Fits e.1 href) ∧ ∃ id, thing = some id ∧ (id, c) ∈ store

/-! ## The order of keys -/

/-- A key that is not preceded is longer, or as long and no later. -/
theorem precedes_eq_false_iff {key other : String} :
    precedes other key = false ↔
      other.utf8ByteSize ≤ key.utf8ByteSize ∧ (other.utf8ByteSize = key.utf8ByteSize → key ≤ other) := by
  simp only [precedes, Bool.or_eq_false_iff, decide_eq_false_iff_not, Bool.and_eq_false_iff,
    beq_eq_false_iff_ne, String.not_lt, Nat.not_lt, eq_comm (a := other.utf8ByteSize)]
  exact and_congr_right fun _ => Decidable.imp_iff_not_or.symm

theorem precedes_irrefl (key : String) : precedes key key = false := by
  simp [precedes_eq_false_iff]

/-- Of two keys at most one precedes the other. -/
theorem precedes_asymm {key other : String} (h : precedes key other = true) :
    precedes other key = false := by
  simp only [precedes, Bool.or_eq_true, decide_eq_true_eq, Bool.and_eq_true, beq_iff_eq] at h
  rw [precedes_eq_false_iff]
  rcases h with h | ⟨hsize, hlt⟩
  · exact ⟨Nat.le_of_lt h, fun heq => absurd heq (Nat.ne_of_lt h)⟩
  · exact ⟨Nat.le_of_eq hsize, fun _ => Std.le_of_lt hlt⟩

/-- Not to go before a key is to follow it, or to be that key, and so transitive. -/
theorem precedes_eq_false_trans {a b c : String} (hba : precedes b a = false)
    (hcb : precedes c b = false) : precedes c a = false := by
  rw [precedes_eq_false_iff] at *
  obtain ⟨hba, hba'⟩ := hba
  obtain ⟨hcb, hcb'⟩ := hcb
  refine ⟨Nat.le_trans hcb hba, fun heq => ?_⟩
  exact String.le_trans (hba' (by omega)) (hcb' (by omega))

/-! ## The foremost entry -/

/-- There is a foremost one of any entries. -/
theorem foremost?_eq_none_iff {entries : List (String × Credentials)} :
    foremost? entries = none ↔ entries = [] := by
  cases entries with
  | nil => simp [foremost?]
  | cons e rest =>
    rw [foremost?]
    cases foremost? rest with
    | none => simp
    | some best => by_cases h : precedes best.1 e.1 = true <;> simp [h]

/-- No entry has a key that goes before that of the foremost one. -/
theorem foremost?_spec {entries : List (String × Credentials)} {best : String × Credentials}
    (h : foremost? entries = some best) :
    best ∈ entries ∧ ∀ e ∈ entries, precedes e.1 best.1 = false := by
  induction entries generalizing best with
  | nil => cases h
  | cons e rest ih =>
    rw [foremost?] at h
    cases hrest : foremost? rest with
    | none =>
      rw [hrest] at h
      cases h
      rw [foremost?_eq_none_iff.1 hrest]
      simp [precedes_irrefl]
    | some other =>
      obtain ⟨hmem, hother⟩ := ih hrest
      simp only [hrest] at h
      split at h
      · next hbefore =>
        -- The foremost of the rest stays in front.
        cases h
        exact ⟨List.mem_cons_of_mem _ hmem,
          List.forall_mem_cons.2 ⟨precedes_asymm hbefore, hother⟩⟩
      · next hbefore =>
        -- The first entry takes its place: whatever does not go before that one does not go before it.
        cases h
        refine ⟨List.mem_cons_self, List.forall_mem_cons.2 ⟨precedes_irrefl _, fun x hx => ?_⟩⟩
        exact precedes_eq_false_trans (by simpa using hbefore) (hother x hx)

section

variable {store : CredentialStore} {href : String}

theorem findForHref?_eq_none_iff : store.findForHref? href = none ↔ ∀ e ∈ store, ¬ Fits e.1 href := by
  simp [findForHref?, foremost?_eq_none_iff, List.filter_eq_nil_iff, isFor_iff_fits]

/-- What is found for an href is under the foremost key. -/
theorem exists_foremost_of_findForHref? {c : Credentials} (h : store.findForHref? href = some c) :
    ∃ key, Foremost store href key c := by
  obtain ⟨⟨key, c'⟩, hbest, rfl⟩ := Option.map_eq_some_iff.1 h
  obtain ⟨hmem, hfirst⟩ := foremost?_spec hbest
  obtain ⟨hstored, hfits⟩ := List.mem_filter.1 hmem
  have hothers : ∀ e ∈ store, Fits e.1 href → precedes e.1 key = false := fun e he hfit =>
    hfirst e (List.mem_filter.2 ⟨he, isFor_iff_fits.2 hfit⟩)
  exact ⟨key, hstored, isFor_iff_fits.1 hfits,
    fun e he hfit => (precedes_eq_false_iff.1 (hothers e he hfit)).1,
    fun e he hfit => (precedes_eq_false_iff.1 (hothers e he hfit)).2⟩

/-- There is one foremost key. -/
theorem Foremost.key_eq {key key' : String} {c c' : Credentials} (h : Foremost store href key c)
    (h' : Foremost store href key' c') : key = key' := by
  have hsize : key.utf8ByteSize = key'.utf8ByteSize :=
    Nat.le_antisymm (h'.longest _ h.stored h.fits) (h.longest _ h'.stored h'.fits)
  exact String.le_antisymm (h.smallest _ h'.stored h'.fits hsize.symm)
    (h'.smallest _ h.stored h.fits hsize)

/-- The secret for an href is the one under the foremost key. -/
theorem findForHref?_eq_some_iff (hkeys : (Dict.keys store).Nodup) {c : Credentials} :
    store.findForHref? href = some c ↔ ∃ key, Foremost store href key c := by
  refine ⟨exists_foremost_of_findForHref?, fun ⟨key, hkey⟩ => ?_⟩
  cases hfind : store.findForHref? href with
  | none => exact absurd hkey.fits (findForHref?_eq_none_iff.1 hfind _ hkey.stored)
  | some c' =>
    -- Both stand under the one foremost key.
    obtain ⟨key', hkey'⟩ := exists_foremost_of_findForHref? hfind
    have hc := (Dict.get?_eq_some_iff_mem hkeys).2 hkey.stored
    have hc' := (Dict.get?_eq_some_iff_mem hkeys).2 hkey'.stored
    rw [hkey.key_eq hkey', hc'] at hc
    exact hc

end

/-! ## The secret that serves -/

/-- The secret that is handed over if the first scheme needs one. -/
def serving? (store : CredentialStore) (href : String) (thing : Option String) : Option Credentials :=
  (store.findForHref? href).or (thing.bind (Dict.get? · store))

section

variable {store store' : CredentialStore} {href : String} {thing : Option String}

/-- The secret that is looked up is the one that serves. -/
theorem serving?_eq_some_iff (hkeys : (Dict.keys store).Nodup) {c : Credentials} :
    store.serving? href thing = some c ↔ Serves store href thing c := by
  rw [serving?, Option.or_eq_some_iff, findForHref?_eq_some_iff hkeys, findForHref?_eq_none_iff, Serves,
    Option.bind_eq_some_iff]
  simp only [Dict.get?_eq_some_iff_mem hkeys]

theorem serving?_eq_none_iff (hkeys : (Dict.keys store).Nodup) :
    store.serving? href thing = none ↔ ∀ c, ¬ Serves store href thing c := by
  simp only [Option.eq_none_iff_forall_ne_some, ne_eq, serving?_eq_some_iff hkeys]

/-- The foremost entry depends on those that fit only. -/
theorem Foremost.congr (h : ∀ e, Fits e.1 href → (e ∈ store' ↔ e ∈ store)) {key : String} {c : Credentials}
    (hc : Foremost store href key c) : Foremost store' href key c where
  stored := (h _ hc.fits).2 hc.stored
  fits := hc.fits
  longest := fun e he hfit => hc.longest e ((h e hfit).1 he) hfit
  smallest := fun e he hfit => hc.smallest e ((h e hfit).1 he) hfit

/-- Only entries whose key is for the href or the id of the thing matter. -/
theorem Serves.congr (h : ∀ e, Fits e.1 href ∨ thing = some e.1 → (e ∈ store' ↔ e ∈ store))
    {c : Credentials} (hc : Serves store href thing c) : Serves store' href thing c := by
  rcases hc with ⟨key, hkey⟩ | ⟨hnone, id, hid, hmem⟩
  · exact .inl ⟨key, hkey.congr fun e hfit => h e (.inl hfit)⟩
  · exact .inr ⟨fun e he hfit => hnone e ((h e (.inl hfit)).1 he) hfit, id, hid,
      (h _ (.inr hid)).2 hmem⟩

/-- Which secret serves depends on the entries that fit and on that of the thing only. -/
theorem serving?_congr (hkeys : (Dict.keys store).Nodup) (hkeys' : (Dict.keys store').Nodup)
    (h : ∀ e, Fits e.1 href ∨ thing = some e.1 → (e ∈ store' ↔ e ∈ store)) :
    store'.serving? href thing = store.serving? href thing := by
  ext c
  rw [serving?_eq_some_iff hkeys, serving?_eq_some_iff hkeys']
  exact ⟨fun hc => hc.congr fun e he => (h e he).symm, fun hc => hc.congr h⟩

end

/-! ## Resolution -/

section

variable {store : CredentialStore} {first : SecurityScheme} {href : String} {thing : Option String}

/-- Resolution depends on the secret that serves only. -/
theorem resolve_congr {store' : CredentialStore}
    (h : store'.serving? href thing = store.serving? href thing) (schemes : List SecurityScheme) :
    store'.resolve schemes href thing = store.resolve schemes href thing := by
  rw [serving?, serving?] at h
  cases schemes with
  | nil => rfl
  | cons first others => rw [resolve, resolve, h]

/-- Where no secret serves, none is found. -/
theorem resolve_of_serving?_none (hfirst : first.mechanism ≠ .noSecurity)
    (h : store.serving? href thing = none) (others : List SecurityScheme) :
    store.resolve (first :: others) href thing = .error (.notFound href) := by
  rw [serving?] at h
  simp only [resolve, if_neg hfirst, h]

/-- A secret of another kind than the scheme needs is refused. -/
theorem resolve_of_mismatch (hfirst : first.mechanism ≠ .noSecurity) {c : Credentials}
    (h : store.serving? href thing = some c) {expected : CredentialKind}
    (hexpected : first.mechanism.expectedKind? = some expected) (hne : expected ≠ c.kind)
    (others : List SecurityScheme) :
    store.resolve (first :: others) href thing =
      .error (.kindMismatch first.mechanism.label expected c.kind) := by
  rw [serving?] at h
  simp only [resolve, if_neg hfirst, h, hexpected, if_neg hne]

/-- A secret of the kind that the scheme needs is given. -/
theorem resolve_of_match (hfirst : first.mechanism ≠ .noSecurity) {c : Credentials}
    (h : store.serving? href thing = some c)
    (hkind : ∀ expected, first.mechanism.expectedKind? = some expected → expected = c.kind)
    (others : List SecurityScheme) : store.resolve (first :: others) href thing = .ok (some c) := by
  rw [serving?] at h
  simp only [resolve, if_neg hfirst, h]
  cases hexpected : first.mechanism.expectedKind? with
  | none => rfl
  | some expected => simp only [if_pos (hkind expected hexpected)]

end

/-- What a store hands over for an href. -/
structure Resolution (store : CredentialStore) (href : String) (thing : Option String) : Prop where
  /-- Without schemes nothing is needed, whatever is stored, -/
  noSchemes : ∀ store' : CredentialStore, store'.resolve [] href thing = .ok none
  /-- nor if the first scheme needs nothing. -/
  noSecurity : ∀ (store' : CredentialStore) (first : SecurityScheme) (others : List SecurityScheme),
    first.mechanism = .noSecurity → store'.resolve (first :: others) href thing = .ok none
  /-- Otherwise it is an error that no secret serves, -/
  missing : ∀ (first : SecurityScheme) (others : List SecurityScheme), first.mechanism ≠ .noSecurity →
    (∀ c, ¬ Serves store href thing c) →
      store.resolve (first :: others) href thing = .error (.notFound href)
  /-- that the one that serves is of another kind than the first scheme expects, -/
  mismatch : ∀ (first : SecurityScheme) (others : List SecurityScheme) (c : Credentials)
    (expected : CredentialKind), first.mechanism ≠ .noSecurity → Serves store href thing c →
      first.mechanism.expectedKind? = some expected → expected ≠ c.kind →
        store.resolve (first :: others) href thing =
          .error (.kindMismatch first.mechanism.label expected c.kind)
  /-- and in all other cases the one that serves is handed over. -/
  found : ∀ (first : SecurityScheme) (others : List SecurityScheme) (c : Credentials),
    first.mechanism ≠ .noSecurity → Serves store href thing c →
      (∀ expected, first.mechanism.expectedKind? = some expected → expected = c.kind) →
        store.resolve (first :: others) href thing = .ok (some c)
  /-- If a key is for the href, one key comes first. -/
  foremost : (∃ e ∈ store, Fits e.1 href) → ∃! key, ∃ c, Foremost store href key c
  /-- The order of the entries makes no difference, -/
  anyOrder : ∀ (store' : CredentialStore) (schemes : List SecurityScheme), store'.Perm store →
    store'.resolve schemes href thing = store.resolve schemes href thing
  /-- neither do the schemes after the first one, -/
  firstScheme : ∀ (first : SecurityScheme) (others others' : List SecurityScheme),
    store.resolve (first :: others') href thing = store.resolve (first :: others) href thing
  /-- nor entries under keys that are neither for the href nor the id of the thing. -/
  otherEntries : ∀ (store' : CredentialStore) (schemes : List SecurityScheme),
    (Dict.keys store').Nodup → (∀ e, Fits e.1 href ∨ thing = some e.1 → (e ∈ store' ↔ e ∈ store)) →
      store'.resolve schemes href thing = store.resolve schemes href thing

/-- Whatever is stored, under keys that are not repeated, the foremost key decides, and only where no key is for
the href the id of the thing. -/
theorem resolve_foremost (store : CredentialStore) (hkeys : (Dict.keys store).Nodup) (href : String)
    (thing : Option String) : Resolution store href thing where
  noSchemes _ := rfl
  noSecurity store' _ others hfirst := resolve_of_noSecurity hfirst store' others href thing
  missing _ others hfirst hnone :=
    resolve_of_serving?_none hfirst ((serving?_eq_none_iff hkeys).2 hnone) others
  mismatch _ others _ _ hfirst hc hexpected hne :=
    resolve_of_mismatch hfirst ((serving?_eq_some_iff hkeys).2 hc) hexpected hne others
  found _ others _ hfirst hc hkind :=
    resolve_of_match hfirst ((serving?_eq_some_iff hkeys).2 hc) hkind others
  foremost := by
    rintro ⟨e, he, hfits⟩
    -- The search for a secret does not come back empty-handed.
    cases hfind : store.findForHref? href with
    | none => exact absurd hfits (findForHref?_eq_none_iff.1 hfind e he)
    | some c =>
      obtain ⟨key, hkey⟩ := exists_foremost_of_findForHref? hfind
      exact ⟨key, ⟨c, hkey⟩, fun key' ⟨c', hkey'⟩ => hkey'.key_eq hkey⟩
  anyOrder store' schemes hperm := by
    have hkeys' : (Dict.keys store').Nodup := ((hperm.map Prod.fst).nodup_iff).2 hkeys
    exact resolve_congr (serving?_congr hkeys hkeys' fun e _ => hperm.mem_iff) schemes
  firstScheme _ _ _ := rfl
  otherEntries _ schemes hkeys' h := resolve_congr (serving?_congr hkeys hkeys' h) schemes

/-- The secrets of a house. -/
def house : CredentialStore :=
  [("door", .basic "guest" "key"), ("house", .bearer "t"), ("http://house", .apiKey "k"),
   ("tp://house/d", .bearer "open"), ("urn:house", .basic "owner" "pw")]

/-- Two of the keys in the href of the door are longest, and the smaller one of them counts: its secret is not of
the kind that the scheme expects, and no other one is tried. In the href of the garage there is no key. -/
theorem resolve_foremost_house :
    (Dict.keys house).Nodup ∧
      house.resolve [{ mechanism := .default .basic }] "http://house/door" (some "urn:house") =
        .error (.kindMismatch "Basic" .basic .apiKey) ∧
      house.resolve [{ mechanism := .default .basic }] "coap://garage" (some "urn:house") =
        .ok (some (.basic "owner" "pw")) := by
  have hkeys : (Dict.keys house).Nodup := by decide
  have hdoor : Serves house "http://house/door" (some "urn:house") (.apiKey "k") :=
    (serving?_eq_some_iff hkeys).1 (by decide)
  have hgarage : Serves house "coap://garage" (some "urn:house") (.basic "owner" "pw") :=
    (serving?_eq_some_iff hkeys).1 (by decide)
  refine ⟨hkeys, ?_, ?_⟩
  · exact (resolve_foremost house hkeys _ _).mismatch _ _ _ .basic (by decide) hdoor rfl (by decide)
  · refine (resolve_foremost house hkeys _ _).found _ _ _ (by decide) hgarage fun expected h => ?_
    exact (Option.some.inj h).symm

end CredentialStore
end WebOfThings
