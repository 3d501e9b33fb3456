import WebOfThings.Href
import WebOfThings.Proofs.Text

/-!
# Hrefs that are joined with a base

A text is absolute if it starts with a scheme and a colon (`scanScheme?_eq_some_iff`), and no slash stands
in a scheme. What happens behind the colon of a base leaves its scheme alone, so the base has the same
scheme without the slashes at its end and with an href behind it (`scanScheme?_join`). The joined text is
absolute, and joining it once more does nothing. An href with a slash in front is relative, so it may have
any number of them.

The subject is `scheme_of` and `resolve_href`. `scanScheme?_eq_some_iff` is the specification of the former,
and the join of the latter is described without it by `IsJoined`: what is left of base and href when the
slashes where they meet are replaced by one. A base without a scheme makes no href absolute, so the
statement asks for one; the relative href may be empty, may consist of slashes and may have colons behind
its first slash.

Main statement: `resolve_stable`.
-/

namespace WebOfThings.Href

/-! ## Texts with a scheme -/

/-- A character that is no letter and that may not follow one in a scheme is in no scheme. -/
theorem not_mem_of_isScheme {scheme : List Char} (hscheme : isScheme scheme = true) {d : Char}
    (hd : isSchemeChar d = false) : d ∉ scheme := by
  cases scheme with
  | nil => exact List.not_mem_nil
  | cons c rest =>
    rw [isScheme, Bool.and_eq_true, List.all_eq_true] at hscheme
    intro hmem
    have hchar : isSchemeChar d = true := by
      rcases List.mem_cons.1 hmem with rfl | hmem
      · simp [isSchemeChar, Char.isAlphanum, hscheme.1]
      · exact hscheme.2 d hmem
    rw [hd] at hchar
    cases hchar

/-- A text has a scheme if it starts with one and a colon. -/
theorem scanScheme?_eq_some_iff {s scheme : List Char} :
    scanScheme? s = some scheme ↔ isScheme scheme = true ∧ ∃ after, s = scheme ++ ':' :: after := by
  constructor
  · intro hs
    unfold scanScheme? at hs
    split at hs
    · cases hs
    · next after hcut =>
      split at hs
      · next hscheme =>
        cases hs
        exact ⟨hscheme, after, Text.cut_eq_some hcut⟩
      · cases hs
  · rintro ⟨hscheme, after, rfl⟩
    rw [scanScheme?, Text.cut_append_cons (not_mem_of_isScheme hscheme (by decide))]
    simp [hscheme]

/-- No text with a slash in front has a scheme. -/
theorem scanScheme?_slash (s : List Char) : scanScheme? ('/' :: s) = none := by
  refine Option.eq_none_iff_forall_ne_some.2 fun scheme hs => ?_
  obtain ⟨hscheme, after, hafter⟩ := scanScheme?_eq_some_iff.1 hs
  cases scheme with
  | nil => cases hscheme
  | cons c rest =>
    cases (List.cons.inj hafter).1
    cases hscheme

/-- A base keeps its scheme when an href is joined to it. -/
theorem scanScheme?_join {base scheme : List Char} (hbase : scanScheme? base = some scheme) (href : List Char) :
    scanScheme? (join base href) = some scheme := by
  obtain ⟨hscheme, after, rfl⟩ := scanScheme?_eq_some_iff.1 hbase
  have htrim : Text.trimEnd (fun c => c = '/') (scheme ++ ':' :: after) =
      scheme ++ ':' :: Text.trimEnd (fun c => c = '/') after := Text.trimEnd_append_cons rfl scheme after
  simp only [join, htrim]
  split
  · exact scanScheme?_eq_some_iff.2 ⟨hscheme, _, rfl⟩
  · exact scanScheme?_eq_some_iff.2 ⟨hscheme, _, by rw [List.append_assoc, List.cons_append]⟩

/-! ## Slashes where the two meet -/

/-- A row of slashes. -/
def slashes (n : Nat) : String := String.ofList (List.replicate n '/')

theorem toList_slashes (n : Nat) : (slashes n).toList = List.replicate n '/' := String.toList_ofList

/-- A base and an href with one slash between them, in place of all slashes at the end of the one and at the start
of the other, and with no slash where nothing else is left of the href. -/
def IsJoined (base href joined : String) : Prop :=
  ∃ stem path m n, base = stem ++ slashes m ∧ href = slashes n ++ path ∧
    stem.toList.getLast? ≠ some '/' ∧ path.toList.head? ≠ some '/' ∧
    joined = if path = "" then stem else stem ++ "/" ++ path

/-- The joined text has one separator between the base and the href. -/
theorem isJoined_join (base href : String) :
    IsJoined base href (String.ofList (join base.toList href.toList)) := by
  obtain ⟨after, hafter, hbase⟩ := Text.exists_trimEnd (fun c => c = '/') base.toList
  obtain ⟨before, hbefore, hhref⟩ := Text.exists_trimStart (fun c => c = '/') href.toList
  have hslashes : ∀ s : List Char, (∀ c ∈ s, decide (c = '/') = true) → slashes s.length = String.ofList s := by
    intro s hs
    have hrow : s = List.replicate s.length '/' :=
      List.eq_replicate_iff.2 ⟨rfl, fun c hc => of_decide_eq_true (hs c hc)⟩
    exact congrArg String.ofList hrow.symm
  refine ⟨String.ofList (Text.trimEnd (fun c => c = '/') base.toList),
    String.ofList (Text.trimStart (fun c => c = '/') href.toList), after.length, before.length, ?_, ?_, ?_, ?_, ?_⟩
  · rw [hslashes after hafter, ← String.ofList_append, ← hbase, String.ofList_toList]
  · rw [hslashes before hbefore, ← String.ofList_append, ← hhref, String.ofList_toList]
  · rw [String.toList_ofList]
    exact fun h => absurd (Text.not_of_getLast?_trimEnd _ _ h) (by decide)
  · rw [String.toList_ofList]
    exact fun h => absurd (Text.not_of_head?_trimStart _ _ h) (by decide)
  · simp only [join, String.ofList_eq_empty_iff]
    split
    · rfl
    · refine String.toList_inj.1 ?_
      simp

/-- Slashes in front of an href give it no scheme. -/
theorem scheme?_slashes_append (n : Nat) {href : String} (hhref : scheme? href = none) :
    scheme? (slashes n ++ href) = none := by
  cases n with
  | zero => rwa [show slashes 0 ++ href = href from String.empty_append]
  | succ n =>
    rw [scheme?, String.toList_append, toList_slashes, List.replicate_succ, List.cons_append, scanScheme?_slash]
    rfl

/-! ## Hrefs as seen from a base -/

theorem resolve_of_relative {href : String} (hhref : scheme? href = none) (base : String) :
    resolve (some base) href = String.ofList (join base.toList href.toList) := by
  simp [resolve, hhref]

/-- A relative href takes the scheme of its base. -/
theorem scheme?_resolve_of_relative {base href : String} (hbase : (scheme? base).isSome = true)
    (hhref : scheme? href = none) : scheme? (resolve (some base) href) = scheme? base := by
  obtain ⟨scheme, hscheme⟩ := Option.isSome_iff_exists.1 hbase
  obtain ⟨chars, hchars, rfl⟩ := Option.map_eq_some_iff.1 hscheme
  rw [hscheme, resolve_of_relative hhref, scheme?, String.toList_ofList, scanScheme?_join hchars]
  rfl

/-- From a base with a scheme every href is absolute, and stays what it is when it is looked at from there once
more. An absolute href is so from the start. A relative one gets the scheme of the base and is joined to it by a
single slash, whatever slashes stand there. -/
theorem resolve_stable {base : String} (hbase : (scheme? base).isSome = true) (href : String) :
    (scheme? (resolve (some base) href)).isSome = true ∧
    resolve (some base) (resolve (some base) href) = resolve (some base) href ∧
    ((scheme? href).isSome = true → resolve (some base) href = href) ∧
    (scheme? href = none →
      scheme? (resolve (some base) href) = scheme? base ∧
      IsJoined base href (resolve (some base) href) ∧
      ∀ m n, resolve (some (base ++ slashes m)) (slashes n ++ href) = resolve (some base) href) := by
  have habsolute : (scheme? (resolve (some base) href)).isSome = true := by
    cases hhref : scheme? href with
    | none => rw [scheme?_resolve_of_relative hbase hhref, hbase]
    | some scheme => rw [resolve_of_absolute (by rw [hhref]; rfl), hhref]; rfl
  -- The second look leaves the href alone because the first one made it absolute.
  refine ⟨habsolute, resolve_of_absolute habsolute _, fun h => resolve_of_absolute h _, fun hhref => ?_⟩
  refine ⟨?_, ?_, ?_⟩
  · exact scheme?_resolve_of_relative hbase hhref
  · rw [resolve_of_relative hhref]
    exact isJoined_join base href
  · intro m n
    rw [resolve_of_relative (scheme?_slashes_append n hhref), resolve_of_relative hhref]
    simp only [String.toList_append, toList_slashes, join_slashes]

/-- A base with a scheme in upper case letters and slashes at its end, and a path with a colon behind a template. -/
theorem resolve_stable_lamp :
    (scheme? "Http://lamp//").isSome = true ∧ scheme? "/\x7bid\x7d:1//" = none ∧
      resolve (some "Http://lamp//") "/\x7bid\x7d:1//" = "Http://lamp/\x7bid\x7d:1//" ∧
      resolve (some ("Http://lamp//" ++ slashes 3)) (slashes 2 ++ "/\x7bid\x7d:1//") =
        "Http://lamp/\x7bid\x7d:1//" := by
  have hresolved : resolve (some "Http://lamp//") "/\x7bid\x7d:1//" = "Http://lamp/\x7bid\x7d:1//" := by decide
  have hbase : (scheme? "Http://lamp//").isSome = true := by decide
  have hhref : scheme? "/\x7bid\x7d:1//" = none := by decide
  obtain ⟨-, -, -, hrelative⟩ := resolve_stable hbase "/\x7bid\x7d:1//"
  obtain ⟨-, -, hslashes⟩ := hrelative hhref
  exact ⟨hbase, hhref, hresolved, (hslashes 3 2).trans hresolved⟩

end WebOfThings.Href
