import Mathlib.Logic.Relation
import WebOfThings.Proofs.Codec.History
import WebOfThings.Proofs.Description.Bindings

/-!
# The spellings of a media type

A text is a base type and the parameters behind it, with a semicolon before each (`entries?_append`). The
media type that it names stays the same under a change of one of these parts (`Respelling`): letters of the
base type or of the name of a parameter in another case, blanks around the base type, around a parameter or
around its equals sign, and a further parameter that is blank. One such change keeps what the text is read
as (`entries?_of_respelling`), and so does a chain of them in either direction.

What is left of all spellings is the base type in lower case, which is a text for itself
(`ofString?_essence`), and the value that stands last under each name (`param_eq_getLast?`). Main statement:
`normalForm`.

A media type is read in three steps: the text is cut at every semicolon, the base type is trimmed and
lowered, and each further piece that is not blank becomes a parameter. A change in the spelling touches one
piece, so it is enough to follow that piece; the others are read as they were. The codec of a media type
depends on its base type only, so it is the same for all spellings (`supports_eq`).
-/

namespace WebOfThings.MediaType

/-! ## The parts of a text -/

/-- The parameters of some pieces of a text, of which the blank ones are skipped. -/
def named? (pieces : List (List Char)) : Option (List (String × String)) :=
  (pieces.filter fun p => !(Text.trim p).isEmpty).mapM param?

/-- The base type of a text and its parameters in the order in which they stand. -/
def entries? (s : List Char) : Option (List Char × List (String × String)) :=
  match Text.pieces ';' s with
  | [] => none
  | head :: rest => (essence? head).bind fun essence => (named? rest).map (essence, ·)

/-- The base type is read from the first piece and the parameters from the others. -/
theorem entries?_of_pieces {s head : List Char} {rest : List (List Char)} (h : Text.pieces ';' s = head :: rest) :
    entries? s = (essence? head).bind fun essence => (named? rest).map (essence, ·) := by
  rw [entries?, h]

theorem entries?_of_not_mem {s : List Char} (h : ';' ∉ s) : entries? s = (essence? s).map (·, []) := by
  rw [entries?_of_pieces (Text.pieces_of_not_mem h)]
  cases essence? s <;> rfl

/-- A media type is read from its base type and its parameters, of which the last one of a name counts. -/
theorem scan?_eq (s : List Char) :
    scan? s = (entries? s).map fun e => ⟨String.ofList e.1, Dict.ofList e.2⟩ := by
  obtain ⟨head, rest, hs⟩ := List.exists_cons_of_ne_nil (Text.pieces_ne_nil ';' s)
  rw [entries?_of_pieces hs, scan?, hs]
  simp only [Option.bind_eq_bind, Option.pure_def, Option.map_bind, named?]
  refine Option.bind_congr fun essence _ => ?_
  cases (rest.filter fun p => !(Text.trim p).isEmpty).mapM param? <;> rfl

/-- The parameters of two lists of pieces are those of the first and then those of the second. -/
theorem named?_append (pieces others : List (List Char)) :
    named? (pieces ++ others) = (named? pieces).bind fun ps => (named? others).map (ps ++ ·) := by
  rw [named?, List.filter_append, List.mapM_append, ← named?, ← named?]
  simp only [Option.bind_eq_bind, Option.pure_def]
  refine Option.bind_congr fun ps _ => ?_
  cases named? others <;> rfl

/-- The parameters behind a semicolon come after those before it. -/
theorem entries?_append (s t : List Char) :
    entries? (s ++ ';' :: t) =
      (entries? s).bind fun e => (named? (Text.pieces ';' t)).map fun ps => (e.1, e.2 ++ ps) := by
  obtain ⟨head, rest, hs⟩ := List.exists_cons_of_ne_nil (Text.pieces_ne_nil ';' s)
  have happend : Text.pieces ';' (s ++ ';' :: t) = head :: (rest ++ Text.pieces ';' t) := by
    rw [Text.pieces_append_cons, hs, List.cons_append]
  rw [entries?_of_pieces happend, entries?_of_pieces hs, named?_append]
  cases essence? head with
  | none => rfl
  | some essence =>
    cases named? rest with
    | none => rfl
    | some ps => cases named? (Text.pieces ';' t) <;> rfl

/-- A text that ends or goes on with a parameter. -/
def EndsPart (rest : List Char) : Prop := rest = [] ∨ ∃ more, rest = ';' :: more

/-- Where a part ends, the parameters of the rest come after those before it. -/
theorem entries?_append_rest {rest : List Char} (hrest : EndsPart rest) (s : List Char) :
    entries? (s ++ rest) =
      (entries? s).bind fun e => (named? (Text.pieces ';' rest).tail).map fun ps => (e.1, e.2 ++ ps) := by
  rcases hrest with rfl | ⟨more, rfl⟩
  · cases h : entries? s <;> simp [h, named?, Text.pieces]
  · rw [entries?_append]
    simp [Text.pieces]

theorem named?_append_rest {rest p : List Char} (hrest : EndsPart rest) (hp : ';' ∉ p) :
    named? (Text.pieces ';' (p ++ rest)) =
      (named? [p]).bind fun ps => (named? (Text.pieces ';' rest).tail).map (ps ++ ·) := by
  rw [← named?_append, List.singleton_append]
  rcases hrest with rfl | ⟨more, rfl⟩
  · rw [List.append_nil, Text.pieces_of_not_mem hp]
    rfl
  · rw [Text.pieces_append_cons, Text.pieces_of_not_mem hp]
    simp [Text.pieces]

/-! ## One parameter -/

/-- A parameter is read from its name in lower case and its value, both without the blanks around them. -/
theorem param?_append_cons {name : List Char} (hname : '=' ∉ name) (value : List Char) :
    param? (name ++ '=' :: value) =
      if lower (Text.trim name) = [] then none
      else some (String.ofList (lower (Text.trim name)),
        String.ofList (Text.trimBoth (fun c => c = '"') (Text.trim value))) := by
  rw [param?, Text.cut_append_cons hname]

/-- A piece without an equals sign is no parameter. -/
theorem param?_of_not_mem {p : List Char} (h : '=' ∉ p) : param? p = none := by
  rw [param?]
  split
  · rfl
  · next heq =>
    rw [← Text.cut_snd_eq_none_iff, heq] at h
    cases h

/-- A blank piece is no parameter, any other one is read as one. -/
theorem named?_singleton (p : List Char) :
    named? [p] = if Text.trim p = [] then some [] else (param? p).map ([·]) := by
  rw [named?]
  split
  · next hblank => simp [hblank]
  · next hblank =>
    rw [List.filter_cons_of_pos (by simpa using hblank), List.filter_nil]
    cases hp : param? p <;> simp [hp]

/-- A piece that holds an equals sign is not blank. -/
theorem named?_singleton_append_cons (name value : List Char) :
    named? [name ++ '=' :: value] = (param? (name ++ '=' :: value)).map ([·]) := by
  rw [named?_singleton, if_neg]
  exact fun h => absurd (Text.trimBoth_eq_nil_iff.1 h '=' (by simp)) (by decide)

/-! ## Letters and blanks -/

/-- Texts that differ in the case of their letters hold the same characters that are no letters. -/
theorem not_mem_of_lower_eq {s t : List Char} (h : lower s = lower t) {d : Char} (hd : d.toNat < 65)
    (hs : d ∉ s) : d ∉ t := by
  intro ht
  have hlower : d.toLower = d := by
    rcases Text.toLower_cases d with heq | hupper
    · exact heq
    · omega
  have hmem : d ∈ lower t := List.mem_map.2 ⟨d, ht, hlower⟩
  rw [← h] at hmem
  exact not_mem_lower (by omega) hs hmem

/-- Blanks are the same in lower case. -/
theorem lower_trim (s : List Char) : lower (Text.trim s) = Text.trim (lower s) := by
  have hblank : Text.isBlank ∘ Char.toLower = Text.isBlank := funext Text.isBlank_toLower
  simp only [lower, Text.trim, Text.trimBoth, Text.trimStart, Text.trimEnd, List.dropWhile_map, hblank,
    ← List.map_reverse]

/-! ## Changes of spelling -/

/-- A text of blanks. -/
def Blanks (s : List Char) : Prop := ∀ c ∈ s, Text.isBlank c = true

theorem Blanks.not_mem {s : List Char} (h : Blanks s) {d : Char} (hd : Text.isBlank d = false) : d ∉ s :=
  fun hmem => absurd (h d hmem) (by simp [hd])

/-- Two spellings of a base type: letters in another case, or blanks around it. -/
inductive SameBase : List Char → List Char → Prop
  | letters {base base' : List Char} (h : lower base = lower base') : SameBase base base'
  | blanks {before base after : List Char} (hbefore : Blanks before) (hafter : Blanks after) :
      SameBase base (before ++ base ++ after)

/-- Two spellings of a parameter: letters of its name in another case, or blanks around it or around the equals
sign. -/
inductive SameParam : List Char → List Char → Prop
  | letters {name name' value : List Char} (hname : '=' ∉ name) (h : lower name = lower name') :
      SameParam (name ++ '=' :: value) (name' ++ '=' :: value)
  | blanks {before param after : List Char} (hbefore : Blanks before) (hafter : Blanks after) :
      SameParam param (before ++ param ++ after)
  | equals {name before after value : List Char} (hname : '=' ∉ name) (hbefore : Blanks before)
      (hafter : Blanks after) : SameParam (name ++ '=' :: value) (name ++ before ++ '=' :: (after ++ value))

/-- One change in the spelling of a text: of its base type, of one parameter, or by a further parameter that is
blank, at the end or in front of another one. -/
inductive Respelling : List Char → List Char → Prop
  | base {base base' rest : List Char} (hbase : ';' ∉ base) (h : SameBase base base') (hrest : EndsPart rest) :
      Respelling (base ++ rest) (base' ++ rest)
  | param {front param param' rest : List Char} (hparam : ';' ∉ param) (h : SameParam param param')
      (hrest : EndsPart rest) : Respelling (front ++ ';' :: (param ++ rest)) (front ++ ';' :: (param' ++ rest))
  | blank {front blanks rest : List Char} (hblanks : Blanks blanks) (hrest : EndsPart rest) :
      Respelling (front ++ rest) (front ++ ';' :: (blanks ++ rest))

theorem SameBase.not_mem {base base' : List Char} (h : SameBase base base') (hbase : ';' ∉ base) :
    ';' ∉ base' := by
  cases h with
  | letters h => exact not_mem_of_lower_eq h (by decide) hbase
  | blanks hbefore hafter =>
    simp [hbase, hbefore.not_mem (d := ';') (by decide), hafter.not_mem (d := ';') (by decide)]

/-- Spellings of a base type are read alike. -/
theorem SameBase.essence?_eq {base base' : List Char} (h : SameBase base base') :
    essence? base = essence? base' := by
  have hlower : lower (Text.trim base) = lower (Text.trim base') := by
    cases h with
    | letters h => rw [lower_trim, h, ← lower_trim]
    | blanks hbefore hafter => rw [Text.trim, Text.trim, Text.trimBoth_append_append hbefore hafter]
  rw [essence?, essence?, hlower]

theorem SameParam.not_mem {param param' : List Char} (h : SameParam param param') (hparam : ';' ∉ param) :
    ';' ∉ param' := by
  cases h with
  | letters hname h =>
    simp only [List.mem_append, not_or] at hparam ⊢
    exact ⟨not_mem_of_lower_eq h (by decide) hparam.1, hparam.2⟩
  | blanks hbefore hafter =>
    simp [hparam, hbefore.not_mem (d := ';') (by decide), hafter.not_mem (d := ';') (by decide)]
  | equals hname hbefore hafter =>
    simp only [List.mem_append, List.mem_cons, not_or] at hparam ⊢
    exact ⟨⟨hparam.1, hbefore.not_mem (by decide)⟩, hparam.2.1, hafter.not_mem (by decide), hparam.2.2⟩

/-- A parameter is read from its trimmed name and its trimmed value. -/
theorem param?_congr {name name' value value' : List Char} (hname : '=' ∉ name) (hname' : '=' ∉ name')
    (h : lower (Text.trim name) = lower (Text.trim name')) (hvalue : Text.trim value = Text.trim value') :
    param? (name ++ '=' :: value) = param? (name' ++ '=' :: value') := by
  rw [param?_append_cons hname, param?_append_cons hname', h, hvalue]

/-- Blanks around a parameter do not matter. -/
theorem param?_blanks {before param after : List Char} (hbefore : Blanks before) (hafter : Blanks after) :
    param? param = param? (before ++ param ++ after) := by
  have hno : '=' ∉ before := hbefore.not_mem (by decide)
  have hno' : '=' ∉ after := hafter.not_mem (by decide)
  by_cases hequals : '=' ∈ param
  · obtain ⟨name, value, rfl, hname⟩ := List.eq_append_cons_of_mem hequals
    -- Blanks before the parameter belong to its name, and those behind it to its value.
    have hshift : before ++ (name ++ '=' :: value) ++ after = (before ++ name) ++ '=' :: (value ++ after) := by simp
    rw [hshift]
    refine param?_congr hname (by simp [hno, hname]) ?_ ?_
    · rw [Text.trim, Text.trim, Text.trimBoth_append_left hbefore]
    · rw [Text.trim, Text.trim, Text.trimBoth_append_right hafter]
  · rw [param?_of_not_mem hequals, param?_of_not_mem (by simp [hno, hequals, hno'])]

/-- Spellings of a parameter are read alike. -/
theorem SameParam.named?_eq {param param' : List Char} (h : SameParam param param') :
    named? [param] = named? [param'] := by
  cases h with
  | letters hname h =>
    rw [named?_singleton_append_cons, named?_singleton_append_cons,
      param?_congr hname (not_mem_of_lower_eq h (by decide) hname) (by rw [lower_trim, h, ← lower_trim]) rfl]
  | blanks hbefore hafter =>
    have htrim : Text.trim (_ ++ param ++ _) = Text.trim param := Text.trimBoth_append_append hbefore hafter param
    rw [named?_singleton, named?_singleton, htrim, param?_blanks hbefore hafter]
  | equals hname hbefore hafter =>
    rw [named?_singleton_append_cons, named?_singleton_append_cons]
    refine congrArg _ (param?_congr hname ?_ ?_ ?_)
    · simp [hname, hbefore.not_mem (d := '=') (by decide)]
    · rw [Text.trim, Text.trim, Text.trimBoth_append_right hbefore]
    · rw [Text.trim, Text.trim, Text.trimBoth_append_left hafter]

theorem named?_blanks {blanks : List Char} (h : Blanks blanks) : named? [blanks] = some [] := by
  have htrim : Text.trim blanks = [] := Text.trimBoth_eq_nil h
  rw [named?_singleton, if_pos htrim]

/-- One change in the spelling of a text keeps what it is read as. -/
theorem entries?_of_respelling {s t : List Char} (h : Respelling s t) : entries? s = entries? t := by
  cases h with
  | base hbase h hrest =>
    rw [entries?_append_rest hrest, entries?_append_rest hrest, entries?_of_not_mem hbase,
      entries?_of_not_mem (h.not_mem hbase), h.essence?_eq]
  | param hparam h hrest =>
    rw [entries?_append, entries?_append, named?_append_rest hrest hparam,
      named?_append_rest hrest (h.not_mem hparam), h.named?_eq]
  | blank hblanks hrest =>
    have hplain := hblanks.not_mem (d := ';') (by decide)
    rw [entries?_append_rest hrest, entries?_append, named?_append_rest hrest hplain, named?_blanks hblanks]
    simp

/-- A chain of changes keeps what a text is read as. -/
theorem entries?_of_respelled {s t : List Char} (h : Relation.EqvGen Respelling s t) :
    entries? s = entries? t := by
  induction h with
  | rel _ _ h => exact entries?_of_respelling h
  | refl _ => rfl
  | symm _ _ _ ih => exact ih.symm
  | trans _ _ _ _ _ ih ih' => exact ih.trans ih'

/-! ## What is left of all spellings -/

/-- The base type of a text has no parameters and is its own base type. -/
theorem entries?_essence {s essence : List Char} {params : List (String × String)}
    (h : entries? s = some (essence, params)) : entries? essence = some (essence, []) := by
  obtain ⟨head, rest, hs⟩ := List.exists_cons_of_ne_nil (Text.pieces_ne_nil ';' s)
  have hhead : ';' ∉ head := Text.sep_not_mem_of_mem_pieces (s := s) (by rw [hs]; exact List.mem_cons_self ..)
  rw [entries?_of_pieces hs] at h
  simp only [Option.bind_eq_some_iff, Option.map_eq_some_iff, Prod.mk.injEq] at h
  obtain ⟨_, hessence, ps, -, rfl, rfl⟩ := h
  obtain ⟨hvalid, rfl⟩ : isEssence (lower (Text.trim head)) = true ∧ lower (Text.trim head) = _ := by
    simpa [essence?] using hessence
  have hplain : ';' ∉ lower (Text.trim head) :=
    not_mem_lower (by decide) fun hmem => hhead (Text.mem_of_mem_trimBoth hmem)
  have hagain : lower (Text.trim (lower (Text.trim head))) = lower (Text.trim head) := by
    rw [← lower_trim, lower_lower, Text.trim, Text.trim, Text.trimBoth_trimBoth]
  rw [entries?_of_not_mem hplain]
  simp only [essence?, hagain, hvalid, if_true, Option.map_some]

/-- The parameters of a text with their names in lower case, in the order in which they stand. -/
def parameters (s : List Char) : List (String × String) := (Text.pieces ';' s).tail.filterMap param?

/-- The parameters of a text are those that are read from it. -/
theorem parameters_of_entries? {s essence : List Char} {params : List (String × String)}
    (h : entries? s = some (essence, params)) : parameters s = params := by
  obtain ⟨head, rest, hs⟩ := List.exists_cons_of_ne_nil (Text.pieces_ne_nil ';' s)
  rw [entries?_of_pieces hs] at h
  simp only [Option.bind_eq_some_iff, Option.map_eq_some_iff, Prod.mk.injEq] at h
  obtain ⟨_, -, ps, hnamed, rfl, rfl⟩ := h
  rw [parameters, hs, List.tail_cons, ← Json.filterMap_of_mapM hnamed, List.filterMap_filter]
  refine List.filterMap_congr fun p _ => ?_
  split
  · rfl
  · next hblank =>
    -- Nothing would be read from a blank piece, so it makes no difference that it is skipped.
    have hall := Text.trimBoth_eq_nil_iff.1 (by simpa using hblank : Text.trim p = [])
    exact param?_of_not_mem (Blanks.not_mem hall (by decide))

theorem exists_entries? {s : String} {m : MediaType} (hm : ofString? s = some m) :
    ∃ essence params, entries? s.toList = some (essence, params) ∧
      m = ⟨String.ofList essence, Dict.ofList params⟩ := by
  rw [ofString?, scan?_eq] at hm
  obtain ⟨⟨essence, params⟩, hentries, rfl⟩ := Option.map_eq_some_iff.1 hm
  exact ⟨essence, params, hentries, rfl⟩

/-- The base type of a text is a media type without parameters. -/
theorem ofString?_essence {s : String} {m : MediaType} (hm : ofString? s = some m) :
    ofString? m.essence = some ⟨m.essence, []⟩ := by
  obtain ⟨essence, params, hentries, rfl⟩ := exists_entries? hm
  rw [ofString?, scan?_eq, String.toList_ofList, entries?_essence hentries]
  rfl

/-- Of the parameters with one name the last one counts. -/
theorem param_eq_getLast? {s : String} {m : MediaType} (hm : ofString? s = some m) (name : String) :
    m.param name = (Dict.bindings name (parameters s.toList)).getLast?.map Prod.snd := by
  obtain ⟨essence, params, hentries, rfl⟩ := exists_entries? hm
  rw [parameters_of_entries? hentries, param, Dict.get?_ofList, Dict.get?_reverse_eq_getLast?_bindings]

/-- The codec of a text is the one for its base type. -/
theorem supports_eq (r : CodecRegistry) {s : String} {m : MediaType} (hm : ofString? s = some m) :
    r.supports s = (r.codec? m.essence).isSome := by
  rw [CodecRegistry.supports, hm, Option.bind_some]

/-- Texts that differ in their spelling only name the same media type, or none. What is left of the spellings is the
base type, which names itself without parameters, and for each name of a parameter the value that stands last. The
base type alone decides which codec converts values in the media type, and whether there is one. -/
theorem normalForm (s t : String) :
    (Relation.EqvGen Respelling s.toList t.toList → ofString? s = ofString? t) ∧
    ∀ m, ofString? s = some m →
      ofString? m.essence = some ⟨m.essence, []⟩ ∧
      (∀ name, m.param name = (Dict.bindings name (parameters s.toList)).getLast?.map Prod.snd) ∧
      ∀ r : CodecRegistry,
        CodecCall.ConvertsBy r s m.params (r.codec? m.essence) ∧
        ∀ m', ofString? t = some m' → m'.essence = m.essence →
          CodecCall.ConvertsBy r t m'.params (r.codec? m.essence) ∧ r.supports t = r.supports s := by
  refine ⟨fun h => ?_, fun m hm => ⟨ofString?_essence hm, param_eq_getLast? hm, fun r => ⟨?_, ?_⟩⟩⟩
  · rw [ofString?, ofString?, scan?_eq, scan?_eq, entries?_of_respelled h]
  · exact CodecCall.convertsBy_codec? r hm
  · intro m' hm' hessence
    rw [supports_eq r hm, supports_eq r hm', ← hessence]
    exact ⟨CodecCall.convertsBy_codec? r hm', rfl⟩

/-- A charset in another spelling: letters of the base type and of the name in another case, a parameter that is
empty, and blanks around the equals sign. -/
theorem normalForm_charset :
    ofString? "Text/Plain;charset=\"UTF-8\"" = some ⟨"text/plain", [("charset", "UTF-8")]⟩ ∧
      ofString? "text/plain;;CHARSET = \"UTF-8\"" = some ⟨"text/plain", [("charset", "UTF-8")]⟩ ∧
      ofString? "text/plain" = some ⟨"text/plain", []⟩ := by
  have hbase : Respelling "Text/Plain;charset=\"UTF-8\"".toList "text/plain;charset=\"UTF-8\"".toList :=
    @Respelling.base "Text/Plain".toList "text/plain".toList ";charset=\"UTF-8\"".toList (by decide)
      (.letters (by decide)) (.inr ⟨_, rfl⟩)
  have hblank : Respelling "text/plain;charset=\"UTF-8\"".toList "text/plain;;charset=\"UTF-8\"".toList :=
    @Respelling.blank "text/plain".toList [] ";charset=\"UTF-8\"".toList (List.forall_mem_nil _) (.inr ⟨_, rfl⟩)
  have hname : Respelling "text/plain;;charset=\"UTF-8\"".toList "text/plain;;CHARSET=\"UTF-8\"".toList :=
    @Respelling.param "text/plain;".toList "charset=\"UTF-8\"".toList "CHARSET=\"UTF-8\"".toList [] (by decide)
      (@SameParam.letters "charset".toList "CHARSET".toList "\"UTF-8\"".toList (by decide) (by decide)) (.inl rfl)
  have hspace : Blanks [' '] := List.all_eq_true.1 (by decide)
  have hequals : Respelling "text/plain;;CHARSET=\"UTF-8\"".toList "text/plain;;CHARSET = \"UTF-8\"".toList :=
    @Respelling.param "text/plain;".toList "CHARSET=\"UTF-8\"".toList "CHARSET = \"UTF-8\"".toList [] (by decide)
      (@SameParam.equals "CHARSET".toList [' '] [' '] "\"UTF-8\"".toList (by decide) hspace hspace) (.inl rfl)
  have hread : ofString? "Text/Plain;charset=\"UTF-8\"" = some ⟨"text/plain", [("charset", "UTF-8")]⟩ := by
    decide +kernel
  obtain ⟨hrespelled, hnormal⟩ :=
    normalForm "Text/Plain;charset=\"UTF-8\"" "text/plain;;CHARSET = \"UTF-8\""
  refine ⟨hread, ?_, (hnormal _ hread).1⟩
  rw [← hrespelled ?_, hread]
  exact ((Relation.EqvGen.rel _ _ hbase).trans _ _ _ (.rel _ _ hblank)).trans _ _ _
    ((Relation.EqvGen.rel _ _ hname).trans _ _ _ (.rel _ _ hequals))

end WebOfThings.MediaType
