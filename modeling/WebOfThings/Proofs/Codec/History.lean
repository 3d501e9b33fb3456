import Mathlib.Data.List.Induction
import WebOfThings.Codec.Registry
import WebOfThings.Proofs.Json.Normal
import WebOfThings.Proofs.MediaType.Letters

/-!
# The history of a registry

A registry of codecs is what a history of calls has made of it, each of which adds or removes the codec of a
media type (`CodecCall`). What holds for a media type in the end is decided by the last call about it
(`LastAdded`): one call keeps this (`Reflects.apply`), and so does a run of calls, by induction from its
last one (`reflects_run`).

Everything that a registry is asked then follows from its history (`FollowsHistory`): which codec converts a
text, what is supported and offered, and what a removal answers. Main statement: `followsHistory_run`.

The calls are `add_codec` and `remove_codec`, in any number and order, on a registry that was empty or
standard at first; the standard one is the run of four calls that make it (`builtIn`), so no case is
special. Codecs are data, so a history may add a codec that fails, or one with the name of another. Calls
about other media types may be left out of a history without any effect on what is answered about this one
(`lastAdded_filter_iff`): the isolation of media types is a statement about histories before it is one about
registries.
-/

namespace WebOfThings

/-! ## Calls -/

/-- A call to a registry of codecs. -/
inductive CodecCall where
  | add (codec : Codec) (offered : Bool)
  | remove (mediaType : String)

namespace CodecCall

/-- The media type that a call is about, in lower case. -/
def about : CodecCall → String
  | add codec _ => MediaType.lowerCase codec.mediaType
  | remove mediaType => MediaType.lowerCase mediaType

/-- The registry after a call. -/
def apply (r : CodecRegistry) : CodecCall → CodecRegistry
  | add codec offered => r.add codec offered
  | remove mediaType => r.remove mediaType

/-- The registry after calls, one after the other. -/
def run (r : CodecRegistry) (calls : List CodecCall) : CodecRegistry := calls.foldl apply r

/-- The calls that make the standard registry of the empty one. -/
def builtIn : List CodecCall :=
  [add .json true, add .thingDescription true, add .plainText false, add .cbor false]

theorem run_append (r : CodecRegistry) (calls more : List CodecCall) :
    run r (calls ++ more) = run (run r calls) more := List.foldl_append

/-- The standard registry is the one to which the codecs that are built in were added. -/
theorem run_builtIn_append (calls : List CodecCall) :
    run .empty (builtIn ++ calls) = run .standard calls := run_append .empty builtIn calls

/-- The last call about a media type adds a codec for it. -/
def LastAdded (history : List CodecCall) (key : String) (codec : Codec) (offered : Bool) : Prop :=
  ∃ before after, history = before ++ add codec offered :: after ∧
    MediaType.lowerCase codec.mediaType = key ∧ ∀ c ∈ after, c.about ≠ key

/-- Without calls nothing was added. -/
theorem not_lastAdded_nil {key : String} {codec : Codec} {offered : Bool} :
    ¬ LastAdded [] key codec offered := by
  rintro ⟨before, after, h, -⟩
  simp at h

/-- A call decides about its own media type and about no other. -/
theorem lastAdded_concat_iff {history : List CodecCall} {c : CodecCall} {key : String} {codec : Codec}
    {offered : Bool} :
    LastAdded (history ++ [c]) key codec offered ↔
      if c.about = key then c = add codec offered else LastAdded history key codec offered := by
  constructor
  · rintro ⟨before, after, hhistory, hkey, hafter⟩
    -- Either the new call is the one that added the codec, or it came after that one and is about another type.
    rcases after.eq_nil_or_concat with rfl | ⟨after, d, rfl⟩
    · obtain ⟨-, hc⟩ := List.append_inj' hhistory rfl
      obtain rfl : c = add codec offered := List.singleton_inj.1 hc
      rw [if_pos (show (add codec offered).about = key from hkey)]
    · rw [List.concat_eq_append] at hhistory hafter
      rw [← List.cons_append, ← List.append_assoc] at hhistory
      obtain ⟨hrest, hc⟩ := List.append_inj' hhistory rfl
      obtain rfl : c = d := List.singleton_inj.1 hc
      rw [if_neg (hafter c (by simp))]
      exact ⟨before, after, hrest, hkey, fun e he => hafter e (List.mem_append_left _ he)⟩
  · split
    · next hkey =>
      rintro rfl
      exact ⟨history, [], rfl, hkey, List.forall_mem_nil _⟩
    · next hother =>
      rintro ⟨before, after, rfl, hkey, hafter⟩
      refine ⟨before, after ++ [c], by simp, hkey, fun d hd => ?_⟩
      rcases List.mem_append.1 hd with hd | hd
      · exact hafter d hd
      · rwa [List.mem_singleton.1 hd]

/-- Calls about other media types may be left out. -/
theorem lastAdded_filter_iff (before calls : List CodecCall) {key : String} {codec : Codec} {offered : Bool} :
    LastAdded (before ++ calls.filter fun c => c.about = key) key codec offered ↔
      LastAdded (before ++ calls) key codec offered := by
  induction calls using List.reverseRecOn with
  | nil => rfl
  | append_singleton calls c ih =>
    rw [List.filter_append, ← List.append_assoc, ← List.append_assoc, lastAdded_concat_iff]
    by_cases hc : c.about = key
    · rw [List.filter_cons_of_pos (by simpa using hc), List.filter_nil, lastAdded_concat_iff, if_pos hc,
        if_pos hc]
    · rw [List.filter_cons_of_neg (by simpa using hc), List.filter_nil, List.append_nil, if_neg hc, ih]

/-! ## What calls leave behind -/

/-- A media type is offered if it is filed as such. -/
theorem mem_offeredTypes_iff {r : CodecRegistry} (hr : r.offered.Sorted) {key : String} :
    key ∈ r.offeredTypes ↔ Dict.get? key r.offered = some () := by
  constructor
  · intro h
    obtain ⟨⟨k, u⟩, he, rfl⟩ := List.mem_map.1 h
    exact Dict.get?_of_mem hr he
  · exact fun h => List.mem_map.2 ⟨_, Dict.mem_of_get? h, rfl⟩

/-- A registry has the codecs that its history added last, and offers those of them that were offered. -/
structure Reflects (r : CodecRegistry) (history : List CodecCall) : Prop where
  sortedCodecs : r.codecs.Sorted
  sortedOffered : r.offered.Sorted
  codec : ∀ key codec, r.codec? key = some codec ↔ ∃ offered, LastAdded history key codec offered
  offered : ∀ key, key ∈ r.offeredTypes ↔ ∃ codec, LastAdded history key codec true

/-- An empty registry reflects that nothing was called. -/
theorem reflects_empty : Reflects .empty [] where
  sortedCodecs := Dict.sorted_nil
  sortedOffered := Dict.sorted_nil
  codec _ _ := iff_of_false nofun fun ⟨_, h⟩ => not_lastAdded_nil h
  offered _ := iff_of_false List.not_mem_nil fun ⟨_, h⟩ => not_lastAdded_nil h

/-- Both dictionaries stay in order, and the call says what becomes of its own media type. -/
theorem sorted_apply {r : CodecRegistry} (hcodecs : r.codecs.Sorted) (hoffered : r.offered.Sorted)
    (c : CodecCall) : (c.apply r).codecs.Sorted ∧ (c.apply r).offered.Sorted := by
  cases c with
  | add codec offered =>
    refine ⟨hcodecs.insert _ _, ?_⟩
    show Dict.Sorted (if offered then _ else _)
    split
    · exact hoffered.insert _ _
    · exact hoffered.erase _
  | remove mediaType => exact ⟨hcodecs.erase _, hoffered.erase _⟩

/-- What a call does to the media types on offer. -/
theorem get?_offered_apply {r : CodecRegistry} (hoffered : r.offered.Sorted) (c : CodecCall) (key : String) :
    Dict.get? key (c.apply r).offered = some () ↔
      if c.about = key then ∃ codec, c = add codec true else Dict.get? key r.offered = some () := by
  cases c with
  | add codec offered =>
    cases offered with
    | true =>
      show Dict.get? key (Dict.insert _ () r.offered) = some () ↔ _
      rw [Dict.get?_insert, about]
      split <;> simp
    | false =>
      show Dict.get? key (Dict.erase _ r.offered) = some () ↔ _
      rw [Dict.get?_erase hoffered, about]
      split <;> simp
  | remove mediaType =>
    show Dict.get? key (Dict.erase _ r.offered) = some () ↔ _
    rw [Dict.get?_erase hoffered, about]
    split <;> simp

/-- What a call does to the codecs of all media types. -/
theorem codec?_apply {r : CodecRegistry} (hcodecs : r.codecs.Sorted) (c : CodecCall) (key : String)
    (codec : Codec) :
    (c.apply r).codec? key = some codec ↔
      if c.about = key then ∃ offered, c = add codec offered else r.codec? key = some codec := by
  cases c with
  | add added offered =>
    rw [apply, CodecRegistry.codec?_add, about]
    split <;> simp
  | remove mediaType =>
    rw [apply, CodecRegistry.codec?_remove hcodecs, about]
    split <;> simp

/-- A call keeps a registry in step with its history. -/
theorem Reflects.apply {r : CodecRegistry} {history : List CodecCall} (h : Reflects r history)
    (c : CodecCall) : Reflects (c.apply r) (history ++ [c]) where
  sortedCodecs := (sorted_apply h.sortedCodecs h.sortedOffered c).1
  sortedOffered := (sorted_apply h.sortedCodecs h.sortedOffered c).2
  codec key codec := by
    rw [codec?_apply h.sortedCodecs]
    simp only [lastAdded_concat_iff]
    split
    · rfl
    · exact h.codec key codec
  offered key := by
    rw [mem_offeredTypes_iff (sorted_apply h.sortedCodecs h.sortedOffered c).2,
      get?_offered_apply h.sortedOffered, ← mem_offeredTypes_iff h.sortedOffered]
    simp only [lastAdded_concat_iff]
    split
    · rfl
    · exact h.offered key

/-- Hence a registry is in step with the calls that were made on it. -/
theorem reflects_run (history : List CodecCall) : Reflects (run .empty history) history := by
  induction history using List.reverseRecOn with
  | nil => exact reflects_empty
  | append_singleton history c ih =>
    rw [run_append]
    exact ih.apply c

/-! ## What a registry answers -/

/-- Values are converted in a media type by a codec, or as CBOR where there is none. -/
def ConvertsBy (r : CodecRegistry) (text : String) (params : Dict String) : Option Codec → Prop
  | some codec =>
    (∀ v, r.encode v text =
      ((codec.encode v params).map (Content.mk (some text))).mapError (.encode codec.mediaType)) ∧
    ∀ content default schema, Content.contentTypeOr content default = text →
      r.decode content default schema =
        (codec.decode content.body schema params).mapError (.decode codec.mediaType)
  | none =>
    (∀ v, r.encode v text = .ok ⟨some text, Cbor.write v⟩) ∧
    ∀ content default schema, Content.contentTypeOr content default = text →
      r.decode content default schema = (Codec.decodeCbor content.body).mapError (.unsupported text)

/-- A registry converts by the codec of the base type. -/
theorem convertsBy_codec? (r : CodecRegistry) {text : String} {m : MediaType}
    (hm : MediaType.ofString? text = some m) : ConvertsBy r text m.params (r.codec? m.essence) := by
  cases hcodec : r.codec? m.essence with
  | some codec =>
    refine ⟨fun v => ?_, fun content default schema htext => ?_⟩
    · simp only [CodecRegistry.encode, hm, hcodec]
      cases codec.encode v m.params <;> rfl
    · simp only [CodecRegistry.decode, htext, hm, hcodec]
      cases codec.decode content.body schema m.params <;> rfl
  | none =>
    refine ⟨fun v => ?_, fun content default schema htext => ?_⟩
    · simp only [CodecRegistry.encode, hm, hcodec]
    · simp only [CodecRegistry.decode, htext, hm, hcodec]
      cases Codec.decodeCbor content.body <;> rfl

/-- A text is supported if it is a media type whose base type has a codec. -/
theorem supports_iff {r : CodecRegistry} {text : String} :
    r.supports text = true ↔
      ∃ m codec, MediaType.ofString? text = some m ∧ r.codec? m.essence = some codec := by
  rw [CodecRegistry.supports, Option.isSome_iff_exists]
  simp only [Option.bind_eq_some_iff]
  exact exists_comm

/-- Two registries treat a media type alike. -/
structure Alike (key : String) (r r' : CodecRegistry) : Prop where
  removal : ∀ mediaType, MediaType.lowerCase mediaType = key →
    r.hasCodec mediaType = r'.hasCodec mediaType
  offered : key ∈ r.offeredTypes ↔ key ∈ r'.offeredTypes
  supports : ∀ text m, MediaType.ofString? text = some m → m.essence = key →
    r.supports text = r'.supports text
  encode : ∀ text m, MediaType.ofString? text = some m → m.essence = key →
    ∀ v, r.encode v text = r'.encode v text
  decode : ∀ content default m,
    MediaType.ofString? (Content.contentTypeOr content default) = some m → m.essence = key →
    ∀ schema, r.decode content default schema = r'.decode content default schema

/-- Of a media type, registries tell its codec and whether it is offered. -/
theorem alike_of_codec?_eq {key : String} {r r' : CodecRegistry} (hcodec : r.codec? key = r'.codec? key)
    (hoffered : key ∈ r.offeredTypes ↔ key ∈ r'.offeredTypes) : Alike key r r' where
  removal mediaType h := by rw [CodecRegistry.hasCodec, CodecRegistry.hasCodec, h, hcodec]
  offered := hoffered
  supports text m hm h := by
    subst h
    simp only [CodecRegistry.supports, hm, Option.bind_some, hcodec]
  encode text m hm h v := by
    subst h
    simp only [CodecRegistry.encode, hm, hcodec]
  decode content default m hm h schema := by
    subst h
    simp only [CodecRegistry.decode, hm, hcodec]

/-- Registries with the same last calls about a media type treat it alike. -/
theorem Reflects.alike {r r' : CodecRegistry} {history history' : List CodecCall} (h : Reflects r history)
    (h' : Reflects r' history') {key : String}
    (hlast : ∀ codec offered, LastAdded history key codec offered ↔ LastAdded history' key codec offered) :
    Alike key r r' := by
  refine alike_of_codec?_eq (Option.ext fun codec => ?_) ?_
  · rw [h.codec, h'.codec]
    exact exists_congr fun offered => hlast codec offered
  · rw [h.offered, h'.offered]
    exact exists_congr fun codec => hlast codec true

/-- A registry is what its history says. -/
structure FollowsHistory (r : CodecRegistry) (history : List CodecCall) : Prop where
  /-- Values are converted by the codec that was added last for the base type, if it has not been removed
  since, and as CBOR if there is none. -/
  conversion : ∀ text m, MediaType.ofString? text = some m →
    ∃ codec?, ConvertsBy r text m.params codec? ∧
      ∀ codec, codec? = some codec ↔ ∃ offered, LastAdded history m.essence codec offered
  /-- A text is supported if there is such a codec. -/
  supported : ∀ text, r.supports text = true ↔
    ∃ m codec offered, MediaType.ofString? text = some m ∧ LastAdded history m.essence codec offered
  /-- The offered media types are in order and are not repeated. -/
  increasing : r.offeredTypes.Pairwise (· < ·)
  /-- A media type is offered if the last call about it adds and offers it. -/
  offered : ∀ key, key ∈ r.offeredTypes ↔ ∃ codec, LastAdded history key codec true
  /-- What is offered has a codec, and is supported if the codec tells a bare media type. -/
  registered : ∀ key ∈ r.offeredTypes, ∃ codec, r.codec? key = some codec ∧
    MediaType.lowerCase codec.mediaType = key ∧
    (MediaType.IsBare codec.mediaType.toList → r.supports key = true)
  /-- A removal tells whether there is a codec to remove. -/
  removal : ∀ mediaType, r.hasCodec mediaType = true ↔
    ∃ codec offered, LastAdded history (MediaType.lowerCase mediaType) codec offered
  /-- A call leaves all media types alone but its own. -/
  apart : ∀ c key, about c ≠ key → Alike key (c.apply r) r

/-- What a registry answers follows from the history that it reflects. -/
theorem Reflects.followsHistory {r : CodecRegistry} {history : List CodecCall} (h : Reflects r history) :
    FollowsHistory r history where
  conversion text m hm := ⟨_, convertsBy_codec? r hm, h.codec m.essence⟩
  supported text := by
    simp only [supports_iff, h.codec]
    exact exists_congr fun m => exists_congr fun codec => exists_and_left.symm
  increasing := Dict.sorted_iff_keys.1 h.sortedOffered
  offered := h.offered
  registered key hkey := by
    obtain ⟨codec, hlast⟩ := (h.offered key).1 hkey
    have hcodec := (h.codec key codec).2 ⟨true, hlast⟩
    obtain ⟨before, after, -, rfl, -⟩ := hlast
    exact ⟨codec, hcodec, rfl, fun hbare =>
      supports_iff.2 ⟨_, codec, MediaType.ofString?_lowerCase hbare, hcodec⟩⟩
  removal mediaType := by
    rw [CodecRegistry.hasCodec, Option.isSome_iff_exists]
    exact exists_congr fun codec => h.codec _ codec
  apart c key hc := by
    refine (h.apply c).alike h fun codec offered => ?_
    rw [lastAdded_concat_iff, if_neg hc]

/-- Whatever codecs have been added and removed, a registry that was empty or standard at first is what the
calls say since then, after those that make the standard one; of a media type it is what the calls about this
media type make of it. -/
theorem followsHistory_run (calls : List CodecCall) :
    (FollowsHistory (run .empty calls) calls ∧
      ∀ key, Alike key (run .empty calls) (run .empty (calls.filter fun c => c.about = key))) ∧
    FollowsHistory (run .standard calls) (builtIn ++ calls) ∧
      ∀ key, Alike key (run .standard calls) (run .standard (calls.filter fun c => c.about = key)) := by
  simp only [← run_builtIn_append]
  refine ⟨⟨(reflects_run calls).followsHistory, fun key => ?_⟩,
    (reflects_run (builtIn ++ calls)).followsHistory, fun key => ?_⟩
  · exact (reflects_run calls).alike (reflects_run _) fun codec offered =>
      (lastAdded_filter_iff [] calls).symm
  · exact (reflects_run (builtIn ++ calls)).alike (reflects_run _) fun codec offered =>
      (lastAdded_filter_iff builtIn calls).symm

end CodecCall
end WebOfThings
