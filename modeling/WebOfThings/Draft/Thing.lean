import WebOfThings.Draft.Affordance
import WebOfThings.Thing.Basic

/-!
# Drafts of things

A description that is being written down, piece by piece and in any order. Nothing is checked before it is
built (`build` of `ThingBuilder`); then the vocabulary comes first, then the security definitions, the forms
and variables of the thing, its affordances, and at last the security of all forms. The first fault in this
order is the one that is reported, whatever order the pieces were added in.

Named pieces are kept as lists, since a name may be added twice. `collect` turns such a list into a
dictionary: each entry is built before its name is looked at, so that of two entries with one name a fault
inside of the second is reported before the repetition. Security definitions and affordances may not repeat
a name, prefixes and variables may, and the last one counts.

A default vocabulary that is not given is that of Thing Descriptions. Further members (`metadata`) are kept
under their names and written last.

Main statement: `collect_eq_ok_iff` (a list of named entries can be collected if no name is repeated).
-/

namespace WebOfThings

/-- A description that is being written down. Its points in time are those that RFC 3339 can write: any other one
could be built into a description, but not exported. -/
structure ThingDraft where
  id : String
  context : Option String := none
  prefixes : List (String × String) := []
  labels : Labels := {}
  version : Option VersionInfo := none
  created : Option Timestamp := none
  modified : Option Timestamp := none
  support : Option String := none
  base : Option String := none
  properties : List (String × PropertyDraft) := []
  actions : List (String × ActionDraft) := []
  events : List (String × EventDraft) := []
  links : List Link := []
  forms : List Form := []
  uriVariables : List (String × SchemaDraft) := []
  security : List String := []
  securityDefinitions : List (String × SecurityScheme) := []
  metadata : Dict Json := []

namespace ThingDraft

/-- The vocabulary: the given default or that of Thing Descriptions, and the prefixes in order. -/
def buildContext (d : ThingDraft) : Except DraftError Context :=
  let default? :=
    match d.context with
    | some iri => Context.ofIri? iri
    | none => some .standard
  match default?.bind fun c => d.prefixes.foldlM (fun c (name, iri) => c.insertPrefix? name iri) c with
  | some c => .ok c
  | none => .error .emptyIri

/-- Named entries, each of them built before its name is checked; the first fault is reported. -/
def collect {α β : Type} (build : α → Except DraftError β) (duplicate : String → DraftError) :
    Dict β → List (String × α) → Except DraftError (Dict β)
  | d, [] => .ok d
  | d, (name, x) :: rest =>
    match build x with
    | .error e => .error e
    | .ok y =>
      if d.contains name then .error (duplicate name)
      else collect build duplicate (d.insert name y) rest

/-- The first name of a security list that has no definition. -/
def checkSecurity (definitions : Dict SecurityScheme) (names : List String) :
    Except DraftError Unit :=
  match names.find? fun name => !definitions.contains name with
  | some name => .error (.undefinedSecurity name)
  | none => .ok ()

/-- The forms of a thing and of all its affordances. -/
def allForms (forms : List Form) (interactions : List Interaction) : List Form :=
  forms ++ interactions.flatMap (·.forms)

/-- The description of a draft, or its first fault. -/
def build (d : ThingDraft) : Except DraftError Thing := do
  let context ← d.buildContext
  let securityDefinitions ←
    collect .ok .duplicateSecurityDefinition [] d.securityDefinitions
  checkSecurity securityDefinitions d.security
  FormPlace.thing.checkForms d.forms
  let uriVariables ← SchemaDraft.buildVariables d.uriVariables
  let properties ← collect PropertyDraft.build (.duplicateAffordance .property) [] d.properties
  let actions ← collect ActionDraft.build (.duplicateAffordance .action) [] d.actions
  let events ← collect EventDraft.build (.duplicateAffordance .event) [] d.events
  let interactions :=
    (Dict.values properties).map (·.interaction) ++ (Dict.values actions).map (·.interaction) ++
      (Dict.values events).map (·.interaction)
  (allForms d.forms interactions).forM fun f =>
    checkSecurity securityDefinitions (f.security.getD [])
  return { context, id := d.id, labels := d.labels, version := d.version, created := d.created,
           modified := d.modified, support := d.support, base := d.base, properties, actions, events,
           links := d.links, forms := d.forms, security := d.security, securityDefinitions,
           uriVariables, metadata := d.metadata }

/-- Entries that need no building can be collected if their names differ from each other and from those
that are there. -/
theorem collect_eq_ok_iff {β : Type} {duplicate : String → DraftError} {d : Dict β}
    {entries : List (String × β)} :
    (∃ r, collect .ok duplicate d entries = .ok r) ↔
      (entries.map Prod.fst).Nodup ∧ ∀ e ∈ entries, d.contains e.1 = false := by
  induction entries generalizing d with
  | nil => simp [collect]
  | cons e rest ih =>
    obtain ⟨name, x⟩ := e
    simp only [collect]
    by_cases h : d.contains name = true
    · simp [h]
    · simp only [h, Bool.false_eq_true, if_false, ih, List.map_cons, List.nodup_cons,
        List.forall_mem_cons, List.mem_map]
      simp only [Dict.contains, Dict.get?_insert]
      constructor
      · rintro ⟨hd, hc⟩
        refine ⟨⟨?_, hd⟩, by simp, fun e he => ?_⟩
        · rintro ⟨e, he, hn⟩
          have := hc e he
          simp [hn] at this
        · have := hc e he
          split at this
          · cases this
          · exact this
      · rintro ⟨⟨hn, hd⟩, -, hc⟩
        refine ⟨hd, fun e he => ?_⟩
        rw [if_neg fun heq => hn ⟨e, he, heq.symm⟩]
        exact hc e he

end ThingDraft
end WebOfThings
