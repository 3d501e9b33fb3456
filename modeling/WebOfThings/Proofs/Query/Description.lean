import WebOfThings.Proofs.Description.Thing
import WebOfThings.Proofs.Query.Excerpt

/-!
# Queries for parts of a description

Whatever is left of the exported description of a thing, as a template it finds that thing
(`matchesThing_of_excerpt`). Of the description no more is asked than what is true of all of them
(`Thing.Canonical`): it need not be one that has been read, nor one that could be.

An export is a value, and it contains its own excerpts (`contains_excerpt`), so all that is left is that the
export of a thing is a normal value, which holds of every description a program can put together. So a query
taken from a description that has been read finds the thing, one with members left out and items dropped as
well, and it does not matter whether the thing was read or built.
-/

namespace WebOfThings

namespace Thing

/-- The exported description is an object. -/
theorem toJson_eq (t : Thing) : t.toJson = .obj (Dict.ofList t.members) := rfl

end Thing

namespace ThingQuery

open Json

/-- Every excerpt of the description of a thing, nothing left out included, is the template of a query, and
the query finds the thing. -/
theorem matchesThing_of_excerpt {t : Thing} (ht : t.Canonical) {template : Json}
    (h : Excerpt template t.toJson) :
    ∃ q, ofTemplate template = .ok q ∧ q.template = template ∧ q.matchesThing t = true := by
  obtain ⟨kept, rfl, -⟩ := (t.toJson_eq ▸ h).exists_obj
  refine ⟨⟨kept⟩, rfl, rfl, ?_⟩
  show t.toJson.contains (.obj kept) = true
  exact contains_excerpt ht.isNormal_toJson h

/-- The description of a dimmer as it can only be made: its title stands among the members that are not
known, its state has a constant that is `null`, and the schema of its state has a title of its own. -/
def dimmer : Thing where
  id := "urn:dimmer"
  labels := { types := some ["saref:DimmerSwitch", "Thing"] }
  properties :=
    [("state",
      { interaction := { forms := [{ href := "/state" }, { href := "/on" }] }
        schema := { labels := { title := some "State" }, constant := some .null } })]
  metadata := [("title", .arr [.obj [("en", .str "Dimmer"), ("it", .str "Regolatore")], .null])]

/-- What is true of every description is true of that of the dimmer. -/
theorem canonical_dimmer : dimmer.Canonical where
  context := Context.wellFormed_iri _ |>.canonical
  labels := ⟨nofun, nofun⟩
  sortedProperties := List.pairwise_singleton ..
  properties := by
    refine List.forall_mem_singleton.2 ⟨⟨Labels.wellFormed_empty, .nil, List.forall_mem_nil _⟩, ?_⟩
    refine .intro ⟨⟨nofun, nofun⟩, ?_, nofun, nofun, nofun⟩ (List.forall_mem_nil _)
    rintro v ⟨⟩
    exact isNormal_null
  sortedActions := .nil
  actions := List.forall_mem_nil _
  sortedEvents := .nil
  events := List.forall_mem_nil _
  sortedDefinitions := .nil
  securityDefinitions := List.forall_mem_nil _
  sortedVariables := .nil
  uriVariables := List.forall_mem_nil _
  sortedMetadata := List.pairwise_singleton ..
  metadata := List.forall_mem_singleton.2 rfl

/-- One of the two types, the second form without its target and one of the translations. -/
def dimmerTemplate : Json :=
  .obj
    [("@type", .arr [.str "Thing"]),
     ("properties", .obj [("state", .obj [("const", .null), ("forms", .arr [.obj []])])]),
     ("title", .arr [.obj [("it", .str "Regolatore")]])]

theorem excerpt_dimmerTemplate : Excerpt dimmerTemplate dimmer.toJson := by
  have htypes : Excerpt (.arr [.str "Thing"]) (.arr [.str "saref:DimmerSwitch", .str "Thing"]) :=
    .arr (.drop _ (.keep (.all _) .nil))
  have hforms : Excerpt (.arr [.obj []])
      (.arr [.obj [("href", .str "/state")], .obj [("href", .str "/on")]]) :=
    .arr (.drop _ (.keep (.obj (excerptMembers_nil _)) .nil))
  have hstate : Excerpt (.obj [("const", .null), ("forms", .arr [.obj []])])
      (.obj [("const", .null), ("forms", .arr [.obj [("href", .str "/state")], .obj [("href", .str "/on")]]),
        ("title", .str "State")]) :=
    .obj (.keep _ (.all _) (.keep _ hforms (.drop _ .nil)))
  have htitle : Excerpt (.arr [.obj [("it", .str "Regolatore")]])
      (.arr [.obj [("en", .str "Dimmer"), ("it", .str "Regolatore")], .null]) :=
    .arr (.keep (.obj (.drop _ (.keep _ (.all _) .nil))) (.drop _ .nil))
  exact .obj (.drop _ (.keep _ htypes (.drop _ (.keep _ (.obj (.keep _ hstate .nil)) (.keep _ htitle .nil)))))

/-- Parts of a description that no reading could have given are found as well. -/
theorem matchesThing_of_excerpt_dimmer :
    dimmer.Canonical ∧ Excerpt dimmerTemplate dimmer.toJson ∧
      ∃ q, ofTemplate dimmerTemplate = .ok q ∧ q.template = dimmerTemplate ∧
        q.matchesThing dimmer = true :=
  ⟨canonical_dimmer, excerpt_dimmerTemplate,
    matchesThing_of_excerpt canonical_dimmer excerpt_dimmerTemplate⟩

end ThingQuery
end WebOfThings
