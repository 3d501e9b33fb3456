import Mathlib.Data.List.Forall2
import WebOfThings.Host.Discovery
import WebOfThings.Proofs.Remote.Stages

/-!
# The sources of a discovery

Discovery puts the things of the host, those of a directory and what each client finds one after the other
(`Contributions`), and drops things that the query does not match. What a source contributes is told by its
own answer: the directory all of the things that it lists or one error (`FromDirectory`), a client what it
finds or at most one error (`FromClient`).

Clients are asked one after the other, each in the world that the ones before it leave: asking one adds its
contribution (`FromClients`), and by induction over the factories so does asking all of them
(`fromClients_allClientFindings`). The answer of one source says nothing about the contributions of the
others (`Discovers.undisturbed`). Main statement: `discover_sources`.

What a source contributes depends on its answer and on the world in which it is asked, and each source is
asked exactly once, also a client that refuses. The clause about the other sources is about hosts whose
sources answer differently but do the same to the world (`SameEffects`); the contributions of the others are
then the same, whether this source found something, failed or was not there. `FromDirectory` and
`FromClient` have one case for each answer, so nothing is left open about what an answer means.
-/

namespace WebOfThings.Host

variable {ω : Type}

/-! ## What a directory lists -/

/-- A value lists some descriptions: as the items of an array, or as the members of an object. -/
inductive Lists : Json → List Json → Prop where
  | items (descriptions : List Json) : Lists (.arr descriptions) descriptions
  | members (entries : List (String × Json)) : Lists (.obj entries) (Dict.values entries)

/-- A value lists the descriptions of things, each of which can be read. -/
def DescribesAll (v : Json) (things : List Thing) : Prop :=
  ∃ descriptions, Lists v descriptions ∧
    List.Forall₂ (fun d t => Thing.ofJson d = .ok t) descriptions things

/-- A fetched value describes what it is read as. -/
theorem describe_eq_ok_iff {url : String} {v : Json} {t : Thing} :
    describe url v = .ok t ↔ (Thing.ofJson v).toOption = some t := by
  unfold describe
  cases Thing.ofJson v <;> simp [Except.toOption]

/-- Things are made of a list of values one by one, and all of them have to be readable. -/
theorem mapM_describe_eq_ok_iff {url : String} {descriptions : List Json} {things : List Thing} :
    descriptions.mapM (describe url) = .ok things ↔
      List.Forall₂ (fun d t => Thing.ofJson d = .ok t) descriptions things := by
  have hoption : ∀ d t, (Thing.ofJson d).toOption = some t ↔ Thing.ofJson d = .ok t := by
    intro d t
    cases Thing.ofJson d <;> simp [Except.toOption]
  rw [Except.mapM_eq_ok_iff fun d t => describe_eq_ok_iff, ← List.forall₂_eq_eq_eq,
    List.forall₂_map_left_iff, List.forall₂_map_right_iff]
  simp only [hoption]

/-- The things of a directory are those of all descriptions. -/
theorem listed_eq_ok_iff {url : String} {v : Json} {things : List Thing} :
    listed url v = .ok things ↔ DescribesAll v things := by
  constructor
  · intro h
    cases v with
    | arr descriptions => exact ⟨_, .items descriptions, mapM_describe_eq_ok_iff.1 h⟩
    | obj entries => exact ⟨_, .members entries, mapM_describe_eq_ok_iff.1 h⟩
    | _ => cases h
  · rintro ⟨_, ⟨descriptions⟩ | ⟨entries⟩, h⟩
    · exact mapM_describe_eq_ok_iff.2 h
    · exact mapM_describe_eq_ok_iff.2 h

/-! ## Contributions -/

/-- What the directory contributes, and the world that it leaves. -/
inductive FromDirectory (h : Host ω) (filter : ThingFilter) (w : ω) : List Finding → ω → Prop where
  /-- It is not asked for, or need not be. -/
  | skipped : filter.method = .local ∨ (filter.method = .any ∧ filter.url = none) →
      FromDirectory h filter w [] w
  /-- It is asked for and has no address. -/
  | missing : filter.method = .directory → filter.url = none →
      FromDirectory h filter w [.error (.invalidUrl "")] w
  /-- Everything that it lists can be read. -/
  | things {url : String} {v : Json} {things : List Thing} {w' : ω} : filter.method ≠ .local →
      filter.url = some url → h.fetchValue url w = (.ok v, w') → DescribesAll v things →
      h.fetchDirectory url w = (.ok things, w') → FromDirectory h filter w (things.map .ok) w'
  /-- There is nothing there, or something that it lists cannot be read. -/
  | failed {url : String} {e : HostError} {w' : ω} : filter.method ≠ .local → filter.url = some url →
      (∀ v things, (h.fetchValue url w).1 = .ok v → ¬ DescribesAll v things) →
      h.fetchDirectory url w = (.error e, w') → FromDirectory h filter w [.error e] w'

/-- The failure of a client, labelled with its scheme. -/
def clientFailure (scheme : String) (e : ClientError) : Finding := .error (.binding (.client scheme e))

/-- What an item that a client finds contributes. -/
inductive FromItem (scheme : String) : Except ClientError Thing → Finding → Prop where
  | thing (t : Thing) : FromItem scheme (.ok t) (.ok t)
  | failure (e : ClientError) : FromItem scheme (.error e) (clientFailure scheme e)

/-- What a client contributes with its answer. -/
inductive FromClient (scheme : String) :
    Except ClientError (List (Except ClientError Thing)) → List Finding → Prop where
  /-- It cannot look for things. -/
  | unsupported (operation : String) : FromClient scheme (.error (.unsupported operation)) []
  /-- It fails as a whole. -/
  | failed {e : ClientError} : (∀ operation, e ≠ .unsupported operation) →
      FromClient scheme (.error e) [clientFailure scheme e]
  /-- It finds items, each of which may be a failure. -/
  | found {items : List (Except ClientError Thing)} {findings : List Finding} :
      List.Forall₂ (FromItem scheme) items findings → FromClient scheme (.ok items) findings

/-- What the clients of some factories contribute, each in the world that those before it leave. -/
inductive FromClients (filter : ThingFilter) :
    List (ClientFactory ω) → ω → List (List Finding) → ω → Prop where
  | nil (w : ω) : FromClients filter [] w [] w
  | cons {factory : ClientFactory ω} {rest : List (ClientFactory ω)} {w w' w'' : ω}
      {answer : Except ClientError (List (Except ClientError Thing))} {findings : List Finding}
      {more : List (List Finding)} : factory.client.discover filter w = (answer, w') →
      FromClient factory.scheme answer findings → FromClients filter rest w' more w'' →
      FromClients filter (factory :: rest) w (findings :: more) w''

/-- What each source contributes to a discovery. -/
structure Contributions where
  hosted : List Finding
  directory : List Finding
  clients : List (List Finding)

/-- All contributions, source by source. -/
def Contributions.all (c : Contributions) : List Finding := c.hosted ++ c.directory ++ c.clients.flatten

/-- An error passes a filter, and a thing does if the query matches it, where there is one. -/
def passes (filter : ThingFilter) : Finding → Bool
  | .ok t => filter.query.all fun q => q.matchesThing t
  | .error _ => true

/-- A discovery collects what passes the filter of what its sources contribute. -/
structure Discovers (h : Host ω) (filter : ThingFilter) (w : ω) (result : List Finding × ω)
    (c : Contributions) : Prop where
  collected : result.1 = c.all.filter (passes filter)
  hosted : c.hosted =
    if filter.method = .directory then [] else (Dict.values h.things).map fun t => .ok t.thing
  sources : ∃ w', FromDirectory h filter w c.directory w' ∧
    if filter.method = .any then FromClients filter (Dict.values h.factories) w' c.clients result.2
    else c.clients = [] ∧ result.2 = w'

/-! ## What the sources answer -/

/-- Fetching a directory gives the things of all descriptions that are listed there, or none. -/
theorem fetchDirectory_eq_ok_iff {h : Host ω} {url : String} {w w' : ω} {things : List Thing} :
    h.fetchDirectory url w = (.ok things, w') ↔
      ∃ v, h.fetchValue url w = (.ok v, w') ∧ DescribesAll v things := by
  rw [fetchDirectory]
  split
  · next v w₁ hvalue => simp [hvalue, listed_eq_ok_iff, and_comm]
  · next e w₁ hvalue => simp [hvalue]

/-- A directory at an address contributes its things or an error. -/
theorem fromDirectory_directoryFindings {h : Host ω} {filter : ThingFilter} {url : String}
    (hmethod : filter.method ≠ .local) (hurl : filter.url = some url) (w : ω) :
    FromDirectory h filter w (h.directoryFindings url w).1 (h.directoryFindings url w).2 := by
  rw [directoryFindings]
  split
  · next things w' hfetch =>
    obtain ⟨v, hvalue, hall⟩ := fetchDirectory_eq_ok_iff.1 hfetch
    exact .things hmethod hurl hvalue hall hfetch
  · next e w' hfetch =>
    refine .failed hmethod hurl (fun v things hv hall => ?_) hfetch
    have hok : h.fetchDirectory url w = (.ok things, (h.fetchValue url w).2) :=
      fetchDirectory_eq_ok_iff.2 ⟨v, Prod.ext hv rfl, hall⟩
    rw [hfetch] at hok
    cases hok

/-- A client contributes what its answer says. -/
theorem fromClient_clientFindings (filter : ThingFilter) (factory : ClientFactory ω) (w : ω) :
    FromClient factory.scheme (factory.client.discover filter w).1 (clientFindings filter factory w).1 ∧
      (clientFindings filter factory w).2 = (factory.client.discover filter w).2 := by
  unfold clientFindings
  cases factory.client.discover filter w with
  | mk answer w' =>
    cases answer with
    | error e =>
      cases e with
      | unsupported operation => exact ⟨.unsupported operation, rfl⟩
      | transport href cause => exact ⟨.failed nofun, rfl⟩
    | ok items =>
      refine ⟨.found (List.forall₂_map_right_iff.2 (List.forall₂_same.2 fun item _ => ?_)), rfl⟩
      cases item with
      | ok t => exact .thing t
      | error e => exact .failure e

/-- Clients contribute one after the other. -/
theorem fromClients_allClientFindings (filter : ThingFilter) (factories : List (ClientFactory ω)) (w : ω) :
    ∃ findings, (allClientFindings filter factories w).1 = findings.flatten ∧
      FromClients filter factories w findings (allClientFindings filter factories w).2 := by
  induction factories generalizing w with
  | nil => exact ⟨[], rfl, .nil w⟩
  | cons factory rest ih =>
    obtain ⟨hfirst, hworld⟩ := fromClient_clientFindings filter factory w
    obtain ⟨more, hmore, hrest⟩ := ih (clientFindings filter factory w).2
    refine ⟨(clientFindings filter factory w).1 :: more, ?_, .cons rfl hfirst (hworld ▸ hrest)⟩
    rw [allClientFindings, List.flatten_cons, ← hmore]

/-- What is kept are the errors and the things that pass. -/
theorem keepAccepted_eq (filter : ThingFilter) (found : List Finding) :
    keepAccepted filter found = found.filter (passes filter) := by
  refine List.filter_congr fun f _ => ?_
  cases f with
  | error e => rfl
  | ok t =>
    simp only [passes, ThingFilter.accepts]
    cases filter.query <;> rfl

/-- What is asked of a directory. -/
def askDirectory (h : Host ω) (filter : ThingFilter) (w : ω) : List Finding × ω :=
  match filter.method, filter.url with
  | .local, _ => ([], w)
  | _, some url => h.directoryFindings url w
  | .directory, none => ([.error (.invalidUrl "")], w)
  | .any, none => ([], w)

/-- What is asked of the clients. -/
def askClients (h : Host ω) (filter : ThingFilter) (w : ω) : List Finding × ω :=
  if filter.method = .any then allClientFindings filter (Dict.values h.factories) w else ([], w)

/-- The clients are asked after the directory. -/
theorem discover_eq (h : Host ω) (filter : ThingFilter) (w : ω) :
    h.discover filter w =
      let directory := askDirectory h filter w
      let clients := askClients h filter directory.2
      (keepAccepted filter ((if filter.method = .directory then [] else h.localFindings) ++ directory.1 ++
        clients.1), clients.2) := rfl

/-- What is asked of a directory is what the directory contributes. -/
theorem fromDirectory_askDirectory (h : Host ω) (filter : ThingFilter) (w : ω) :
    FromDirectory h filter w (askDirectory h filter w).1 (askDirectory h filter w).2 := by
  unfold askDirectory
  split
  · next hmethod => exact .skipped (.inl hmethod)
  · next url hurl hmethod => exact fromDirectory_directoryFindings (fun h => hmethod h) hurl w
  · next hmethod hurl => exact .missing hmethod hurl
  · next hmethod hurl => exact .skipped (.inr ⟨hmethod, hurl⟩)

/-- Every discovery has contributions. -/
theorem exists_discovers (h : Host ω) (filter : ThingFilter) (w : ω) :
    ∃ c, Discovers h filter w (h.discover filter w) c := by
  have hdirectory := fromDirectory_askDirectory h filter w
  rw [discover_eq]
  by_cases hany : filter.method = .any
  · obtain ⟨findings, hfindings, hclients⟩ :=
      fromClients_allClientFindings filter (Dict.values h.factories) (askDirectory h filter w).2
    refine ⟨⟨_, _, findings⟩, ?_, rfl, _, hdirectory, ?_⟩
    · simp only [askClients, if_pos hany, hfindings, keepAccepted_eq, Contributions.all]
      rfl
    · simpa only [askClients, if_pos hany] using hclients
  · refine ⟨⟨_, _, []⟩, ?_, rfl, _, hdirectory, ?_⟩
    · simp only [askClients, if_neg hany, keepAccepted_eq, Contributions.all, List.flatten_nil]
      rfl
    · simp only [askClients, if_neg hany, and_self]

/-! ## One source and the others -/

/-- Two factories have clients whose discovery does the same to the world. -/
def SameEffect (filter : ThingFilter) (f f' : ClientFactory ω) : Prop :=
  ∀ w, (f.client.discover filter w).2 = (f'.client.discover filter w).2

/-- Two hosts have the same things, and their sources do the same to the world; they may answer differently. -/
structure SameEffects (filter : ThingFilter) (w : ω) (h h' : Host ω) : Prop where
  things : h.things = h'.things
  directory : ∀ url, filter.url = some url → (h.fetchDirectory url w).2 = (h'.fetchDirectory url w).2
  clients : List.Forall₂ (SameEffect filter) (Dict.values h.factories) (Dict.values h'.factories)

/-- Sources that answer the same contribute the same, whatever the others answer. -/
structure Undisturbed (filter : ThingFilter) (w : ω) (h h' : Host ω) (c c' : Contributions) : Prop where
  hosted : c.hosted = c'.hosted
  directory : (∀ url, filter.url = some url → (h.fetchDirectory url w).1 = (h'.fetchDirectory url w).1) →
    c.directory = c'.directory
  clients : ∀ (i : Nat) (f f' : ClientFactory ω), (Dict.values h.factories)[i]? = some f →
    (Dict.values h'.factories)[i]? = some f' → f.scheme = f'.scheme →
    f.client.discover filter = f'.client.discover filter → c.clients[i]? = c'.clients[i]?

theorem askDirectory_of_url {h : Host ω} {filter : ThingFilter} {url : String}
    (hmethod : filter.method ≠ .local) (hurl : filter.url = some url) (w : ω) :
    askDirectory h filter w = h.directoryFindings url w := by
  unfold askDirectory
  rw [hurl]
  cases hm : filter.method with
  | any => rfl
  | «local» => exact absurd hm hmethod
  | directory => rfl

/-- There is one contribution of a directory. -/
theorem FromDirectory.eq {h : Host ω} {filter : ThingFilter} {w w' : ω} {findings : List Finding}
    (hfrom : FromDirectory h filter w findings w') : askDirectory h filter w = (findings, w') := by
  cases hfrom with
  | skipped hwhy =>
    unfold askDirectory
    rcases hwhy with hmethod | ⟨hmethod, hurl⟩
    · simp only [hmethod]
    · simp only [hmethod, hurl]
  | missing hmethod hurl =>
    unfold askDirectory
    simp only [hmethod, hurl]
  | things hmethod hurl _ _ hfetch => rw [askDirectory_of_url hmethod hurl, directoryFindings, hfetch]
  | failed hmethod hurl _ hfetch => rw [askDirectory_of_url hmethod hurl, directoryFindings, hfetch]

/-- The world after the directory depends on nothing but what fetching it does to the world. -/
theorem askDirectory_world {h h' : Host ω} {filter : ThingFilter} {w : ω}
    (hsame : ∀ url, filter.url = some url → (h.fetchDirectory url w).2 = (h'.fetchDirectory url w).2) :
    (askDirectory h filter w).2 = (askDirectory h' filter w).2 := by
  have hworld : ∀ (h : Host ω) url, (h.directoryFindings url w).2 = (h.fetchDirectory url w).2 := by
    intro h url
    rw [directoryFindings]
    split <;> next hfetch => rw [hfetch]
  unfold askDirectory
  split
  · rfl
  · next url hurl _ => rw [hworld, hworld, hsame url hurl]
  · rfl
  · rfl

/-- Hosts that fetch the same from a directory have the same findings from it. -/
theorem askDirectory_findings {h h' : Host ω} {filter : ThingFilter} {w : ω}
    (hsame : ∀ url, filter.url = some url → (h.fetchDirectory url w).1 = (h'.fetchDirectory url w).1) :
    (askDirectory h filter w).1 = (askDirectory h' filter w).1 := by
  have hfindings : ∀ (h : Host ω) url, (h.directoryFindings url w).1 =
      match (h.fetchDirectory url w).1 with
      | .ok things => things.map .ok
      | .error e => [.error e] := by
    intro h url
    rw [directoryFindings]
    split <;> next hfetch => rw [hfetch]
  unfold askDirectory
  split
  · rfl
  · next url hurl _ => rw [hfindings, hfindings, hsame url hurl]
  · rfl
  · rfl

theorem FromItem.unique {scheme : String} {item : Except ClientError Thing} {f f' : Finding}
    (hf : FromItem scheme item f) (hf' : FromItem scheme item f') : f = f' := by
  cases hf <;> cases hf' <;> rfl

/-- There is one contribution of a client with an answer. -/
theorem FromClient.unique {scheme : String} {answer : Except ClientError (List (Except ClientError Thing))}
    {fs fs' : List Finding} (hfs : FromClient scheme answer fs) (hfs' : FromClient scheme answer fs') :
    fs = fs' := by
  cases hfs with
  | unsupported operation =>
    cases hfs' with
    | unsupported _ => rfl
    | failed hother => exact absurd rfl (hother operation)
  | failed hother =>
    cases hfs' with
    | unsupported operation => exact absurd rfl (hother operation)
    | failed _ => rfl
  | found hitems =>
    cases hfs' with
    | found hitems' =>
      have hitem : Relator.RightUnique (FromItem scheme) := fun _ _ _ hf hf' => hf.unique hf'
      exact List.right_unique_forall₂' hitem hitems hitems'

/-- What a client contributes depends on its own answer and on the world in which it is asked. -/
theorem FromClients.undisturbed {filter : ThingFilter} {factories factories' : List (ClientFactory ω)}
    {w w' w'' : ω} {findings findings' : List (List Finding)}
    (hsame : List.Forall₂ (SameEffect filter) factories factories')
    (hfrom : FromClients filter factories w findings w')
    (hfrom' : FromClients filter factories' w findings' w'') :
    w' = w'' ∧ ∀ (i : Nat) (f f' : ClientFactory ω), factories[i]? = some f → factories'[i]? = some f' →
      f.scheme = f'.scheme → f.client.discover filter = f'.client.discover filter →
        findings[i]? = findings'[i]? := by
  induction hsame generalizing w findings findings' with
  | nil =>
    cases hfrom
    cases hfrom'
    exact ⟨rfl, fun i f f' hf => by cases hf⟩
  | cons hworld hrest ih =>
    cases hfrom with
    | cons hasked hcontributes hmore =>
      cases hfrom' with
      | cons hasked' hcontributes' hmore' =>
        -- The two clients leave the same world behind, so those after them are asked in one world.
        have hw := hworld w
        rw [hasked, hasked'] at hw
        cases hw
        obtain ⟨hfinal, hothers⟩ := ih hmore hmore'
        refine ⟨hfinal, fun i f f' hf hf' hscheme hanswer => ?_⟩
        cases i with
        | zero =>
          cases hf
          cases hf'
          rw [hanswer, hasked'] at hasked
          cases hasked
          rw [hcontributes.unique (hscheme ▸ hcontributes')]
          rfl
        | succ i => exact hothers i f f' hf hf' hscheme hanswer

/-- Sources do not disturb each other. -/
theorem Discovers.undisturbed {h h' : Host ω} {filter : ThingFilter} {w : ω}
    {result result' : List Finding × ω} {c c' : Contributions} (hc : Discovers h filter w result c)
    (hc' : Discovers h' filter w result' c') (hsame : SameEffects filter w h h') :
    Undisturbed filter w h h' c c' := by
  obtain ⟨w₁, hdirectory, hclients⟩ := hc.sources
  obtain ⟨w₁', hdirectory', hclients'⟩ := hc'.sources
  have hask := hdirectory.eq
  have hask' := hdirectory'.eq
  have hworld : w₁ = w₁' := by
    have hafter : (askDirectory h filter w).2 = (askDirectory h' filter w).2 :=
      askDirectory_world hsame.directory
    rwa [hask, hask'] at hafter
  subst hworld
  refine ⟨by rw [hc.hosted, hc'.hosted, hsame.things], fun hanswer => ?_, ?_⟩
  · have h := askDirectory_findings hanswer
    rwa [hask, hask'] at h
  · by_cases hany : filter.method = .any
    · rw [if_pos hany] at hclients hclients'
      exact (hclients.undisturbed hsame.clients hclients').2
    · rw [if_neg hany] at hclients hclients'
      intros
      rw [hclients.1, hclients'.1]

/-- Discovery collects what passes the filter of what its sources contribute: the things of the host, the
things of a directory or one error, and what each client finds. What a source contributes does not depend on
the answers of the others, and looking for things of the host asks no client. -/
theorem discover_sources (h : Host ω) (filter : ThingFilter) (w : ω) :
    (∃ c, Discovers h filter w (h.discover filter w) c) ∧
    (∀ h' c c', SameEffects filter w h h' → Discovers h filter w (h.discover filter w) c →
      Discovers h' filter w (h'.discover filter w) c' → Undisturbed filter w h h' c c') ∧
    (filter.method = .local → (h.discover filter w).2 = w ∧
      ∀ factories, discover { h with factories } filter w = h.discover filter w) := by
  refine ⟨exists_discovers h filter w, fun h' c c' hsame hc hc' => hc.undisturbed hc' hsame, ?_⟩
  intro hlocal
  have hdirectory : ∀ h : Host ω, askDirectory h filter w = ([], w) := fun h =>
    (FromDirectory.skipped (.inl hlocal)).eq
  have hclients : ∀ h : Host ω, askClients h filter w = ([], w) := fun h => if_neg (by rw [hlocal]; nofun)
  refine ⟨?_, fun factories => ?_⟩
  · rw [discover_eq, hdirectory]
    show (askClients h filter w).2 = w
    rw [hclients]
  · rw [discover_eq, discover_eq, hdirectory, hdirectory]
    simp only [hclients]
    rfl

/-- A client that answers a discovery and nothing else. -/
def finding (answer : Except ClientError (List (Except ClientError Thing))) : ProtocolClient Unit where
  setSecurity _ _ w := (true, w)
  read _ := Effect.fail (.unsupported "read")
  write _ _ := Effect.fail (.unsupported "write")
  invoke _ _ := Effect.fail (.unsupported "invoke")
  observe _ := Effect.fail (.unsupported "observe")
  discover _ w := (answer, w)

/-- A host with a lamp, and with clients that find an oven, fail and cannot look for things. -/
def kitchen : Host Unit where
  factories :=
    [("coap", ⟨"coap", finding (.error (.unsupported "discovery")), Effect.pure (), Effect.pure ()⟩),
     ("http", ⟨"http", finding (.error (.transport "" "timeout")), Effect.pure (), Effect.pure ()⟩),
     ("mdns", ⟨"mDNS", finding (.ok [.error (.transport "" "refused"), .ok { id := "urn:oven" }]),
       Effect.pure (), Effect.pure ()⟩)]
  things := [("urn:lamp", .create { id := "urn:lamp" })]

/-- The same host with a client that finds a kettle in place of the one that fails. -/
def repairedKitchen : Host Unit :=
  { kitchen with
    factories :=
      [("coap", ⟨"coap", finding (.error (.unsupported "discovery")), Effect.pure (), Effect.pure ()⟩),
       ("http", ⟨"http", finding (.ok [.ok { id := "urn:kettle" }]), Effect.pure (), Effect.pure ()⟩),
       ("mdns", ⟨"mDNS", finding (.ok [.error (.transport "" "refused"), .ok { id := "urn:oven" }]),
         Effect.pure (), Effect.pure ()⟩)] }

/-- A search everywhere, with a directory that cannot be reached. -/
def everywhere : ThingFilter := { url := some "ws://directory" }

/-- A client and the directory fail, and the lamp and the oven are found all the same. With a client that answers,
the other sources contribute what they did. -/
theorem discover_sources_kitchen :
    (kitchen.discover everywhere ()).1 =
        [.ok { id := "urn:lamp" }, .error (.noClientForScheme "ws"),
         clientFailure "http" (.transport "" "timeout"), clientFailure "mDNS" (.transport "" "refused"),
         .ok { id := "urn:oven" }] ∧
      (∃ c c', Discovers kitchen everywhere () (kitchen.discover everywhere ()) c ∧
        Discovers repairedKitchen everywhere () (repairedKitchen.discover everywhere ()) c' ∧
        c.hosted = c'.hosted ∧ c.directory = c'.directory ∧ c.clients[0]? = c'.clients[0]? ∧
        c.clients[2]? = c'.clients[2]?) ∧
      discover { kitchen with factories := [] } { method := .local } () =
        kitchen.discover { method := .local } () := by
  have hsame : SameEffects everywhere () kitchen repairedKitchen :=
    { things := rfl
      directory := fun _ _ => Subsingleton.elim _ _
      clients := .cons (fun _ => rfl) (.cons (fun _ => rfl) (.cons (fun _ => rfl) .nil)) }
  obtain ⟨⟨c, hc⟩, hundisturbed, -⟩ := discover_sources kitchen everywhere ()
  obtain ⟨⟨c', hc'⟩, -⟩ := discover_sources repairedKitchen everywhere ()
  have h := hundisturbed repairedKitchen c c' hsame hc hc'
  have hdirectory : c.directory = c'.directory := by
    refine h.directory fun url hurl => ?_
    cases hurl
    rfl
  have hclients : c.clients[0]? = c'.clients[0]? ∧ c.clients[2]? = c'.clients[2]? :=
    ⟨h.clients 0 _ _ rfl rfl rfl rfl, h.clients 2 _ _ rfl rfl rfl rfl⟩
  exact ⟨rfl, ⟨c, c', hc, hc', h.hosted, hdirectory, hclients⟩,
    ((discover_sources kitchen { method := .local } ()).2.2 rfl).2 []⟩

end WebOfThings.Host
