import WebOfThings.Proofs.Remote.Requests
import WebOfThings.Proofs.Results

/-!
# The stages of an interaction

An interaction with a remote thing goes through ten stages. `Fails` says of each stage on its own what it
means that it fails; where several would fail, the first one decides (`FirstFailure`).

`Ready` says what a request is made of when the client is asked for its consent: the chosen form with its
href expanded, the schemes in force and the credentials for them. `perform_ready` says that clients receive
nothing before that, at most one call to set up the security and at most one request after it, and that the
error names the first stage that fails.

The stages are those of `dispatch` and of what follows it, in the order of `Stage.rank`: the affordance, the
index of the form, the choice among the forms, the template, the security definitions, the credentials, the
consent of the client, the payload, the transport and the response. Each of them has a condition of its own
in `Fails`, stated for what it depends on and not for what was computed before it, so a stage can be said to
fail although an earlier one already did. The order is then a theorem and not an assumption.
-/

namespace WebOfThings

/-- The stages of an interaction. -/
inductive Stage where
  | affordance
  | formIndex
  | selection
  | template
  | undeclared
  | credentials
  | declined
  | encode
  | transport
  | decode
  deriving DecidableEq

/-- The place of a stage in the order of the stages. -/
def Stage.rank : Stage → Nat
  | affordance => 0
  | formIndex => 1
  | selection => 2
  | template => 3
  | undeclared => 4
  | credentials => 5
  | declined => 6
  | encode => 7
  | transport => 8
  | decode => 9

/-- The stage that an error comes from. Payloads fail alike whichever way they are converted. -/
def RemoteError.stage : RemoteError → Stage
  | unknown _ => .affordance
  | invalidFormIndex .. => .formIndex
  | noForm .. => .selection
  | template _ => .template
  | undeclaredSecurity _ => .undeclared
  | credentials _ => .credentials
  | securityDeclined .. => .declined
  | content .. => .encode
  | protocol .. => .transport

/-- The kind of error by which a stage fails. -/
def Stage.Reports (s : Stage) (e : RemoteError) : Prop :=
  e.stage = s ∨ (s = .decode ∧ e.stage = .encode)

namespace Remote

variable {ω : Type}

/-! ## Requests that are ready -/

/-- A form of an affordance is the one to use. -/
structure Uses (h : Host ω) (t : Thing) (target : Target) (options : InteractionOptions)
    (i : Interaction) (f : Form) : Prop where
  affordance : t.interaction? target.type target.name = some i
  chosen : ∃ place,
    Chosen (Usable h.HasClient t target.op) i.forms options.formIndex place f

/-- The schemes are those in force for a form, in the order of their names. -/
def InForce (t : Thing) (f : Form) (schemes : List SecurityScheme) : Prop :=
  (PlacedForm.securityNames ⟨f, t⟩).map (Dict.get? · t.securityDefinitions) = schemes.map some

/-- The href of a form as a template. -/
def expanded (t : Thing) (i : Interaction) (options : InteractionOptions) (f : Form) :
    Except Template.Error String :=
  Template.expand (PlacedForm.variableValues ⟨f, t⟩ i.uriVariables options.uriVariables)
    (PlacedForm.href ⟨f, t⟩)

/-- Everything about a request is settled but the consent of the client. -/
structure Ready (h : Host ω) (t : Thing) (target : Target) (options : InteractionOptions)
    (i : Interaction) (f : Form) (scheme : String) (p : Prepared ω) : Prop where
  uses : Uses h t target options i f
  absolute : Href.scheme? (PlacedForm.href ⟨f, t⟩) = some scheme
  client : (h.factory? scheme).map ClientFactory.client = some p.client
  href : expanded t i options f = .ok p.form.href
  form : p.form = { f with href := p.form.href }
  schemes : InForce t f p.schemes
  credentials : h.credentials.resolve p.schemes p.form.href (some t.id) = .ok p.credentials

/-- The schemes of a form are those in force. -/
theorem schemes_eq_ok_iff {t : Thing} {f : Form} {schemes : List SecurityScheme} :
    PlacedForm.schemes ⟨f, t⟩ = .ok schemes ↔ InForce t f schemes := by
  refine Except.mapM_eq_ok_iff fun name s => ?_
  cases Dict.get? name t.securityDefinitions <;> simp

/-- The form in force is the one whose href is expanded. -/
theorem resolve_eq_map (t : Thing) (i : Interaction) (options : InteractionOptions) (f : Form) :
    PlacedForm.resolve ⟨f, t⟩ i.uriVariables options.uriVariables =
      (expanded t i options f).map fun href => { f with href } := by
  unfold PlacedForm.resolve expanded
  cases Template.expand _ _ <;> rfl

theorem resolve_eq_ok_iff {t : Thing} {i : Interaction} {options : InteractionOptions} {f form : Form} :
    PlacedForm.resolve ⟨f, t⟩ i.uriVariables options.uriVariables = .ok form ↔
      expanded t i options f = .ok form.href ∧ form = { f with href := form.href } := by
  rw [resolve_eq_map]
  cases expanded t i options f with
  | error e => simp [Except.map]
  | ok href =>
    simp only [Except.map, Except.ok.injEq]
    constructor
    · rintro rfl
      exact ⟨rfl, rfl⟩
    · rintro ⟨rfl, hform⟩
      exact hform.symm

/-- Who uses a form has it chosen, with the client of its scheme. -/
theorem select_of_uses {h : Host ω} {t : Thing} {target : Target} {options : InteractionOptions}
    {i : Interaction} {f : Form} (hu : Uses h t target options i f) :
    ∃ scheme factory, Href.scheme? (PlacedForm.href ⟨f, t⟩) = some scheme ∧
      h.factory? scheme = some factory ∧ select h t target i options.formIndex = .ok (f, factory) := by
  obtain ⟨place, hc⟩ := hu.chosen
  exact select_of_chosen h t target hc

/-- A request is complete exactly if its href can be expanded and its security is settled. -/
theorem complete_eq_ok_iff {h : Host ω} {t : Thing} {i : Interaction} {options : InteractionOptions}
    {f : Form} {client : ProtocolClient ω} {p : Prepared ω} :
    complete h t i.uriVariables options.uriVariables f client = .ok p ↔
      p.client = client ∧ (expanded t i options f = .ok p.form.href ∧ p.form = { f with href := p.form.href }) ∧
        InForce t f p.schemes ∧
        h.credentials.resolve p.schemes p.form.href (some t.id) = .ok p.credentials := by
  rw [← resolve_eq_ok_iff, ← schemes_eq_ok_iff, complete]
  constructor
  · intro hp
    split at hp
    · cases hp
    · next form hform =>
      split at hp
      · cases hp
      · next schemes hschemes =>
        split at hp
        · cases hp
        · next credentials hcredentials =>
          cases hp
          exact ⟨rfl, hform, hschemes, hcredentials⟩
  · rintro ⟨rfl, hform, hschemes, hcredentials⟩
    simp only [hform, hschemes, hcredentials]

/-- What is prepared is what is ready. -/
theorem prepare_eq_ok_iff {h : Host ω} {t : Thing} {target : Target} {options : InteractionOptions}
    {p : Prepared ω} :
    prepare h t target options = .ok p ↔ ∃ i f scheme, Ready h t target options i f scheme p := by
  rw [prepare_eq]
  constructor
  · intro hp
    split at hp
    · cases hp
    · next i hi =>
      split at hp
      · cases hp
      · next f factory hs =>
        obtain ⟨hchosen, scheme, hscheme, hfactory⟩ := chosen_of_select h t target hs
        obtain ⟨hclient, ⟨hhref, hform⟩, hschemes, hcredentials⟩ := complete_eq_ok_iff.1 hp
        exact ⟨i, f, scheme, ⟨hi, hchosen⟩, hscheme, by rw [hfactory, Option.map_some, hclient], hhref, hform,
          hschemes, hcredentials⟩
  · rintro ⟨i, f, scheme, hr⟩
    obtain ⟨scheme', factory, hscheme, hfactory, hs⟩ := select_of_uses hr.uses
    rw [hr.absolute] at hscheme
    cases hscheme
    have hclient := hr.client
    rw [hfactory, Option.map_some, Option.some.injEq] at hclient
    simp only [hr.uses.affordance, hs]
    exact complete_eq_ok_iff.2 ⟨hclient.symm, ⟨hr.href, hr.form⟩, hr.schemes, hr.credentials⟩

/-! ## What it means that a stage fails -/

/-- A stage of an interaction fails, whatever becomes of stages that it does not depend on. -/
def Fails (h : Host ω) (t : Thing) (r : Request) (options : InteractionOptions) (w : ω) : Stage → Prop
  | .affordance => t.interaction? r.target.type r.target.name = none
  | .formIndex => ∃ i k, t.interaction? r.target.type r.target.name = some i ∧
      options.formIndex = some k ∧ i.forms.length ≤ k
  | .selection => ∃ i, t.interaction? r.target.type r.target.name = some i ∧
      NoneUsable (Usable h.HasClient t r.target.op) i.forms options.formIndex
  | .template => ∃ i f e, Uses h t r.target options i f ∧ expanded t i options f = .error e
  | .undeclared => ∃ i f, Uses h t r.target options i f ∧
      ∃ name ∈ PlacedForm.securityNames ⟨f, t⟩, Dict.get? name t.securityDefinitions = none
  | .credentials => ∃ i f href schemes e, Uses h t r.target options i f ∧
      expanded t i options f = .ok href ∧ InForce t f schemes ∧
      h.credentials.resolve schemes href (some t.id) = .error e
  | .declined => ∃ i f scheme p, Ready h t r.target options i f scheme p ∧
      (p.client.setSecurity p.schemes p.credentials w).1 = false
  | .encode => ∃ i f scheme p e, Ready h t r.target options i f scheme p ∧ r.encode h p = .error e
  | .transport => ∃ i f scheme p payload e, Ready h t r.target options i f scheme p ∧
      r.encode h p = .ok payload ∧
      (r.send p.client p.form payload (p.client.setSecurity p.schemes p.credentials w).2).1 = .error e
  | .decode => ∃ i f scheme p payload answer e, Ready h t r.target options i f scheme p ∧
      r.encode h p = .ok payload ∧
      (r.send p.client p.form payload (p.client.setSecurity p.schemes p.credentials w).2).1 = .ok answer ∧
      r.decode h t p answer = .error e

/-- A stage fails, and none before it. -/
def FirstFailure (h : Host ω) (t : Thing) (r : Request) (options : InteractionOptions) (w : ω)
    (s : Stage) : Prop :=
  Fails h t r options w s ∧ ∀ s' : Stage, s'.rank < s.rank → ¬ Fails h t r options w s'

/-- There is one first failure. -/
theorem FirstFailure.unique {h : Host ω} {t : Thing} {r : Request} {options : InteractionOptions} {w : ω}
    {s s' : Stage} (hs : FirstFailure h t r options w s) (hs' : FirstFailure h t r options w s') : s = s' := by
  -- Of two stages that fail first, neither comes before the other.
  have hle : ¬ s.rank < s'.rank := fun hlt => hs'.2 s hlt hs.1
  have hge : ¬ s'.rank < s.rank := fun hlt => hs.2 s' hlt hs'.1
  have hrank : s.rank = s'.rank := by omega
  revert hrank
  cases s <;> cases s' <;> simp [Stage.rank]

/-! ## Before the client is asked -/

theorem resolve_eq_error_iff {t : Thing} {i : Interaction} {options : InteractionOptions} {f : Form}
    {e : Template.Error} :
    PlacedForm.resolve ⟨f, t⟩ i.uriVariables options.uriVariables = .error e ↔
      expanded t i options f = .error e := by
  rw [resolve_eq_map]
  cases expanded t i options f <;> simp [Except.map]

/-- Security that cannot be resolved names something that is not declared. -/
theorem exists_undeclared_of_schemes {t : Thing} {f : Form} {e : UndeclaredSecurity}
    (he : PlacedForm.schemes ⟨f, t⟩ = .error e) :
    ∃ name ∈ PlacedForm.securityNames ⟨f, t⟩, Dict.get? name t.securityDefinitions = none := by
  obtain ⟨name, hname, hf⟩ := Except.exists_error_of_mapM he
  refine ⟨name, hname, ?_⟩
  cases hd : Dict.get? name t.securityDefinitions with
  | none => rfl
  | some s =>
    simp only [hd] at hf
    cases hf

theorem not_inForce_of_undeclared {t : Thing} {f : Form} {name : String}
    (hname : name ∈ PlacedForm.securityNames ⟨f, t⟩) (hnone : Dict.get? name t.securityDefinitions = none)
    (schemes : List SecurityScheme) : ¬ InForce t f schemes := by
  intro h
  have hmem : none ∈ schemes.map some := by
    rw [← h]
    exact List.mem_map.2 ⟨name, hname, hnone⟩
  obtain ⟨s, -, hs⟩ := List.mem_map.1 hmem
  cases hs

/-- What cannot be prepared fails at the stage of the error. -/
theorem fails_of_prepare_error {h : Host ω} {t : Thing} {r : Request} {options : InteractionOptions} (w : ω)
    {e : RemoteError} (he : prepare h t r.target options = .error e) :
    e.stage.rank ≤ Stage.credentials.rank ∧ Fails h t r options w e.stage := by
  rw [prepare_eq] at he
  split at he
  · next hi =>
    cases he
    exact ⟨by simp [RemoteError.stage, Stage.rank], hi⟩
  · next i hi =>
    split at he
    · next e' hs =>
      -- No form has been chosen: there is none to use, or the index is wrong.
      cases he
      rcases select_error_cases h t r.target hs with ⟨label, op, rfl⟩ | ⟨label, k, rfl⟩
      · obtain ⟨-, -, hnone⟩ := (select_eq_noForm_iff h t r.target).1 hs
        exact ⟨by simp [RemoteError.stage, Stage.rank], i, hi, hnone⟩
      · obtain ⟨-, hindex, hlength⟩ := (select_eq_invalidFormIndex_iff h t r.target).1 hs
        exact ⟨by simp [RemoteError.stage, Stage.rank], i, k, hi, hindex, hlength⟩
    · next f factory hs =>
      -- The chosen form is completed step by step.
      have hu : Uses h t r.target options i f := ⟨hi, (chosen_of_select h t r.target hs).1⟩
      unfold complete at he
      split at he
      · next e' hresolve =>
        cases he
        exact ⟨by simp [RemoteError.stage, Stage.rank], i, f, e', hu, resolve_eq_error_iff.1 hresolve⟩
      · next form hresolve =>
        split at he
        · next e' hschemes =>
          cases he
          exact ⟨by simp [RemoteError.stage, Stage.rank], i, f, hu, exists_undeclared_of_schemes hschemes⟩
        · next schemes hschemes =>
          split at he
          · next e' hcredentials =>
            cases he
            exact ⟨by simp [RemoteError.stage], i, f, form.href, schemes, e', hu,
              (resolve_eq_ok_iff.1 hresolve).1, schemes_eq_ok_iff.1 hschemes, hcredentials⟩
          · cases he

/-- Where a stage fails before the client is asked, nothing can be prepared, and the error is from that
stage or an earlier one. -/
theorem prepare_error_of_fails {h : Host ω} {t : Thing} {r : Request} {options : InteractionOptions} {w : ω}
    {s : Stage} (hs : Fails h t r options w s) (hrank : s.rank ≤ Stage.credentials.rank) :
    ∃ e, prepare h t r.target options = .error e ∧ e.stage.rank ≤ s.rank := by
  -- The chosen form leads to `complete`, which fails at the latest where `s` does.
  have hcomplete : ∀ {i f}, Uses h t r.target options i f →
      (∀ client : ProtocolClient ω, ∃ e,
        complete h t i.uriVariables options.uriVariables f client = .error e ∧ e.stage.rank ≤ s.rank) →
      ∃ e, prepare h t r.target options = .error e ∧ e.stage.rank ≤ s.rank := by
    intro i f hu hc
    obtain ⟨-, factory, -, -, hselect⟩ := select_of_uses hu
    obtain ⟨e, he, hle⟩ := hc factory.client
    refine ⟨e, ?_, hle⟩
    simp only [prepare_eq, hu.affordance, hselect, he]
  cases s with
  | affordance =>
    have hi : t.interaction? r.target.type r.target.name = none := hs
    exact ⟨.unknown ⟨t.id, r.target.type, r.target.name⟩, by simp only [prepare_eq, hi], Nat.le_refl _⟩
  | formIndex =>
    obtain ⟨i, k, hi, hindex, hlength⟩ := hs
    have hselect := (select_eq_invalidFormIndex_iff h t r.target).2 ⟨rfl, hindex, hlength⟩
    refine ⟨.invalidFormIndex (r.target.label t) k, ?_, Nat.le_refl _⟩
    simp only [prepare_eq, hi, hselect]
  | selection =>
    obtain ⟨i, hi, hnone⟩ := hs
    have hselect := (select_eq_noForm_iff h t r.target).2 ⟨rfl, rfl, hnone⟩
    refine ⟨.noForm (r.target.label t) r.target.op, ?_, Nat.le_refl _⟩
    simp only [prepare_eq, hi, hselect]
  | template =>
    obtain ⟨i, f, e, hu, he⟩ := hs
    refine hcomplete hu fun client => ⟨.template e, ?_, Nat.le_refl _⟩
    simp only [complete, resolve_eq_error_iff.2 he]
  | undeclared =>
    obtain ⟨i, f, hu, name, hname, hnone⟩ := hs
    refine hcomplete hu fun client => ?_
    -- The template may fail as well, and it comes before the security.
    unfold complete
    cases PlacedForm.resolve ⟨f, t⟩ i.uriVariables options.uriVariables with
    | error e => exact ⟨_, rfl, by simp [RemoteError.stage, Stage.rank]⟩
    | ok form =>
      cases hschemes : PlacedForm.schemes ⟨f, t⟩ with
      | error e => exact ⟨_, rfl, Nat.le_refl _⟩
      | ok schemes => exact absurd (schemes_eq_ok_iff.1 hschemes) (not_inForce_of_undeclared hname hnone schemes)
  | credentials =>
    obtain ⟨i, f, href, schemes, e, hu, hhref, hschemes, he⟩ := hs
    refine hcomplete hu fun client => ⟨.credentials e, ?_, Nat.le_refl _⟩
    -- Credentials are looked up only once the href and the schemes are there.
    have hresolve : PlacedForm.resolve ⟨f, t⟩ i.uriVariables options.uriVariables = .ok { f with href } :=
      resolve_eq_ok_iff.2 ⟨hhref, rfl⟩
    simp only [complete, hresolve, schemes_eq_ok_iff.2 hschemes, he]
  | declined | encode | transport | decode => simp [Stage.rank] at hrank

/-! ## Once the request is ready -/

section

variable {h : Host ω} {t : Thing} {r : Request} {options : InteractionOptions} {w : ω} {p : Prepared ω}

/-- A request that is prepared has failed at no stage before the client. -/
theorem not_fails_of_prepared (hp : prepare h t r.target options = .ok p) {s : Stage}
    (hrank : s.rank ≤ Stage.credentials.rank) : ¬ Fails h t r options w s := by
  intro hs
  obtain ⟨e, he, -⟩ := prepare_error_of_fails hs hrank
  rw [hp] at he
  cases he

/-- There is one request that is ready at most. -/
theorem exists_ready_iff (hp : prepare h t r.target options = .ok p) {P : Prepared ω → Prop} :
    (∃ i f scheme p', Ready h t r.target options i f scheme p' ∧ P p') ↔ P p := by
  constructor
  · rintro ⟨i, f, scheme, p', hr, hP⟩
    have hp' := prepare_eq_ok_iff.2 ⟨i, f, scheme, hr⟩
    rw [hp] at hp'
    cases hp'
    exact hP
  · intro hP
    obtain ⟨i, f, scheme, hr⟩ := prepare_eq_ok_iff.1 hp
    exact ⟨i, f, scheme, p, hr, hP⟩

theorem fails_declined_iff (hp : prepare h t r.target options = .ok p) :
    Fails h t r options w .declined ↔ (p.client.setSecurity p.schemes p.credentials w).1 = false :=
  exists_ready_iff (P := fun p => (p.client.setSecurity p.schemes p.credentials w).1 = false) hp

theorem fails_encode_iff (hp : prepare h t r.target options = .ok p) :
    Fails h t r options w .encode ↔ ∃ e, r.encode h p = .error e := by
  rw [← exists_ready_iff (P := fun p => ∃ e, r.encode h p = .error e) hp]
  simp only [Fails, exists_and_left]

theorem fails_transport_iff (hp : prepare h t r.target options = .ok p) :
    Fails h t r options w .transport ↔ ∃ payload e, r.encode h p = .ok payload ∧
      (r.send p.client p.form payload (p.client.setSecurity p.schemes p.credentials w).2).1 = .error e := by
  rw [← exists_ready_iff (P := fun p => ∃ payload e, r.encode h p = .ok payload ∧
      (r.send p.client p.form payload (p.client.setSecurity p.schemes p.credentials w).2).1 = .error e) hp]
  simp only [Fails, exists_and_left]

theorem fails_decode_iff (hp : prepare h t r.target options = .ok p) :
    Fails h t r options w .decode ↔ ∃ payload answer e, r.encode h p = .ok payload ∧
      (r.send p.client p.form payload (p.client.setSecurity p.schemes p.credentials w).2).1 = .ok answer ∧
      r.decode h t p answer = .error e := by
  rw [← exists_ready_iff (P := fun p => ∃ payload answer e, r.encode h p = .ok payload ∧
      (r.send p.client p.form payload (p.client.setSecurity p.schemes p.credentials w).2).1 = .ok answer ∧
      r.decode h t p answer = .error e) hp]
  simp only [Fails, exists_and_left]

end

/-! ## The calls and the outcome -/

/-- Noting the calls changes no failure before the client is asked. -/
theorem prepare_recording_error {h : Host ω} {t : Thing} {target : Target} {options : InteractionOptions}
    {e : RemoteError} (he : prepare h t target options = .error e) :
    prepare h.recording t target options = .error e := by
  rw [prepare_eq] at he ⊢
  cases hi : t.interaction? target.type target.name with
  | none =>
    rw [hi] at he
    cases he
    rfl
  | some i =>
    simp only [hi, select_recording] at he ⊢
    cases hs : select h t target i options.formIndex with
    | error e' =>
      rw [hs] at he
      cases he
      rfl
    | ok chosen =>
      obtain ⟨f, factory⟩ := chosen
      simp only [hs, Except.map] at he ⊢
      show complete h.recording t _ _ f (factory.client.recording _) = _
      rw [complete_recording, he]
      rfl

/-- Nor does it change what a request is made of. -/
theorem prepare_recording_ready {h : Host ω} {t : Thing} {target : Target} {options : InteractionOptions}
    {i : Interaction} {f : Form} {scheme : String} {p : Prepared ω}
    (hr : Ready h t target options i f scheme p) :
    prepare h.recording t target options = .ok (p.recording (MediaType.lowerCase scheme)) := by
  obtain ⟨scheme', factory, hscheme, hfactory, hs⟩ := select_of_uses hr.uses
  rw [hr.absolute] at hscheme
  cases hscheme
  -- The client is the one that the host finds under the scheme.
  have hkey : clientKey t f = MediaType.lowerCase scheme := by
    rw [clientKey, PlacedForm.scheme?, hr.absolute]
    rfl
  have hclient : p.client = factory.client := by
    have hc := hr.client
    rw [hfactory] at hc
    exact (Option.some.inj hc).symm
  have hcomplete : complete h t i.uriVariables options.uriVariables f factory.client = .ok p :=
    complete_eq_ok_iff.2 ⟨hclient, ⟨hr.href, hr.form⟩, hr.schemes, hr.credentials⟩
  simp only [prepare_eq, hr.uses.affordance, select_recording, hs, Except.map, hkey]
  show complete h.recording t _ _ f (factory.client.recording _) = _
  rw [complete_recording, hcomplete]
  rfl

/-- A request that is ready goes to the client after the security is set up, if the client consents and the
payload can be encoded; what has been noted before stands in front. -/
theorem perform_recording_ready_after {h : Host ω} {t : Thing} {r : Request} {options : InteractionOptions}
    {w : ω} {i : Interaction} {f : Form} {scheme : String} {p : Prepared ω}
    (hr : Ready h t r.target options i f scheme p) (before : List Call) :
    perform h.recording t r options (w, before) =
      ((perform h t r options w).1, (perform h t r options w).2,
        before ++ callsOfReady h r (MediaType.lowerCase scheme) p w) := by
  have hp := prepare_eq_ok_iff.2 ⟨i, f, scheme, hr⟩
  have hrec := prepare_recording_ready hr
  simp only [perform_eq, dispatch, hp, hrec, callsOfReady]
  rcases hset : p.client.setSecurity p.schemes p.credentials w with ⟨consent, w'⟩
  have hrecset : (p.recording (MediaType.lowerCase scheme)).client.setSecurity
      (p.recording (MediaType.lowerCase scheme)).schemes
      (p.recording (MediaType.lowerCase scheme)).credentials (w, before) =
        (consent, w',
          before ++ [.setSecurity (MediaType.lowerCase scheme) p.schemes p.credentials consent]) := by
    simp only [Prepared.recording, ProtocolClient.recording, hset]
  rw [hrecset]
  cases consent with
  | false => rfl
  | true =>
    refine (carryOut_recording h t r _ p w' _).trans ?_
    rw [List.append_assoc]
    rfl

/-- What a request notes is the call for its security and, if the client consents and the payload can be encoded, the
request itself. -/
theorem perform_recording_ready {h : Host ω} {t : Thing} {r : Request} {options : InteractionOptions} {w : ω}
    {i : Interaction} {f : Form} {scheme : String} {p : Prepared ω}
    (hr : Ready h t r.target options i f scheme p) :
    perform h.recording t r options (w, []) =
      ((perform h t r options w).1, (perform h t r options w).2,
        callsOfReady h r (MediaType.lowerCase scheme) p w) :=
  perform_recording_ready_after hr []

/-- What clients receive in an interaction: nothing; or the security of the request that is ready, which is
declined or whose payload cannot be encoded; or the security and the one request. -/
def CallsOf (h : Host ω) (t : Thing) (r : Request) (options : InteractionOptions) (w : ω)
    (calls : List Call) : Prop :=
  (calls = [] ∧
    ∃ s : Stage, s.rank ≤ Stage.credentials.rank ∧ FirstFailure h t r options w s) ∨
  ∃ i f scheme p, Ready h t r.target options i f scheme p ∧
    ((calls = [.setSecurity (MediaType.lowerCase scheme) p.schemes p.credentials false] ∧
        FirstFailure h t r options w .declined) ∨
      (calls = [.setSecurity (MediaType.lowerCase scheme) p.schemes p.credentials true] ∧
        FirstFailure h t r options w .encode) ∨
      ∃ payload, r.encode h p = .ok payload ∧
        calls =
          [.setSecurity (MediaType.lowerCase scheme) p.schemes p.credentials true,
           .request (MediaType.lowerCase scheme) p.form (r.exchange payload)] ∧
        ∀ s : Stage, s.rank ≤ Stage.encode.rank → ¬ Fails h t r options w s)

/-- A stage comes before the client is asked, or is one of the four that are left. -/
theorem rank_le_credentials_or (s : Stage) :
    s.rank ≤ Stage.credentials.rank ∨ s = .declined ∨ s = .encode ∨ s = .transport ∨ s = .decode := by
  cases s <;> simp [Stage.rank]

theorem rank_le_transport {s : Stage} (hs : s ≠ .decode) : s.rank ≤ Stage.transport.rank := by
  cases s <;> simp [Stage.rank] at hs ⊢

/-- A payload that cannot be encoded fails at its stage. -/
theorem stage_of_encode_error {h : Host ω} {r : Request} {p : Prepared ω} {e : RemoteError}
    (he : r.encode h p = .error e) : e.stage = .encode := by
  have hcontent : ∀ {v : Json} {e : RemoteError}, encode h p v = .error e → e.stage = .encode := by
    intro v e hv
    unfold encode at hv
    split at hv
    · cases hv
    · cases hv
      rfl
  cases r with
  | writeProperty name v => exact hcontent he
  | invokeAction name input =>
    cases input with
    | none => cases he
    | some v =>
      simp only [Request.encode, encodeOptional] at he
      cases hv : encode h p v with
      | error e' =>
        rw [hv] at he
        cases he
        exact hcontent hv
      | ok content =>
        rw [hv] at he
        cases he
  | _ => cases he

theorem stage_of_decode_error {h : Host ω} {t : Thing} {r : Request} {p : Prepared ω} {answer : r.Answer}
    {e : RemoteError} (he : r.decode h t p answer = .error e) : e.stage = .encode := by
  have hcontent : ∀ {content : Content} {schema : Option DataSchema} {e : RemoteError},
      (decode h p content schema).map Reply.value = .error e → e.stage = .encode := by
    intro content schema e hv
    unfold decode at hv
    split at hv
    · cases hv
    · cases hv
      rfl
  cases r with
  | readProperty name => exact hcontent he
  | invokeAction name input => exact hcontent he
  | _ => cases he

/-- Where a request cannot be prepared, the stage of its error is the first one that fails. -/
theorem firstFailure_of_prepare_error {h : Host ω} {t : Thing} {r : Request} {options : InteractionOptions}
    (w : ω) {e : RemoteError} (he : prepare h t r.target options = .error e) :
    FirstFailure h t r options w e.stage := by
  obtain ⟨hrank, hfails⟩ := fails_of_prepare_error w he
  refine ⟨hfails, fun s' hlt hs' => ?_⟩
  obtain ⟨e', he', hle⟩ := prepare_error_of_fails hs' (by omega)
  rw [he] at he'
  cases he'
  omega

theorem perform_of_prepare_error {h : Host ω} {t : Thing} {r : Request} {options : InteractionOptions}
    (w : ω) {e : RemoteError} (he : prepare h t r.target options = .error e) :
    perform h t r options w = (.error e, w) := by
  simp only [perform_eq, dispatch, he]

/-- A request that is prepared is carried out if the client consents. -/
theorem perform_of_prepared {h : Host ω} {t : Thing} {r : Request} {options : InteractionOptions} (w : ω)
    {p : Prepared ω} (hp : prepare h t r.target options = .ok p) :
    perform h t r options w =
      match p.client.setSecurity p.schemes p.credentials w with
      | (true, w) => carryOut h t r p w
      | (false, w) => (.error p.declined, w) := by
  simp only [perform_eq, dispatch, hp]
  rcases p.client.setSecurity p.schemes p.credentials w with ⟨_ | _, w'⟩ <;> rfl

/-- The interaction fails at its first stage that fails, or it has a reply. -/
def Outcome (h : Host ω) (t : Thing) (r : Request) (options : InteractionOptions) (w : ω) : Prop :=
  (∃ s e, FirstFailure h t r options w s ∧ (perform h t r options w).1 = .error e ∧ s.Reports e) ∨
  ((∀ s, ¬ Fails h t r options w s) ∧ ∃ reply, (perform h t r options w).1 = .ok reply)

section

variable {h : Host ω} {t : Thing} {r : Request} {options : InteractionOptions} {w w' : ω} {p : Prepared ω}
  {payload : r.Payload}

/-- Where the client declines, that is the first stage that fails. -/
theorem firstFailure_declined (hp : prepare h t r.target options = .ok p)
    (hset : p.client.setSecurity p.schemes p.credentials w = (false, w')) :
    FirstFailure h t r options w .declined := by
  refine ⟨?_, fun s hlt => not_fails_of_prepared hp (Nat.le_of_lt_succ hlt)⟩
  rw [fails_declined_iff hp, hset]

theorem not_fails_declined (hp : prepare h t r.target options = .ok p)
    (hset : p.client.setSecurity p.schemes p.credentials w = (true, w')) :
    ¬ Fails h t r options w .declined := by
  rw [fails_declined_iff hp, hset]
  simp

/-- Where the payload cannot be encoded, that is the first stage that fails. -/
theorem firstFailure_encode (hp : prepare h t r.target options = .ok p)
    (hset : p.client.setSecurity p.schemes p.credentials w = (true, w')) {e : RemoteError}
    (he : r.encode h p = .error e) : FirstFailure h t r options w .encode := by
  refine ⟨(fails_encode_iff hp).2 ⟨e, he⟩, fun s hlt => ?_⟩
  rcases rank_le_credentials_or s with hle | rfl | rfl | rfl | rfl
  · exact not_fails_of_prepared hp hle
  · exact not_fails_declined hp hset
  all_goals simp [Stage.rank] at hlt

/-- Where a request is sent, nothing has failed before. -/
theorem not_fails_of_encoded (hp : prepare h t r.target options = .ok p)
    (hset : p.client.setSecurity p.schemes p.credentials w = (true, w'))
    (hpayload : r.encode h p = .ok payload) {s : Stage} (hrank : s.rank ≤ Stage.encode.rank) :
    ¬ Fails h t r options w s := by
  rcases rank_le_credentials_or s with hle | rfl | rfl | rfl | rfl
  · exact not_fails_of_prepared hp hle
  · exact not_fails_declined hp hset
  · rw [fails_encode_iff hp, hpayload]
    simp
  all_goals simp [Stage.rank] at hrank

/-- Where the request fails on its way, that is the first stage that fails. -/
theorem firstFailure_transport (hp : prepare h t r.target options = .ok p)
    (hset : p.client.setSecurity p.schemes p.credentials w = (true, w'))
    (hpayload : r.encode h p = .ok payload) {e : ClientError}
    (hsend : (r.send p.client p.form payload w').1 = .error e) :
    FirstFailure h t r options w .transport := by
  refine ⟨?_, fun s hlt => not_fails_of_encoded hp hset hpayload (Nat.le_of_lt_succ hlt)⟩
  rw [fails_transport_iff hp, hset]
  exact ⟨payload, e, hpayload, hsend⟩

/-- Where an answer arrives, nothing has failed before. -/
theorem not_fails_of_answered (hp : prepare h t r.target options = .ok p)
    (hset : p.client.setSecurity p.schemes p.credentials w = (true, w'))
    (hpayload : r.encode h p = .ok payload) {answer : r.Answer}
    (hsend : (r.send p.client p.form payload w').1 = .ok answer) {s : Stage}
    (hrank : s.rank ≤ Stage.transport.rank) : ¬ Fails h t r options w s := by
  rcases rank_le_credentials_or s with hle | rfl | rfl | rfl | rfl
  · exact not_fails_of_prepared hp hle
  · exact not_fails_declined hp hset
  · exact not_fails_of_encoded hp hset hpayload (Nat.le_refl _)
  · rw [fails_transport_iff hp, hset]
    rintro ⟨payload', e, hpayload', he⟩
    -- There is one payload only, and it has been answered.
    rw [hpayload] at hpayload'
    cases hpayload'
    rw [hsend] at he
    cases he
  · simp [Stage.rank] at hrank

/-- With an answer, the last stage fails exactly if the answer cannot be decoded. -/
theorem fails_decode_iff_of_answered (hp : prepare h t r.target options = .ok p)
    (hset : p.client.setSecurity p.schemes p.credentials w = (true, w'))
    (hpayload : r.encode h p = .ok payload) {answer : r.Answer}
    (hsend : (r.send p.client p.form payload w').1 = .ok answer) :
    Fails h t r options w .decode ↔ ∃ e, r.decode h t p answer = .error e := by
  rw [fails_decode_iff hp, hset]
  constructor
  · rintro ⟨payload', answer', e, hpayload', hanswer', he⟩
    rw [hpayload] at hpayload'
    cases hpayload'
    rw [hsend] at hanswer'
    cases hanswer'
    exact ⟨e, he⟩
  · rintro ⟨e, he⟩
    exact ⟨payload, answer, e, hpayload, hsend, he⟩

/-- The outcome of a request that is sent. -/
theorem outcome_of_encoded (hp : prepare h t r.target options = .ok p)
    (hset : p.client.setSecurity p.schemes p.credentials w = (true, w'))
    (hpayload : r.encode h p = .ok payload) : Outcome h t r options w := by
  have hperform : perform h t r options w = carryOut h t r p w' := by
    rw [perform_of_prepared w hp, hset]
  rcases hsend : r.send p.client p.form payload w' with ⟨e | answer, w''⟩
  · have hresult : (perform h t r options w).1 = .error (.protocol p.form.href e) := by
      simp only [hperform, carryOut, hpayload, hsend]
    exact .inl ⟨.transport, _, firstFailure_transport hp hset hpayload (by rw [hsend]), hresult, .inl rfl⟩
  · have hanswered : (r.send p.client p.form payload w').1 = .ok answer := by rw [hsend]
    have hresult : (perform h t r options w).1 = r.decode h t p answer := by
      simp only [hperform, carryOut, hpayload, hsend]
    have hbefore : ∀ s : Stage, s.rank ≤ Stage.transport.rank → ¬ Fails h t r options w s :=
      fun s => not_fails_of_answered hp hset hpayload hanswered
    have hdecode := fails_decode_iff_of_answered hp hset hpayload hanswered
    cases hreply : r.decode h t p answer with
    | error e =>
      have hfirst : FirstFailure h t r options w .decode :=
        ⟨hdecode.2 ⟨e, hreply⟩, fun s hlt => hbefore s (Nat.le_of_lt_succ hlt)⟩
      exact .inl ⟨.decode, e, hfirst, hresult.trans hreply, .inr ⟨rfl, stage_of_decode_error hreply⟩⟩
    | ok reply =>
      refine .inr ⟨fun s => ?_, reply, hresult.trans hreply⟩
      -- All stages but the last one are over.
      by_cases hs : s = .decode
      · rw [hs, hdecode, hreply]
        simp
      · exact hbefore s (rank_le_transport hs)

end

/-- The calls and the outcome of a request that is ready. -/
theorem calls_and_outcome_of_ready {h : Host ω} {t : Thing} {r : Request} {options : InteractionOptions}
    {w : ω} {i : Interaction} {f : Form} {scheme : String} {p : Prepared ω}
    (hr : Ready h t r.target options i f scheme p) :
    CallsOf h t r options w (callsOfReady h r (MediaType.lowerCase scheme) p w) ∧
      Outcome h t r options w := by
  have hp := prepare_eq_ok_iff.2 ⟨i, f, scheme, hr⟩
  have hperform := perform_of_prepared w hp
  -- A ready request has three ends: the client declines, the value does not encode, the request is sent.
  rcases hset : p.client.setSecurity p.schemes p.credentials w with ⟨consent, w'⟩
  simp only [callsOfReady, hset]
  cases consent with
  | false =>
    have hfirst := firstFailure_declined hp hset
    have hresult : (perform h t r options w).1 = .error p.declined := by rw [hperform, hset]
    exact ⟨.inr ⟨i, f, scheme, p, hr, .inl ⟨rfl, hfirst⟩⟩,
      .inl ⟨.declined, p.declined, hfirst, hresult, .inl rfl⟩⟩
  | true =>
    cases hpayload : r.encode h p with
    | error e =>
      have hfirst := firstFailure_encode hp hset hpayload
      have hresult : (perform h t r options w).1 = .error e := by
        simp only [hperform, hset, carryOut, hpayload]
      exact ⟨.inr ⟨i, f, scheme, p, hr, .inr (.inl ⟨rfl, hfirst⟩)⟩,
        .inl ⟨.encode, e, hfirst, hresult, .inl (stage_of_encode_error hpayload)⟩⟩
    | ok payload =>
      exact ⟨.inr ⟨i, f, scheme, p, hr, .inr (.inr ⟨payload, hpayload, rfl,
        fun s => not_fails_of_encoded hp hset hpayload⟩)⟩, outcome_of_encoded hp hset hpayload⟩

/-- In an interaction with a remote thing, clients receive nothing before the request is ready; then they
receive the security of the request, and if they consent, the one request. The error is that of the first
stage that fails, and without one there is a reply. -/
theorem perform_ready (h : Host ω) (t : Thing) (r : Request) (options : InteractionOptions) (w : ω) :
    (∃ calls,
      perform h.recording t r options (w, []) =
        ((perform h t r options w).1, (perform h t r options w).2, calls) ∧
      CallsOf h t r options w calls) ∧
    (∀ s, FirstFailure h t r options w s →
      ∃ e, (perform h t r options w).1 = .error e ∧ s.Reports e) ∧
    ((∀ s, ¬ Fails h t r options w s) → ∃ reply, (perform h t r options w).1 = .ok reply) := by
  have hcases : (∃ calls,
      perform h.recording t r options (w, []) =
        ((perform h t r options w).1, (perform h t r options w).2, calls) ∧
      CallsOf h t r options w calls) ∧ Outcome h t r options w := by
    cases hp : prepare h t r.target options with
    | error e =>
      -- Nothing is ready, and no client is asked.
      have hfirst := firstFailure_of_prepare_error w hp
      have hresult := perform_of_prepare_error w hp
      refine ⟨⟨[], ?_, .inl ⟨rfl, e.stage, (fails_of_prepare_error w hp).1, hfirst⟩⟩,
        .inl ⟨e.stage, e, hfirst, by rw [hresult], .inl rfl⟩⟩
      rw [perform_of_prepare_error _ (prepare_recording_error hp), hresult]
    | ok p =>
      obtain ⟨i, f, scheme, hr⟩ := prepare_eq_ok_iff.1 hp
      obtain ⟨hcalls, houtcome⟩ := calls_and_outcome_of_ready (w := w) hr
      exact ⟨⟨_, perform_recording_ready hr, hcalls⟩, houtcome⟩
  obtain ⟨hcalls, houtcome⟩ := hcases
  refine ⟨hcalls, fun s hs => ?_, fun hnone => ?_⟩
  · rcases houtcome with ⟨s', e, hs', he, hreports⟩ | ⟨hnone, -⟩
    · exact ⟨e, he, hs.unique hs' ▸ hreports⟩
    · exact absurd hs.1 (hnone s)
  · rcases houtcome with ⟨s', -, hs', -⟩ | ⟨-, hreply⟩
    · exact absurd hs'.1 (hnone s')
    · exact hreply

end Remote
end WebOfThings
