import WebOfThings.Proofs.LocalThing.Run
import WebOfThings.Proofs.Turns

/-!
# Many properties at once

An operation on many properties lists its accesses, processes them in an order of its own (`Turns`) and
collects what they answer as they are listed (`bulk`); the operations of a thing are the case in which both
orders are the same (`readProperties_eq_bulk`, `writeProperties_eq_bulk`).

Where handlers of different properties share no state (`Separate`), an access does to a property and to the
part of the world behind it what it does without the accesses to other properties: one access keeps this
(`AgreeOn.access`, `agreeOn_access_of_ne`), and so do all of them, by induction (`AgreeOn.accessAll`). Every
operation on many properties is then made of the accesses to each property alone, whatever the order
(`bulk_apart`). Main statement: `bulk_as_single`.

The operations are `read_multiple_properties`, `read_all_properties` and `write_properties`. Two properties
may be served by handlers that share a state, and then the order of the accesses can be told from the
results, so this is a hypothesis and not a fact: a property has a part of the world of its own, and its
handlers see and change nothing else. Reads of one property repeat each other; `AsReads` says which of them
is reported. A failure concerns its own property only, whatever the others answer (`perform_of_failed`).
-/

namespace WebOfThings

variable {ω : Type}

/-! ## What an access does -/

namespace PropertyState

/-- An access to a property. -/
def perform (p : PropertyState ω) (a : Access) (w : ω) : Except LocalError Json × PropertyState ω × ω :=
  match a with
  | .read _ => p.read w
  | .write _ v => p.write v w

/-- An access keeps the handlers. -/
theorem handlers_perform (p : PropertyState ω) (a : Access) (w : ω) :
    (p.perform a w).2.1.onRead = p.onRead ∧ (p.perform a w).2.1.onWrite = p.onWrite := by
  cases a with
  | read name =>
    rw [perform, state_of_read]
    cases p.served? w <;> exact ⟨rfl, rfl⟩
  | write name v =>
    rw [perform, state_of_write]
    cases p.committed? v w with
    | none => exact ⟨rfl, rfl⟩
    | some u =>
      simp only [commit]
      split <;> exact ⟨rfl, rfl⟩

/-- An access that fails leaves the property as it was. -/
theorem perform_of_failed {p : PropertyState ω} {a : Access} {w : ω} {e : LocalError}
    (h : (p.perform a w).1 = .error e) : (p.perform a w).2.1 = p := by
  cases a with
  | read name =>
    rw [perform, state_of_read]
    cases hserved : p.served? w with
    | none => rfl
    | some u =>
      have hok : (p.read w).1 = .ok u := read_eq_ok_iff.2 (.inl hserved)
      rw [perform, hok] at h
      cases h
  | write name v => exact write_of_failed h

end PropertyState

namespace LocalThing

/-- What an access answers. -/
def answer (a : Access) (t : LocalThing ω) (w : ω) : Except LocalError Json :=
  match a with
  | .read name => (t.readProperty name w).1
  | .write name v => (t.writeProperty name v w).1

/-- An access to a property of the thing answers what the property answers. -/
theorem access_of_some {a : Access} {t : LocalThing ω} {p : PropertyState ω}
    (hp : Dict.get? a.name t.properties = some p) (w : ω) :
    answer a t w = (p.perform a w).1 ∧
      access a t w = (t.setProperty a.name (p.perform a w).2.1, (p.perform a w).2.2) := by
  cases a with
  | read name =>
    rw [Access.name] at hp
    simp only [answer, access, readProperty, hp]
    exact ⟨rfl, rfl⟩
  | write name v =>
    rw [Access.name] at hp
    simp only [answer, access, writeProperty, hp]
    exact ⟨rfl, rfl⟩

/-- An access to something else answers that it is unknown, and does nothing. -/
theorem access_of_none {a : Access} {t : LocalThing ω} (hp : Dict.get? a.name t.properties = none) (w : ω) :
    answer a t w = .error (.unknown (t.lacks .property a.name)) ∧ access a t w = (t, w) := by
  cases a with
  | read name =>
    rw [Access.name] at hp
    rw [answer, access, readProperty, hp]
    exact ⟨rfl, rfl⟩
  | write name v =>
    rw [Access.name] at hp
    rw [answer, access, writeProperty, hp]
    exact ⟨rfl, rfl⟩

/-- Accesses concern properties only. -/
theorem rest_access (a : Access) (t : LocalThing ω) (w : ω) :
    (access a t w).1 = { t with properties := (access a t w).1.properties } := by
  cases hp : Dict.get? a.name t.properties with
  | none => rw [(access_of_none hp w).2]
  | some p =>
    rw [(access_of_some hp w).2]
    rfl

/-- Accesses change properties and nothing else. -/
theorem rest_accessAll (accesses : List Access) (t : LocalThing ω) (w : ω) :
    (accessAll accesses t w).1 = { t with properties := (accessAll accesses t w).1.properties } := by
  induction accesses generalizing t w with
  | nil => rfl
  | cons a rest ih =>
    rw [accessAll, ih, rest_access]

end LocalThing

/-! ## Properties apart -/

section Parts

variable {σ : String → Type} {view : (name : String) → ω → σ name} {name other : String}

/-- A handler of a property acts on the part of the world that belongs to the property: how it ends and what
it makes of this part depends on nothing else, and it leaves the parts of other properties alone. -/
structure Handler.ActsWithin {α : Type} (view : (name : String) → ω → σ name) (name : String)
    (handler : Handler ω α Json) : Prop where
  outcome : ∀ request {w w' : ω}, view name w = view name w' →
    (handler request w).1 = (handler request w').1
  part : ∀ request {w w' : ω}, view name w = view name w' →
    view name (handler request w).2 = view name (handler request w').2
  others : ∀ request (w : ω) {other}, other ≠ name → view other (handler request w).2 = view other w

/-- The handlers of a property act on its own part of the world. -/
structure PropertyState.ActsWithin (view : (name : String) → ω → σ name) (name : String)
    (p : PropertyState ω) : Prop where
  onRead : ∀ handler, p.onRead = some handler → handler.ActsWithin view name
  onWrite : ∀ handler, p.onWrite = some handler → handler.ActsWithin view name

namespace PropertyState.ActsWithin

variable {p : PropertyState ω}

/-- An access depends on nothing but the property and its part of the world. -/
theorem perform_eq (h : p.ActsWithin view name) (a : Access) {w w' : ω} (hw : view name w = view name w') :
    (p.perform a w).1 = (p.perform a w').1 ∧ (p.perform a w).2.1 = (p.perform a w').2.1 ∧
      view name (p.perform a w).2.2 = view name (p.perform a w').2.2 := by
  cases a with
  | read n =>
    cases hread : p.onRead with
    | none =>
      rw [perform, perform, read, read, hread]
      exact ⟨rfl, rfl, hw⟩
    | some handler =>
      have hwithin := h.onRead handler hread
      have houtcome := hwithin.outcome () hw
      have hpart := hwithin.part () hw
      simp only [perform, read, hread, houtcome]
      cases (handler () w').1.toExcept <;> exact ⟨rfl, rfl, hpart⟩
  | write n v =>
    cases hwrite : p.onWrite with
    | none =>
      rw [perform, perform, write, write, hwrite]
      exact ⟨rfl, rfl, hw⟩
    | some handler =>
      have hwithin := h.onWrite handler hwrite
      have houtcome := hwithin.outcome v hw
      have hpart := hwithin.part v hw
      simp only [perform, write, hwrite, houtcome]
      cases (handler v w').1.toExcept <;> exact ⟨rfl, rfl, hpart⟩

/-- An access to a property leaves the parts of the world behind the others. -/
theorem perform_other (h : p.ActsWithin view name) (a : Access) (w : ω) (hother : other ≠ name) :
    view other (p.perform a w).2.2 = view other w := by
  cases a with
  | read n =>
    cases hread : p.onRead with
    | none => simp only [perform, read, hread]
    | some handler =>
      have hothers := (h.onRead handler hread).others () w hother
      simp only [perform, read, hread]
      cases (handler () w).1.toExcept <;> exact hothers
  | write n v =>
    cases hwrite : p.onWrite with
    | none => simp only [perform, write, hwrite]
    | some handler =>
      have hothers := (h.onWrite handler hwrite).others v w hother
      simp only [perform, write, hwrite]
      cases (handler v w).1.toExcept <;> exact hothers

/-- An access leaves the handlers of a property acting within its part of the world. -/
theorem perform (h : p.ActsWithin view name) (a : Access) (w : ω) :
    (p.perform a w).2.1.ActsWithin view name where
  onRead handler hp := h.onRead handler ((p.handlers_perform a w).1 ▸ hp)
  onWrite handler hp := h.onWrite handler ((p.handlers_perform a w).2 ▸ hp)

end PropertyState.ActsWithin

namespace LocalThing

/-- The handlers of different properties share no state: each property has a part of the world to which its
handlers keep. -/
def Separate (view : (name : String) → ω → σ name) (t : LocalThing ω) : Prop :=
  ∀ name p, Dict.get? name t.properties = some p → p.ActsWithin view name

/-- One access keeps the parts of the world apart. -/
theorem Separate.access {t : LocalThing ω} (h : Separate view t) (a : Access) (w : ω) :
    Separate view (access a t w).1 := by
  cases hp : Dict.get? a.name t.properties with
  | none => rwa [(access_of_none hp w).2]
  | some p =>
    intro n q hq
    rw [(access_of_some hp w).2, get?_setProperty] at hq
    split at hq
    · next hn =>
      obtain rfl := hn
      obtain rfl := Option.some.inj hq
      exact (h _ p hp).perform a w
    · exact h n q hq

/-- So do some accesses. -/
theorem Separate.accessAll (accesses : List Access) {t : LocalThing ω} (h : Separate view t) (w : ω) :
    Separate view (accessAll accesses t w).1 := by
  induction accesses generalizing t w with
  | nil => exact h
  | cons a rest ih => exact ih (h.access a w) _

/-- Two states are the same for a property: its live state, the part of the world behind it and what errors
tell of the thing. -/
structure AgreeOn (view : (name : String) → ω → σ name) (name : String) (s s' : LocalThing ω × ω) :
    Prop where
  property : Dict.get? name s.1.properties = Dict.get? name s'.1.properties
  part : view name s.2 = view name s'.2
  id : s.1.id = s'.1.id

theorem AgreeOn.refl (s : LocalThing ω × ω) : AgreeOn view name s s := ⟨rfl, rfl, rfl⟩

theorem AgreeOn.trans {s s' s'' : LocalThing ω × ω} (h : AgreeOn view name s s')
    (h' : AgreeOn view name s' s'') : AgreeOn view name s s'' :=
  ⟨h.property.trans h'.property, h.part.trans h'.part, h.id.trans h'.id⟩

theorem id_access (a : Access) (t : LocalThing ω) (w : ω) : (access a t w).1.id = t.id := by
  rw [rest_access]
  rfl

/-- An access to a property answers the same and does the same to the property in both states. -/
theorem AgreeOn.access {t t' : LocalThing ω} {w w' : ω} {a : Access} (ht : Separate view t)
    (h : AgreeOn view a.name (t, w) (t', w')) :
    answer a t w = answer a t' w' ∧ AgreeOn view a.name (access a t w) (access a t' w') := by
  have hproperty : Dict.get? a.name t.properties = Dict.get? a.name t'.properties := h.property
  cases hp : Dict.get? a.name t.properties with
  | none =>
    have hp' := hproperty ▸ hp
    rw [(access_of_none hp w).1, (access_of_none hp w).2, (access_of_none hp' w').1, (access_of_none hp' w').2]
    refine ⟨?_, h⟩
    rw [lacks, lacks, show t.id = t'.id from h.id]
  | some p =>
    have hp' := hproperty ▸ hp
    obtain ⟨hanswer, hstate, hpart⟩ := (ht _ p hp).perform_eq a h.part
    rw [(access_of_some hp w).1, (access_of_some hp w).2, (access_of_some hp' w').1, (access_of_some hp' w').2]
    refine ⟨hanswer, ?_, hpart, h.id⟩
    rw [get?_setProperty, get?_setProperty, if_pos rfl, if_pos rfl, hstate]

/-- An access to another property changes nothing for a property. -/
theorem agreeOn_access_of_ne {t : LocalThing ω} (ht : Separate view t) {a : Access} (ha : a.name ≠ name)
    (w : ω) : AgreeOn view name (access a t w) (t, w) where
  property := get?_access_of_ne ha t w
  part := by
    cases hp : Dict.get? a.name t.properties with
    | none => rw [(access_of_none hp w).2]
    | some p =>
      rw [(access_of_some hp w).2]
      exact (ht _ p hp).perform_other a w ha.symm
  id := id_access a t w

/-- The accesses to a property among some accesses. -/
def accessesTo (name : String) (accesses : List Access) : List Access :=
  accesses.filter fun a => a.name = name

/-- What accesses do to a property, the accesses to this property do alone. -/
theorem AgreeOn.accessAll (accesses : List Access) {t t' : LocalThing ω} {w w' : ω} (ht : Separate view t)
    (h : AgreeOn view name (t, w) (t', w')) :
    AgreeOn view name (accessAll accesses t w) (accessAll (accessesTo name accesses) t' w') := by
  induction accesses generalizing t t' w w' with
  | nil => exact h
  | cons a rest ih =>
    by_cases ha : a.name = name
    · subst ha
      rw [accessesTo, List.filter_cons_of_pos (by simp)]
      exact ih (ht.access a w) (h.access ht).2
    · rw [accessesTo, List.filter_cons_of_neg (by simpa using ha)]
      exact ih (ht.access a w) ((agreeOn_access_of_ne ht ha w).trans h)

end LocalThing
end Parts

/-! ## Accesses in an order -/

namespace LocalThing

/-- The accesses that are processed before the one in a place. -/
def processedBefore (accesses : List Access) (turns : Turns accesses.length) (i : Fin accesses.length) :
    List Access :=
  (turns.before i).map accesses.get

/-- The answer of the access in a place when its turn comes. -/
def answerAt (accesses : List Access) (turns : Turns accesses.length) (t : LocalThing ω) (w : ω)
    (i : Fin accesses.length) : Except LocalError Json :=
  let s := accessAll (processedBefore accesses turns i) t w
  answer (accesses.get i) s.1 s.2

/-- What an operation on many properties answers, and the thing and the world that it leaves. -/
abbrev BulkResult (ω : Type) := Dict (Except LocalError Json) × LocalThing ω × ω

/-- Accesses that are processed in an order of their own, with their answers collected as they are listed. -/
def bulk (accesses : List Access) (turns : Turns accesses.length) (t : LocalThing ω) (w : ω) :
    BulkResult ω :=
  (Dict.ofList ((List.finRange accesses.length).map fun i =>
    ((accesses.get i).name, answerAt accesses turns t w i)),
    accessAll (turns.order.map accesses.get) t w)

/-! ### The order in which accesses are listed -/

/-- The answers of accesses that are processed as they are listed. -/
def answers : List Access → LocalThing ω → ω → List (String × Except LocalError Json)
  | [], _, _ => []
  | a :: rest, t, w => (a.name, answer a t w) :: answers rest (access a t w).1 (access a t w).2

/-- An access as a step on the thing and the world. -/
def accessStep (a : Access) : Effect (LocalThing ω × ω) LocalError Json :=
  fun s => (answer a s.1 s.2, access a s.1 s.2)

theorem worldAfter_accessStep (accesses : List Access) (t : LocalThing ω) (w : ω) :
    Effect.worldAfter accessStep accesses (t, w) = accessAll accesses t w := by
  induction accesses generalizing t w with
  | nil => rfl
  | cons a rest ih => exact ih _ _

theorem answers_accessStep (accesses : List Access) (t : LocalThing ω) (w : ω) :
    Effect.answers Access.name accessStep accesses (t, w) = answers accesses t w := by
  induction accesses generalizing t w with
  | nil => rfl
  | cons a rest ih => exact congrArg (_ :: ·) (ih _ _)

/-- An operation on many properties takes its accesses in turn. -/
theorem bulk_eq_inTurns (accesses : List Access) (turns : Turns accesses.length) (t : LocalThing ω) (w : ω) :
    bulk accesses turns t w = Effect.inTurns Access.name accessStep accesses turns (t, w) := by
  rw [bulk, Effect.inTurns, worldAfter_accessStep]
  simp only [answerAt, processedBefore, Effect.answerAt, worldAfter_accessStep]
  rfl

/-- Taken as they are listed, the accesses answer one after the other. -/
theorem bulk_listed (accesses : List Access) (t : LocalThing ω) (w : ω) :
    bulk accesses .listed t w = (Dict.ofList (answers accesses t w), accessAll accesses t w) := by
  rw [bulk_eq_inTurns, Effect.inTurns_listed, answers_accessStep, worldAfter_accessStep]

/-- Reads of properties by their names. -/
def reads (names : List String) : List Access := names.map .read

/-- Writes of values to properties. -/
def writes (values : List (String × Json)) : List Access := values.map fun (name, v) => .write name v

theorem readProperties_fst (names : List String) (t : LocalThing ω) (w : ω)
    (results : Dict (Except LocalError Json)) :
    (t.readProperties w names results).1 =
      (answers (reads names) t w).foldl (fun d (name, result) => d.insert name result) results := by
  induction names generalizing t w results with
  | nil => rfl
  | cons name rest ih => exact ih _ _ _

theorem writeProperties_fst (values : List (String × Json)) (t : LocalThing ω) (w : ω)
    (results : Dict (Except LocalError Json)) :
    (t.writeProperties w values results).1 =
      (answers (writes values) t w).foldl (fun d (name, result) => d.insert name result) results := by
  induction values generalizing t w results with
  | nil => rfl
  | cons e rest ih => exact ih _ _ _

/-- Reading properties takes its reads as they are listed. -/
theorem readProperties_eq_bulk (names : List String) (t : LocalThing ω) (w : ω) :
    t.readProperties w names [] = bulk (reads names) .listed t w := by
  rw [bulk_listed]
  exact Prod.ext (readProperties_fst names t w []) (readProperties_eq names t w [])

/-- Writing properties takes its writes as they are listed. -/
theorem writeProperties_eq_bulk (values : List (String × Json)) (t : LocalThing ω) (w : ω) :
    t.writeProperties w values [] = bulk (writes values) .listed t w := by
  rw [bulk_listed]
  exact Prod.ext (writeProperties_fst values t w []) (writeProperties_eq values t w [])

/-! ## Each property alone -/

variable {σ : String → Type} {view : (name : String) → ω → σ name} {name : String}

/-- Accesses leave each property as its own accesses do alone, and collect for each the answer of the last one
that is listed. -/
structure Apart (view : (name : String) → ω → σ name) (accesses : List Access)
    (turns : Turns accesses.length) (t : LocalThing ω) (w : ω) (result : BulkResult ω) : Prop where
  sorted : result.1.Sorted
  entry : ∀ i, (∀ j, i < j → (accesses.get j).name ≠ (accesses.get i).name) →
    Dict.get? (accesses.get i).name result.1 =
      let s := accessAll (accessesTo (accesses.get i).name (processedBefore accesses turns i)) t w
      some (answer (accesses.get i) s.1 s.2)
  absent : ∀ name, (∀ a ∈ accesses, a.name ≠ name) → Dict.get? name result.1 = none
  state : ∀ name, AgreeOn view name result.2
    (accessAll (accessesTo name (turns.order.map accesses.get)) t w)
  rest : result.2.1 = { t with properties := result.2.1.properties }

/-- Whatever the order, accesses to properties whose handlers share no state do not see each other. -/
theorem bulk_apart {t : LocalThing ω} (ht : Separate view t) (accesses : List Access)
    (turns : Turns accesses.length) (w : ω) : Apart view accesses turns t w (bulk accesses turns t w) where
  sorted := Dict.sorted_ofList _
  entry i hlast := by
    refine (Dict.get?_ofList_map_finRange (fun j => (accesses.get j).name) _ hlast).trans (congrArg some ?_)
    have hself : AgreeOn view (accesses.get i).name (t, w) (t, w) := .refl _
    have hagree := AgreeOn.accessAll (processedBefore accesses turns i) ht hself
    exact (hagree.access (ht.accessAll _ w)).1
  absent name hname := by
    refine Dict.get?_ofList_eq_none fun e he => ?_
    obtain ⟨i, -, rfl⟩ := List.mem_map.1 he
    exact hname _ (List.get_mem _ i)
  state name := AgreeOn.accessAll _ ht (AgreeOn.refl (t, w))
  rest := rest_accessAll _ t w

/-- An operation on many properties ends as if each of its accesses had been made alone: there is one result for
each name, which is what the access answers alone, and each property is left as its access leaves it. -/
structure AsSingle (view : (name : String) → ω → σ name) (accesses : List Access) (t : LocalThing ω)
    (w : ω) (result : BulkResult ω) : Prop where
  sorted : result.1.Sorted
  entry : ∀ a ∈ accesses, Dict.get? a.name result.1 = some (answer a t w)
  absent : ∀ name, (∀ a ∈ accesses, a.name ≠ name) → Dict.get? name result.1 = none
  state : ∀ a ∈ accesses, AgreeOn view a.name result.2 (access a t w)
  failed : ∀ a ∈ accesses, ∀ e, answer a t w = .error e →
    Dict.get? a.name result.2.1.properties = Dict.get? a.name t.properties
  others : ∀ name, (∀ a ∈ accesses, a.name ≠ name) → AgreeOn view name result.2 (t, w)
  rest : result.2.1 = { t with properties := result.2.1.properties }

/-- An access that fails leaves its property as it was. -/
theorem get?_access_of_failed {a : Access} {t : LocalThing ω} {w : ω} {e : LocalError}
    (h : answer a t w = .error e) :
    Dict.get? a.name (access a t w).1.properties = Dict.get? a.name t.properties := by
  cases hp : Dict.get? a.name t.properties with
  | none => rw [(access_of_none hp w).2, hp]
  | some p =>
    rw [(access_of_some hp w).1] at h
    rw [(access_of_some hp w).2, get?_setProperty, if_pos rfl, PropertyState.perform_of_failed h]

/-- Every access has its turn, once. -/
theorem processed_perm (accesses : List Access) (turns : Turns accesses.length) :
    (turns.order.map accesses.get).Perm accesses := by
  have h := turns.perm.map accesses.get
  rwa [List.map_get_finRange] at h

/-- Each property has the accesses that are listed for it. -/
theorem accessesTo_processed_perm (name : String) (accesses : List Access) (turns : Turns accesses.length) :
    (accessesTo name (turns.order.map accesses.get)).Perm (accessesTo name accesses) :=
  (processed_perm accesses turns).filter _

theorem accessesTo_eq_nil {accesses : List Access} (h : ∀ a ∈ accesses, a.name ≠ name) :
    accessesTo name accesses = [] := by
  simpa [accessesTo] using h

/-- Where no name is repeated, an access is the only one to its property. -/
theorem accessesTo_eq_singleton {accesses : List Access} (h : (accesses.map Access.name).Nodup) {a : Access}
    (ha : a ∈ accesses) : accessesTo a.name accesses = [a] := by
  induction accesses with
  | nil => cases ha
  | cons b rest ih =>
    rw [List.map_cons, List.nodup_cons] at h
    rcases List.mem_cons.1 ha with rfl | ha
    · have hrest : ∀ c ∈ rest, c.name ≠ a.name := fun c hc heq => h.1 (heq ▸ List.mem_map_of_mem hc)
      rw [accessesTo, List.filter_cons_of_pos (by simp)]
      exact congrArg (a :: ·) (accessesTo_eq_nil hrest)
    · have hb : b.name ≠ a.name := fun heq => h.1 (heq ▸ List.mem_map_of_mem ha)
      rw [accessesTo, List.filter_cons_of_neg (by simpa using hb)]
      exact ih h.2 ha

/-- Where no name is repeated, every access is the only one of its property. -/
theorem Apart.asSingle {accesses : List Access} {turns : Turns accesses.length} {t : LocalThing ω} {w : ω}
    {result : BulkResult ω} (h : Apart view accesses turns t w result)
    (hnames : (accesses.map Access.name).Nodup) : AsSingle view accesses t w result := by
  have hne : ∀ i j : Fin accesses.length, j ≠ i → (accesses.get j).name ≠ (accesses.get i).name := by
    intro i j hji heq
    have hsame := List.inj_on_of_nodup_map hnames (List.get_mem _ j) (List.get_mem _ i) heq
    exact hji ((hnames.of_map).get_inj_iff.1 hsame)
  have hstate : ∀ a ∈ accesses, AgreeOn view a.name result.2 (access a t w) := by
    intro a ha
    have hperm := accessesTo_processed_perm a.name accesses turns
    rw [accessesTo_eq_singleton hnames ha, List.perm_singleton] at hperm
    have hagree := h.state a.name
    rwa [hperm] at hagree
  refine ⟨h.sorted, fun a ha => ?_, h.absent, hstate, fun a ha e he => ?_, fun name hname => ?_, h.rest⟩
  · -- Nothing that was processed before it concerns the same property.
    obtain ⟨i, rfl⟩ := List.mem_iff_get.1 ha
    have hbefore : ∀ b ∈ processedBefore accesses turns i, b.name ≠ (accesses.get i).name := by
      intro b hb
      obtain ⟨j, hj, rfl⟩ := List.mem_map.1 hb
      exact hne i j (Turns.ne_of_mem_before hj)
    have hentry := h.entry i fun j hj => hne i j (Fin.ne_of_gt hj)
    rwa [accessesTo_eq_nil hbefore] at hentry
  · rw [(hstate a ha).property, get?_access_of_failed he]
  · have hperm := accessesTo_processed_perm name accesses turns
    rw [accessesTo_eq_nil hname, List.perm_nil] at hperm
    have hagree := h.state name
    rwa [hperm] at hagree

/-! ### Reads of a name that is repeated -/

/-- The thing and the world after some reads of a property. -/
def readTimes (name : String) (count : Nat) (t : LocalThing ω) (w : ω) : LocalThing ω × ω :=
  accessAll (List.replicate count (.read name)) t w

/-- What a read of a property answers after some reads of it. -/
def readAfter (name : String) (count : Nat) (t : LocalThing ω) (w : ω) : Except LocalError Json :=
  ((readTimes name count t w).1.readProperty name (readTimes name count t w).2).1

/-- A read of many properties ends as if each had been read alone, as often as its name is listed: there is one
result for each name, which is what the read that is listed last answers, after the reads before its turn. -/
structure AsReads (view : (name : String) → ω → σ name) (names : List String)
    (turns : Turns (reads names).length) (t : LocalThing ω) (w : ω) (result : BulkResult ω) : Prop where
  sorted : result.1.Sorted
  entry : ∀ name ∈ names, ∃ i, ((reads names).get i).name = name ∧
    (∀ j, i < j → ((reads names).get j).name ≠ name) ∧
    ∃ count < names.count name, count = (accessesTo name (processedBefore (reads names) turns i)).length ∧
      Dict.get? name result.1 = some (readAfter name count t w)
  once : ∀ name, names.count name = 1 → Dict.get? name result.1 = some (t.readProperty name w).1
  absent : ∀ name, name ∉ names → Dict.get? name result.1 = none
  state : ∀ name, AgreeOn view name result.2 (readTimes name (names.count name) t w)
  rest : result.2.1 = { t with properties := result.2.1.properties }

@[simp] theorem map_name_reads (names : List String) : (reads names).map Access.name = names := by
  rw [reads, List.map_map]
  exact List.map_id names

theorem length_accessesTo (name : String) (accesses : List Access) :
    (accessesTo name accesses).length = (accesses.map Access.name).count name := by
  rw [accessesTo, List.count, List.countP_map, List.countP_eq_length_filter]
  rfl

/-- Reads of a property are all the same. -/
theorem accessesTo_eq_replicate {names : List String} {accesses : List Access}
    (h : ∀ a ∈ accesses, a ∈ reads names) :
    accessesTo name accesses = List.replicate (accessesTo name accesses).length (.read name) := by
  refine List.eq_replicate_iff.2 ⟨rfl, fun a ha => ?_⟩
  obtain ⟨ha, hname⟩ := List.mem_filter.1 ha
  obtain ⟨n, -, rfl⟩ := List.mem_map.1 (h a ha)
  exact congrArg Access.read (of_decide_eq_true hname)

/-- How often a name is listed is how often it has its turn. -/
theorem length_accessesTo_processed (name : String) (accesses : List Access) (turns : Turns accesses.length) :
    (accessesTo name (turns.order.map accesses.get)).length = (accesses.map Access.name).count name := by
  rw [← length_accessesTo]
  exact (accessesTo_processed_perm name accesses turns).length_eq

/-- The turns of a name are those before a turn of it, this turn, and those after it. -/
theorem count_eq_before_add_after (accesses : List Access) (turns : Turns accesses.length)
    (i : Fin accesses.length) :
    (accesses.map Access.name).count (accesses.get i).name =
      (accessesTo (accesses.get i).name (processedBefore accesses turns i)).length + 1 +
        (accessesTo (accesses.get i).name ((turns.after i).map accesses.get)).length := by
  rw [← length_accessesTo_processed _ _ turns]
  conv_lhs => rw [turns.order_eq i]
  simp only [accessesTo, processedBefore, List.map_append, List.map_cons, List.filter_append]
  rw [List.filter_cons_of_pos (by simp), List.length_append, List.length_cons]
  omega

/-- As they are listed, the last access of a name comes after all the others. -/
theorem length_accessesTo_processedBefore_listed {accesses : List Access} {i : Fin accesses.length}
    (h : ∀ j, i < j → (accesses.get j).name ≠ (accesses.get i).name) :
    (accessesTo (accesses.get i).name (processedBefore accesses .listed i)).length =
      (accesses.map Access.name).count (accesses.get i).name - 1 := by
  have hafter : ∀ a ∈ (Turns.listed.after i).map accesses.get, a.name ≠ (accesses.get i).name := by
    intro a ha
    obtain ⟨j, hj, rfl⟩ := List.mem_map.1 ha
    exact h j (Turns.lt_of_mem_after_listed hj)
  rw [count_eq_before_add_after accesses .listed i, accessesTo_eq_nil hafter]
  rfl

theorem get_reads (names : List String) (i : Fin (reads names).length) :
    (reads names).get i = .read ((reads names).get i).name := by
  obtain ⟨name, -, hname⟩ := List.mem_map.1 (List.get_mem (reads names) i)
  rw [← hname]
  rfl

theorem mem_of_mem_processedBefore {accesses : List Access} {turns : Turns accesses.length}
    {i : Fin accesses.length} {a : Access} (h : a ∈ processedBefore accesses turns i) : a ∈ accesses := by
  obtain ⟨j, -, rfl⟩ := List.mem_map.1 h
  exact List.get_mem _ j

/-- The read that is listed last answers after the reads of its name that come before its turn. -/
theorem Apart.entry_reads {names : List String} {turns : Turns (reads names).length} {t : LocalThing ω}
    {w : ω} {result : BulkResult ω} (h : Apart view (reads names) turns t w result)
    {i : Fin (reads names).length}
    (hlast : ∀ j, i < j → ((reads names).get j).name ≠ ((reads names).get i).name) :
    Dict.get? ((reads names).get i).name result.1 =
      some (readAfter ((reads names).get i).name
        (accessesTo ((reads names).get i).name (processedBefore (reads names) turns i)).length t w) := by
  have hvalue := h.entry i hlast
  rw [accessesTo_eq_replicate fun a ha => mem_of_mem_processedBefore ha] at hvalue
  rw [hvalue, readAfter, readTimes]
  conv_lhs => rw [get_reads]
  rfl

/-- Where only reads are listed, the accesses of a property are so many reads of it. -/
theorem Apart.asReads {names : List String} {turns : Turns (reads names).length} {t : LocalThing ω} {w : ω}
    {result : BulkResult ω} (h : Apart view (reads names) turns t w result) :
    AsReads view names turns t w result := by
  have hentry : ∀ name ∈ names, ∃ i, ((reads names).get i).name = name ∧
      (∀ j, i < j → ((reads names).get j).name ≠ name) ∧
      ∃ count < names.count name, count = (accessesTo name (processedBefore (reads names) turns i)).length ∧
        Dict.get? name result.1 = some (readAfter name count t w) := by
    intro name hname
    have hlisted : Access.read name ∈ reads names := List.mem_map_of_mem hname
    obtain ⟨first, hfirst⟩ := List.mem_iff_get.1 hlisted
    obtain ⟨i, hi, hlast⟩ := Turns.exists_last (p := fun i => ((reads names).get i).name = name)
      ⟨first, by rw [hfirst]; rfl⟩
    subst hi
    have hcount := count_eq_before_add_after (reads names) turns i
    rw [map_name_reads] at hcount
    exact ⟨i, rfl, hlast, _, by omega, rfl, h.entry_reads hlast⟩
  refine ⟨h.sorted, hentry, fun name hname => ?_, fun name hname => ?_, fun name => ?_, h.rest⟩
  · -- A read that is listed once comes after no other.
    obtain ⟨-, -, -, count, hcount, -, hvalue⟩ := hentry name (List.count_pos_iff.1 (by omega))
    obtain rfl : count = 0 := by omega
    exact hvalue
  · refine h.absent name fun a ha => ?_
    obtain ⟨n, hn, rfl⟩ := List.mem_map.1 ha
    exact fun heq => hname (heq ▸ hn)
  · have hagree := h.state name
    rwa [accessesTo_eq_replicate fun a ha => (processed_perm _ turns).mem_iff.1 ha,
      length_accessesTo_processed, map_name_reads] at hagree

/-- As they are listed, the last read of a name answers after all the others. -/
theorem AsReads.entry_listed {names : List String} {t : LocalThing ω} {w : ω} {result : BulkResult ω}
    (h : AsReads view names .listed t w result)
    (hname : name ∈ names) : Dict.get? name result.1 = some (readAfter name (names.count name - 1) t w) := by
  obtain ⟨i, hi, hlast, count, -, hcount, hvalue⟩ := h.entry name hname
  subst hi
  rw [hvalue, hcount, length_accessesTo_processedBefore_listed hlast, map_name_reads]

/-- Of a thing whose handlers of different properties share no state, writes of a map of values, reads of all
properties and reads of some are made of single writes and reads: in whatever order the entries are listed and
processed, each name has one result, which is the one of its own access alone, and each property is left as
its own accesses leave it. -/
theorem bulk_as_single {t : LocalThing ω} (ht : Separate view t) (hkeys : (Dict.keys t.properties).Nodup)
    (w : ω) :
    (∀ values : List (String × Json), (Dict.keys values).Nodup →
      (∀ turns, AsSingle view (writes values) t w (bulk (writes values) turns t w)) ∧
        t.writeProperties w values [] = bulk (writes values) .listed t w) ∧
    ((∀ names : List String, names.Perm (Dict.keys t.properties) →
      ∀ turns, AsSingle view (reads names) t w (bulk (reads names) turns t w)) ∧
        t.readAllProperties w = bulk (reads (Dict.keys t.properties)) .listed t w) ∧
    ∀ names : List String,
      (∀ turns, AsReads view names turns t w (bulk (reads names) turns t w)) ∧
        t.readProperties w names [] = bulk (reads names) .listed t w ∧
        ∀ name ∈ names, Dict.get? name (t.readProperties w names []).1 =
          some (readAfter name (names.count name - 1) t w) := by
  refine ⟨fun values hvalues => ⟨fun turns => ?_, writeProperties_eq_bulk values t w⟩,
    ⟨fun names hnames turns => ?_, readProperties_eq_bulk _ t w⟩, fun names => ⟨fun turns => ?_,
      readProperties_eq_bulk names t w, fun name hname => ?_⟩⟩
  · refine (bulk_apart ht (writes values) turns w).asSingle ?_
    rw [writes, List.map_map]
    exact hvalues
  · refine (bulk_apart ht (reads names) turns w).asSingle ?_
    rw [map_name_reads]
    exact hnames.nodup_iff.2 hkeys
  · exact (bulk_apart ht (reads names) turns w).asReads
  · rw [readProperties_eq_bulk]
    exact (bulk_apart ht (reads names) .listed w).asReads.entry_listed hname

/-- How often the handlers of each property have been called. -/
abbrev Calls := String → Nat

/-- A handler that counts its calls and ends as it is told to. -/
def tallying (name : String) {α : Type} (ending : Nat → α → Outcome Json) : Handler Calls α Json :=
  fun request calls => (ending (calls name) request, fun n => if n = name then calls n + 1 else calls n)

/-- A handler that counts the accesses to its own property acts within it. -/
theorem tallying_actsWithin (name : String) {α : Type} (ending : Nat → α → Outcome Json) :
    (tallying name ending).ActsWithin (fun n (calls : Calls) => calls n) name where
  outcome request w w' h := congrArg (ending · request) h
  part request w w' h := by
    show (if name = name then w name + 1 else w name) = if name = name then w' name + 1 else w' name
    rw [h]
  others request w other h := if_neg h

/-- A lamp whose dimmer fails, whose sensor crashes at the second reading, and whose switch works. -/
def lamp : LocalThing Calls where
  thing := { id := "urn:lamp" }
  properties :=
    [("dimmer", { value := .null, onWrite := some (tallying "dimmer" fun _ _ => .failed "read-only hardware"),
                  channel := .create defaultCapacity }),
     ("sensor", { value := .null, onRead := some (tallying "sensor" fun count _ =>
                    if count = 1 then .crashed none else .done (.str "dark")),
                  channel := .create defaultCapacity }),
     ("switch", { value := .bool false, channel := .create defaultCapacity })]
  actions := []
  events := []

/-- Values for a property that works, for one that the lamp lacks and for one that fails. -/
def lampValues : List (String × Json) :=
  [("switch", .bool true), ("missing", .null), ("dimmer", .null)]

/-- The handlers of the lamp count apart. -/
theorem separate_lamp : Separate (fun n (calls : Calls) => calls n) lamp := by
  intro name p hp
  simp only [lamp, Dict.get?_cons, Dict.get?_nil] at hp
  split at hp
  · next h =>
    subst h
    obtain rfl := Option.some.inj hp
    exact ⟨nofun, fun handler h => Option.some.inj h ▸ tallying_actsWithin _ _⟩
  · split at hp
    · next h =>
      subst h
      obtain rfl := Option.some.inj hp
      exact ⟨fun handler h => Option.some.inj h ▸ tallying_actsWithin _ _, nofun⟩
    · split at hp
      · obtain rfl := Option.some.inj hp
        exact ⟨nofun, nofun⟩
      · cases hp

/-- The writes are processed from the last entry to the first, and the sensor is read twice. -/
theorem bulk_as_single_lamp :
    Separate (fun n (calls : Calls) => calls n) lamp ∧ (Dict.keys lamp.properties).Nodup ∧
      AsSingle (fun n (calls : Calls) => calls n) (writes lampValues) lamp (fun _ => 0)
        (bulk (writes lampValues) .reversed lamp fun _ => 0) ∧
      Dict.get? "sensor" (lamp.readProperties (fun _ => 0) ["sensor", "switch", "sensor"] []).1 =
        some (.error (.handlerCrashed "unknown panic payload")) := by
  have hkeys : (Dict.keys lamp.properties).Nodup := by decide
  have h := bulk_as_single separate_lamp hkeys fun _ => 0
  refine ⟨separate_lamp, hkeys, (h.1 lampValues (by decide)).1 _, ?_⟩
  exact ((h.2.2 ["sensor", "switch", "sensor"]).2.2 "sensor" (by decide)).trans rfl

end LocalThing
end WebOfThings
