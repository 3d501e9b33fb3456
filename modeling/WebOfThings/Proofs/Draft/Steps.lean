import Mathlib.Data.List.Forall2
import WebOfThings.Draft.Script

/-!
# The steps of a script

A script is a list of steps, and a draft is what they leave behind one after the other. What one step keeps of the
steps taken so far and of the draft that they wrote, a whole script keeps (`Script.steps?_run`), so nothing about
scripts needs an induction of its own.

Most fields of a draft are written in one of two ways. Every call of a step may add an entry (`Script.Adds`), as
that of a property or of a form does, or the last call may count (`Script.Sets`), as it does for a title or for a
bound of a schema. Both are said of the calls of one name in the order in which they stand, and of the field before
and after them; so they can be chained.
-/

namespace WebOfThings

namespace Script

/-! ## Steps -/

/-- The steps of a script, each of them a name and arguments. -/
def stepsOf (script : List Json) : List (String × List Json) :=
  script.filterMap fun
    | .arr (.str name :: args) => some (name, args)
    | _ => none

/-- The arguments of the steps of one name. -/
def calls (name : String) (steps : List (String × List Json)) : List (List Json) :=
  steps.filterMap fun step => if step.1 = name then some step.2 else none

@[simp] theorem calls_nil (name : String) : calls name [] = [] := rfl

/-- The calls in two lists of steps are those in the first and then those in the second. -/
@[simp] theorem calls_append (name : String) (first second : List (String × List Json)) :
    calls name (first ++ second) = calls name first ++ calls name second := List.filterMap_append ..

theorem calls_singleton (name key : String) (args : List Json) :
    calls name [(key, args)] = if key = name then [args] else [] := by
  by_cases h : key = name <;> simp [calls, h]

/-- What a step keeps of the steps taken so far and the draft that they wrote, a script keeps: the steps of the
script come after those before it. -/
theorem steps?_run {δ : Type} {step? : δ → String → List Json → Option δ}
    {E : List (String × List Json) → δ → Prop}
    (step : ∀ {steps d name args d'}, E steps d → step? d name args = some d' → E (steps ++ [(name, args)]) d')
    {before : List (String × List Json)} {script : List Json} {d d' : δ} (hd : E before d)
    (h : steps? step? d script = some d') : E (before ++ stepsOf script) d' := by
  fun_induction steps? step? d script generalizing before with
  | case1 =>
    cases h
    simpa [stepsOf] using hd
  -- The first step belongs to the steps before the rest.
  | case2 d name args rest ih =>
    obtain ⟨e, he, hrest⟩ := Option.bind_eq_some_iff.1 h
    have hafter := ih e (step hd he) hrest
    rwa [List.append_assoc] at hafter
  | case3 => cases h

/-- What relates the drafts before and after one step, and before and after two stretches of steps if it does
for each of them, does for a script as a whole. -/
theorem steps?_induction {δ : Type} {step? : δ → String → List Json → Option δ}
    {E : List (String × List Json) → δ → δ → Prop} (refl : ∀ d, E [] d d)
    (trans : ∀ {first second d d' d''}, E first d d' → E second d' d'' → E (first ++ second) d d'')
    (step : ∀ {d name args d'}, step? d name args = some d' → E [(name, args)] d d')
    {script : List Json} {d d' : δ} (h : steps? step? d script = some d') : E (stepsOf script) d d' :=
  steps?_run (E := fun steps e => E steps d e) (fun hE hstep => trans hE (step hstep)) (refl d) h

/-! ## Fields that steps write -/

section

variable {γ α : Type} {R : γ → α → Prop}

/-- Every call adds an entry, in order. -/
def Adds (R : γ → α → Prop) (calls : List γ) (before after : List α) : Prop :=
  ∃ entries, after = before ++ entries ∧ List.Forall₂ R calls entries

/-- The last call counts; without a call all is as before. -/
def Sets (R : γ → α → Prop) (calls : List γ) (before after : Option α) : Prop :=
  match calls.getLast? with
  | none => after = before
  | some call => ∃ x, R call x ∧ after = some x

namespace Adds

@[simp] theorem nil_iff {before after : List α} : Adds R [] before after ↔ after = before := by
  simp [Adds, List.forall₂_nil_left_iff]

/-- One call adds one entry. -/
@[simp] theorem singleton_iff {call : γ} {before after : List α} :
    Adds R [call] before after ↔ ∃ x, R call x ∧ after = before ++ [x] := by
  constructor
  · rintro ⟨entries, rfl, h⟩
    obtain ⟨x, rest, hx, hrest, rfl⟩ := List.forall₂_cons_left_iff.1 h
    rw [List.forall₂_nil_left_iff.1 hrest]
    exact ⟨x, hx, rfl⟩
  · rintro ⟨x, hx, rfl⟩
    exact ⟨[x], rfl, .cons hx .nil⟩

/-- What some calls add and then others is what all of them add. -/
theorem trans {first second : List γ} {d d' d'' : List α} (h : Adds R first d d')
    (h' : Adds R second d' d'') : Adds R (first ++ second) d d'' := by
  obtain ⟨xs, rfl, hxs⟩ := h
  obtain ⟨ys, rfl, hys⟩ := h'
  exact ⟨xs ++ ys, List.append_assoc .., List.rel_append hxs hys⟩

/-- What was not there at first is the entry of a call. -/
theorem exists_call {calls : List γ} {after : List α} (h : Adds R calls [] after) {x : α}
    (hx : x ∈ after) : ∃ call ∈ calls, R call x := by
  obtain ⟨entries, rfl, h⟩ := h
  induction h with
  | nil => cases hx
  | cons hxy _ ih =>
    rcases List.mem_cons.1 hx with rfl | hx
    · exact ⟨_, List.mem_cons_self .., hxy⟩
    · obtain ⟨call, hcall, hR⟩ := ih hx
      exact ⟨call, List.mem_cons_of_mem _ hcall, hR⟩

end Adds

namespace Sets

@[simp] theorem nil_iff {before after : Option α} : Sets R [] before after ↔ after = before := Iff.rfl

@[simp] theorem singleton_iff {call : γ} {before after : Option α} :
    Sets R [call] before after ↔ ∃ x, R call x ∧ after = some x := Iff.rfl

/-- Of two lists of calls the second one counts, if it sets the value. -/
theorem trans {first second : List γ} {d d' d'' : Option α} (h : Sets R first d d')
    (h' : Sets R second d' d'') : Sets R (first ++ second) d d'' := by
  unfold Sets at h h' ⊢
  rw [List.getLast?_append]
  cases hlast : second.getLast? with
  | none =>
    rw [hlast] at h'
    rw [Option.none_or, h']
    exact h
  | some call =>
    rw [hlast] at h'
    exact h'

end Sets

end

/-! ## Names of steps -/

/-- The names of the steps on labels. -/
def labelNames : List String := ["attype", "title", "titles", "description", "descriptions"]

/-- A step on labels has one of their names. -/
theorem label?_name {l l' : Labels} {name : String} {args : List Json} (h : label? l name args = some l') :
    name ∈ labelNames := by
  unfold label? at h
  split at h
  all_goals
    first
    | contradiction
    | simp [labelNames]

/-- A step of one of some names is no call of another one. -/
theorem calls_eq_nil {names : List String} {name key : String} (h : name ∈ names) (hkey : key ∉ names)
    {args : List Json} : calls key [(name, args)] = [] := by
  have hne : name ≠ key := fun heq => hkey (heq ▸ h)
  rw [calls_singleton, if_neg hne]

end Script
end WebOfThings
