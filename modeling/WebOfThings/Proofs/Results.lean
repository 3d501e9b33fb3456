import Mathlib.Data.List.Basic
import Mathlib.Data.Option.Basic

/-!
# Results of computations

Most of what is computed here may fail: a value is decoded, a draft is built, a name is looked up. This
module says when computations that are put together give a value, and which one.

A computation `Succeeds` if it gives a value. Two of them one after the other do if the second one does on
the value of the first (`Succeeds.bind_iff`), a list of them does if each of them does (`Succeeds.mapM_iff`,
`Succeeds.forM_iff`). The values of a list were given by its members (`Succeeds.exists_of_mapM`), and so was
its error (`Except.exists_error_of_mapM`). What every step of a fold keeps is kept by the fold
(`Except.foldlM_keeps`).

At the end, look-ups that may find nothing are compared: on both sides there is a value, and the values are
related, or there is none on either side (`Option.Rel`).

The checks of a draft, the readers of a description and the decoders all have this form, and their proofs
open a computation with these lemmas and not by cases. Errors are treated like values where it matters which
one it is.
-/

namespace WebOfThings

/-! ## Computations that give a value -/

/-- A computation gives a value. -/
def Succeeds {ε α : Type} (x : Except ε α) : Prop := ∃ a, x = .ok a

namespace Succeeds

variable {ε α β : Type}

@[simp] theorem ok (a : α) : Succeeds (.ok a : Except ε α) := ⟨a, rfl⟩

@[simp] theorem not_error (e : ε) : ¬ Succeeds (.error e : Except ε α) := fun ⟨_, h⟩ => by cases h

/-- What is made of a value does not matter. -/
theorem map_iff {f : α → β} {x : Except ε α} : Succeeds (x.map f) ↔ Succeeds x := by
  cases x with
  | error e => exact iff_of_false (not_error e) (not_error e)
  | ok a => exact iff_of_true (ok _) (ok _)

/-- Two computations one after the other give a value if the second gives it on a value of the first. -/
theorem bind_eq_ok_iff {f : α → Except ε β} {x : Except ε α} {b : β} :
    (x >>= f) = .ok b ↔ ∃ a, x = .ok a ∧ f a = .ok b := by
  cases x with
  | error e => exact iff_of_false (fun h => by cases h) fun ⟨a, h, _⟩ => by cases h
  | ok a => exact ⟨fun h => ⟨a, rfl, h⟩, fun ⟨_, ha, h⟩ => by cases ha; exact h⟩

/-- Two computations one after the other give a value if the first does, and the second does on it. -/
theorem bind_iff {f : α → Except ε β} {x : Except ε α} :
    Succeeds (x >>= f) ↔ ∃ a, x = .ok a ∧ Succeeds (f a) := by
  simp only [Succeeds, bind_eq_ok_iff]
  exact ⟨fun ⟨b, a, ha, hb⟩ => ⟨a, ha, b, hb⟩, fun ⟨a, ha, b, hb⟩ => ⟨b, a, ha, hb⟩⟩

/-- If the value of the first computation does not matter to the second, both have to give one. -/
theorem bind_iff_and {f : α → Except ε β} {x : Except ε α} {P : Prop}
    (h : ∀ a, x = .ok a → (Succeeds (f a) ↔ P)) : Succeeds (x >>= f) ↔ Succeeds x ∧ P := by
  rw [bind_iff]
  exact ⟨fun ⟨a, ha, hf⟩ => ⟨⟨a, ha⟩, (h a ha).1 hf⟩, fun ⟨⟨a, ha⟩, hp⟩ => ⟨a, ha, (h a ha).2 hp⟩⟩

/-- A list of computations gives a value if each of them does. -/
theorem mapM_iff {f : α → Except ε β} {xs : List α} :
    Succeeds (xs.mapM f) ↔ ∀ x ∈ xs, Succeeds (f x) := by
  induction xs with
  | nil => exact iff_of_true (ok _) (List.forall_mem_nil _)
  | cons x rest ih =>
    rw [List.mapM_cons, bind_iff, List.forall_mem_cons, ← ih]
    constructor
    · rintro ⟨y, hy, h⟩
      obtain ⟨ys, hys, -⟩ := bind_iff.1 h
      exact ⟨⟨y, hy⟩, ys, hys⟩
    · rintro ⟨⟨y, hy⟩, ys, hys⟩
      exact ⟨y, hy, bind_iff.2 ⟨ys, hys, ok _⟩⟩

/-- The values of a list of computations were given by its members. -/
theorem exists_of_mapM {f : α → Except ε β} {xs : List α} {ys : List β} (h : xs.mapM f = .ok ys) :
    ∀ y ∈ ys, ∃ x ∈ xs, f x = .ok y := by
  induction xs generalizing ys with
  | nil =>
    cases h
    exact List.forall_mem_nil _
  | cons x rest ih =>
    rw [List.mapM_cons] at h
    obtain ⟨y, hy, h⟩ := bind_eq_ok_iff.1 h
    obtain ⟨others, hothers, h⟩ := bind_eq_ok_iff.1 h
    cases h
    refine List.forall_mem_cons.2 ⟨⟨x, List.mem_cons_self .., hy⟩, fun z hz => ?_⟩
    obtain ⟨w, hw, hwz⟩ := ih hothers z hz
    exact ⟨w, List.mem_cons_of_mem _ hw, hwz⟩

/-- Checks one after the other succeed if each of them does. -/
theorem forM_iff {f : α → Except ε PUnit} {xs : List α} :
    Succeeds (xs.forM f) ↔ ∀ x ∈ xs, Succeeds (f x) := by
  induction xs with
  | nil => exact iff_of_true (ok _) (List.forall_mem_nil _)
  | cons x rest ih =>
    rw [List.forall_mem_cons, ← ih]
    exact bind_iff_and fun _ _ => Iff.rfl

end Succeeds

/-! ## Lists of computations -/

/-- A list of computations gives the values that their members have, if each of them has one. -/
theorem Except.mapM_eq_ok_iff {α β ε : Type} {f : β → Except ε α} {g : β → Option α}
    (hfg : ∀ b x, f b = .ok x ↔ g b = some x) {bs : List β} {xs : List α} :
    bs.mapM f = .ok xs ↔ bs.map g = xs.map some := by
  induction bs generalizing xs with
  | nil => cases xs <;> simp [pure, Except.pure]
  | cons b rest ih =>
    rw [List.mapM_cons]
    cases hb : f b with
    | error e =>
      -- An element that fails has no value in any list of values.
      have hnone : ∀ x, g b ≠ some x := fun x hx => by
        rw [(hfg b x).2 hx] at hb
        cases hb
      cases xs <;> simp [bind, Except.bind, hnone]
    | ok x =>
      have hx := (hfg b x).1 hb
      cases xs with
      | nil => cases rest.mapM f <;> simp [bind, Except.bind, pure, Except.pure]
      | cons y ys =>
        rw [List.map_cons, List.map_cons, hx, List.cons.injEq, Option.some.injEq, ← ih]
        cases rest.mapM f <;> simp [bind, Except.bind, pure, Except.pure]

/-- The error of a list of computations is that of one of them. -/
theorem Except.exists_error_of_mapM {α β ε : Type} {f : β → Except ε α} {bs : List β} {e : ε}
    (h : bs.mapM f = .error e) : ∃ b ∈ bs, f b = .error e := by
  induction bs with
  | nil => cases h
  | cons b rest ih =>
    rw [List.mapM_cons] at h
    cases hb : f b with
    | error e' =>
      rw [hb] at h
      cases h
      exact ⟨b, List.mem_cons_self, hb⟩
    | ok x =>
      rw [hb] at h
      cases hrest : rest.mapM f with
      | error e' =>
        rw [hrest] at h
        cases h
        obtain ⟨b', hb', hfb'⟩ := ih hrest
        exact ⟨b', List.mem_cons_of_mem _ hb', hfb'⟩
      | ok xs =>
        rw [hrest] at h
        cases h

/-- What every step of a fold keeps, the whole fold keeps. -/
theorem Except.foldlM_keeps {σ α ε : Type} {P : σ → Prop} {f : σ → α → Except ε σ} {xs : List α}
    (hstep : ∀ s x s', x ∈ xs → P s → f s x = .ok s' → P s') {s s' : σ} (hs : P s)
    (h : xs.foldlM f s = .ok s') : P s' := by
  induction xs generalizing s with
  | nil =>
    cases h
    exact hs
  | cons x rest ih =>
    rw [List.foldlM_cons] at h
    cases hx : f s x with
    | error e =>
      rw [hx] at h
      cases h
    | ok t =>
      rw [hx] at h
      exact ih (fun s x s' hx' => hstep s x s' (List.mem_cons_of_mem _ hx'))
        (hstep s x t (List.mem_cons_self ..) hs hx) h

/-- Nothing is lost of a result where nothing is lost of its value. -/
theorem Except.map_injective {ε α β : Type} {f : α → β} (hf : Function.Injective f) :
    Function.Injective (Except.map f : Except ε α → Except ε β) := by
  intro x y h
  cases x <;> cases y <;> simp_all [Except.map, hf.eq_iff]

/-! ## Values on both sides, or on neither -/

section

variable {α β γ δ : Type} {r : α → β → Prop} {q : γ → δ → Prop} {x : Option α} {y : Option β}

/-- Related values lead to related values where each of them does. -/
theorem rel_bind {f : α → Option γ} {g : β → Option δ} (h : Option.Rel r x y)
    (hfg : ∀ {a b}, r a b → Option.Rel q (f a) (g b)) : Option.Rel q (x.bind f) (y.bind g) := by
  cases h with
  | none => exact .none
  | some h => exact hfg h

/-- Values that are related are related in a wider sense. -/
theorem rel_imp {r' : α → β → Prop} (h : Option.Rel r x y) (himp : ∀ {a b}, r a b → r' a b) :
    Option.Rel r' x y := by
  cases h with
  | none => exact .none
  | some h => exact .some (himp h)

/-- Related values stay related when the second one is replaced. -/
theorem rel_map_right {r' : α → δ → Prop} {g : β → δ} (h : Option.Rel r x y)
    (himp : ∀ {a b}, r a b → r' a (g b)) : Option.Rel r' x (y.map g) := by
  cases h with
  | none => exact .none
  | some h => exact .some (himp h)

theorem exists_of_rel_some {a : α} (h : Option.Rel r (some a) y) : ∃ b, y = some b ∧ r a b := by
  cases h with
  | some h => exact ⟨_, rfl, h⟩

end

end WebOfThings
