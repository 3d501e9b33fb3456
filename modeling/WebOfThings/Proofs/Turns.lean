import Mathlib.Data.Finset.Max
import Mathlib.Data.Fintype.Basic
import Mathlib.Data.List.FinRange
import Mathlib.Data.List.Nodup
import WebOfThings.Binding
import WebOfThings.Proofs.Dict
import WebOfThings.Proofs.Results

/-!
# Steps in turn

An operation on many entries lists them, takes a step for each in an order of its own (`Turns`) and collects
what the steps answer as the entries are listed (`Effect.inTurns`). An operation that takes the steps as it
lists them is the case in which both orders are the same (`Effect.inTurns_listed`).

A step is *steady* in some worlds if it answers alike in all of them and leads to no other world. Steady
steps do not see each other: in whatever order they are taken, each answers what it answers alone
(`Effect.asAlone_inTurns`), and what it tells on the way is what it tells alone (`Effect.inTurns_telling`).

Reading and writing many properties of a thing, here or elsewhere, promise nothing about the order in which
the properties have their turn. The two are instances of one statement, so the argument about orders is made
once, for steps of any kind on any world: a place is at some point of the order, the steps before it lead to
some world (`worldAfter`), and what is steady does not notice which. Where a key is listed twice the last
place that lists it counts, whenever its turn is.
-/

namespace WebOfThings

/-! ## Orders -/

/-- An order in which `n` listed accesses are processed. -/
structure Turns (n : Nat) where
  order : List (Fin n)
  perm : order.Perm (List.finRange n)

namespace Turns

variable {n : Nat}

/-- The order in which the accesses are listed. -/
def listed : Turns n := ⟨List.finRange n, .refl _⟩

/-- The order from the last listed access to the first. -/
def reversed : Turns n := ⟨(List.finRange n).reverse, List.reverse_perm _⟩

/-- The places whose turn comes before the turn of a place. -/
def before (turns : Turns n) (i : Fin n) : List (Fin n) := turns.order.take (turns.order.idxOf i)

/-- The places whose turn comes after the turn of a place. -/
def after (turns : Turns n) (i : Fin n) : List (Fin n) := turns.order.drop (turns.order.idxOf i + 1)

/-- A place has its turn after those before it and before those after it. -/
theorem order_eq (turns : Turns n) (i : Fin n) : turns.order = turns.before i ++ i :: turns.after i := by
  have hmem : i ∈ turns.order := turns.perm.mem_iff.2 (List.mem_finRange i)
  have hlt := List.idxOf_lt_length_of_mem hmem
  conv_lhs => rw [← List.take_append_drop (turns.order.idxOf i) turns.order, List.drop_eq_getElem_cons hlt,
    List.getElem_idxOf hlt]
  rfl

/-- No place comes before itself. -/
theorem ne_of_mem_before {turns : Turns n} {i j : Fin n} (h : j ∈ turns.before i) : j ≠ i := by
  rintro rfl
  have hmem : j ∈ turns.order := List.mem_of_mem_take h
  exact Nat.lt_irrefl _ ((List.mem_take_iff_idxOf_lt hmem).1 h)

/-- Where accesses are processed as they are listed, the later ones come after. -/
theorem lt_of_mem_after_listed {i j : Fin n} (h : j ∈ listed.after i) : i < j := by
  rw [after, listed, List.idxOf_finRange] at h
  obtain ⟨k, hk, rfl⟩ := List.mem_drop_iff_getElem.1 h
  rw [List.getElem_finRange, Fin.lt_def]
  show i.val < i.val + 1 + k
  omega

/-- Of the places with a property, where there is one, one is the last. -/
theorem exists_last {p : Fin n → Prop} [DecidablePred p] (h : ∃ i, p i) :
    ∃ i, p i ∧ ∀ j, i < j → ¬ p j := by
  obtain ⟨i, hi⟩ := h
  have hne : (Finset.univ.filter p).Nonempty := ⟨i, by simpa using hi⟩
  refine ⟨_, (Finset.mem_filter.1 (Finset.max'_mem _ hne)).2, fun j hj hp => ?_⟩
  exact absurd (Finset.le_max' _ j (by simpa using hp)) (not_le_of_gt hj)

end Turns

/-- Of the values that are listed under a key, the last one counts. -/
theorem Dict.get?_ofList_map_finRange {α : Type} {n : Nat} (key : Fin n → String) (value : Fin n → α)
    {i : Fin n} (h : ∀ j, i < j → key j ≠ key i) :
    Dict.get? (key i) (Dict.ofList ((List.finRange n).map fun j => (key j, value j))) = some (value i) := by
  have hafter : ∀ e ∈ (Turns.listed.after i).map fun j => (key j, value j), e.1 ≠ key i := by
    intro e he
    obtain ⟨j, hj, rfl⟩ := List.mem_map.1 he
    exact h j (Turns.lt_of_mem_after_listed hj)
  have hsplit : List.finRange n = _ := Turns.listed.order_eq i
  rw [hsplit, List.map_append, List.map_cons, Dict.get?_ofList_append, Dict.get?_ofList_cons,
    Dict.get?_ofList_eq_none hafter]
  simp

namespace Effect

variable {ω ε α ι : Type} (key : ι → String) (step : ι → Effect ω ε α)

/-! ## Steps for many entries -/

/-- The world after the steps for some entries. -/
def worldAfter : List ι → ω → ω
  | [], w => w
  | x :: rest, w => worldAfter rest (step x w).2

/-- What the step for the entry in a place answers when its turn comes. -/
def answerAt (entries : List ι) (turns : Turns entries.length) (w : ω) (i : Fin entries.length) : Except ε α :=
  (step (entries.get i) (worldAfter step ((turns.before i).map entries.get) w)).1

/-- Steps that are taken in an order of their own, with their answers collected as the entries are listed. -/
def inTurns (entries : List ι) (turns : Turns entries.length) (w : ω) : Dict (Except ε α) × ω :=
  (Dict.ofList ((List.finRange entries.length).map fun i =>
    (key (entries.get i), answerAt step entries turns w i)),
    worldAfter step (turns.order.map entries.get) w)

/-- The answers of steps that are taken as the entries are listed. -/
def answers : List ι → ω → List (String × Except ε α)
  | [], _ => []
  | x :: rest, w => (key x, (step x w).1) :: answers rest (step x w).2

/-- There is one answer for each entry. -/
theorem length_answers (entries : List ι) (w : ω) :
    (answers key step entries w).length = entries.length := by
  induction entries generalizing w with
  | nil => rfl
  | cons x rest ih => rw [answers, List.length_cons, ih, List.length_cons]

/-- The answer of an entry is the one that its step gives in the world that the entries before it leave. -/
theorem getElem_answers {entries : List ι} {i : Nat} (w : ω) (h : i < (answers key step entries w).length)
    (h' : i < entries.length) :
    (answers key step entries w)[i] = (key entries[i], (step entries[i] (worldAfter step (entries.take i) w)).1) := by
  induction entries generalizing w i with
  | nil => cases h'
  | cons x rest ih =>
    cases i with
    | zero => rfl
    | succ i => exact ih _ _ (Nat.lt_of_succ_lt_succ h')

/-- Where accesses are processed as they are listed, the entries before a place are those listed before it. -/
theorem map_before_listed (entries : List ι) (i : Fin entries.length) :
    (Turns.listed.before i).map entries.get = entries.take i := by
  rw [Turns.before, Turns.listed, List.idxOf_finRange, List.map_take, List.map_get_finRange]

/-- Steps taken as they are listed answer one after the other. -/
theorem inTurns_listed (entries : List ι) (w : ω) :
    inTurns key step entries .listed w =
      (Dict.ofList (answers key step entries w), worldAfter step entries w) := by
  have hanswers : ((List.finRange entries.length).map fun i =>
      (key (entries.get i), answerAt step entries .listed w i)) = answers key step entries w := by
    refine List.ext_getElem (by simp [length_answers]) fun i h h' => ?_
    have hi : i < entries.length := by simpa using h
    rw [getElem_answers key step w h' hi, List.getElem_map, List.getElem_finRange, answerAt,
      map_before_listed]
    rfl
  rw [inTurns, hanswers, Turns.listed, List.map_get_finRange]

/-! ## Steady steps -/

/-- In some worlds a step answers alike, and it leads from such a world to such a world. -/
structure Steady (worlds : ω → Prop) (step : Effect ω ε α) : Prop where
  answer : ∀ {w w'}, worlds w → worlds w' → (step w).1 = (step w').1
  kept : ∀ {w}, worlds w → worlds (step w).2

/-- What is made of the answers does not matter as long as nothing of them is lost. -/
theorem Steady.of_map {β : Type} {worlds : ω → Prop} {f : α → β} (hf : Function.Injective f)
    {step : Effect ω ε α} (h : Steady worlds fun w => ((step w).1.map f, (step w).2)) : Steady worlds step where
  answer hw hw' := Except.map_injective hf (h.answer hw hw')
  kept hw := h.kept hw

/-- Every entry has one answer, which is what its step answers alone. -/
structure AsAlone (entries : List ι) (w : ω) (results : Dict (Except ε α)) : Prop where
  nodup : (Dict.keys results).Nodup
  mem_keys_iff : ∀ name, name ∈ Dict.keys results ↔ ∃ x ∈ entries, key x = name
  answer : ∀ x ∈ entries, Dict.get? (key x) results = some (step x w).1

variable {key step} {worlds : ω → Prop} {entries : List ι}

/-- Steady steps lead from a world of the given ones to such a world. -/
theorem worldAfter_kept (h : ∀ x ∈ entries, Steady worlds (step x)) {w : ω} (hw : worlds w) :
    worlds (worldAfter step entries w) := by
  induction entries generalizing w with
  | nil => exact hw
  | cons x rest ih =>
    exact ih (fun y hy => h y (List.mem_cons_of_mem _ hy)) ((h x (List.mem_cons_self ..)).kept hw)

theorem mem_of_mem_map_get {places : List (Fin entries.length)} {x : ι} (h : x ∈ places.map entries.get) :
    x ∈ entries := by
  obtain ⟨i, -, rfl⟩ := List.mem_map.1 h
  exact List.get_mem _ i

/-- A steady step answers what it answers alone, whenever its turn is. -/
theorem answerAt_of_steady (h : ∀ x ∈ entries, Steady worlds (step x)) (turns : Turns entries.length) {w : ω}
    (hw : worlds w) (i : Fin entries.length) :
    answerAt step entries turns w i = (step (entries.get i) w).1 :=
  (h _ (List.get_mem _ i)).answer (worldAfter_kept (fun _ hx => h _ (mem_of_mem_map_get hx)) hw) hw

/-- Steady steps that are taken in turn answer as if each had been taken alone, provided that entries under one
key are alike. -/
theorem asAlone_inTurns (h : ∀ x ∈ entries, Steady worlds (step x))
    (halike : ∀ x ∈ entries, ∀ y ∈ entries, key x = key y → x = y) (turns : Turns entries.length) {w : ω}
    (hw : worlds w) : AsAlone key step entries w (inTurns key step entries turns w).1 := by
  have hanswer : ∀ x ∈ entries, Dict.get? (key x) (inTurns key step entries turns w).1 = some (step x w).1 := by
    intro x hx
    obtain ⟨first, hfirst⟩ := List.mem_iff_get.1 hx
    obtain ⟨i, hi, hlast⟩ := Turns.exists_last (p := fun i => key (entries.get i) = key x)
      ⟨first, congrArg key hfirst⟩
    have hentry := Dict.get?_ofList_map_finRange (fun j => key (entries.get j)) (answerAt step entries turns w)
      (i := i) fun j hj hkey => hlast j hj (hkey.trans hi)
    rw [answerAt_of_steady h turns hw, hi, halike _ (List.get_mem _ i) x hx hi] at hentry
    exact hentry
  refine ⟨(Dict.sorted_ofList _).nodup_keys, fun name => ⟨fun hname => ?_, ?_⟩, hanswer⟩
  · obtain ⟨e, he, rfl⟩ := List.mem_map.1 hname
    obtain ⟨i, -, rfl⟩ := List.mem_map.1 (Dict.mem_of_mem_ofList he)
    exact ⟨_, List.get_mem _ i, rfl⟩
  · rintro ⟨x, hx, rfl⟩
    exact List.mem_map.2 ⟨_, Dict.mem_of_get? (hanswer x hx), rfl⟩

/-! ## Steps that tell something -/

variable {β : Type}

/-- A step goes on as another one and tells something on the way. -/
def Tells (telling : Effect (ω × List β) ε α) (step : Effect ω ε α) (told : ω → List β) : Prop :=
  ∀ w before, telling (w, before) = ((step w).1, (step w).2, before ++ told w)

/-- What is made of the answers does not matter to what a step tells. -/
theorem Tells.of_map {γ : Type} {f : α → γ} (hf : Function.Injective f) {telling : Effect (ω × List β) ε α}
    {step : Effect ω ε α} {told : ω → List β}
    (h : Tells (fun s => ((telling s).1.map f, (telling s).2)) (fun w => ((step w).1.map f, (step w).2)) told) :
    Tells telling step told := by
  intro w before
  have hmap := h w before
  simp only [Prod.mk.injEq] at hmap
  exact Prod.ext (Except.map_injective hf hmap.1) hmap.2

variable {telling : ι → Effect (ω × List β) ε α} {told : ι → ω → List β}

/-- Steady steps that tell what they do tell it one after the other. -/
theorem worldAfter_telling (h : ∀ x ∈ entries, Steady worlds (step x))
    (htells : ∀ x ∈ entries, Tells (telling x) (step x) (told x))
    (htold : ∀ x ∈ entries, ∀ {w w'}, worlds w → worlds w' → told x w = told x w') {w w' : ω} (hw : worlds w)
    (hw' : worlds w') (before : List β) :
    worldAfter telling entries (w', before) =
      (worldAfter step entries w', before ++ entries.flatMap fun x => told x w) := by
  induction entries generalizing w' before with
  | nil => simp [worldAfter]
  | cons x rest ih =>
    have hx : x ∈ x :: rest := List.mem_cons_self ..
    have hrest : ∀ y ∈ rest, y ∈ x :: rest := fun y hy => List.mem_cons_of_mem _ hy
    rw [worldAfter, htells x hx, worldAfter, ih (fun y hy => h y (hrest y hy)) (fun y hy => htells y (hrest y hy))
      (fun y hy => htold y (hrest y hy)) ((h x hx).kept hw'), htold x hx hw' hw, List.append_assoc]
    rfl

/-- Steady steps that are taken in turn tell what each of them tells alone, one after the other. -/
theorem inTurns_telling (h : ∀ x ∈ entries, Steady worlds (step x))
    (htells : ∀ x ∈ entries, Tells (telling x) (step x) (told x))
    (htold : ∀ x ∈ entries, ∀ {w w'}, worlds w → worlds w' → told x w = told x w')
    (turns : Turns entries.length) {w : ω} (hw : worlds w) :
    inTurns key telling entries turns (w, []) =
      ((inTurns key step entries turns w).1, (inTurns key step entries turns w).2,
        (turns.order.map entries.get).flatMap fun x => told x w) := by
  have hafter : ∀ places : List (Fin entries.length),
      worldAfter telling (places.map entries.get) (w, []) =
        (worldAfter step (places.map entries.get) w, (places.map entries.get).flatMap fun x => told x w) :=
    fun places => worldAfter_telling (fun _ hx => h _ (mem_of_mem_map_get hx))
      (fun _ hx => htells _ (mem_of_mem_map_get hx)) (fun _ hx => htold _ (mem_of_mem_map_get hx)) hw hw []
  have hanswer : ∀ i, answerAt telling entries turns (w, []) i = answerAt step entries turns w i := by
    intro i
    rw [answerAt, hafter, htells _ (List.get_mem _ i)]
    rfl
  rw [inTurns, hafter, inTurns]
  simp only [hanswer]

end Effect
end WebOfThings
