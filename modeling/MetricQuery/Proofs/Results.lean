import Mathlib.Data.List.Forall2

/-!
# Lists of results

What a list function in the error monad has done when it succeeds: each element
gave its result, and each step led to the next.
-/

set_option autoImplicit false

namespace MetricQuery

variable {ε α β : Type}

theorem map_eq_ok {f : α → β} {result : Except ε α} {y : β} (success : result.map f = .ok y) :
    ∃ x, result = .ok x ∧ f x = y := by
  cases result with
  | error e => cases success
  | ok x => exact ⟨x, rfl, Except.ok.inj success⟩

theorem bind_eq_ok {result : Except ε α} {next : α → Except ε β} {y : β}
    (success : result.bind next = .ok y) : ∃ x, result = .ok x ∧ next x = .ok y := by
  cases result with
  | error e => cases success
  | ok x => exact ⟨x, rfl, success⟩

theorem mapError_eq_ok {δ : Type} {f : ε → δ} {result : Except ε α} {x : α}
    (success : result.mapError f = .ok x) : result = .ok x := by
  cases result with
  | error e => cases success
  | ok y => exact congrArg Except.ok (Except.ok.inj success)

theorem toOption_eq_some_iff {result : Except ε α} {x : α} :
    result.toOption = some x ↔ result = .ok x := by
  cases result <;> simp [Except.toOption]

theorem bind_some_eq_ok {result : Except ε α} {y : Option α}
    (success : (do let x ← result; pure (some x)) = .ok y) :
    ∃ x, result = .ok x ∧ y = some x := by
  cases result with
  | error e => cases success
  | ok x => exact ⟨x, rfl, (Except.ok.inj success).symm⟩

theorem mapM_cons_eq (f : α → Except ε β) (x : α) (xs : List α) :
    (x :: xs).mapM f =
      match f x with
      | .error error => .error error
      | .ok y => (xs.mapM f).map (y :: ·) := by
  rw [List.mapM_cons]
  cases f x with
  | error error => rfl
  | ok y => cases xs.mapM f <;> rfl

theorem mapM_eq_ok_iff (f : α → Except ε β) :
    ∀ (xs : List α) (ys : List β),
      xs.mapM f = .ok ys ↔ List.Forall₂ (fun x y => f x = .ok y) xs ys := by
  intro xs
  induction xs with
  | nil => intro ys; simp [pure, Except.pure, eq_comm]
  | cons x xs ih =>
    intro ys
    rw [List.mapM_cons]
    cases head : f x with
    | error e =>
      constructor
      · intro impossible
        exact absurd impossible (by simp [bind, Except.bind])
      · intro related
        cases related with
        | cons first _ => simp [head] at first
    | ok y =>
      cases tail : xs.mapM f with
      | error e =>
        constructor
        · intro impossible
          exact absurd impossible (by simp [bind, Except.bind])
        · intro related
          cases related with
          | cons _ others => simp [(ih _).2 others] at tail
      | ok rest =>
        constructor
        · intro success
          obtain rfl : y :: rest = ys := Except.ok.inj success
          exact .cons head ((ih rest).1 tail)
        · intro related
          cases related with
          | @cons _ y' _ rest' first others =>
            obtain rfl : y = y' := Except.ok.inj (head.symm.trans first)
            obtain rfl : rest = rest' := Except.ok.inj (tail.symm.trans ((ih _).2 others))
            rfl

theorem mapM_congr {f g : α → Except ε β} {xs : List α} (alike : ∀ x ∈ xs, f x = g x) :
    xs.mapM f = xs.mapM g := by
  induction xs with
  | nil => rfl
  | cons x xs ih =>
    obtain ⟨first, later⟩ := List.forall_mem_cons.1 alike
    rw [mapM_cons_eq, mapM_cons_eq, first, ih later]

theorem map_mapM {γ : Type} (view : β → γ) (f : α → Except ε β) (xs : List α) :
    (xs.mapM f).map (List.map view) = xs.mapM fun x => (f x).map view := by
  induction xs with
  | nil => rfl
  | cons x xs ih =>
    rw [mapM_cons_eq, mapM_cons_eq, ← ih]
    cases f x with
    | error error => rfl
    | ok y => cases xs.mapM f <;> rfl

/-- What is the same for all elements of a list is done once, unless there are none. -/
theorem mapM_map_of_ne_nil {γ : Type} {xs : List α} (present : xs ≠ []) (result : Except ε β)
    (f : α → β → γ) :
    (xs.mapM fun x => result.map (f x)) = result.map fun y => xs.map (f · y) := by
  cases result with
  | error error =>
    obtain ⟨first, others, rfl⟩ := List.exists_cons_of_ne_nil present
    rw [mapM_cons_eq]
    rfl
  | ok y => exact List.mapM_pure

theorem eq_filterMap_toOption {f : α → Except ε β} {xs : List α} {ys : List β}
    (made : List.Forall₂ (fun x y => f x = .ok y) xs ys) :
    ys = xs.filterMap fun x => (f x).toOption := by
  induction made with
  | nil => rfl
  | cons head _ ih =>
    rw [List.filterMap_cons, head, ← ih]
    rfl

theorem forall₂_left {relation : α → β → Prop} {xs : List α} {ys : List β}
    (related : List.Forall₂ relation xs ys) : ∀ x ∈ xs, ∃ y ∈ ys, relation x y := by
  induction related with
  | nil => simp
  | cons head _ ih =>
    intro x member
    rcases List.mem_cons.1 member with rfl | member
    · exact ⟨_, List.mem_cons_self, head⟩
    · obtain ⟨y, inside, holds⟩ := ih x member
      exact ⟨y, List.mem_cons_of_mem _ inside, holds⟩

theorem exists_forall₂_iff {relation : α → β → Prop} {xs : List α} :
    (∃ ys, List.Forall₂ relation xs ys) ↔ ∀ x ∈ xs, ∃ y, relation x y := by
  constructor
  · rintro ⟨ys, related⟩ x member
    obtain ⟨y, _, holds⟩ := forall₂_left related x member
    exact ⟨y, holds⟩
  · intro each
    induction xs with
    | nil => exact ⟨[], .nil⟩
    | cons x xs ih =>
      obtain ⟨⟨y, holds⟩, later⟩ := List.forall_mem_cons.1 each
      obtain ⟨ys, related⟩ := ih later
      exact ⟨y :: ys, .cons holds related⟩

/-- A fold that succeeds on two lists, one behind the other, succeeds on each. -/
theorem foldlM_append_eq_ok {f : β → α → Except ε β} {start final : β} {xs ys : List α}
    (success : (xs ++ ys).foldlM f start = .ok final) :
    ∃ middle, xs.foldlM f start = .ok middle ∧ ys.foldlM f middle = .ok final := by
  rw [List.foldlM_append] at success
  cases front : xs.foldlM f start with
  | error e => rw [front] at success; cases success
  | ok middle =>
    rw [front] at success
    exact ⟨middle, rfl, success⟩

theorem foldlM_concat_eq_ok {f : β → α → Except ε β} {start final : β} {xs : List α} {x : α}
    (success : (xs ++ [x]).foldlM f start = .ok final) :
    ∃ before, xs.foldlM f start = .ok before ∧ f before x = .ok final := by
  obtain ⟨before, front, last⟩ := foldlM_append_eq_ok success
  refine ⟨before, front, ?_⟩
  rw [List.foldlM_cons] at last
  cases step : f before x with
  | error e => rw [step] at last; cases last
  | ok after =>
    rw [step] at last
    exact last

theorem foldlM_eq_error_iff {f : β → α → Except ε β} {error : ε} {xs : List α} :
    ∀ {start : β}, xs.foldlM f start = .error error ↔
      ∃ front x back before, xs = front ++ x :: back ∧ front.foldlM f start = .ok before ∧
        f before x = .error error := by
  intro start
  constructor
  · intro failure
    induction xs generalizing start with
    | nil => cases failure
    | cons x xs ih =>
      rw [List.foldlM_cons] at failure
      cases step : f start x with
      | error e =>
        rw [step] at failure
        cases failure
        exact ⟨[], x, xs, start, rfl, rfl, step⟩
      | ok after =>
        rw [step] at failure
        obtain ⟨front, y, back, before, split, passed, found⟩ := ih failure
        refine ⟨x :: front, y, back, before, congrArg (x :: ·) split, ?_, found⟩
        rw [List.foldlM_cons, step]
        exact passed
  · rintro ⟨front, x, back, before, rfl, passed, found⟩
    rw [List.foldlM_append, passed]
    change (x :: back).foldlM f before = _
    rw [List.foldlM_cons, found]
    rfl

theorem mapM_eq_error_iff {f : α → Except ε β} {error : ε} {xs : List α} :
    xs.mapM f = .error error ↔
      ∃ front x back, xs = front ++ x :: back ∧ (∀ y ∈ front, ∃ z, f y = .ok z) ∧
        f x = .error error := by
  induction xs with
  | nil => simp [pure, Except.pure]
  | cons x xs ih =>
    rw [mapM_cons_eq]
    cases head : f x with
    | error e =>
      constructor
      · intro failure
        cases failure
        exact ⟨[], x, xs, rfl, by simp, head⟩
      · rintro ⟨front, y, back, split, passed, found⟩
        cases front with
        | nil =>
          obtain ⟨rfl, rfl⟩ := List.cons.inj split
          rw [head] at found
          cases found
          rfl
        | cons first front =>
          obtain ⟨rfl, rfl⟩ := List.cons.inj split
          obtain ⟨z, good⟩ := passed x List.mem_cons_self
          rw [head] at good
          cases good
    | ok y =>
      constructor
      · intro failure
        have later : xs.mapM f = .error error := by
          cases rest : xs.mapM f with
          | error e => rw [rest] at failure; exact failure
          | ok ys => rw [rest] at failure; cases failure
        obtain ⟨front, z, back, rfl, passed, found⟩ := ih.1 later
        refine ⟨x :: front, z, back, rfl, ?_, found⟩
        exact List.forall_mem_cons.2 ⟨⟨y, head⟩, passed⟩
      · rintro ⟨front, z, back, split, passed, found⟩
        cases front with
        | nil =>
          obtain ⟨rfl, rfl⟩ := List.cons.inj split
          rw [head] at found
          cases found
        | cons first front =>
          obtain ⟨rfl, rfl⟩ := List.cons.inj split
          have later := ih.2 ⟨front, z, back, rfl, (List.forall_mem_cons.1 passed).2, found⟩
          rw [later]
          rfl

/-- What every step of a fold keeps holds of its result. -/
theorem foldlM_invariant {f : β → α → Except ε β} (invariant : β → Prop) {xs : List α}
    (step : ∀ x ∈ xs, ∀ before after, invariant before → f before x = .ok after →
      invariant after) :
    ∀ {start final : β}, invariant start → xs.foldlM f start = .ok final → invariant final := by
  induction xs with
  | nil =>
    intro start final holds success
    obtain rfl : start = final := Except.ok.inj success
    exact holds
  | cons x xs ih =>
    intro start final holds success
    rw [List.foldlM_cons] at success
    cases first : f start x with
    | error e => rw [first] at success; cases success
    | ok after =>
      rw [first] at success
      exact ih (fun y member => step y (List.mem_cons_of_mem x member))
        (step x List.mem_cons_self start after holds first) success

/-! ## Failures -/

def Fails (result : Except ε α) : Prop :=
  ∃ error, result = .error error

theorem Fails.map {result : Except ε α} (fails : Fails result) (f : α → β) :
    Fails (result.map f) := by
  obtain ⟨error, rfl⟩ := fails
  exact ⟨error, rfl⟩

theorem fails_mapM {f : α → Except ε β} {xs : List α} (fails : ∃ x ∈ xs, Fails (f x)) :
    Fails (xs.mapM f) := by
  obtain ⟨x, member, error, failure⟩ := fails
  cases all : xs.mapM f with
  | error found => exact ⟨found, rfl⟩
  | ok ys =>
    obtain ⟨y, _, success⟩ := forall₂_left ((mapM_eq_ok_iff f xs ys).1 all) x member
    rw [failure] at success
    cases success

/-- A fold fails if one of its steps fails whatever it starts from. -/
theorem fails_foldlM {f : β → α → Except ε β} {xs : List α} {start : β}
    (fails : ∃ x ∈ xs, ∀ held, Fails (f held x)) : Fails (xs.foldlM f start) := by
  obtain ⟨x, member, failure⟩ := fails
  obtain ⟨front, back, rfl⟩ := List.append_of_mem member
  cases all : (front ++ x :: back).foldlM f start with
  | error found => exact ⟨found, rfl⟩
  | ok final =>
    obtain ⟨held, _, later⟩ := foldlM_append_eq_ok all
    obtain ⟨error, here⟩ := failure held
    rw [List.foldlM_cons, here] at later
    cases later

/-- A change of one entry of a list, told entry by entry. -/
theorem forall₂_modify {relates : α → α → Prop} {change : α → α} (same : ∀ x, relates x x)
    (changed : ∀ x, relates x (change x)) (xs : List α) :
    ∀ index, List.Forall₂ relates xs (xs.modify index change) := by
  induction xs with
  | nil =>
    intro index
    rw [List.modify_nil]
    exact .nil
  | cons x rest ih =>
    intro index
    cases index with
    | zero => exact .cons (changed x) (List.forall₂_same.2 fun y _ => same y)
    | succ index => exact .cons (same x) (ih index)

end MetricQuery
