import Mathlib.Data.List.Basic

/-!
# One-shot futures

A future is pending until it is given a result, an exception or a cancellation,
and keeps that outcome for good. Futures live in a heap indexed by the order of
their creation, so that the identity of a future is its index.
-/

namespace ProxyClient

variable {α ε : Type*}

/-- The state of one future: pending, or done in one of three ways. -/
inductive Future (α ε : Type*)
  | pending
  | result (value : α)
  | exception (error : ε)
  | cancelled
  deriving DecidableEq

namespace Future

/-- `fut.done()`: it has a result or an exception, or was cancelled. -/
def done : Future α ε → Bool
  | pending => false
  | _ => true

/-- A future that is not done is pending. -/
@[simp] theorem done_eq_false {f : Future α ε} : f.done = false ↔ f = pending := by
  cases f <;> simp [done]

/-- Give the future with index `i` an outcome unless it already has one. -/
def complete (heap : List (Future α ε)) (i : ℕ) (outcome : Future α ε) : List (Future α ε) :=
  heap.modify i (fun f => if f.done then f else outcome)

/-- Give every future of a list of indices the same outcome. -/
def completeAll (heap : List (Future α ε)) (ids : List ℕ) (outcome : Future α ε) :
    List (Future α ε) :=
  ids.foldl (fun heap i => complete heap i outcome) heap

/-- Completing a future allocates none. -/
@[simp] theorem length_complete (heap : List (Future α ε)) (i : ℕ) (outcome : Future α ε) :
    (complete heap i outcome).length = heap.length := by
  simp [complete]

/-- Nor does completing several. -/
@[simp] theorem length_completeAll (heap : List (Future α ε)) (ids : List ℕ)
    (outcome : Future α ε) : (completeAll heap ids outcome).length = heap.length := by
  induction ids generalizing heap with
  | nil => rfl
  | cons i ids ih => simp [completeAll] at ih ⊢; simp [ih]

/-- Completing one future leaves the others alone. -/
theorem getElem?_complete_of_ne {heap : List (Future α ε)} {i j : ℕ} (outcome : Future α ε)
    (hne : i ≠ j) : (complete heap i outcome)[j]? = heap[j]? := by
  simp [complete, hne]

/-- A future that has an outcome keeps it. -/
theorem getElem?_complete_of_done {heap : List (Future α ε)} {j : ℕ} {f : Future α ε}
    (i : ℕ) (outcome : Future α ε) (hf : heap[j]? = some f) (hdone : f.done = true) :
    (complete heap i outcome)[j]? = some f := by
  by_cases hij : i = j
  · subst hij
    simp [complete, hf, hdone]
  · rw [getElem?_complete_of_ne outcome hij, hf]

/-- A pending future receives the outcome, which is then final. -/
theorem getElem?_complete_of_pending {heap : List (Future α ε)} {i : ℕ} (outcome : Future α ε)
    (hf : heap[i]? = some pending) : (complete heap i outcome)[i]? = some outcome := by
  simp [complete, hf, done]

/-- Completing a whole list keeps every outcome that was there. -/
theorem getElem?_completeAll_of_done {heap : List (Future α ε)} {j : ℕ} {f : Future α ε}
    (ids : List ℕ) (outcome : Future α ε) (hf : heap[j]? = some f) (hdone : f.done = true) :
    (completeAll heap ids outcome)[j]? = some f := by
  induction ids generalizing heap with
  | nil => exact hf
  | cons i ids ih => exact ih (getElem?_complete_of_done i outcome hf hdone)

/-- What a future can be after one of them was completed. -/
theorem getElem?_complete_cases {heap : List (Future α ε)} {i j : ℕ} {outcome f : Future α ε}
    (h : (complete heap i outcome)[j]? = some f) :
    heap[j]? = some f ∨ (j = i ∧ heap[j]? = some pending ∧ f = outcome) := by
  by_cases hij : i = j
  · subst hij
    cases hold : heap[i]? with
    | none => simp [complete, hold] at h
    | some g =>
      by_cases hdone : g.done = true
      · rw [getElem?_complete_of_done i outcome hold hdone] at h
        exact Or.inl h
      · have hpending : g = pending := done_eq_false.mp (by simpa using hdone)
        subst hpending
        rw [getElem?_complete_of_pending outcome hold] at h
        exact Or.inr ⟨rfl, rfl, (Option.some.inj h).symm⟩
  · rw [getElem?_complete_of_ne outcome hij] at h
    exact Or.inl h

/-- What a future can be after a whole list was completed. -/
theorem getElem?_completeAll_cases {heap : List (Future α ε)} {j : ℕ} {ids : List ℕ}
    {outcome f : Future α ε} (h : (completeAll heap ids outcome)[j]? = some f) :
    heap[j]? = some f ∨ (heap[j]? = some pending ∧ f = outcome) := by
  induction ids generalizing heap with
  | nil => exact Or.inl h
  | cons i ids ih =>
    rcases ih h with hstep | ⟨hstep, hf⟩
    · rcases getElem?_complete_cases hstep with hold | ⟨-, hold, hf⟩
      · exact Or.inl hold
      · exact Or.inr ⟨hold, hf⟩
    · rcases getElem?_complete_cases hstep with hold | ⟨-, hold, -⟩
      · exact Or.inr ⟨hold, hf⟩
      · exact Or.inr ⟨hold, hf⟩

/-- Every pending future of the list receives the outcome. -/
theorem getElem?_completeAll_of_mem {heap : List (Future α ε)} {j : ℕ} {ids : List ℕ}
    {outcome : Future α ε} (hj : j ∈ ids) (hf : heap[j]? = some pending)
    (hdone : outcome.done = true) : (completeAll heap ids outcome)[j]? = some outcome := by
  induction ids generalizing heap with
  | nil => simp at hj
  | cons i ids ih =>
    by_cases hij : i = j
    · subst hij
      exact getElem?_completeAll_of_done ids outcome (getElem?_complete_of_pending outcome hf) hdone
    · have hrest : j ∈ ids := by
        rcases List.mem_cons.mp hj with rfl | h
        · exact absurd rfl hij
        · exact h
      exact ih hrest ((getElem?_complete_of_ne outcome hij).trans hf)

end Future

end ProxyClient
