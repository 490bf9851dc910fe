import ProxyClient.Run
import Mathlib.Data.Set.Basic

/-!
# Infinite executions under weak fairness

A finite run says what has not gone wrong so far. That something happens in the end is a property
of infinite executions, and needs a scheduler that does not neglect a label for ever. The rules
here reduce such a property to single steps: what a step keeps, which labels help, and that one
of them is enabled meanwhile.
-/

namespace ProxyClient.Transition

variable {σ ε α : Type*} {step : σ → ε → Option σ} {s t : σ}

/-- An infinite execution from a state: its states, and the label of every step. -/
structure Execution (step : σ → ε → Option σ) (s : σ) where
  /-- The state before each step. -/
  state : ℕ → σ
  /-- The label of each step. -/
  label : ℕ → ε
  init : state 0 = s
  next : ∀ n, step (state n) (label n) = some (state (n + 1))

/-- One of some labels is enabled in a state. -/
def Enabled (step : σ → ε → Option σ) (labels : Set ε) (s : σ) : Prop :=
  ∃ e ∈ labels, (step s e).isSome = true

namespace Execution

variable (x : Execution step s)

/-- If one of some labels stays enabled, one of them is taken. -/
def WeaklyFair (labels : Set ε) : Prop :=
  ∀ n, (∀ m, n ≤ m → Enabled step labels (x.state m)) → ∃ m, n ≤ m ∧ x.label m ∈ labels

/-- A clock passes every bound again and again. -/
def Diverges [LE α] (clock : σ → α) : Prop := ∀ bound n, ∃ m, n ≤ m ∧ bound ≤ clock (x.state m)

/-- Whenever `P` holds, `Q` holds then or later. -/
def LeadsTo (P Q : σ → Prop) : Prop := ∀ n, P (x.state n) → ∃ m, n ≤ m ∧ Q (x.state m)

/-- Every state of an execution is reached by a run. -/
theorem run (n : ℕ) : ∃ es, Run step always s es (x.state n) := by
  induction n with
  | zero =>
    rw [x.init]
    exact ⟨[], .nil⟩
  | succ n ih =>
    obtain ⟨es, hrun⟩ := ih
    exact ⟨es ++ [x.label n], hrun.snoc trivial (x.next n)⟩

/-! ## Rules -/

variable {x} {P Q R : σ → Prop}

/-- What holds in the same state has nothing to wait for. -/
theorem LeadsTo.of_imp (h : ∀ n, P (x.state n) → Q (x.state n)) : x.LeadsTo P Q :=
  fun n hP => ⟨n, le_rfl, h n hP⟩

/-- A state leads to itself. -/
theorem LeadsTo.refl : x.LeadsTo P P := .of_imp (fun _ h => h)

/-- Leads-to composes, so that the phases of a liveness proof can be chained. -/
theorem LeadsTo.trans (h : x.LeadsTo P Q) (h' : x.LeadsTo Q R) : x.LeadsTo P R := by
  intro n hP
  obtain ⟨m, hnm, hQ⟩ := h n hP
  obtain ⟨l, hml, hR⟩ := h' m hQ
  exact ⟨l, hnm.trans hml, hR⟩

/-- Two alternatives lead to what each of them leads to. -/
theorem LeadsTo.or (h : x.LeadsTo P R) (h' : x.LeadsTo Q R) :
    x.LeadsTo (fun t => P t ∨ Q t) R := by
  rintro n (hP | hQ)
  · exact h n hP
  · exact h' n hQ

/-- So does a family of alternatives, whichever of them holds. -/
theorem LeadsTo.of_exists {ι : Type*} {P : ι → σ → Prop} (h : ∀ i, x.LeadsTo (P i) Q) :
    x.LeadsTo (fun t => ∃ i, P i t) Q := by
  rintro n ⟨i, hP⟩
  exact h i n hP

/-- What every step keeps comes along to wherever a state leads. -/
theorem LeadsTo.and_stable (h : x.LeadsTo P Q)
    (hstable : ∀ n, R (x.state n) → R (x.state (n + 1))) :
    x.LeadsTo (fun t => P t ∧ R t) (fun t => Q t ∧ R t) := by
  rintro n ⟨hP, hR⟩
  obtain ⟨m, hnm, hQ⟩ := h n hP
  exact ⟨m, hnm, hQ, Nat.le_induction hR (fun k _ hk => hstable k hk) m hnm⟩

/-- If each of a family of predicates leads to `Q` or to a smaller one, then each leads to `Q`. -/
theorem LeadsTo.of_wellFounded {ι : Type*} {r : ι → ι → Prop} (hwf : WellFounded r)
    {P : ι → σ → Prop} (h : ∀ i, x.LeadsTo (P i) (fun t => Q t ∨ ∃ j, r j i ∧ P j t)) (i : ι) :
    x.LeadsTo (P i) Q := by
  induction i using hwf.induction with
  | _ i ih =>
    intro n hP
    obtain ⟨m, hnm, hQ | ⟨j, hsmaller, hP'⟩⟩ := h i n hP
    · exact ⟨m, hnm, hQ⟩
    · obtain ⟨l, hml, hQ⟩ := ih j hsmaller m hP'
      exact ⟨l, hnm.trans hml, hQ⟩

/-- What every step keeps until `Q` holds goes on for as long as `Q` does not. -/
theorem holds_until (hkeeps : ∀ n, P (x.state n) → P (x.state (n + 1)) ∨ Q (x.state (n + 1)))
    {n m : ℕ} (hnm : n ≤ m) (hP : P (x.state n)) (hQ : ∀ l, n ≤ l → ¬Q (x.state l)) :
    P (x.state m) := by
  induction hnm with
  | refl => exact hP
  | step hnm ih => exact (hkeeps _ ih).resolve_right (hQ _ (Nat.le_succ_of_le hnm))

/-- What does not go on for ever, and is kept by every step until `Q` holds, leads to `Q`. -/
theorem LeadsTo.exit (hends : x.LeadsTo P (fun t => ¬P t))
    (hkeeps : ∀ n, P (x.state n) → P (x.state (n + 1)) ∨ Q (x.state (n + 1))) : x.LeadsTo P Q := by
  intro n hP
  by_contra hnever
  have hQ : ∀ l, n ≤ l → ¬Q (x.state l) := fun l hnl hQ => hnever ⟨l, hnl, hQ⟩
  obtain ⟨m, hnm, hnot⟩ := hends n hP
  exact hnot (holds_until hkeeps hnm hP hQ)

/-- If every step keeps `P` until `Q` holds, and one of some labels is enabled meanwhile and brings
about `Q`, then a scheduler that is weakly fair to these labels leads from `P` to `Q`. -/
theorem WeaklyFair.leadsTo {labels : Set ε} (hfair : x.WeaklyFair labels)
    (hkeeps : ∀ n, P (x.state n) → P (x.state (n + 1)) ∨ Q (x.state (n + 1)))
    (henabled : ∀ n, P (x.state n) → Enabled step labels (x.state n))
    (hhelps : ∀ n, P (x.state n) → x.label n ∈ labels → Q (x.state (n + 1))) :
    x.LeadsTo P Q := by
  intro n hP
  by_contra hnever
  have hQ : ∀ l, n ≤ l → ¬Q (x.state l) := fun l hnl hQ => hnever ⟨l, hnl, hQ⟩
  have hstays : ∀ m, n ≤ m → P (x.state m) := fun m hnm => holds_until hkeeps hnm hP hQ
  obtain ⟨m, hnm, hlabel⟩ := hfair n (fun m hnm => henabled m (hstays m hnm))
  exact hQ (m + 1) (Nat.le_succ_of_le hnm) (hhelps m (hstays m hnm) hlabel)

/-- A scheduler may be fair to labels that get a process on only as long as something else does not
hold it up. If what is released stays so, then `P` leads to `Q`, or it is held up for ever. -/
theorem WeaklyFair.leadsTo_or_held {labels : Set ε} {H : σ → Prop} (hfair : x.WeaklyFair labels)
    (hkeeps : ∀ n, P (x.state n) → P (x.state (n + 1)) ∨ Q (x.state (n + 1)))
    (hreleased : ∀ n, P (x.state n) → ¬H (x.state n) → P (x.state (n + 1)) →
      ¬H (x.state (n + 1)))
    (henabled : ∀ n, P (x.state n) → ¬H (x.state n) → Enabled step labels (x.state n))
    (hhelps : ∀ n, P (x.state n) → x.label n ∈ labels → Q (x.state (n + 1)))
    {n : ℕ} (hP : P (x.state n)) :
    (∃ m, n ≤ m ∧ Q (x.state m)) ∨ ∀ m, n ≤ m → P (x.state m) ∧ H (x.state m) := by
  by_cases hever : ∃ m, n ≤ m ∧ Q (x.state m)
  · exact .inl hever
  have hQ : ∀ m, n ≤ m → ¬Q (x.state m) := fun m hnm hQ => hever ⟨m, hnm, hQ⟩
  have hstays : ∀ m, n ≤ m → P (x.state m) := fun m hnm => holds_until hkeeps hnm hP hQ
  refine .inr (fun m hnm => ⟨hstays m hnm, ?_⟩)
  -- once released it stays so, and a label that helps is taken
  by_contra hnot
  have hfree : x.LeadsTo (fun t => P t ∧ ¬H t) Q := by
    apply hfair.leadsTo
    · rintro i ⟨hP, hH⟩
      rcases hkeeps i hP with hP' | hQ'
      · exact .inl ⟨hP', hreleased i hP hH hP'⟩
      · exact .inr hQ'
    · exact fun i h => henabled i h.1 h.2
    · exact fun i h => hhelps i h.1
  obtain ⟨l, hml, hQl⟩ := hfree m ⟨hstays m hnm, hnot⟩
  exact hQ l (hnm.trans hml) hQl

/-- What is held up for ever unless it leads to `Q` does lead to `Q` if the scheduler is fair to
labels that get it on while it is held up. -/
theorem LeadsTo.of_held {labels : Set ε} {H : σ → Prop} (hfair : x.WeaklyFair labels)
    (hheld : ∀ n, P (x.state n) →
      (∃ m, n ≤ m ∧ Q (x.state m)) ∨ ∀ m, n ≤ m → P (x.state m) ∧ H (x.state m))
    (henabled : ∀ n, P (x.state n) → H (x.state n) → Enabled step labels (x.state n))
    (hhelps : ∀ n, P (x.state n) → x.label n ∈ labels → Q (x.state (n + 1))) :
    x.LeadsTo P Q := by
  intro n hP
  rcases hheld n hP with hleads | hforever
  · exact hleads
  · obtain ⟨m, hnm, hlabel⟩ :=
      hfair n (fun m hnm => henabled m (hforever m hnm).1 (hforever m hnm).2)
    exact ⟨m + 1, Nat.le_succ_of_le hnm, hhelps m (hforever m hnm).1 hlabel⟩

/-- What every step keeps until `Q` holds outlasts every bound of a clock that diverges, or `Q`
holds. -/
theorem Diverges.leadsTo [LE α] {clock : σ → α} (hclock : x.Diverges clock) (bound : α)
    (hkeeps : ∀ n, P (x.state n) → P (x.state (n + 1)) ∨ Q (x.state (n + 1))) :
    x.LeadsTo P (fun t => (P t ∧ bound ≤ clock t) ∨ Q t) := by
  intro n hP
  by_cases hQ : ∃ l, n ≤ l ∧ Q (x.state l)
  · obtain ⟨l, hnl, hQ⟩ := hQ
    exact ⟨l, hnl, .inr hQ⟩
  · obtain ⟨m, hnm, hbound⟩ := hclock bound n
    have hQ : ∀ l, n ≤ l → ¬Q (x.state l) := fun l hnl h => hQ ⟨l, hnl, h⟩
    exact ⟨m, hnm, .inl ⟨holds_until hkeeps hnm hP hQ, hbound⟩⟩

/-- If every step keeps `P` until `Q` holds, and one of some labels is enabled once a clock has
passed a bound and brings about `Q`, then a scheduler that is weakly fair to these labels leads from
`P` to `Q` if the clock diverges. -/
theorem WeaklyFair.leadsTo_of_bound [LE α] {clock : σ → α} {labels : Set ε}
    (hfair : x.WeaklyFair labels) (hclock : x.Diverges clock) (bound : α)
    (hpassed : ∀ n, bound ≤ clock (x.state n) → bound ≤ clock (x.state (n + 1)))
    (hkeeps : ∀ n, P (x.state n) → P (x.state (n + 1)) ∨ Q (x.state (n + 1)))
    (henabled : ∀ n, P (x.state n) → bound ≤ clock (x.state n) →
      Enabled step labels (x.state n))
    (hhelps : ∀ n, P (x.state n) → x.label n ∈ labels → Q (x.state (n + 1))) :
    x.LeadsTo P Q := by
  have hoverdue : x.LeadsTo (fun t => P t ∧ bound ≤ clock t) Q := by
    apply hfair.leadsTo
    · rintro n ⟨hP, hbound⟩
      exact (hkeeps n hP).imp_left (fun hP' => ⟨hP', hpassed n hbound⟩)
    · rintro n ⟨hP, hbound⟩
      exact henabled n hP hbound
    · rintro n ⟨hP, -⟩ hlabel
      exact hhelps n hP hlabel
  exact (hclock.leadsTo bound hkeeps).trans (hoverdue.or .refl)

/-- If other steps keep `P` until `Q` holds, and one of some labels is enabled in `P` once a clock
has passed a bound, then a scheduler that is weakly fair to these labels takes one of them in `P`,
or `Q` holds, if the clock diverges. -/
theorem WeaklyFair.takes_of_bound [LE α] {clock : σ → α} {labels : Set ε}
    (hfair : x.WeaklyFair labels) (hclock : x.Diverges clock) (bound : α)
    (hpassed : ∀ n, bound ≤ clock (x.state n) → bound ≤ clock (x.state (n + 1)))
    (hkeeps : ∀ n, P (x.state n) → x.label n ∉ labels →
      P (x.state (n + 1)) ∨ Q (x.state (n + 1)))
    (henabled : ∀ n, P (x.state n) → bound ≤ clock (x.state n) →
      Enabled step labels (x.state n)) {n : ℕ} (hP : P (x.state n)) :
    ∃ m, n ≤ m ∧ ((P (x.state m) ∧ x.label m ∈ labels) ∨ Q (x.state m)) := by
  by_contra hnever
  have hQ : ∀ m, n ≤ m → ¬Q (x.state m) := fun m hnm hQ => hnever ⟨m, hnm, .inr hQ⟩
  have hstays : ∀ m, n ≤ m → P (x.state m) := by
    intro m hnm
    induction hnm with
    | refl => exact hP
    | @step m hnm ih =>
      have hlabel : x.label m ∉ labels := fun hlabel => hnever ⟨m, hnm, .inl ⟨ih, hlabel⟩⟩
      exact (hkeeps m ih hlabel).resolve_right (hQ _ (Nat.le_succ_of_le hnm))
  obtain ⟨m, hnm, hbound⟩ := hclock bound n
  have hlate : ∀ l, m ≤ l → bound ≤ clock (x.state l) :=
    fun l hml => Nat.le_induction hbound (fun k _ hk => hpassed k hk) l hml
  obtain ⟨l, hml, hlabel⟩ := hfair m (fun l hml =>
    henabled l (hstays l (hnm.trans hml)) (hlate l hml))
  exact hnever ⟨l, hnm.trans hml, .inl ⟨hstays l (hnm.trans hml), hlabel⟩⟩

/-! ## Executions that begin with a run -/

/-- An execution that begins with one more step. -/
def cons {e : ε} (he : step s e = some t) (x : Execution step t) : Execution step s where
  state
    | 0 => s
    | n + 1 => x.state n
  label
    | 0 => e
    | n + 1 => x.label n
  init := rfl
  next
    | 0 => he.trans (congrArg some x.init.symm)
    | n + 1 => x.next n

/-- The steps of an execution are those of another one from the `n`-th on. -/
structure Continues (x : Execution step s) (n : ℕ) (y : Execution step t) : Prop where
  state : ∀ m, x.state (n + m) = y.state m
  label : ∀ m, x.label (n + m) = y.label m

/-- A run can be continued with an execution. -/
theorem exists_labels_continues {ok : σ → ε → Prop} {es : List ε} (hrun : Run step ok s es t)
    (y : Execution step t) : ∃ x : Execution step s, x.Continues es.length y ∧
      ∀ i < es.length, es[i]? = some (x.label i) := by
  induction hrun with
  | nil => exact ⟨y, ⟨by simp, by simp⟩, by simp⟩
  | @snoc es t u e _ _ he ih =>
    obtain ⟨x, ⟨hstate, hlabel⟩, hbefore⟩ := ih (y.cons he)
    have hlength : ∀ m, (es ++ [e]).length + m = es.length + (m + 1) := by simp; omega
    refine ⟨x, ⟨?_, ?_⟩, ?_⟩
    · intro m
      rw [hlength, hstate]
      rfl
    · intro m
      rw [hlength, hlabel]
      rfl
    · intro i hi
      rcases Nat.lt_or_ge i es.length with hlt | hge
      · rw [List.getElem?_append_left hlt, hbefore i hlt]
      · obtain rfl : i = es.length := by simp at hi; omega
        have hlast := hlabel 0
        rw [Nat.add_zero] at hlast
        rw [List.getElem?_concat_length, hlast]
        rfl

/-- Every execution from where a run ends is the rest of an execution from where the run begins. -/
theorem exists_continues {ok : σ → ε → Prop} {es : List ε} (hrun : Run step ok s es t)
    (y : Execution step t) : ∃ x : Execution step s, x.Continues es.length y := by
  obtain ⟨x, hx, -⟩ := exists_labels_continues hrun y
  exact ⟨x, hx⟩

/-- Of three executions, the last continues the first when it continues the second. -/
theorem Continues.trans {u : σ} {y : Execution step t} {z : Execution step u} {n m : ℕ}
    (h : x.Continues n y) (h' : y.Continues m z) : x.Continues (n + m) z where
  state i := by rw [Nat.add_assoc, h.state, h'.state]
  label i := by rw [Nat.add_assoc, h.label, h'.label]

/-- A scheduler is fair to labels that are never enabled. -/
theorem WeaklyFair.of_disabled {labels : Set ε}
    (hnever : ∀ n, ∀ e ∈ labels, step (x.state n) e = none) : x.WeaklyFair labels := by
  intro n henabled
  obtain ⟨e, he, hsome⟩ := henabled n le_rfl
  rw [hnever n e he] at hsome
  cases hsome

/-- Weak fairness is a property of the rest of an execution, so a prefix does not affect it. -/
theorem Continues.weaklyFair {y : Execution step t} {n : ℕ} (h : x.Continues n y) {labels : Set ε}
    (hfair : y.WeaklyFair labels) : x.WeaklyFair labels := by
  intro i henabled
  obtain ⟨m, him, hlabel⟩ := hfair i (fun m him =>
    h.state m ▸ henabled (n + m) (him.trans (Nat.le_add_left m n)))
  exact ⟨n + m, him.trans (Nat.le_add_left m n), h.label m ▸ hlabel⟩

/-- What never holds in an execution does not go on for ever in one that continues with it. -/
theorem Continues.leadsTo_not {y : Execution step t} {n : ℕ} (h : x.Continues n y)
    (hnever : ∀ m, ¬P (y.state m)) : x.LeadsTo P (fun t => ¬P t) :=
  fun i _ => ⟨n + i, Nat.le_add_left i n, h.state i ▸ hnever i⟩

/-- Nor does a prefix affect that a clock diverges. -/
theorem Continues.diverges [LE α] {y : Execution step t} {n : ℕ} (h : x.Continues n y)
    {clock : σ → α} (hclock : y.Diverges clock) : x.Diverges clock := by
  intro bound i
  obtain ⟨m, him, hbound⟩ := hclock bound i
  exact ⟨n + m, him.trans (Nat.le_add_left m n), h.state m ▸ hbound⟩

end Execution

end ProxyClient.Transition
