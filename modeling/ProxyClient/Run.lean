import Mathlib.Logic.Relation
import Mathlib.Data.List.Induction

/-!
# Guarded runs of a labelled transition function

A system is given by a partial step function: a label either is enabled in a
state and leads to exactly one next state, or is not enabled. A run is a finite
sequence of enabled labels, each of which also meets a side condition `ok` on the
state before it. Interleavings of concurrent parties are label sequences, so a
statement about every run is a statement about every interleaving.
-/

namespace ProxyClient.Transition

variable {σ ε : Type*} {step : σ → ε → Option σ} {ok : σ → ε → Prop}

/-- Runs from `s` whose every step is enabled and meets `ok`. -/
inductive Run (step : σ → ε → Option σ) (ok : σ → ε → Prop) (s : σ) : List ε → σ → Prop
  | nil : Run step ok s [] s
  | snoc {es : List ε} {t u : σ} {e : ε} : Run step ok s es t → ok t e → step t e = some u →
      Run step ok s (es ++ [e]) u

/-- The side condition met by every step. -/
def always (_ : σ) (_ : ε) : Prop := True

/-- A property of the first state that every admitted step keeps holds at the end of every
run. -/
theorem Run.invariant {I : σ → Prop} {s u : σ} {es : List ε} (hrun : Run step ok s es u)
    (hinit : I s) (hstep : ∀ t e v, I t → ok t e → step t e = some v → I v) : I u := by
  induction hrun with
  | nil => exact hinit
  | snoc _ hok he ih => exact hstep _ _ _ ih hok he

/-- Two properties can be proved together, the second using the first before and after
each step. -/
theorem Run.invariant_of {I J : σ → Prop} {s u : σ} {es : List ε} (hrun : Run step ok s es u)
    (hI : ∀ {es' v}, Run step ok s es' v → I v) (hinit : J s)
    (hstep : ∀ t e v, I t → I v → J t → ok t e → step t e = some v → J v) : J u := by
  induction hrun with
  | nil => exact hinit
  | snoc hprefix hok he ih =>
    exact hstep _ _ _ (hI hprefix) (hI (.snoc hprefix hok he)) ih hok he

/-- A step that decomposes into moves keeps what every one of its moves keeps. -/
theorem Run.invariant_of_moves {I : σ → Prop} {move : σ → ε → σ → σ → Prop} {s u : σ}
    {es : List ε} (hrun : Run step ok s es u)
    (hmoves : ∀ {t e v}, I t → step t e = some v → Relation.ReflTransGen (move t e) t v)
    (hinit : I s)
    (hmove : ∀ {t e v v'}, ok t e → I t → Relation.ReflTransGen (move t e) t v → I v →
      move t e v v' → I v') : I u := by
  apply hrun.invariant hinit
  intro t e v ht hok he
  have hchain := hmoves ht he
  clear he
  induction hchain with
  | refl => exact ht
  | tail hprefix hlast ih => exact hmove hok ht hprefix ih hlast

/-- Runs compose: one that begins where another ends continues it. -/
theorem Run.append {s t u : σ} {es fs : List ε} (hfirst : Run step ok s es t)
    (hsecond : Run step ok t fs u) : Run step ok s (es ++ fs) u := by
  induction hsecond with
  | nil => simpa using hfirst
  | snoc _ hok he ih =>
    rw [← List.append_assoc]
    exact .snoc ih hok he

/-- The last step of a run, and the run before it. -/
theorem Run.of_snoc {s u : σ} {es : List ε} {e : ε} (hrun : Run step ok s (es ++ [e]) u) :
    ∃ t, Run step ok s es t ∧ ok t e ∧ step t e = some u := by
  generalize hlist : es ++ [e] = l at hrun
  cases hrun with
  | nil => simp at hlist
  | snoc hes hok he =>
    obtain ⟨rfl, hlast⟩ := List.append_inj' hlist rfl
    obtain rfl := List.singleton_inj.mp hlast
    exact ⟨_, hes, hok, he⟩

/-- The labels of a run determine its last state, whatever is asked of the steps. -/
theorem Run.unique {ok' : σ → ε → Prop} {s u v : σ} {es : List ε} (hrun : Run step ok s es u)
    (hrun' : Run step ok' s es v) : u = v := by
  induction hrun generalizing v with
  | nil =>
    generalize hlist : ([] : List ε) = l at hrun'
    cases hrun' with
    | nil => rfl
    | snoc => simp at hlist
  | snoc _ _ he ih =>
    obtain ⟨t, hes, -, he'⟩ := hrun'.of_snoc
    obtain rfl := ih hes
    exact Option.some.inj (he.symm.trans he')

/-- A property holds in every state that a list of labels leads through. -/
def Throughout (step : σ → ε → Option σ) (s : σ) (es : List ε) (I : σ → Prop) : Prop :=
  ∀ es' t, es' <+: es → Run step always s es' t → I t

/-- A property that the admitted steps keep and all other steps break holds throughout a run if
and only if all its steps are admitted. -/
theorem Run.throughout_iff {I : σ → Prop} {s w : σ} {es : List ε}
    (hrun : Run step always s es w) (hinit : I s)
    (hstep : ∀ {es' t e u}, Run step always s es' t → I t → step t e = some u →
      (I u ↔ ok t e)) :
    Throughout step s es I ↔ Run step ok s es w := by
  induction hrun with
  | nil =>
    refine ⟨fun _ => .nil, ?_⟩
    intro _ es' t hes ht
    obtain rfl := List.prefix_nil.mp hes
    have hnil : Run step always s [] s := .nil
    exact hnil.unique ht ▸ hinit
  | @snoc es t u e hes _ he ih =>
    constructor
    · intro h
      have hbefore : Throughout step s es I :=
        fun es' v hshort => h es' v (hshort.trans (List.prefix_append es [e]))
      have ht : I t := hbefore es t (List.prefix_refl es) hes
      have hu : I u := h _ u (List.prefix_refl _) (hes.snoc trivial he)
      exact (ih.mp hbefore).snoc ((hstep hes ht he).mp hu) he
    · intro h
      obtain ⟨t', hes', hok, -⟩ := h.of_snoc
      obtain rfl := hes.unique hes'
      have hbefore : Throughout step s es I := ih.mpr hes'
      have ht : I t := hbefore es t (List.prefix_refl es) hes
      intro es' v hshort hv
      rcases List.prefix_concat_iff.mp hshort with rfl | hshort
      · obtain rfl := (hes.snoc trivial he).unique hv
        exact (hstep hes ht he).mpr hok
      · exact hbefore es' v hshort hv

/-- A run can be cut at any of its steps. -/
theorem Run.split {s w : σ} {es fs : List ε} {e : ε} (hrun : Run step ok s (es ++ e :: fs) w) :
    ∃ t u, Run step ok s es t ∧ ok t e ∧ step t e = some u ∧ Run step ok u fs w := by
  induction fs using List.reverseRecOn generalizing w with
  | nil =>
    obtain ⟨t, hes, hok, he⟩ := hrun.of_snoc
    exact ⟨t, w, hes, hok, he, .nil⟩
  | append_singleton fs f ih =>
    have hrun' : Run step ok s ((es ++ e :: fs) ++ [f]) w := by simpa using hrun
    obtain ⟨v, hv, hok', hf⟩ := hrun'.of_snoc
    obtain ⟨t, u, hes, hok, he, hfs⟩ := ih hv
    exact ⟨t, u, hes, hok, he, .snoc hfs hok' hf⟩

/-- A run can be cut between any two of its steps. -/
theorem Run.of_append {s w : σ} {es fs : List ε} (hrun : Run step ok s (es ++ fs) w) :
    ∃ t, Run step ok s es t ∧ Run step ok t fs w := by
  cases fs with
  | nil => exact ⟨w, by simpa using hrun, .nil⟩
  | cons f fs =>
    obtain ⟨t, u, hes, hok, he, hfs⟩ := hrun.split
    exact ⟨t, hes, (Run.snoc .nil hok he).append hfs⟩

/-- The step from `t` to `u` with the label `e` is one of the steps of a run. -/
structure Along (step : σ → ε → Option σ) (ok : σ → ε → Prop) (s : σ) (es : List ε) (w t : σ)
    (e : ε) (u : σ) : Prop where
  split : ∃ es₁ es₂, es = es₁ ++ e :: es₂ ∧ Run step ok s es₁ t ∧ Run step ok u es₂ w
  admitted : ok t e
  enabled : step t e = some u

/-- The last step of a run is one of its steps. -/
theorem Along.last {s t u : σ} {es : List ε} {e : ε} (hrun : Run step ok s es t) (hok : ok t e)
    (he : step t e = some u) : Along step ok s (es ++ [e]) u t e u :=
  ⟨⟨es, [], rfl, hrun, .nil⟩, hok, he⟩

/-- The steps of a run are steps of every longer run. -/
theorem Along.snoc {s t u v x : σ} {es : List ε} {e e' : ε} (h : Along step ok s es v t e u)
    (hok : ok v e') (he : step v e' = some x) : Along step ok s (es ++ [e']) x t e u := by
  obtain ⟨⟨es₁, es₂, rfl, hfirst, hrest⟩, hadmitted, henabled⟩ := h
  exact ⟨⟨es₁, es₂ ++ [e'], by simp, hfirst, .snoc hrest hok he⟩, hadmitted, henabled⟩

/-- Every step of a run begins in a state that a shorter run reaches. -/
theorem Along.before {s t u w : σ} {es : List ε} {e : ε} (h : Along step ok s es w t e u) :
    ∃ es₁, Run step ok s es₁ t := by
  obtain ⟨es₁, _, _, hfirst, _⟩ := h.split
  exact ⟨es₁, hfirst⟩

/-- What every step of a run establishes or keeps holds at its end once it was established. -/
theorem Along.invariant {I : σ → Prop} {s t u w : σ} {es : List ε} {e : ε}
    (h : Along step ok s es w t e u) (hinit : I u)
    (hstep : ∀ t e v, I t → ok t e → step t e = some v → I v) : I w := by
  obtain ⟨_, _, _, _, hrest⟩ := h.split
  exact hrest.invariant hinit hstep

/-- What the steps of an execution put out, in order. -/
def outputs {β : Type*} (step : σ → ε → Option σ) (out : σ → ε → Option β) : σ → List ε → List β
  | _, [] => []
  | s, e :: es =>
    match step s e with
    | some t => (out s e).toList ++ outputs step out t es
    | none => []

section Outputs

variable {β γ : Type*} {out : σ → ε → Option β}

/-- The outputs of two runs, one after the other, are those of the first and then those of the
second. -/
theorem Run.outputs_append {s t : σ} {es fs : List ε} (hrun : Run step ok s es t) :
    outputs step out s (es ++ fs) = outputs step out s es ++ outputs step out t fs := by
  induction hrun generalizing fs with
  | nil => rfl
  | snoc _ _ he ih =>
    rw [List.append_assoc, ih, ih, List.append_assoc]
    simp [outputs, he]

/-- One step more adds the output of that step, if it has one. -/
theorem Run.outputs_snoc {s t u : σ} {es : List ε} {e : ε} (hrun : Run step ok s es t)
    (he : step t e = some u) :
    outputs step out s (es ++ [e]) = outputs step out s es ++ (out t e).toList := by
  rw [hrun.outputs_append]
  simp [outputs, he]

/-- A component that every step updates by what the step puts out is at the end of a run what
the outputs of the run make of it. -/
theorem Run.foldl_outputs {get : σ → γ} {update : γ → β → γ} {s u : σ} {es : List ε}
    (hrun : Run step ok s es u)
    (hstep : ∀ {es' t e v}, Run step ok s es' t → step t e = some v →
      get v = (out t e).toList.foldl update (get t)) :
    get u = (outputs step out s es).foldl update (get s) := by
  induction hrun with
  | nil => rfl
  | snoc hprefix _ he ih =>
    rw [hstep hprefix he, hprefix.outputs_snoc he, List.foldl_append, ih]

end Outputs

/-- Execute a list of labels, checking the side condition at each of them. -/
def exec (step : σ → ε → Option σ) (ok : σ → ε → Prop) [∀ s e, Decidable (ok s e)] :
    σ → List ε → Option σ
  | s, [] => some s
  | s, e :: es =>
    if ok s e then
      match step s e with
      | some t => exec step ok t es
      | none => none
    else none

/-- A successful execution is a run, so that concrete runs can be computed. -/
theorem Run.of_exec [∀ s e, Decidable (ok s e)] {s u : σ} {es : List ε}
    (h : exec step ok s es = some u) : Run step ok s es u := by
  induction es generalizing s with
  | nil =>
    have heq : s = u := by simpa [exec] using h
    exact heq ▸ .nil
  | cons e es ih =>
    by_cases hok : ok s e
    · cases hs : step s e with
      | none => simp [exec, hok, hs] at h
      | some t =>
        have hrest : Run step ok t es u := ih (by simpa [exec, hok, hs] using h)
        exact (Run.snoc .nil hok hs).append hrest
    · simp [exec, hok] at h

/-- An execution that succeeds is a run. -/
theorem Run.exists_of_isSome [∀ s e, Decidable (ok s e)] {s : σ} {es : List ε}
    (h : (exec step ok s es).isSome = true) : ∃ u, Run step ok s es u := by
  obtain ⟨u, hu⟩ := Option.isSome_iff_exists.mp h
  exact ⟨u, Run.of_exec hu⟩

/-- A computed execution whose last state passes a test gives a run to such a state. -/
theorem Run.exists_of_exec [∀ s e, Decidable (ok s e)] {P : σ → Prop} {s : σ} {es : List ε}
    (h : ∃ u ∈ exec step ok s es, P u) : ∃ u, Run step ok s es u ∧ P u := by
  obtain ⟨u, hu, hP⟩ := h
  exact ⟨u, Run.of_exec hu, hP⟩

instance (s : σ) (e : ε) : Decidable (always s e) := isTrue trivial

end ProxyClient.Transition
