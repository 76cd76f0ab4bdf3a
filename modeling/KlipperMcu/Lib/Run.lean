import Mathlib.Logic.Basic

/-!
# Runs of a step function

A program with an environment is a partial step function on states, labelled by actions, and
a predicate `legal` that says which actions the environment may choose. A run records its
actions in order.
-/

namespace KlipperMcu.Lib

variable {σ α : Type*} {step : σ → α → Option σ} {legal : σ → α → Prop} {s₀ : σ}

/-- The states reached from `s₀` by legal steps, with the actions taken. -/
inductive Run (step : σ → α → Option σ) (legal : σ → α → Prop) (s₀ : σ) : List α → σ → Prop
  | nil : Run step legal s₀ [] s₀
  | snoc {actions : List α} {s s' : σ} {a : α} : Run step legal s₀ actions s → legal s a →
      step s a = some s' → Run step legal s₀ (actions ++ [a]) s'

/-- What holds at the start and is kept by every legal step holds in every state of a run. -/
theorem Run.invariant {Inv : σ → Prop} (h₀ : Inv s₀)
    (hstep : ∀ s a s', Inv s → legal s a → step s a = some s' → Inv s')
    {actions : List α} {s : σ} (h : Run step legal s₀ actions s) : Inv s := by
  induction h with
  | nil => exact h₀
  | snoc _ hl hs ih => exact hstep _ _ _ ih hl hs

lemma Run.mono {legal' : σ → α → Prop} (hlegal : ∀ s a, legal s a → legal' s a) {actions : List α}
    {s : σ} (h : Run step legal s₀ actions s) : Run step legal' s₀ actions s := by
  induction h with
  | nil => exact .nil
  | snoc _ hl hs ih => exact ih.snoc (hlegal _ _ hl) hs

lemma Run.append {pre actions : List α} {s s' : σ} (h : Run step legal s₀ pre s)
    (h' : Run step legal s actions s') : Run step legal s₀ (pre ++ actions) s' := by
  induction h' with
  | nil =>
    rw [List.append_nil]
    exact h
  | snoc _ hl hs ih =>
    rw [← List.append_assoc]
    exact ih.snoc hl hs

/-- Two programs whose steps keep a relation between their states take the same actions. -/
theorem Run.simulate {τ : Type*} {step' : τ → α → Option τ} {legal' : τ → α → Prop} {t₀ : τ}
    {R : σ → τ → Prop} (h₀ : R s₀ t₀)
    (hstep : ∀ s t a s', R s t → legal s a → step s a = some s' →
      legal' t a ∧ ∃ t', step' t a = some t' ∧ R s' t')
    {actions : List α} {s : σ} (h : Run step legal s₀ actions s) :
    ∃ t, Run step' legal' t₀ actions t ∧ R s t := by
  induction h with
  | nil => exact ⟨t₀, .nil, h₀⟩
  | snoc _ hl hs ih =>
    obtain ⟨t, hrun, hr⟩ := ih
    obtain ⟨hl', t', hs', hr'⟩ := hstep _ _ _ _ hr hl hs
    exact ⟨t', hrun.snoc hl' hs', hr'⟩

/-- Executes a list of actions, stopping at the first illegal one. -/
def exec (step : σ → α → Option σ) (legal : σ → α → Prop) [∀ s a, Decidable (legal s a)] :
    σ → List α → Option σ
  | s, [] => some s
  | s, a :: actions =>
    if legal s a then (step s a).bind fun s' => exec step legal s' actions else none

lemma Run.of_exec [∀ s a, Decidable (legal s a)] {pre actions : List α} {s s' : σ}
    (h : Run step legal s₀ pre s) (he : exec step legal s actions = some s') :
    Run step legal s₀ (pre ++ actions) s' := by
  induction actions generalizing pre s with
  | nil =>
    cases he
    simpa using h
  | cons a actions ih =>
    rw [exec] at he
    split at he
    · rename_i hl
      obtain ⟨t, ht, hrest⟩ := Option.bind_eq_some_iff.mp he
      have hrun := ih (h.snoc hl ht) hrest
      rwa [List.append_assoc, List.singleton_append] at hrun
    · cases he

/-- A run of `actions` to a state with property `P` exists when executing them shows one. -/
theorem Run.exists_of_exec [∀ s a, Decidable (legal s a)] (actions : List α) (P : σ → Bool)
    (h : (exec step legal s₀ actions).any P = true) :
    ∃ s, Run step legal s₀ actions s ∧ P s = true := by
  obtain ⟨s, hs, hp⟩ := (Option.any_eq_true _ _).mp h
  exact ⟨s, by simpa using Run.nil.of_exec hs, hp⟩

end KlipperMcu.Lib
