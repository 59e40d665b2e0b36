import Mathlib.Data.List.Forall2
import WordMachine.Proofs.Outcome

/-!
# Two operations side by side

Two operations agree if, started in related states, they come to related outcomes. As for `Keeps`,
a sequence agrees with a sequence part by part, and so a run agrees with a run if each step does:
what two runs have in common is shown without a word about what either of them comes to.
-/

namespace WordMachine

variable {ε ε' σ σ' α α' β β' : Type}

/-- Whether two operations, started in related states, both return, with related values and in
related states, or both fail, with related errors. -/
def Agree (states : σ → σ' → Prop) (errors : ε → ε' → Prop) (values : α → α' → Prop)
    (first : EStateM ε σ α) (second : EStateM ε' σ' α') : Prop :=
  ∀ one other, states one other →
    match first one, second other with
    | .ok value final, .ok value' final' => values value value' ∧ states final final'
    | .error error _, .error error' _ => errors error error'
    | _, _ => False

namespace Agree

variable {states : σ → σ' → Prop} {errors : ε → ε' → Prop} {values : α → α' → Prop}

/-- An operation agrees with itself, if it is started in the same state. -/
theorem refl {values : α → α → Prop} (same : ∀ value, values value value)
    (operation : EStateM ε σ α) : Agree Eq Eq values operation operation := by
  rintro one _ rfl
  cases operation one with
  | ok value final => exact ⟨same value, rfl⟩
  | error error final => rfl

theorem pure {value : α} {value' : α'} (related : values value value') :
    Agree states errors values (pure value) (pure value') :=
  fun _ _ start => ⟨related, start⟩

theorem throw {error : ε} {error' : ε'} (related : errors error error') :
    Agree states errors values (throw error) (throw error') :=
  fun _ _ _ => related

theorem get : Agree states errors states get get := fun _ _ start => ⟨start, start⟩

theorem modify {change : σ → σ} {change' : σ' → σ'}
    (keeps : ∀ one other, states one other → states (change one) (change' other)) :
    Agree states errors (fun _ _ => True) (modify change) (modify change') :=
  fun one other start => ⟨trivial, keeps one other start⟩

/-- What would follow a failure does not matter. -/
theorem bind {related : β → β' → Prop} {first : EStateM ε σ β} {second : EStateM ε' σ' β'}
    {next : β → EStateM ε σ α} {next' : β' → EStateM ε' σ' α'}
    (front : Agree states errors related first second)
    (back : ∀ value value', related value value' →
      Agree states errors values (next value) (next' value')) :
    Agree states errors values (first >>= next) (second >>= next') := by
  intro one other start
  have agreed := front one other start
  split at agreed
  next returned returned' =>
    rw [bind_of_ok returned, bind_of_ok returned']
    exact back _ _ agreed.1 _ _ agreed.2
  next failed failed' =>
    rw [bind_of_error failed, bind_of_error failed']
    exact agreed
  next => cases agreed

theorem throw_bind {error : ε} {error' : ε'} {next : β → EStateM ε σ α}
    {next' : β' → EStateM ε' σ' α'} (related : errors error error') :
    Agree states errors values (MonadExcept.throw error >>= next)
      (MonadExcept.throw error' >>= next') :=
  fun _ _ _ => related

theorem ofExcept {outcome : Except ε α} :
    Agree states Eq Eq (MonadExcept.ofExcept outcome : EStateM ε σ α)
      (MonadExcept.ofExcept outcome : EStateM ε σ' α) := by
  cases outcome with
  | ok value => exact .pure rfl
  | error error => exact .throw rfl

/-- What a state is asked for may be answered first. -/
theorem get_bind {next : σ → EStateM ε σ α} {next' : σ' → EStateM ε' σ' α'}
    (back : ∀ one other, states one other → Agree states errors values (next one) (next' other)) :
    Agree states errors values (MonadState.get >>= next) (MonadState.get >>= next') :=
  fun one other start => back one other start one other start

theorem ite {condition condition' : Prop} [Decidable condition] [Decidable condition']
    {first second : EStateM ε σ α} {first' second' : EStateM ε' σ' α'}
    (same : condition ↔ condition')
    (whenTrue : condition → Agree states errors values first first')
    (whenFalse : ¬ condition → Agree states errors values second second') :
    Agree states errors values (if condition then first else second)
      (if condition' then first' else second') := by
  by_cases holds : condition
  · rw [if_pos holds, if_pos (same.mp holds)]
    exact whenTrue holds
  · rw [if_neg holds, if_neg (mt same.mpr holds)]
    exact whenFalse holds

theorem forM {γ γ' : Type} {step : γ → EStateM ε σ PUnit} {step' : γ' → EStateM ε' σ' PUnit}
    {entries : List γ} {entries' : List γ'}
    (each : List.Forall₂ (fun entry entry' =>
      Agree states errors (fun _ _ => True) (step entry) (step' entry')) entries entries') :
    Agree states errors (fun _ _ => True) (entries.forM step) (entries'.forM step') := by
  induction each with
  | nil => exact .pure trivial
  | cons here _ ih => exact .bind here fun _ _ _ => ih

theorem forM_same {γ : Type} {step : γ → EStateM ε σ PUnit} {step' : γ → EStateM ε' σ' PUnit}
    (each : ∀ entry, Agree states errors (fun _ _ => True) (step entry) (step' entry))
    (entries : List γ) :
    Agree states errors (fun _ _ => True) (entries.forM step) (entries.forM step') :=
  .forM (List.forall₂_same.mpr fun entry _ => each entry)

/-- Errors may be renamed on one side and on the other. -/
theorem adaptExcept {ε₁ ε₁' : Type} {errors' : ε₁ → ε₁' → Prop} {cause : ε → ε₁} {cause' : ε' → ε₁'}
    {first : EStateM ε σ α} {second : EStateM ε' σ' α'}
    (agree : Agree states errors values first second)
    (related : ∀ error error', errors error error' → errors' (cause error) (cause' error')) :
    Agree states errors' values (first.adaptExcept cause) (second.adaptExcept cause') := by
  intro one other start
  have agreed := agree one other start
  simp only [EStateM.adaptExcept]
  split at agreed
  next returned returned' =>
    rw [returned, returned']
    exact agreed
  next failed failed' =>
    rw [failed, failed']
    exact related _ _ agreed
  next => cases agreed

end Agree

end WordMachine
