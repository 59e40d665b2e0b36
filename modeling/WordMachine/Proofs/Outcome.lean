import WordMachine.Store

/-!
# What an operation ends in

Stores, drafts and processors are changed by operations that return a value or
fail, and that leave a state in either case. `Ends` bounds both outcomes at once.
Its lemmas take an operation apart from the front, so that a sequence is reduced to
its parts. `Keeps` is the case of a property that holds before and after, whatever the
outcome; it needs no word about the states in between.
-/

namespace WordMachine

variable {ε ε' σ α β : Type}

/-- An operation that returns hands its value and its state to what follows. -/
theorem bind_of_ok {operation : EStateM ε σ α} {next : α → EStateM ε σ β}
    {start final : σ} {value : α} (outcome : operation start = .ok value final) :
    (operation >>= next) start = next value final := by
  simp only [bind, EStateM.bind, outcome]

/-- What would follow a failure does not matter. -/
theorem bind_of_error {operation : EStateM ε σ α} {next : α → EStateM ε σ β}
    {start final : σ} {error : ε} (outcome : operation start = .error error final) :
    (operation >>= next) start = .error error final := by
  simp only [bind, EStateM.bind, outcome]

/-- A sequence returns if both its parts do. -/
theorem bind_eq_ok_iff {operation : EStateM ε σ α} {next : α → EStateM ε σ β}
    {start final : σ} {value : β} :
    (operation >>= next) start = .ok value final ↔
      ∃ first middle, operation start = .ok first middle ∧ next first middle = .ok value final := by
  cases outcome : operation start with
  | ok first middle =>
      rw [bind_of_ok outcome]
      constructor
      · exact fun returned => ⟨first, middle, rfl, returned⟩
      · rintro ⟨_, _, same, returned⟩
        cases same
        exact returned
  | error error middle =>
      rw [bind_of_error outcome]
      constructor
      · intro returned
        cases returned
      · rintro ⟨_, _, same, -⟩
        cases same

theorem get_bind {next : σ → EStateM ε σ α} {start : σ} :
    (get >>= next) start = next start start := rfl

theorem map_of_ok {operation : EStateM ε σ α} {image : α → β}
    {start final : σ} {value : α} (outcome : operation start = .ok value final) :
    (image <$> operation) start = .ok (image value) final := by
  simp only [Functor.map, EStateM.map, outcome]

/-- Started in `start`, the operation returns a value and leaves a state with
`returned`, or fails and leaves a state with `failed`. -/
def Ends (operation : EStateM ε σ α) (start : σ) (returned : α → σ → Prop)
    (failed : ε → σ → Prop) : Prop :=
  match operation start with
  | .ok value final => returned value final
  | .error error final => failed error final

section

variable {start : σ} {returned : α → σ → Prop} {failed : ε → σ → Prop}

theorem Ends.of_ok {operation : EStateM ε σ α} {value : α} {final : σ}
    (ends : Ends operation start returned failed)
    (outcome : operation start = .ok value final) : returned value final := by
  rw [Ends, outcome] at ends
  exact ends

theorem Ends.of_error {operation : EStateM ε σ α} {error : ε} {final : σ}
    (ends : Ends operation start returned failed)
    (outcome : operation start = .error error final) : failed error final := by
  rw [Ends, outcome] at ends
  exact ends

theorem Ends.intro_ok {operation : EStateM ε σ α} {value : α} {final : σ}
    (outcome : operation start = .ok value final) (holds : returned value final) :
    Ends operation start returned failed := by
  rw [Ends, outcome]
  exact holds

/-- What follows from each outcome may stand in its place. -/
theorem Ends.mono {operation : EStateM ε σ α} {returned' : α → σ → Prop}
    {failed' : ε → σ → Prop} (ends : Ends operation start returned failed)
    (onReturn : ∀ value final, returned value final → returned' value final)
    (onFailure : ∀ error final, failed error final → failed' error final) :
    Ends operation start returned' failed' := by
  unfold Ends at ends ⊢
  split
  next value final outcome =>
    rw [outcome] at ends
    exact onReturn value final ends
  next error final outcome =>
    rw [outcome] at ends
    exact onFailure error final ends

theorem Ends.and {operation : EStateM ε σ α} {returned' : α → σ → Prop}
    {failed' : ε → σ → Prop} (first : Ends operation start returned failed)
    (second : Ends operation start returned' failed') :
    Ends operation start (fun value final => returned value final ∧ returned' value final)
      (fun error final => failed error final ∧ failed' error final) := by
  unfold Ends at first second ⊢
  split
  next value final outcome =>
    rw [outcome] at first second
    exact ⟨first, second⟩
  next error final outcome =>
    rw [outcome] at first second
    exact ⟨first, second⟩

/-- What holds of every outcome holds of the one there is. -/
theorem Ends.of_all {operation : EStateM ε σ α} (onReturn : ∀ value final, returned value final)
    (onFailure : ∀ error final, failed error final) : Ends operation start returned failed := by
  unfold Ends
  split
  · exact onReturn _ _
  · exact onFailure _ _

@[simp] theorem ends_pure {value : α} :
    Ends (pure value : EStateM ε σ α) start returned failed ↔ returned value start := Iff.rfl

@[simp] theorem ends_bind {operation : EStateM ε σ β} {next : β → EStateM ε σ α} :
    Ends (operation >>= next) start returned failed ↔
      Ends operation start (fun value final => Ends (next value) final returned failed)
        failed := by
  simp only [Ends, bind, EStateM.bind]
  cases operation start with
  | ok value final => rfl
  | error error final => rfl

@[simp] theorem ends_map {operation : EStateM ε σ β} {image : β → α} :
    Ends (image <$> operation) start returned failed ↔
      Ends operation start (fun value final => returned (image value) final) failed := by
  simp only [Ends, Functor.map, EStateM.map]
  cases operation start with
  | ok value final => rfl
  | error error final => rfl

@[simp] theorem ends_ite {condition : Prop} [Decidable condition]
    {first second : EStateM ε σ α} :
    Ends (if condition then first else second) start returned failed ↔
      if condition then Ends first start returned failed
      else Ends second start returned failed := by
  split
  · rfl
  · rfl

@[simp] theorem ends_throw {error : ε} :
    Ends (throw error : EStateM ε σ α) start returned failed ↔ failed error start := Iff.rfl

@[simp] theorem ends_ofExcept {outcome : Except ε α} :
    Ends (MonadExcept.ofExcept outcome : EStateM ε σ α) start returned failed ↔
      match outcome with
      | .ok value => returned value start
      | .error error => failed error start := by
  cases outcome with
  | ok value => rfl
  | error error => rfl

@[simp] theorem ends_tryFinally {operation : EStateM ε σ α} {finalizer : EStateM ε σ β} :
    Ends (tryFinally operation finalizer) start returned failed ↔
      Ends operation start
        (fun value final =>
          Ends finalizer final (fun _ last => returned value last) failed)
        (fun error final =>
          Ends finalizer final (fun _ last => failed error last) failed) := by
  simp only [Ends, tryFinally, Functor.map, EStateM.map, tryFinally']
  cases operation start with
  | ok value final =>
      simp only
      cases finalizer final <;> rfl
  | error error final =>
      simp only
      cases finalizer final <;> rfl

@[simp] theorem ends_adaptExcept {operation : EStateM ε' σ α} {cause : ε' → ε} :
    Ends (operation.adaptExcept cause) start returned failed ↔
      Ends operation start returned (fun error final => failed (cause error) final) := by
  simp only [Ends, EStateM.adaptExcept]
  cases operation start with
  | ok value final => rfl
  | error error final => rfl

end

@[simp] theorem ends_get {start : σ} {returned : σ → σ → Prop} {failed : ε → σ → Prop} :
    Ends (get : EStateM ε σ σ) start returned failed ↔ returned start start := Iff.rfl

@[simp] theorem ends_modify {start : σ} {change : σ → σ} {returned : PUnit → σ → Prop}
    {failed : ε → σ → Prop} :
    Ends (modify change : EStateM ε σ PUnit) start returned failed ↔
      returned ⟨⟩ (change start) := Iff.rfl

@[simp] theorem ends_modifyGet {start : σ} {change : σ → α × σ} {returned : α → σ → Prop}
    {failed : ε → σ → Prop} :
    Ends (modifyGet change : EStateM ε σ α) start returned failed ↔
      returned (change start).1 (change start).2 := Iff.rfl

/-- Whether an operation, started in a state, returns a value. -/
def Succeeds (operation : EStateM ε σ α) (start : σ) : Prop :=
  ∃ value final, operation start = .ok value final

/-- Whether an operation keeps a property of the state in either outcome, and fails with
expected errors only. -/
def Keeps (kept : σ → Prop) (expected : ε → Prop) (operation : EStateM ε σ α) : Prop :=
  ∀ start, kept start →
    Ends operation start (fun _ final => kept final)
      (fun error final => expected error ∧ kept final)

namespace Keeps

variable {kept : σ → Prop} {expected : ε → Prop}

theorem pure (value : α) : Keeps kept expected (pure value : EStateM ε σ α) :=
  fun _ start => start

theorem throw {error : ε} (known : expected error) :
    Keeps kept expected (throw error : EStateM ε σ α) :=
  fun _ start => ⟨known, start⟩

/-- What would follow a failure does not matter. -/
theorem throw_bind {error : ε} (known : expected error) {next : β → EStateM ε σ α} :
    Keeps kept expected (MonadExcept.throw error >>= next) :=
  fun _ start => ⟨known, start⟩

theorem get : Keeps kept expected (get : EStateM ε σ σ) := fun _ start => start

theorem modify {change : σ → σ} (same : ∀ state, kept state → kept (change state)) :
    Keeps kept expected (modify change : EStateM ε σ PUnit) :=
  fun start keptStart => same start keptStart

theorem ofExcept {outcome : Except ε α} (known : ∀ error, outcome = .error error → expected error) :
    Keeps kept expected (MonadExcept.ofExcept outcome : EStateM ε σ α) := by
  intro start keptStart
  rw [ends_ofExcept]
  cases outcome with
  | ok value => exact keptStart
  | error error => exact ⟨known error rfl, keptStart⟩

theorem bind {operation : EStateM ε σ β} {next : β → EStateM ε σ α}
    (first : Keeps kept expected operation) (second : ∀ value, Keeps kept expected (next value)) :
    Keeps kept expected (operation >>= next) := by
  intro start keptStart
  rw [ends_bind]
  apply (first start keptStart).mono
  · exact fun value middle keptMiddle => second value middle keptMiddle
  · exact fun _ _ failed => failed

theorem map {operation : EStateM ε σ β} (image : β → α) (keeps : Keeps kept expected operation) :
    Keeps kept expected (image <$> operation) := by
  intro start keptStart
  rw [ends_map]
  exact keeps start keptStart

theorem ite {condition : Prop} [Decidable condition] {first second : EStateM ε σ α}
    (whenTrue : Keeps kept expected first) (whenFalse : Keeps kept expected second) :
    Keeps kept expected (if condition then first else second) := by
  split
  · exact whenTrue
  · exact whenFalse

/-- An operation whose failures all count as one expected error. -/
theorem adaptExcept {operation : EStateM ε' σ α} {cause : ε' → ε}
    (keeps : Keeps kept (fun error => expected (cause error)) operation) :
    Keeps kept expected (operation.adaptExcept cause) := by
  intro start keptStart
  rw [ends_adaptExcept]
  exact keeps start keptStart

end Keeps

end WordMachine
