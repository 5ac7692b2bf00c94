import Mathlib.Data.Nat.Notation

/-
  Runs of a partial step function, and the induction over
  them.  `step s e` is `none` when the event cannot happen.

  A condition on the steps of a run is stated in the state
  before each step.

  Main declarations:
    * `Transition.run`, `Transition.run_append`
    * `Transition.Meets`, `Transition.decidableMeets`,
      `Transition.Meets.cons`, `Transition.Meets.mono`,
      `Transition.meets_and`, `Transition.meets_of_forall`
    * `Transition.invariant_of_run`,
      `Transition.length_le_measure`
    * `Transition.Always`, `Transition.always_iff_meets`
-/

namespace Transition

variable {σ ε : Type}

/- The state after a sequence of events. -/
def run
    (step : σ → ε → Option σ) :
    σ → List ε → Option σ
| s, [] => some s
| s, e :: events =>
    (step s e).bind (fun s' => run step s' events)

theorem run_append
    (step : σ → ε → Option σ)
    (s : σ)
    (events later : List ε) :
    run step s (events ++ later) =
      (run step s events).bind
        (fun s' => run step s' later) := by
  induction events generalizing s with
  | nil => rfl
  | cons e events ih =>
      rw [List.cons_append, run, run, Option.bind_assoc]
      exact congrArg _ (funext ih)

/- Every step of the run meets the condition. -/
def Meets
    (step : σ → ε → Option σ)
    (condition : σ → ε → Prop) :
    σ → List ε → Prop
| _, [] => True
| s, e :: events =>
    condition s e ∧
      ∀ s', step s e = some s' →
        Meets step condition s' events

instance decidableMeets
    {step : σ → ε → Option σ}
    {condition : σ → ε → Prop}
    [∀ s e, Decidable (condition s e)] :
    ∀ s events, Decidable (Meets step condition s events)
| _, [] => isTrue trivial
| s, e :: events =>
    match hStep : step s e with
    | none =>
        decidable_of_iff (condition s e)
          (by simp [Meets, hStep])
    | some s' =>
        have : Decidable (Meets step condition s' events) :=
          decidableMeets s' events
        decidable_of_iff
          (condition s e ∧ Meets step condition s' events)
          (by simp [Meets, hStep])

/- A run meets the condition step by step. -/
theorem Meets.cons
    {step : σ → ε → Option σ}
    {condition : σ → ε → Prop}
    {s s' : σ}
    {e : ε}
    {events : List ε}
    (hCondition : condition s e)
    (hStep : step s e = some s')
    (hRest : Meets step condition s' events) :
    Meets step condition s (e :: events) := by
  refine ⟨hCondition, ?_⟩
  intro next hNext
  rw [hStep] at hNext
  rw [← Option.some.inj hNext]
  exact hRest

/- A run that meets a condition meets every weaker one. -/
theorem Meets.mono
    {step : σ → ε → Option σ}
    {condition weaker : σ → ε → Prop}
    (hWeaker : ∀ s e, condition s e → weaker s e)
    {s : σ}
    {events : List ε}
    (hMeets : Meets step condition s events) :
    Meets step weaker s events := by
  induction events generalizing s with
  | nil => trivial
  | cons e events ih =>
      refine ⟨hWeaker s e hMeets.1, ?_⟩
      intro s' hStep
      exact ih (hMeets.2 s' hStep)

/- A condition on the events alone. -/
theorem meets_of_forall
    {step : σ → ε → Option σ}
    {onEvent : ε → Prop}
    {s : σ}
    {events : List ε}
    (hEvents : ∀ e ∈ events, onEvent e) :
    Meets step (fun _ e => onEvent e) s events := by
  induction events generalizing s with
  | nil => trivial
  | cons e events ih =>
      refine ⟨hEvents e List.mem_cons_self, ?_⟩
      intro s' _
      exact ih (fun e' hMem =>
        hEvents e' (List.mem_cons_of_mem e hMem))

/- A condition on the events alone joins any other. -/
theorem meets_and
    {step : σ → ε → Option σ}
    {onEvent : ε → Prop}
    {condition : σ → ε → Prop}
    {s : σ}
    {events : List ε}
    (hEvents : ∀ e ∈ events, onEvent e)
    (hMeets : Meets step condition s events) :
    Meets step (fun s e => onEvent e ∧ condition s e)
      s events := by
  induction events generalizing s with
  | nil => trivial
  | cons e events ih =>
      refine ⟨⟨hEvents e List.mem_cons_self, hMeets.1⟩, ?_⟩
      intro s' hStep
      apply ih
      · exact fun e' hMem =>
          hEvents e' (List.mem_cons_of_mem e hMem)
      · exact hMeets.2 s' hStep

/-
  What one step preserves under the condition, a whole run
  preserves whose steps all meet it.
-/
theorem invariant_of_run
    {step : σ → ε → Option σ}
    {condition : σ → ε → Prop}
    {inv : σ → Prop}
    (hStep : ∀ s e s', inv s → condition s e →
      step s e = some s' → inv s')
    {s s' : σ}
    {events : List ε}
    (hInv : inv s)
    (hMeets : Meets step condition s events)
    (hRun : run step s events = some s') :
    inv s' := by
  induction events generalizing s with
  | nil =>
      rw [← Option.some.inj hRun]
      exact hInv
  | cons e events ih =>
      rw [run, Option.bind_eq_some_iff] at hRun
      rcases hRun with ⟨next, hNext, hRest⟩
      exact ih (hStep s e next hInv hMeets.1 hNext)
        (hMeets.2 next hNext) hRest

/- A run is no longer than a measure that every step lowers. -/
theorem length_le_measure
    {step : σ → ε → Option σ}
    {onEvent : ε → Prop}
    {inv : σ → Prop}
    {measure : σ → ℕ}
    (hStep : ∀ s e s', inv s → onEvent e →
      step s e = some s' → inv s' ∧ measure s' < measure s)
    {s s' : σ}
    {events : List ε}
    (hInv : inv s)
    (hEvents : ∀ e ∈ events, onEvent e)
    (hRun : run step s events = some s') :
    events.length ≤ measure s := by
  induction events generalizing s with
  | nil => exact Nat.zero_le _
  | cons e events ih =>
      rw [run, Option.bind_eq_some_iff] at hRun
      rcases hRun with ⟨next, hNext, hRest⟩
      rcases hStep s e next hInv
        (hEvents e List.mem_cons_self) hNext with
        ⟨hNextInv, hLess⟩
      have hLength := ih hNextInv
        (fun e' hMem =>
          hEvents e' (List.mem_cons_of_mem e hMem)) hRest
      rw [List.length_cons]
      omega

/- The property holds in every state of the run. -/
def Always
    (step : σ → ε → Option σ)
    (good : σ → Prop) :
    σ → List ε → Prop
| s, [] => good s
| s, e :: events =>
    good s ∧
      ∀ s', step s e = some s' → Always step good s' events

theorem Always.head
    {step : σ → ε → Option σ}
    {good : σ → Prop}
    {s : σ}
    {events : List ε}
    (hAlways : Always step good s events) :
    good s := by
  cases events with
  | nil => exact hAlways
  | cons e events => exact hAlways.1

/-
  A condition that keeps an invariant, and without which a
  property is lost, is exactly what a run must meet for the
  property to hold throughout.
-/
theorem always_iff_meets
    {step : σ → ε → Option σ}
    {inv good : σ → Prop}
    {condition : σ → ε → Prop}
    (hGood : ∀ s, inv s → good s)
    (hKeep : ∀ s e s', inv s → condition s e →
      step s e = some s' → inv s')
    (hLose : ∀ s e s', inv s → ¬ condition s e →
      step s e = some s' → ¬ good s')
    (hIdle : ∀ s e, step s e = none → condition s e)
    {s : σ}
    (events : List ε)
    (hInv : inv s) :
    Always step good s events ↔
      Meets step condition s events := by
  induction events generalizing s with
  | nil => exact iff_of_true (hGood s hInv) trivial
  | cons e events ih =>
      constructor
      · intro hAlways
        have hCondition : condition s e := by
          apply Classical.byContradiction
          intro hNot
          cases hStep : step s e with
          | none => exact hNot (hIdle s e hStep)
          | some s' =>
              exact hLose s e s' hInv hNot hStep
                (hAlways.2 s' hStep).head
        refine ⟨hCondition, ?_⟩
        intro s' hStep
        exact (ih (hKeep s e s' hInv hCondition hStep)).mp
          (hAlways.2 s' hStep)
      · intro hMeets
        refine ⟨hGood s hInv, ?_⟩
        intro s' hStep
        exact (ih (hKeep s e s' hInv hMeets.1 hStep)).mpr
          (hMeets.2 s' hStep)

end Transition
