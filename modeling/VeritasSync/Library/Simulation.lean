import VeritasSync.Library.Transition

/-
  Simulation between two step functions, and two runs of one
  step function side by side.

  A step of the one system is matched by steps of the other,
  by none of them where it is not seen there.  `seen` names
  the labels of these steps, in the state before the event.

  Main declarations:
    * `Transition.Simulates`, `Transition.Simulates.run`
    * `Transition.labels`
    * `Transition.outputs`,
      `Transition.outputs_eq_of_related`
-/

namespace Transition

variable {σ τ ε δ : Type}

/- Related states stay related, whatever step is taken. -/
def Simulates
    (step : σ → ε → Option σ)
    (spec : τ → δ → Option τ)
    (condition : σ → ε → Prop)
    (seen : σ → ε → List δ)
    (related : τ → σ → Prop) : Prop :=
  ∀ t s e s', related t s → condition s e →
    step s e = some s' →
    ∃ t', run spec t (seen s e) = some t' ∧ related t' s'

/- The labels of a whole run, in the order of its events. -/
def labels
    (step : σ → ε → Option σ)
    (seen : σ → ε → List δ) :
    σ → List ε → List δ
| _, [] => []
| s, e :: events =>
    seen s e ++
      (step s e).elim [] (fun s' =>
        labels step seen s' events)

/- A run is matched by the run over its labels. -/
theorem Simulates.run
    {step : σ → ε → Option σ}
    {spec : τ → δ → Option τ}
    {condition : σ → ε → Prop}
    {seen : σ → ε → List δ}
    {related : τ → σ → Prop}
    (hSimulates : Simulates step spec condition seen related)
    {t : τ}
    {s s' : σ}
    {events : List ε}
    (hRelated : related t s)
    (hMeets : Meets step condition s events)
    (hRun : Transition.run step s events = some s') :
    ∃ t', Transition.run spec t (labels step seen s events) =
        some t' ∧
      related t' s' := by
  induction events generalizing s t with
  | nil =>
      refine ⟨t, rfl, ?_⟩
      rw [← Option.some.inj hRun]
      exact hRelated
  | cons e rest ih =>
      rcases Option.bind_eq_some_iff.mp hRun with
        ⟨next, hStep, hRest⟩
      rcases hSimulates t s e next hRelated hMeets.1
        hStep with ⟨t₁, hFirst, hNext⟩
      rcases ih hNext (hMeets.2 next hStep) hRest with
        ⟨t', hLater, hRelated'⟩
      refine ⟨t', ?_, hRelated'⟩
      rw [labels, hStep, run_append, hFirst]
      exact hLater

------------------------------------------------------------
-- Two Runs
------------------------------------------------------------

variable {ω : Type}

/- What a total step function gives out along a sequence. -/
def outputs
    (step : σ → ε → σ × ω) :
    σ → List ε → σ × List ω
| s, [] => (s, [])
| s, e :: events =>
    let now := step s e
    let later := outputs step now.1 events
    (later.1, now.2 :: later.2)

/- Who sees the outputs cannot tell the states apart. -/
theorem outputs_eq_of_related
    {step : σ → ε → σ × ω}
    {related : σ → σ → Prop}
    (hStep : ∀ s s' e, related s s' →
      (step s e).2 = (step s' e).2 ∧
        related (step s e).1 (step s' e).1)
    {s s' : σ}
    (hRelated : related s s')
    (events : List ε) :
    (outputs step s events).2 = (outputs step s' events).2 ∧
      related (outputs step s events).1
        (outputs step s' events).1 := by
  induction events generalizing s s' with
  | nil => exact ⟨rfl, hRelated⟩
  | cons e events ih =>
      have hNow := hStep s s' e hRelated
      have hLater := ih hNow.2
      simp only [outputs, hNow.1, hLater.1]
      exact ⟨trivial, hLater.2⟩

end Transition
