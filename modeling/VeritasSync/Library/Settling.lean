import VeritasSync.Library.Transition

/-
  A component that comes to rest when it is left alone.

  Of the events of a run some are its own and the others
  come from outside.  A measure that each of its own events
  lowers bounds every run that nothing comes in between of,
  and where one of them is possible until it rests, it can
  be run to a rest from everywhere.

  Main declarations:
    * `Transition.Settling`, `Transition.Settling.length_le`
    * `Transition.Settling.exists_run_to_rest`
-/

namespace Transition

variable {σ ε : Type}

/- An own event keeps the invariant, lowers the measure. -/
structure Settling
    (step : σ → ε → Option σ)
    (inv : σ → Prop)
    (own : ε → Prop)
    (measure : σ → ℕ) : Prop where
  lowers : ∀ s e s', inv s → own e → step s e = some s' →
    inv s' ∧ measure s' < measure s

namespace Settling

variable
  {step : σ → ε → Option σ}
  {inv rest : σ → Prop}
  {own : ε → Prop}
  {measure : σ → ℕ}
  (hSettling : Settling step inv own measure)

include hSettling

theorem length_le
    {s s' : σ}
    {events : List ε}
    (hInv : inv s)
    (hOwn : ∀ e ∈ events, own e)
    (hRun : run step s events = some s') :
    events.length ≤ measure s :=
  length_le_measure hSettling.lowers hInv hOwn hRun

/- The invariant survives what the component does by itself. -/
theorem inv_of_run
    {s s' : σ}
    {events : List ε}
    (hInv : inv s)
    (hOwn : ∀ e ∈ events, own e)
    (hRun : run step s events = some s') :
    inv s' := by
  apply invariant_of_run _ hInv
    (meets_of_forall hOwn) hRun
  intro s e s' hInv hOwn hStep
  exact (hSettling.lowers s e s' hInv hOwn hStep).1

/- Where nothing can be done only at rest, a rest is reached. -/
theorem exists_run_to_rest
    (hProgress : ∀ s, inv s → ¬ rest s →
      ∃ e s', own e ∧ step s e = some s')
    {s : σ}
    (hInv : inv s) :
    ∃ events s',
      (∀ e ∈ events, own e) ∧
        run step s events = some s' ∧ rest s' := by
  generalize hMeasure : measure s = n
  induction n using Nat.strongRecOn generalizing s with
  | ind n ih =>
      by_cases hRest : rest s
      · exact ⟨[], s, by simp, rfl, hRest⟩
      rcases hProgress s hInv hRest with
        ⟨e, next, hOwn, hStep⟩
      rcases hSettling.lowers s e next hInv hOwn hStep with
        ⟨hNextInv, hLess⟩
      rcases ih (measure next) (hMeasure ▸ hLess) hNextInv
        rfl with ⟨events, s', hEvents, hRun, hAtRest⟩
      refine ⟨e :: events, s', ?_, ?_, hAtRest⟩
      · intro e' hMem
        rcases List.mem_cons.mp hMem with rfl | hLater
        · exact hOwn
        · exact hEvents e' hLater
      · rw [run, hStep]
        exact hRun

end Settling

end Transition
