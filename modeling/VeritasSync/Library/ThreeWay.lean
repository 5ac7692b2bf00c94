import Mathlib.Tactic.SplitIfs

/-
  The three-way decision between two versions of one item
  and the version on which both sides last agreed.

  Main declarations:
    * `ThreeWay.classify`
    * `ThreeWay.Verdict.Follows`
    * `ThreeWay.classify_swap`
    * `ThreeWay.classify_eq_conflict_iff`
-/

namespace ThreeWay

variable {V : Type} [DecidableEq V]

/-
  What to do about `theirs` while holding `mine`: nothing,
  keep the newer `mine`, fetch the newer `theirs`, or
  report that both sides changed.
-/
inductive Verdict where
| same : Verdict
| keep : Verdict
| fetch : Verdict
| conflict : Verdict
deriving DecidableEq, Repr

/- The verdict as the other side sees it. -/
def Verdict.swap : Verdict → Verdict
| .same => .same
| .keep => .fetch
| .fetch => .keep
| .conflict => .conflict

def classify
    (base : Option V)
    (mine theirs : V) : Verdict :=
  if mine = theirs then
    .same
  else if base = some theirs then
    .keep
  else if base = some mine then
    .fetch
  else
    .conflict

/-
  A party that fetches, or sets its own version aside,
  follows the verdict.
-/
def Verdict.Follows
    (verdict : Verdict)
    (fetches setsAside : Prop) : Prop :=
  match verdict with
  | .same => True
  | .keep => ¬fetches
  | .fetch => fetches
  | .conflict => setsAside

theorem Verdict.follows_congr
    {verdict : Verdict}
    {fetches fetches' setsAside setsAside' : Prop}
    (hFetches : fetches ↔ fetches')
    (hSetsAside : setsAside ↔ setsAside') :
    verdict.Follows fetches setsAside ↔
      verdict.Follows fetches' setsAside' := by
  cases verdict with
  | same => exact Iff.rfl
  | keep => exact not_congr hFetches
  | fetch => exact hFetches
  | conflict => exact hSetsAside

/- Both sides reach the same decision. -/
theorem classify_swap
    (base : Option V)
    (mine theirs : V) :
    classify base theirs mine =
      (classify base mine theirs).swap := by
  unfold classify
  by_cases hSame : mine = theirs
  · simp [hSame, Verdict.swap]
  · have hSame' : theirs ≠ mine := Ne.symm hSame
    by_cases hTheirs : base = some theirs
    · simp [hSame, hSame', hTheirs, Verdict.swap]
    · by_cases hMine : base = some mine <;>
        simp [hSame, hSame', hTheirs, hMine, Verdict.swap]

theorem classify_eq_conflict_iff
    (base : Option V)
    (mine theirs : V) :
    classify base mine theirs = .conflict ↔
      mine ≠ theirs ∧ base ≠ some theirs ∧
        base ≠ some mine := by
  unfold classify
  split_ifs with hSame hTheirs hMine <;> simp_all

end ThreeWay
