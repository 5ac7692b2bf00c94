import Mathlib.Data.Nat.Notation
import Mathlib.Order.Basic

/-
  A clock of `w` bits that starts over, and times on it that
  are compared as plain numbers.

  Main declarations:
    * `WrapClock.forward`, `WrapClock.ahead`
    * `WrapClock.earliest`, `WrapClock.clamp`
    * `WrapClock.ahead_le_forward`
    * `WrapClock.clamp_ahead_earliest_le`
-/

namespace WrapClock

variable {w : ℕ}

------------------------------------------------------------
-- Distances
------------------------------------------------------------

/- How long the clock still runs until it shows `due`. -/
def forward (now due : BitVec w) : ℕ :=
  (due - now).toNat

/- The same to who takes any smaller number for the past. -/
def ahead (now due : BitVec w) : BitVec w :=
  if now < due then due - now else 0#w

section Distances

variable
  {now due due' : BitVec w}

/- Comparing plain numbers never makes a time later. -/
theorem ahead_le_forward :
    (ahead now due).toNat ≤ forward now due := by
  unfold ahead forward
  split
  · exact Nat.le_refl _
  · simp

theorem ahead_mono (hLe : due ≤ due') :
    (ahead now due).toNat ≤ (ahead now due').toNat := by
  unfold ahead
  by_cases hBefore : now < due
  · have hNow : now.toNat < due.toNat := hBefore
    have hDue : due.toNat ≤ due'.toNat := hLe
    have hBefore' : now < due' := Nat.lt_of_lt_of_le hNow hDue
    rw [if_pos hBefore, if_pos hBefore',
      BitVec.toNat_sub_of_le (Nat.le_of_lt hNow),
      BitVec.toNat_sub_of_le (Nat.le_of_lt hBefore')]
    exact Nat.sub_le_sub_right hDue _
  · rw [if_neg hBefore]
    simp

end Distances

------------------------------------------------------------
-- The Earliest Time
------------------------------------------------------------

/- The smallest number of a list and `next`. -/
def earliest
    (next : BitVec w) : List (BitVec w) → BitVec w
| [] => next
| due :: dues =>
    earliest (if due < next then due else next) dues

theorem earliest_le
    (next : BitVec w)
    (dues : List (BitVec w)) :
    earliest next dues ≤ next ∧
      ∀ due ∈ dues, earliest next dues ≤ due := by
  induction dues generalizing next with
  | nil => exact ⟨BitVec.le_refl _, by simp⟩
  | cons due dues ih =>
      rcases ih (if due < next then due else next) with
        ⟨hNext, hDues⟩
      have hBoth :
          (if due < next then due else next) ≤ next ∧
            (if due < next then due else next) ≤ due := by
        split
        next hLess =>
          exact ⟨BitVec.le_of_lt hLess, BitVec.le_refl _⟩
        next hNot =>
          exact ⟨BitVec.le_refl _, BitVec.not_lt.mp hNot⟩
      refine ⟨BitVec.le_trans hNext hBoth.1, ?_⟩
      intro other hOther
      rcases List.mem_cons.mp hOther with rfl | hRest
      · exact BitVec.le_trans hNext hBoth.2
      · exact hDues other hRest

------------------------------------------------------------
-- Bounds
------------------------------------------------------------

def clamp (lo hi value : BitVec w) : BitVec w :=
  if value < lo then
    lo
  else if hi < value then
    hi
  else
    value

section Bounds

variable
  {lo hi value : BitVec w}

theorem clamp_bounds (hRange : lo ≤ hi) :
    lo ≤ clamp lo hi value ∧ clamp lo hi value ≤ hi := by
  unfold clamp
  split
  · exact ⟨BitVec.le_refl _, hRange⟩
  next hLow =>
    split
    · exact ⟨hRange, BitVec.le_refl _⟩
    next hHigh =>
      exact ⟨BitVec.not_lt.mp hLow, BitVec.not_lt.mp hHigh⟩

theorem clamp_le_max :
    (clamp lo hi value).toNat ≤
      max lo.toNat value.toNat := by
  unfold clamp
  split
  · exact Nat.le_max_left _ _
  · split
    next hHigh =>
      have hLess : hi.toNat < value.toNat := hHigh
      omega
    next => exact Nat.le_max_right _ _

/-
  A wait up to the earliest of some times, found by their
  plain numbers, does not go past any of them.
-/
theorem clamp_ahead_earliest_le
    {now next due : BitVec w}
    {dues : List (BitVec w)}
    (hMem : due ∈ dues) :
    (clamp lo hi (ahead now (earliest next dues))).toNat ≤
      max lo.toNat (forward now due) := by
  have hClamp : (clamp lo hi
      (ahead now (earliest next dues))).toNat ≤
        max lo.toNat
          (ahead now (earliest next dues)).toNat :=
    clamp_le_max
  have hEarliest : (ahead now (earliest next dues)).toNat ≤
      (ahead now due).toNat :=
    ahead_mono ((earliest_le next dues).2 due hMem)
  have hForward : (ahead now due).toNat ≤ forward now due :=
    ahead_le_forward
  omega

end Bounds

end WrapClock
