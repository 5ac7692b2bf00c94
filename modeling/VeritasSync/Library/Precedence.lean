import Mathlib.Data.List.Basic
import Mathlib.Data.Set.Basic

/-
  Items with a rank that touch keys.  They are carried out
  one after the other, in any order that keeps two items
  apart when they touch a key in common.

  The tasks that hold the items stand in a line, where two
  tasks keep the order of the items that overlap.

  Main declarations:
    * `Precedence.InOrder`, `Precedence.LastTouch`
    * `Precedence.InOrder.rank_le`
    * `Precedence.Traced`, `Precedence.Answered`
    * `Precedence.InLine`, `Precedence.InLine.takeFrom`,
      `Precedence.InLine.clear`
-/

namespace Precedence

variable {α ε κ σ β : Type}

------------------------------------------------------------
-- The Order
------------------------------------------------------------

section Order

variable
  {rank : α → ℕ}
  {touches : α → κ → Prop}
  {done : List α}
  {waiting : Set α}

def Overlap
    (touches : α → κ → Prop)
    (a b : α) : Prop :=
  ∃ k, touches a k ∧ touches b k

/-
  Of two items that overlap the one with the smaller rank
  is carried out first.
-/
structure InOrder
    (rank : α → ℕ)
    (touches : α → κ → Prop)
    (done : List α)
    (waiting : Set α) : Prop where
  past : done.Pairwise (fun a b =>
    rank b < rank a → ¬ Overlap touches a b)
  ahead : ∀ a ∈ done, ∀ b ∈ waiting,
    rank b < rank a → ¬ Overlap touches a b

theorem inOrder_nil :
    InOrder rank touches [] waiting where
  past := List.Pairwise.nil
  ahead a hDone := by cases hDone

theorem InOrder.mono
    {fewer : Set α}
    (hOrder : InOrder rank touches done waiting)
    (hFewer : fewer ⊆ waiting) :
    InOrder rank touches done fewer where
  past := hOrder.past
  ahead a hDone b hWaits :=
    hOrder.ahead a hDone b (hFewer hWaits)

/- Items join that no item done so far has to wait for. -/
theorem InOrder.join
    {more : Set α}
    (hOrder : InOrder rank touches done waiting)
    (hMore : ∀ b ∈ more, b ∉ waiting →
      ∀ a ∈ done, rank a ≤ rank b) :
    InOrder rank touches done more where
  past := hOrder.past
  ahead a hDone b hWaits hLess := by
    by_cases hOld : b ∈ waiting
    · exact hOrder.ahead a hDone b hOld hLess
    · have hRank := hMore b hWaits hOld a hDone
      exact absurd hLess (Nat.not_lt.mpr hRank)

/- An item is carried out that nothing has to precede. -/
theorem InOrder.carryOut
    (hOrder : InOrder rank touches done waiting)
    {x : α}
    (hWaits : x ∈ waiting)
    (hFirst : ∀ b ∈ waiting,
      rank b < rank x → ¬ Overlap touches x b) :
    InOrder rank touches (done ++ [x]) waiting where
  past := by
    rw [List.pairwise_append]
    refine ⟨hOrder.past, List.pairwise_singleton _ _, ?_⟩
    intro a hDone b hB
    rw [List.mem_singleton] at hB
    subst hB
    exact hOrder.ahead a hDone b hWaits
  ahead a hDone b hB := by
    rcases List.mem_append.mp hDone with hOld | hNew
    · exact hOrder.ahead a hOld b hB
    · rw [List.mem_singleton] at hNew
      subst hNew
      exact hFirst b hB

end Order

------------------------------------------------------------
-- The Last Item Of A Key
------------------------------------------------------------

section Last

variable
  {touches : α → κ → Prop}
  {done : List α}
  {k : κ}

/- After the item nothing touches the key. -/
def LastTouch
    (touches : α → κ → Prop)
    (done : List α)
    (k : κ)
    (e : α) : Prop :=
  touches e k ∧
    ∃ before later, done = before ++ e :: later ∧
      ∀ a ∈ later, ¬ touches a k

theorem LastTouch.mem
    {e : α}
    (hLast : LastTouch touches done k e) :
    e ∈ done := by
  rcases hLast with ⟨-, before, later, hSplit, -⟩
  rw [hSplit]
  exact List.mem_append_right _ List.mem_cons_self

theorem exists_lastTouch
    (hSome : ∃ a ∈ done, touches a k) :
    ∃ e, LastTouch touches done k e := by
  induction done with
  | nil =>
      rcases hSome with ⟨a, hDone, -⟩
      cases hDone
  | cons first rest ih =>
      by_cases hRest : ∃ a ∈ rest, touches a k
      · rcases ih hRest with
          ⟨e, hTouches, before, later, hSplit, hLater⟩
        refine ⟨e, hTouches, first :: before, later, ?_,
          hLater⟩
        rw [hSplit, List.cons_append]
      · rcases hSome with ⟨a, hDone, hTouches⟩
        have hFirst : a = first := by
          rcases List.mem_cons.mp hDone with hHead | hTail
          · exact hHead
          · exact absurd ⟨a, hTail, hTouches⟩ hRest
        subst hFirst
        refine ⟨a, hTouches, [], rest, rfl, ?_⟩
        exact fun b hB hTouch => hRest ⟨b, hB, hTouch⟩

/- One more item is the last one, or changes nothing. -/
theorem lastTouch_snoc
    {x e : α}
    (hLast : LastTouch touches (done ++ [x]) k e) :
    e = x ∨ (¬ touches x k ∧ LastTouch touches done k e) := by
  rcases hLast with
    ⟨hTouches, before, later, hSplit, hLater⟩
  rcases List.eq_nil_or_concat' later with
    hNil | ⟨init, y, hY⟩
  · left
    subst hNil
    have hEnd := congrArg List.getLast? hSplit
    simpa using hEnd.symm
  · right
    subst hY
    rw [← List.cons_append, ← List.append_assoc] at hSplit
    rcases List.append_inj' hSplit rfl with ⟨hDone, hX⟩
    cases hX
    refine ⟨hLater _ (by simp), hTouches, before, init,
      hDone, ?_⟩
    exact fun b hB => hLater b (List.mem_append_left _ hB)

/- Of the items that touch a key the last has most rank. -/
theorem InOrder.rank_le
    {rank : α → ℕ}
    {waiting : Set α}
    (hOrder : InOrder rank touches done waiting)
    {e a : α}
    (hLast : LastTouch touches done k e)
    (hDone : a ∈ done)
    (hTouches : touches a k) :
    rank a ≤ rank e := by
  rcases hLast with ⟨hE, before, later, hSplit, hLater⟩
  rw [hSplit] at hDone
  have hPast := hOrder.past
  rw [hSplit, List.pairwise_append] at hPast
  rcases List.mem_append.mp hDone with hBefore | hHere
  · have hPair := hPast.2.2 a hBefore e List.mem_cons_self
    by_contra hMore
    exact hPair (Nat.not_le.mp hMore) ⟨k, hTouches, hE⟩
  · rcases List.mem_cons.mp hHere with hSame | hAfter
    · rw [hSame]
    · exact absurd hTouches (hLater a hAfter)

/- The same item is last when items are looked at anew. -/
theorem LastTouch.map
    {touches' : ε → κ → Prop}
    {log : List ε}
    {e : ε}
    (f : ε → α)
    (hTouches : ∀ e k, touches' e k ↔ touches (f e) k)
    (hLast : LastTouch touches' log k e) :
    LastTouch touches (log.map f) k (f e) := by
  rcases hLast with ⟨hE, before, later, hSplit, hLater⟩
  refine ⟨(hTouches e k).mp hE, before.map f, later.map f,
    ?_, ?_⟩
  · rw [hSplit, List.map_append, List.map_cons]
  · intro a hA hTouch
    rcases List.mem_map.mp hA with ⟨b, hB, rfl⟩
    exact hLater b hB ((hTouches b k).mpr hTouch)

end Last

------------------------------------------------------------
-- Tracing A View
------------------------------------------------------------

section Trace

variable
  {touches : α → κ → Prop}
  {view : σ → κ → β}
  {after : α → σ}
  {start s s' : σ}
  {done : List α}

/- What a key shows, its last item left it so. -/
structure Traced
    (touches : α → κ → Prop)
    (view : σ → κ → β)
    (after : α → σ)
    (start s : σ)
    (done : List α) : Prop where
  untouched : ∀ k, (∀ a ∈ done, ¬ touches a k) →
    view s k = view start k
  touched : ∀ k e, LastTouch touches done k e →
    view s k = view (after e) k

/- One more item changes what it touches only. -/
theorem Traced.snoc
    (hTraced : Traced touches view after start s done)
    {x : α}
    (hAfter : after x = s')
    (hFrame : ∀ k, ¬ touches x k →
      view s' k = view s k) :
    Traced touches view after start s' (done ++ [x]) where
  untouched k hNone := by
    rw [hFrame k (hNone x (by simp))]
    apply hTraced.untouched
    exact fun a hDone =>
      hNone a (List.mem_append_left _ hDone)
  touched k e hLast := by
    rcases lastTouch_snoc hLast with hSame | ⟨hNot, hOld⟩
    · rw [hSame, hAfter]
    · rw [hFrame k hNot]
      exact hTraced.touched k e hOld

end Trace

------------------------------------------------------------
-- Items That Call For Others
------------------------------------------------------------

section Answers

variable
  {calls answers : α → κ → Prop}
  {done : List α}
  {pending pending' : Set κ}

/- What an item calls for is pending, or done after it. -/
def Answered
    (calls answers : α → κ → Prop)
    (done : List α)
    (pending : Set κ) : Prop :=
  ∀ before a later, done = before ++ a :: later →
    ∀ k, calls a k →
      k ∈ pending ∨ ∃ b ∈ later, answers b k

theorem answered_nil :
    Answered calls answers [] pending := by
  intro before a later hSplit
  simp at hSplit

theorem Answered.mono
    (hAnswered : Answered calls answers done pending)
    (hMore : pending ⊆ pending') :
    Answered calls answers done pending' := by
  intro before a later hSplit k hCalls
  exact (hAnswered before a later hSplit k hCalls).imp_left
    (fun hPending => hMore hPending)

/- An item answers what it takes off, and may call anew. -/
theorem Answered.snoc
    (hAnswered : Answered calls answers done pending)
    {x : α}
    (hTaken : ∀ k ∈ pending, k ∈ pending' ∨ answers x k)
    (hCalls : ∀ k, calls x k → k ∈ pending') :
    Answered calls answers (done ++ [x]) pending' := by
  intro before a later hSplit k hCall
  rcases List.eq_nil_or_concat' later with
    hNil | ⟨init, y, hY⟩
  · subst hNil
    rcases List.append_inj' hSplit rfl with ⟨-, hX⟩
    cases hX
    exact Or.inl (hCalls k hCall)
  · subst hY
    rw [← List.cons_append, ← List.append_assoc] at hSplit
    rcases List.append_inj' hSplit rfl with ⟨hDone, hX⟩
    cases hX
    rcases hAnswered before a init hDone k hCall with
      hPending | ⟨b, hB, hAnswer⟩
    · rcases hTaken k hPending with hStill | hAnswer
      · exact Or.inl hStill
      · exact Or.inr ⟨x, by simp, hAnswer⟩
    · exact Or.inr
        ⟨b, List.mem_append_left _ hB, hAnswer⟩

end Answers

------------------------------------------------------------
-- Tasks In A Line
------------------------------------------------------------

section Line

variable
  {rank : α → ℕ}
  {touches : α → κ → Prop}
  {queue front tasks : List (Set α)}
  {old new first rest : Set α}
  {k : ℕ}

/- No item of the second has to precede one of the first. -/
def Apart
    (rank : α → ℕ)
    (touches : α → κ → Prop)
    (first second : Set α) : Prop :=
  ∀ a ∈ first, ∀ b ∈ second,
    rank b < rank a → ¬ Overlap touches a b

theorem Apart.mono
    {first' second second' : Set α}
    (hApart : Apart rank touches first second)
    (hFirst : first' ⊆ first)
    (hSecond : second' ⊆ second) :
    Apart rank touches first' second' :=
  fun a hA b hB => hApart a (hFirst hA) b (hSecond hB)

/-
  Of two tasks in the line the later one has nothing that
  has to precede an item of the other.
-/
def InLine
    (rank : α → ℕ)
    (touches : α → κ → Prop)
    (queue : List (Set α)) : Prop :=
  queue.Pairwise (Apart rank touches)

theorem inLine_nil :
    InLine rank touches [] := List.Pairwise.nil

/- Tasks of a rank not seen before go to the end. -/
theorem InLine.append
    (hLine : InLine rank touches queue)
    (hTasks : InLine rank touches tasks)
    (hRank : ∀ task ∈ queue, ∀ a ∈ task,
      ∀ task' ∈ tasks, ∀ b ∈ task', rank a ≤ rank b) :
    InLine rank touches (queue ++ tasks) := by
  refine List.pairwise_append.mpr ⟨hLine, hTasks, ?_⟩
  intro task hTask task' hTask' a hA b hB hLess
  exact absurd hLess
    (Nat.not_lt.mpr (hRank task hTask a hA task' hTask' b hB))

/- Tasks of one rank need no order. -/
theorem inLine_of_rank_eq
    (hSame : ∀ task ∈ tasks, ∀ a ∈ task,
      ∀ task' ∈ tasks, ∀ b ∈ task', rank a = rank b) :
    InLine rank touches tasks := by
  apply List.pairwise_of_forall_mem_list
  intro task hTask task' hTask' a hA b hB hLess
  rw [hSame task hTask a hA task' hTask' b hB] at hLess
  exact absurd hLess (Nat.lt_irrefl _)

/- A task loses some of its items. -/
theorem InLine.set
    (hLine : InLine rank touches queue)
    (hAt : queue[k]? = some old)
    (hFewer : new ⊆ old) :
    InLine rank touches (queue.set k new) := by
  have hAll : ∀ (i : ℕ) (task : Set α),
      (queue.set k new)[i]? = some task →
      ∃ task', queue[i]? = some task' ∧ task ⊆ task' := by
    intro i task hTask
    rw [List.getElem?_set] at hTask
    split at hTask
    next hSame =>
      split at hTask
      · cases hTask
        exact ⟨old, hSame ▸ hAt, hFewer⟩
      · cases hTask
    next => exact ⟨task, hTask, Set.Subset.rfl⟩
  unfold InLine
  rw [List.pairwise_iff_getElem]
  intro i j hI hJ hLess
  rcases hAll i _ (List.getElem?_eq_getElem hI) with
    ⟨first, hFirst, hSub⟩
  rcases hAll j _ (List.getElem?_eq_getElem hJ) with
    ⟨second, hSecond, hSub'⟩
  rcases List.getElem?_eq_some_iff.mp hFirst with
    ⟨hI', hFirst'⟩
  rcases List.getElem?_eq_some_iff.mp hSecond with
    ⟨hJ', hSecond'⟩
  have hApart := List.pairwise_iff_getElem.mp hLine i j
    hI' hJ' hLess
  rw [hFirst', hSecond'] at hApart
  exact hApart.mono hSub hSub'

/-
  Where no task of the line before it holds an item back,
  no task at all does.
-/
theorem InLine.clear
    (hLine : InLine rank touches queue)
    (hAt : queue[k]? = some old)
    (hSame : ∀ a ∈ old, ∀ b ∈ old, rank a = rank b)
    (hFirst : first ⊆ old)
    (hTurn : ∀ j < k, ∀ task, queue[j]? = some task →
      Apart rank touches first task) :
    ∀ task ∈ queue, Apart rank touches first task := by
  intro task hTask
  rcases List.mem_iff_getElem?.mp hTask with ⟨j, hJ⟩
  rcases List.getElem?_eq_some_iff.mp hAt with
    ⟨hK, hOld⟩
  rcases List.getElem?_eq_some_iff.mp hJ with
    ⟨hJ', hTask'⟩
  rcases Nat.lt_trichotomy j k with hBefore | hHere | hAfter
  · exact hTurn j hBefore task hJ
  · subst hHere
    rw [hAt] at hJ
    cases hJ
    intro a hA b hB hLess
    rw [hSame a (hFirst hA) b hB] at hLess
    exact absurd hLess (Nat.lt_irrefl _)
  · have hApart := List.pairwise_iff_getElem.mp hLine k j
      hK hJ' hAfter
    rw [hOld, hTask'] at hApart
    exact hApart.mono hFirst Set.Subset.rfl

/-
  Items of one task go ahead of its line, when no task of
  the line before theirs holds them back.
-/
theorem InLine.takeFrom
    (hLine : InLine rank touches (front ++ tasks))
    (hAt : tasks[k]? = some old)
    (hSame : ∀ a ∈ old, ∀ b ∈ old, rank a = rank b)
    (hFirst : first ⊆ old)
    (hRest : rest ⊆ old)
    (hTurn : ∀ j < k, ∀ task, tasks[j]? = some task →
      Apart rank touches first task) :
    InLine rank touches
      (front ++ first :: tasks.set k rest) := by
  rcases List.pairwise_append.mp hLine with
    ⟨hFront, hTasks, hBetween⟩
  have hOld := List.mem_of_getElem? hAt
  have hClear := InLine.clear hTasks hAt hSame hFirst hTurn
  have hSet : ∀ task ∈ tasks.set k rest,
      ∃ task' ∈ tasks, task ⊆ task' := by
    intro task hTask
    rcases List.mem_or_eq_of_mem_set hTask with hIn | hNew
    · exact ⟨task, hIn, Set.Subset.rfl⟩
    · exact ⟨old, hOld, hNew ▸ hRest⟩
  refine List.pairwise_append.mpr ⟨hFront, ?_, ?_⟩
  · refine List.pairwise_cons.mpr
      ⟨?_, InLine.set hTasks hAt hRest⟩
    intro task hTask
    rcases hSet task hTask with ⟨task', hTask', hSub⟩
    exact (hClear task' hTask').mono Set.Subset.rfl hSub
  · intro task hTask task' hTask'
    rcases List.mem_cons.mp hTask' with hHead | hTail
    · rw [hHead]
      exact (hBetween task hTask old hOld).mono
        Set.Subset.rfl hFirst
    · rcases hSet task' hTail with ⟨wide, hWide, hSub⟩
      exact (hBetween task hTask wide hWide).mono
        Set.Subset.rfl hSub

end Line

end Precedence
