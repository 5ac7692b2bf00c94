import Mathlib.Data.List.Basic
import Mathlib.Data.List.Pairwise
import Mathlib.Data.List.TakeWhile

/-
  A record filled in from an input, one field after another.

  An entry reads the input and finds a value for its place
  in the record, finds nothing, or fails.  A run of entries
  stops at the first that fails; what the ones before it
  have filled in stays.

  Main declarations:
    * `Place`, `Place.comp`, `Place.Apart`
    * `Entry`, `Entry.within`, `assignAll`
    * `get_assignAll`, `assignAll_keeps_iff`
-/

------------------------------------------------------------
-- Places
------------------------------------------------------------

/- A part of a state that can be read and replaced. -/
structure Place (σ α : Type) where
  get : σ → α
  set : σ → α → σ
  get_set : ∀ s a, get (set s a) = a := by intros; rfl
  set_get : ∀ s, set s (get s) = s := by intros; rfl

namespace Place

variable {σ τ α β : Type}

/- A part of a part. -/
def comp
    (outer : Place σ τ)
    (inner : Place τ α) : Place σ α where
  get s := inner.get (outer.get s)
  set s a := outer.set s (inner.set (outer.get s) a)
  get_set s a := by
    rw [outer.get_set, inner.get_set]
  set_get s := by
    rw [inner.set_get, outer.set_get]

/- What is written at one place is not seen at the other. -/
def Apart
    (p : Place σ α)
    (q : Place σ β) : Prop :=
  (∀ s a, q.get (p.set s a) = q.get s) ∧
    ∀ s b, p.get (q.set s b) = p.get s

theorem Apart.symm
    {p : Place σ α}
    {q : Place σ β}
    (hApart : p.Apart q) :
    q.Apart p :=
  ⟨hApart.2, hApart.1⟩

/- Part of a place that is apart is apart. -/
theorem Apart.comp_left
    {p : Place σ α}
    {q : Place σ β}
    (hApart : p.Apart q)
    {γ : Type}
    (i : Place α γ) :
    (p.comp i).Apart q := by
  refine ⟨fun s a => hApart.1 s _, fun s b => ?_⟩
  exact congrArg i.get (hApart.2 s b)

/- Inside one place, parts that are apart stay apart. -/
theorem Apart.within
    {i : Place τ α}
    {j : Place τ β}
    (hApart : i.Apart j)
    (outer : Place σ τ) :
    (outer.comp i).Apart (outer.comp j) := by
  refine ⟨fun s a => ?_, fun s b => ?_⟩
  · simp only [Place.comp, outer.get_set]
    exact hApart.1 _ a
  · simp only [Place.comp, outer.get_set]
    exact hApart.2 _ b

end Place

------------------------------------------------------------
-- Entries
------------------------------------------------------------

/-
  How one place is filled in.  Reading gives `none` when it
  fails and `some none` when the input has nothing for the
  place.
-/
structure Entry (ι σ : Type) where
  Value : Type
  place : Place σ Value
  read : ι → Option (Option Value)

namespace Entry

variable {ι κ σ τ : Type}

/- The state after the entry, unless it fails. -/
def apply
    (e : Entry ι σ)
    (input : ι)
    (s : σ) : Option σ :=
  (e.read input).map (fun found =>
    found.elim s (e.place.set s))

/- The same entry for a part of the input and the state. -/
def within
    (part : κ → Option ι)
    (outer : Place σ τ)
    (e : Entry ι τ) : Entry κ σ where
  Value := e.Value
  place := outer.comp e.place
  read input := (part input).elim (some none) e.read

/- If the entry finds a value, the state has it already. -/
def Keeps
    (e : Entry ι σ)
    (input : ι)
    (s : σ) : Prop :=
  ∀ value, e.read input = some (some value) →
    e.place.get s = value

/- The entry finds the value that the state has. -/
def Finds
    (e : Entry ι σ)
    (input : ι)
    (s : σ) : Prop :=
  e.read input = some (some (e.place.get s))

theorem apply_eq_of_keeps
    {e : Entry ι σ}
    {input : ι}
    {s s' : σ}
    (hKeeps : e.Keeps input s)
    (hApply : e.apply input s = some s') :
    s' = s := by
  unfold apply at hApply
  cases hRead : e.read input with
  | none => simp [hRead] at hApply
  | some found =>
      rw [hRead] at hApply
      cases found with
      | none => exact (Option.some.inj hApply).symm
      | some value =>
          have hSet : e.place.set s value = s' :=
            Option.some.inj hApply
          rw [← hSet, ← hKeeps value hRead, e.place.set_get]

theorem get_apply_of_apart
    {e : Entry ι σ}
    {input : ι}
    {s s' : σ}
    {α : Type}
    {q : Place σ α}
    (hApart : e.place.Apart q)
    (hApply : e.apply input s = some s') :
    q.get s' = q.get s := by
  unfold apply at hApply
  cases hRead : e.read input with
  | none => simp [hRead] at hApply
  | some found =>
      rw [hRead] at hApply
      cases found with
      | none => rw [← Option.some.inj hApply]; rfl
      | some value =>
          rw [← Option.some.inj hApply]
          exact hApart.1 s value

end Entry

------------------------------------------------------------
-- Runs
------------------------------------------------------------

section Runs

variable {ι σ : Type}

/- The flag tells whether no entry failed. -/
def assignAll
    (entries : List (Entry ι σ))
    (input : ι)
    (s : σ) : σ × Bool :=
  match entries with
  | [] => (s, true)
  | e :: rest =>
      match e.apply input s with
      | none => (s, false)
      | some s' => assignAll rest input s'

/- The entries before the first that fails. -/
def reached
    (entries : List (Entry ι σ))
    (input : ι) : List (Entry ι σ) :=
  entries.takeWhile (fun e => (e.read input).isSome)

/- Each place is apart from the ones after it. -/
def Separate (entries : List (Entry ι σ)) : Prop :=
  entries.Pairwise (fun e e' => e.place.Apart e'.place)

variable
  {entries : List (Entry ι σ)}
  {input : ι}

theorem assignAll_completes
    (hReads : ∀ e ∈ entries, (e.read input).isSome = true)
    (s : σ) :
    (assignAll entries input s).2 = true := by
  induction entries generalizing s with
  | nil => rfl
  | cons e rest ih =>
      rw [List.forall_mem_cons] at hReads
      rcases Option.isSome_iff_exists.mp hReads.1 with
        ⟨found, hFound⟩
      simp only [assignAll, Entry.apply, hFound,
        Option.map_some]
      exact ih hReads.2 _

/- A run that fails somewhere says so. -/
theorem assignAll_fails
    {e : Entry ι σ}
    (hMem : e ∈ entries)
    (hFails : e.read input = none)
    (s : σ) :
    (assignAll entries input s).2 = false := by
  induction entries generalizing s with
  | nil => cases hMem
  | cons first rest ih =>
      unfold assignAll
      split
      next => rfl
      next s' hApply =>
        refine ih ((List.mem_cons.mp hMem).resolve_left ?_) s'
        rintro rfl
        simp [Entry.apply, hFails] at hApply

/- A place that no entry is about is left alone. -/
theorem get_assignAll_of_apart
    {α : Type}
    {q : Place σ α}
    (hApart : ∀ e ∈ entries, e.place.Apart q)
    (s : σ) :
    q.get (assignAll entries input s).1 = q.get s := by
  induction entries generalizing s with
  | nil => rfl
  | cons e rest ih =>
      rw [List.forall_mem_cons] at hApart
      unfold assignAll
      split
      next => rfl
      next s' hApply =>
        rw [ih hApart.2,
          Entry.get_apply_of_apart hApart.1 hApply]

/- Entries that find what is there already change nothing. -/
theorem assignAll_of_keeps
    {s : σ}
    (hKeeps : ∀ e ∈ reached entries input,
      e.Keeps input s) :
    (assignAll entries input s).1 = s := by
  induction entries with
  | nil => rfl
  | cons e rest ih =>
      unfold assignAll
      split
      next => rfl
      next s' hApply =>
        have hSome : (e.read input).isSome = true := by
          cases hRead : e.read input with
          | none => simp [Entry.apply, hRead] at hApply
          | some found => rfl
        rw [reached, List.takeWhile_cons, if_pos hSome,
          List.forall_mem_cons] at hKeeps
        rw [Entry.apply_eq_of_keeps hKeeps.1 hApply]
        exact ih hKeeps.2

/- A place has the value that its entry has found. -/
theorem get_assignAll
    (hSeparate : Separate entries)
    {e : Entry ι σ}
    (hReached : e ∈ reached entries input)
    {value : e.Value}
    (hRead : e.read input = some (some value))
    (s : σ) :
    e.place.get (assignAll entries input s).1 = value := by
  induction entries generalizing s with
  | nil => cases hReached
  | cons first rest ih =>
      rw [Separate, List.pairwise_cons] at hSeparate
      rw [reached, List.takeWhile_cons] at hReached
      split at hReached
      next hSome =>
        rcases Option.isSome_iff_exists.mp hSome with
          ⟨found, hFound⟩
        have hApply : first.apply input s =
            some (found.elim s (first.place.set s)) := by
          rw [Entry.apply, hFound, Option.map_some]
        rw [assignAll, hApply]
        rcases List.mem_cons.mp hReached with rfl | hRest
        · rw [hRead] at hFound
          cases hFound
          rw [get_assignAll_of_apart (fun later hLater =>
            (hSeparate.1 later hLater).symm)]
          exact e.place.get_set s value
        · exact ih hSeparate.2 hRest _
      next => cases hReached

/-
  After a run, stopped or not, every place has what it had
  exactly when each value found before the failure was the
  one already there.
-/
theorem assignAll_keeps_iff
    (input : ι)
    (hSeparate : Separate entries)
    (s : σ) :
    (∀ e ∈ entries,
      e.place.get (assignAll entries input s).1 =
        e.place.get s) ↔
      ∀ e ∈ reached entries input, e.Keeps input s := by
  constructor
  · intro hSame e hReached value hRead
    rw [← hSame e
      ((List.takeWhile_sublist _).subset hReached)]
    exact get_assignAll hSeparate hReached hRead s
  · intro hKeeps e _
    rw [assignAll_of_keeps hKeeps]

/- When every entry finds a value, all of them are filled. -/
theorem get_assignAll_of_finds
    (hSeparate : Separate entries)
    {t : σ}
    (hFinds : ∀ e ∈ entries, e.Finds input t)
    (s : σ) :
    (assignAll entries input s).2 = true ∧
      ∀ e ∈ entries,
        e.place.get (assignAll entries input s).1 =
          e.place.get t := by
  have hSome : ∀ e ∈ entries,
      (e.read input).isSome = true := by
    intro e hMem
    rw [hFinds e hMem]
    rfl
  refine ⟨assignAll_completes hSome s, ?_⟩
  intro e hMem
  have hAll : reached entries input = entries :=
    List.takeWhile_eq_self_iff.mpr hSome
  have hReached : e ∈ reached entries input := by
    rw [hAll]
    exact hMem
  exact get_assignAll hSeparate hReached (hFinds e hMem) s

end Runs
