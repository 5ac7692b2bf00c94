import Mathlib.Data.List.Basic

/-
  A queue whose items are carried out one after the other,
  where the last item that mentions something decides what
  becomes of it.

  What is asked of a queue is that its last item of this kind
  is good, or that there is none and the result is there
  already.

  Main declarations:
    * `LastWriter.Settles`
    * `LastWriter.Settles.snoc`, `LastWriter.Settles.init`
    * `LastWriter.Settles.tail`
-/

namespace LastWriter

section

variable
  {α : Type}
  (mentions good : α → Prop)

/- Once the queue is carried out, the result is there. -/
inductive Settles (done : Prop) : List α → Prop where
| last
    (earlier : List α)
    (item : α)
    (later : List α)
    (hMentions : mentions item)
    (hGood : good item)
    (hLater : ∀ other ∈ later, ¬ mentions other) :
    Settles done (earlier ++ item :: later)
| none
    (items : List α)
    (hNone : ∀ item ∈ items, ¬ mentions item)
    (hDone : done) :
    Settles done items

end

namespace Settles

variable
  {α : Type}
  {mentions good : α → Prop}
  {done done' : Prop}
  {items : List α}
  {item : α}

theorem snoc_of_mentions
    (hMentions : mentions item)
    (hGood : good item) :
    Settles mentions good done (items ++ [item]) :=
  .last items item [] hMentions hGood (by simp)

theorem imp
    (hSettles : Settles mentions good done items)
    (hDone : done → done') :
    Settles mentions good done' items := by
  cases hSettles with
  | last earlier last later hLast hGood hLater =>
      exact .last earlier last later hLast hGood hLater
  | none _ hNone hOld => exact .none _ hNone (hDone hOld)

/- A new item is good if it mentions anything at all. -/
theorem snoc
    (hSettles : Settles mentions good done items)
    (hGood : mentions item → good item) :
    Settles mentions good done (items ++ [item]) := by
  by_cases hMentions : mentions item
  · exact snoc_of_mentions hMentions (hGood hMentions)
  cases hSettles with
  | last earlier last later hLast hLastGood hLater =>
      rw [List.append_assoc, List.cons_append]
      refine .last earlier last (later ++ [item]) hLast
        hLastGood ?_
      intro other hOther
      rcases List.mem_append.mp hOther with hOld | hNew
      · exact hLater other hOld
      · rw [List.mem_singleton.mp hNew]
        exact hMentions
  | none _ hNone hDone =>
      refine .none _ ?_ hDone
      intro other hOther
      rcases List.mem_append.mp hOther with hOld | hNew
      · exact hNone other hOld
      · rw [List.mem_singleton.mp hNew]
        exact hMentions

/- An item that mentions nothing may be taken back. -/
theorem init
    (hSettles : Settles mentions good done (items ++ [item]))
    (hMentions : ¬ mentions item) :
    Settles mentions good done items := by
  generalize hAll : items ++ [item] = all at hSettles
  cases hSettles with
  | last earlier last later hLast hGood hLater =>
      rcases List.eq_nil_or_concat later with
        rfl | ⟨front, back, rfl⟩
      · have hBoth := List.append_inj' hAll rfl
        rw [List.cons.inj hBoth.2 |>.1] at hMentions
        exact absurd hLast hMentions
      · rw [List.concat_eq_append, ← List.cons_append,
          ← List.append_assoc] at hAll
        rw [(List.append_inj' hAll rfl).1]
        refine .last earlier last front hLast hGood ?_
        intro other hOther
        apply hLater
        rw [List.concat_eq_append]
        exact List.mem_append_left _ hOther
  | none _ hNone hDone =>
      refine .none _ ?_ hDone
      intro other hOther
      apply hNone
      rw [← hAll]
      exact List.mem_append_left _ hOther

/- The last item is replaced by one that says more. -/
theorem replace_last
    {item' : α}
    (hSettles : Settles mentions good done (items ++ [item]))
    (hMore : mentions item → mentions item')
    (hGood : mentions item' → good item') :
    Settles mentions good done (items ++ [item']) := by
  by_cases hMentions : mentions item'
  · exact snoc_of_mentions hMentions (hGood hMentions)
  · exact (hSettles.init
      (fun hOld => hMentions (hMore hOld))).snoc hGood

/-
  The first item is carried out: if it mentions nothing it
  keeps the result, and if it is good it brings it about.
-/
theorem tail
    (hSettles : Settles mentions good done (item :: items))
    (hKeeps : ¬ mentions item → done → done')
    (hBrings : mentions item → good item → done') :
    Settles mentions good done' items := by
  generalize hAll : item :: items = all at hSettles
  cases hSettles with
  | last earlier last later hLast hGood hLater =>
      cases earlier with
      | nil =>
          rcases List.cons.inj hAll with ⟨rfl, rfl⟩
          exact .none _ hLater (hBrings hLast hGood)
      | cons first earlier =>
          rcases List.cons.inj hAll with ⟨rfl, rfl⟩
          exact .last earlier last later hLast hGood hLater
  | none _ hNone hDone =>
      subst hAll
      exact .none _
        (fun other hOther =>
          hNone other (List.mem_cons_of_mem _ hOther))
        (hKeeps (hNone item List.mem_cons_self) hDone)

/- Nothing is left to be carried out. -/
theorem done_of_nil
    (hSettles : Settles mentions good done []) :
    done := by
  generalize hAll : ([] : List α) = all at hSettles
  cases hSettles with
  | last earlier last later =>
      simp at hAll
  | none _ _ hDone => exact hDone

end Settles

end LastWriter
