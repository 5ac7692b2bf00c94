import Mathlib.Data.List.Basic
import Mathlib.Data.List.Forall2

/-
  Text cut at a separator: a reader that is fed piece after
  piece, and a stream on which several writers may be at work
  at a time.

  Main declarations:
    * `Lines.scan`, `Lines.scan_append`
    * `Lines.feed`, `Lines.feed_eq_scan_flatten`
    * `Lines.getLines`, `Lines.foldl_splitOn`,
      `Lines.filter_map_splitOn`
    * `Lines.terminate`, `Lines.scan_flatMap_terminate`
    * `Lines.Interleaved`
-/

namespace Lines

variable {α : Type}

------------------------------------------------------------
-- Scanning
------------------------------------------------------------

section Scanning

variable [DecidableEq α]
variable
  (sep : α)

/- The lines that end, and what comes after the last one. -/
def scan : List α → List α → List (List α) × List α
| pending, [] => ([], pending)
| pending, c :: input =>
    if c = sep then
      let later := scan [] input
      (pending :: later.1, later.2)
    else
      scan (pending ++ [c]) input

theorem scan_append
    (pending input later : List α) :
    scan sep pending (input ++ later) =
      ((scan sep pending input).1 ++
          (scan sep (scan sep pending input).2 later).1,
        (scan sep (scan sep pending input).2 later).2) := by
  induction input generalizing pending with
  | nil => rfl
  | cons c input ih =>
      simp only [List.cons_append, scan]
      split
      · rw [ih]
        simp only [List.cons_append]
      · exact ih _

/- Input without a separator only waits. -/
theorem scan_of_notMem
    {input : List α}
    (hSep : sep ∉ input)
    (pending : List α) :
    scan sep pending input = ([], pending ++ input) := by
  induction input generalizing pending with
  | nil => simp [scan]
  | cons c input ih =>
      rw [List.mem_cons, not_or] at hSep
      rw [scan, if_neg (Ne.symm hSep.1), ih hSep.2,
        List.append_assoc]
      rfl

/- No line has a separator in it. -/
theorem notMem_of_mem_scan
    {pending input line : List α}
    (hPending : sep ∉ pending)
    (hLine : line ∈ (scan sep pending input).1) :
    sep ∉ line := by
  induction input generalizing pending with
  | nil => exact absurd hLine List.not_mem_nil
  | cons c input ih =>
      rw [scan] at hLine
      split at hLine
      · rcases List.mem_cons.mp hLine with rfl | hLater
        · exact hPending
        · exact ih List.not_mem_nil hLater
      next hOther =>
        refine ih ?_ hLine
        intro hMem
        rcases List.mem_append.mp hMem with hMem | hMem
        · exact hPending hMem
        · exact hOther (List.mem_singleton.mp hMem).symm

------------------------------------------------------------
-- Feeding
------------------------------------------------------------

/- The input comes in pieces. -/
def feed : List α → List (List α) → List (List α) × List α
| pending, [] => ([], pending)
| pending, chunk :: chunks =>
    let now := scan sep pending chunk
    let later := feed now.2 chunks
    (now.1 ++ later.1, later.2)

/- Where the pieces end does not matter. -/
theorem feed_eq_scan_flatten
    (pending : List α)
    (chunks : List (List α)) :
    feed sep pending chunks =
      scan sep pending chunks.flatten := by
  induction chunks generalizing pending with
  | nil => rfl
  | cons chunk chunks ih =>
      rw [List.flatten_cons, scan_append]
      simp only [feed, ih]

------------------------------------------------------------
-- A Whole Text
------------------------------------------------------------

/- The last line of a text need not end. -/
def getLines (text : List α) : List (List α) :=
  let read := scan sep [] text
  if read.2.isEmpty then
    read.1
  else
    read.1 ++ [read.2]

/- What is read comes from the text. -/
theorem mem_of_mem_scan
    {pending input : List α}
    {line : List α}
    {c : α}
    (hLine : line ∈ (scan sep pending input).1 ++
      [(scan sep pending input).2])
    (hMem : c ∈ line) :
    c ∈ pending ∨ c ∈ input := by
  induction input generalizing pending with
  | nil =>
      rw [List.mem_singleton.mp hLine] at hMem
      exact Or.inl hMem
  | cons d input ih =>
      rw [scan] at hLine
      split at hLine
      · rcases List.mem_cons.mp hLine with rfl | hLater
        · exact Or.inl hMem
        · rcases ih hLater with hNil | hInput
          · exact absurd hNil List.not_mem_nil
          · exact Or.inr (List.mem_cons_of_mem d hInput)
      · rcases ih hLine with hPending | hInput
        · rcases List.mem_append.mp hPending with hMem | hMem
          · exact Or.inl hMem
          · rw [List.mem_singleton.mp hMem]
            exact Or.inr List.mem_cons_self
        · exact Or.inr (List.mem_cons_of_mem d hInput)

theorem mem_of_mem_getLines
    {text line : List α}
    {c : α}
    (hLine : line ∈ getLines sep text)
    (hMem : c ∈ line) :
    c ∈ text := by
  have hRead : line ∈ (scan sep [] text).1 ++
      [(scan sep [] text).2] := by
    rw [getLines] at hLine
    split at hLine
    · exact List.mem_append_left _ hLine
    · exact hLine
  rcases mem_of_mem_scan sep hRead hMem with hNil | hText
  · exact absurd hNil List.not_mem_nil
  · exact hText

theorem splitOn_eq_scan
    (pending text : List α)
    (hPending : sep ∉ pending) :
    (pending ++ text).splitOn sep =
      (scan sep pending text).1 ++
        [(scan sep pending text).2] := by
  induction text generalizing pending with
  | nil =>
      rw [List.append_nil, List.splitOn_eq_singleton hPending]
      rfl
  | cons c text ih =>
      rw [scan]
      split
      next hSep =>
        rw [hSep, List.splitOn_append_cons_self_of_not_mem
          hPending]
        exact congrArg _ (ih [] List.not_mem_nil)
      next hOther =>
        rw [List.append_cons]
        apply ih
        intro hMem
        rcases List.mem_append.mp hMem with hMem | hMem
        · exact hPending hMem
        · exact hOther (List.mem_singleton.mp hMem).symm

/-
  Who passes over an empty line need not know whether the
  last line ends.
-/
theorem foldl_splitOn
    {σ : Type}
    {f : σ → List α → σ}
    (hNil : ∀ s, f s [] = s)
    (s : σ)
    (text : List α) :
    (text.splitOn sep).foldl f s =
      (getLines sep text).foldl f s := by
  have hSplit := splitOn_eq_scan sep [] text
    List.not_mem_nil
  rw [List.nil_append] at hSplit
  rw [hSplit, getLines]
  split
  next hEmpty =>
    rw [List.isEmpty_iff.mp hEmpty, List.foldl_append]
    exact hNil _
  next => rfl

/- Nor who drops what an empty line is read as. -/
theorem filter_map_splitOn
    {β : Type}
    {f : List α → β}
    {p : β → Bool}
    (hNil : p (f []) = false)
    (text : List α) :
    ((text.splitOn sep).map f).filter p =
      ((getLines sep text).map f).filter p := by
  have hSplit := splitOn_eq_scan sep [] text
    List.not_mem_nil
  rw [List.nil_append] at hSplit
  rw [hSplit, getLines]
  split
  next hEmpty =>
    rw [List.isEmpty_iff.mp hEmpty, List.map_append,
      List.filter_append, List.map_singleton,
      List.filter_cons_of_neg (by simp [hNil]),
      List.filter_nil, List.append_nil]
  next => rfl

------------------------------------------------------------
-- Lines That Are Written
------------------------------------------------------------

def terminate (line : List α) : List α :=
  line ++ [sep]

theorem scan_terminate
    {line : List α}
    (hLine : sep ∉ line)
    (input : List α) :
    scan sep [] (terminate sep line ++ input) =
      (line :: (scan sep [] input).1,
        (scan sep [] input).2) := by
  rw [terminate, List.append_assoc, scan_append,
    scan_of_notMem sep hLine]
  simp only [List.nil_append, List.cons_append, scan,
    if_true]

theorem scan_flatMap_terminate
    {lines : List (List α)}
    (hLines : ∀ line ∈ lines, sep ∉ line)
    (input : List α) :
    scan sep []
        (lines.flatMap (terminate sep) ++ input) =
      (lines ++ (scan sep [] input).1,
        (scan sep [] input).2) := by
  induction lines with
  | nil => rfl
  | cons line lines ih =>
      rw [List.flatMap_cons, List.append_assoc,
        scan_terminate sep (hLines line List.mem_cons_self),
        ih (fun line' hMem =>
          hLines line' (List.mem_cons_of_mem line hMem))]
      simp only [List.cons_append]

end Scanning

------------------------------------------------------------
-- Writes That Overlap
------------------------------------------------------------

/-
  A stream that several writes under way can put together:
  any of them may come next.
-/
inductive Interleaved : List (List α) → List α → Prop where
| done
    {writes : List (List α)}
    (hDone : ∀ write ∈ writes, write = []) :
    Interleaved writes []
| next
    {before later : List (List α)}
    {c : α}
    {write stream : List α}
    (hRest : Interleaved (before ++ write :: later) stream) :
    Interleaved (before ++ (c :: write) :: later)
      (c :: stream)

namespace Interleaved

/- One write may go on for a while. -/
theorem advance
    {before later : List (List α)}
    {write stream : List α}
    (part : List α)
    (hRest : Interleaved (before ++ write :: later) stream) :
    Interleaved (before ++ (part ++ write) :: later)
      (part ++ stream) := by
  induction part with
  | nil => exact hRest
  | cons c part ih => exact next ih

/- The writes may come one after the other. -/
theorem inOrder
    (ended : List (List α))
    (hEnded : ∀ write ∈ ended, write = [])
    (writes : List (List α)) :
    Interleaved (ended ++ writes) writes.flatten := by
  induction writes generalizing ended with
  | nil =>
      rw [List.append_nil]
      exact done hEnded
  | cons write writes ih =>
      have hWrite := ih (ended ++ [[]]) (by
        intro other hOther
        rcases List.mem_append.mp hOther with hMem | hMem
        · exact hEnded other hMem
        · exact List.mem_singleton.mp hMem)
      rw [List.append_assoc] at hWrite
      have hAll := advance write hWrite
      rw [List.append_nil] at hAll
      exact hAll

/- A write may come behind the first item of another. -/
theorem overtake
    (c : α)
    (first second : List α)
    (writes : List (List α)) :
    Interleaved ((c :: first) :: second :: writes)
      (c :: (second ++ (first ++ writes.flatten))) := by
  have hEnded := inOrder [[], []] (by simp) writes
  have hFirst : Interleaved ([] ++ (first ++ []) ::
      ([] :: writes)) (first ++ writes.flatten) :=
    advance first hEnded
  have hSecond : Interleaved ([first] ++ (second ++ []) ::
      writes) (second ++ (first ++ writes.flatten)) := by
    apply advance second
    rw [List.append_nil] at hFirst
    exact hFirst
  rw [List.append_nil] at hSecond
  have hLast : Interleaved ([] ++ first :: (second :: writes))
      (second ++ (first ++ writes.flatten)) := hSecond
  exact next hLast

/- A write that is alone is not disturbed. -/
theorem eq_flatten_of_alone
    {writes : List (List α)}
    {stream : List α}
    (hAlone : writes.length ≤ 1)
    (hStream : Interleaved writes stream) :
    stream = writes.flatten := by
  induction hStream with
  | done hDone =>
      exact (List.flatten_eq_nil_iff.mpr hDone).symm
  | @next before later c write stream _ ih =>
      rw [List.length_append, List.length_cons] at hAlone
      have hBefore : before = [] :=
        List.length_eq_zero_iff.mp (by omega)
      have hLater : later = [] :=
        List.length_eq_zero_iff.mp (by omega)
      subst hBefore hLater
      rw [ih (Nat.le_refl 1)]
      rfl

end Interleaved

end Lines
