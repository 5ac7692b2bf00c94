import Mathlib.Computability.Language
import Mathlib.Data.List.Forall2

/-
  Patterns that are a sequence of pieces: letters, each of
  them one symbol out of a set, and gaps, which may be empty.

  The shortest words of a pattern have one symbol for every
  letter, so they show what each letter stands for.

  Main declarations:
    * `Piece`, `Piece.language`, `Pieces.language`
    * `Pieces.length_letters_le`, `Pieces.mem_of_length_eq`
    * `Pieces.letters_agree_or_barren`
    * `Pieces.language_congr`
    * `Pieces.count_le_of_mem`
-/

------------------------------------------------------------
-- Pieces
------------------------------------------------------------

inductive Piece (α : Type) where
| letter : (α → Bool) → Piece α
| gap : (words : Language α) → [] ∈ words → Piece α

namespace Piece

variable {α : Type}

def language : Piece α → Language α
| letter p => { word | ∃ c, p c = true ∧ word = [c] }
| gap words _ => words

def letter? : Piece α → Option (α → Bool)
| letter p => some p
| gap _ _ => none

end Piece

namespace Pieces

variable {α : Type}

def language (pieces : List (Piece α)) : Language α :=
  (pieces.map Piece.language).prod

def letters (pieces : List (Piece α)) : List (α → Bool) :=
  pieces.filterMap Piece.letter?

/- Every symbol of the word is one of those in its place. -/
def Pointwise
    (sets : List (α → Bool))
    (word : List α) : Prop :=
  List.Forall₂ (fun p c => p c = true) sets word

section Members

variable
  {piece : Piece α}
  {pieces : List (Piece α)}
  {word : List α}

@[simp] theorem mem_language_nil_iff :
    word ∈ language ([] : List (Piece α)) ↔ word = [] := by
  simp [language]

theorem mem_language_cons_iff :
    word ∈ language (piece :: pieces) ↔
      ∃ left ∈ piece.language, ∃ right ∈ language pieces,
        left ++ right = word := by
  rw [language, List.map_cons, List.prod_cons]
  exact Language.mem_mul

theorem mem_language_append
    {more : List (Piece α)}
    {left right : List α}
    (hLeft : left ∈ language pieces)
    (hRight : right ∈ language more) :
    left ++ right ∈ language (pieces ++ more) := by
  rw [language, List.map_append, List.prod_append]
  exact Language.append_mem_mul hLeft hRight

/- Nothing is shorter than one symbol a letter. -/
theorem length_letters_le
    (hWord : word ∈ language pieces) :
    (letters pieces).length ≤ word.length := by
  induction pieces generalizing word with
  | nil => simp [letters]
  | cons piece pieces ih =>
      rcases mem_language_cons_iff.mp hWord with
        ⟨left, hLeft, right, hRight, rfl⟩
      have hRest := ih hRight
      rw [List.length_append]
      cases piece with
      | letter p =>
          rcases hLeft with ⟨c, _, rfl⟩
          change (letters pieces).length + 1 ≤ _
          rw [List.length_singleton]
          omega
      | gap words hNil =>
          change (letters pieces).length ≤ _
          omega

/- The words of that length leave the gaps empty. -/
theorem mem_of_length_eq
    (hLength : word.length = (letters pieces).length) :
    word ∈ language pieces ↔
      Pointwise (letters pieces) word := by
  induction pieces generalizing word with
  | nil =>
      rw [mem_language_nil_iff]
      constructor
      · rintro rfl
        exact List.Forall₂.nil
      · intro hNone
        cases hNone
        rfl
  | cons piece pieces ih =>
      rw [mem_language_cons_iff]
      cases piece with
      | letter p =>
          change word.length = (letters pieces).length + 1
            at hLength
          change _ ↔ Pointwise (p :: letters pieces) word
          constructor
          · rintro ⟨left, ⟨c, hLetter, rfl⟩, right, hRight,
              rfl⟩
            refine List.Forall₂.cons hLetter
              ((ih ?_).mp hRight)
            simpa using hLength
          · intro hWord
            cases hWord with
            | cons hLetter hRest =>
                rename_i c right
                refine ⟨[c], ⟨c, hLetter, rfl⟩, right,
                  (ih ?_).mpr hRest, rfl⟩
                simpa using hLength
      | gap words hNil =>
          change word.length = (letters pieces).length
            at hLength
          change _ ↔ Pointwise (letters pieces) word
          rw [← ih hLength]
          constructor
          · rintro ⟨left, _, right, hRight, rfl⟩
            have hShort := length_letters_le hRight
            rw [List.length_append] at hLength
            have hEmpty : left = [] :=
              List.length_eq_zero_iff.mp (by omega)
            rw [hEmpty]
            exact hRight
          · exact fun hWord => ⟨[], hNil, word, hWord, rfl⟩

end Members

------------------------------------------------------------
-- Comparing Patterns
------------------------------------------------------------

section Agreement

variable
  {inside : α → Prop}
  {sets sets' : List (α → Bool)}

/- A place that no symbol fits. -/
def Barren
    (inside : α → Prop)
    (sets : List (α → Bool)) : Prop :=
  ∃ p ∈ sets, ∀ c, inside c → p c = false

/- Without such a place there is a word. -/
theorem exists_pointwise
    (hFertile : ¬ Barren inside sets) :
    ∃ word, (∀ c ∈ word, inside c) ∧
      Pointwise sets word := by
  induction sets with
  | nil => exact ⟨[], by simp, List.Forall₂.nil⟩
  | cons p sets ih =>
      have hHere : ∃ c, inside c ∧ p c = true := by
        by_contra hNone
        refine hFertile ⟨p, List.mem_cons_self, ?_⟩
        intro c hInside
        rw [← Bool.not_eq_true]
        exact fun hLetter => hNone ⟨c, hInside, hLetter⟩
      have hThere : ¬ Barren inside sets := by
        rintro ⟨p', hMem, hEmpty⟩
        exact hFertile ⟨p', List.mem_cons_of_mem _ hMem,
          hEmpty⟩
      rcases hHere with ⟨c, hInside, hLetter⟩
      rcases ih hThere with ⟨word, hWord, hPointwise⟩
      refine ⟨c :: word, ?_,
        List.Forall₂.cons hLetter hPointwise⟩
      intro d hMem
      rcases List.mem_cons.mp hMem with rfl | hRest
      · exact hInside
      · exact hWord d hRest

theorem not_barren_of_pointwise
    {word : List α}
    (hInside : ∀ c ∈ word, inside c)
    (hWord : Pointwise sets word) :
    ¬ Barren inside sets := by
  rintro ⟨p, hMem, hEmpty⟩
  induction hWord with
  | nil => cases hMem
  | cons hLetter hRest ih =>
      rename_i c word
      rcases List.mem_cons.mp hMem with rfl | hLater
      · rw [hEmpty _ (hInside _ List.mem_cons_self)]
          at hLetter
        cases hLetter
      · exact ih (fun d hD =>
          hInside d (List.mem_cons_of_mem _ hD)) hLater

/- The sets are the same, as far as the symbols go. -/
def SameSets
    (inside : α → Prop)
    (sets sets' : List (α → Bool)) : Prop :=
  List.Forall₂ (fun p p' => ∀ c, inside c → p c = p' c)
    sets sets'

@[simp] theorem pointwise_cons_iff
    {p : α → Bool}
    {c : α}
    {word : List α} :
    Pointwise (p :: sets) (c :: word) ↔
      p c = true ∧ Pointwise sets word :=
  List.forall₂_cons

/- One word fixes all places but one. -/
theorem sameSets_of_fertile
    (hLength : sets.length = sets'.length)
    (hSame : ∀ word, (∀ c ∈ word, inside c) →
      word.length = sets.length →
        (Pointwise sets word ↔ Pointwise sets' word))
    (hFertile : ¬ Barren inside sets) :
    SameSets inside sets sets' := by
  induction sets generalizing sets' with
  | nil =>
      cases sets' with
      | nil => exact List.Forall₂.nil
      | cons p' sets' => cases hLength
  | cons p sets ih =>
      cases sets' with
      | nil => cases hLength
      | cons p' sets' =>
          rcases exists_pointwise hFertile with
            ⟨word, hInside, hWord⟩
          cases hWord with
          | cons hFirst hRest =>
              rename_i first rest
              have hFirstIn := hInside first List.mem_cons_self
              have hRestIn : ∀ c ∈ rest, inside c :=
                fun c hMem =>
                  hInside c (List.mem_cons_of_mem _ hMem)
              have hCons : ∀ c word, inside c →
                  (∀ d ∈ word, inside d) →
                  word.length = sets.length →
                    (p c = true ∧ Pointwise sets word ↔
                      p' c = true ∧
                        Pointwise sets' word) := by
                intro c word hC hW hLong
                rw [← pointwise_cons_iff,
                  ← pointwise_cons_iff]
                apply hSame
                · intro d hMem
                  rcases List.mem_cons.mp hMem with
                    rfl | hLater
                  · exact hC
                  · exact hW d hLater
                · simp [hLong]
              have hRestWord : Pointwise sets rest := hRest
              have hRestLength : rest.length = sets.length :=
                hRest.length_eq.symm
              have hOther := (hCons first rest hFirstIn hRestIn
                hRestLength).mp ⟨hFirst, hRest⟩
              refine List.Forall₂.cons ?_ (ih ?_ ?_ ?_)
              · intro c hC
                rw [Bool.eq_iff_iff]
                have hHere :=
                  hCons c rest hC hRestIn hRestLength
                simpa [hRestWord, hOther.2] using hHere
              · simpa using hLength
              · intro word hW hLong
                have hThere :=
                  hCons first word hFirstIn hW hLong
                simpa [hFirst, hOther.1] using hThere
              · rintro ⟨q, hMem, hEmpty⟩
                exact hFertile
                  ⟨q, List.mem_cons_of_mem _ hMem, hEmpty⟩

/-
  Equal products of sets have equal factors, unless there is
  an empty one in both.
-/
theorem sameSets_or_barren
    (hLength : sets.length = sets'.length)
    (hSame : ∀ word, (∀ c ∈ word, inside c) →
      word.length = sets.length →
        (Pointwise sets word ↔ Pointwise sets' word)) :
    SameSets inside sets sets' ∨
      Barren inside sets ∧ Barren inside sets' := by
  by_cases hBarren : Barren inside sets
  · right
    refine ⟨hBarren, ?_⟩
    by_contra hFertile
    rcases exists_pointwise hFertile with
      ⟨word, hInside, hWord⟩
    have hLong := hWord.length_eq
    exact not_barren_of_pointwise hInside
      ((hSame word hInside (by omega)).mpr hWord) hBarren
  · exact Or.inl (sameSets_of_fertile hLength hSame hBarren)

/- With such a place a pattern has no word at all. -/
theorem not_mem_of_barren
    {pieces : List (Piece α)}
    {word : List α}
    (hInside : ∀ c ∈ word, inside c)
    (hBarren : Barren inside (letters pieces)) :
    word ∉ language pieces := by
  induction pieces generalizing word with
  | nil =>
      rcases hBarren with ⟨p, hMem, _⟩
      cases hMem
  | cons piece pieces ih =>
      intro hWord
      rcases mem_language_cons_iff.mp hWord with
        ⟨left, hLeft, right, hRight, rfl⟩
      have hRightIn : ∀ c ∈ right, inside c := fun c hMem =>
        hInside c (List.mem_append_right _ hMem)
      cases piece with
      | letter p =>
          rcases hBarren with ⟨p', hMem, hEmpty⟩
          change p' ∈ p :: letters pieces at hMem
          rcases List.mem_cons.mp hMem with rfl | hLater
          · rcases hLeft with ⟨c, hLetter, rfl⟩
            rw [hEmpty c (hInside c (by simp))] at hLetter
            cases hLetter
          · exact ih hRightIn ⟨p', hLater, hEmpty⟩ hRight
      | gap words hNil => exact ih hRightIn hBarren hRight

theorem barren_of_subset
    {part pieces : List (Piece α)}
    (hPart : part ⊆ pieces)
    (hBarren : Barren inside (letters part)) :
    Barren inside (letters pieces) := by
  rcases hBarren with ⟨p, hP, hEmpty⟩
  exact ⟨p, List.filterMap_subset _ hPart hP, hEmpty⟩

theorem exists_mem_of_fertile
    {pieces : List (Piece α)}
    (hFertile : ¬ Barren inside (letters pieces)) :
    ∃ word, (∀ c ∈ word, inside c) ∧
      word ∈ language pieces := by
  rcases exists_pointwise hFertile with
    ⟨word, hInside, hWord⟩
  exact ⟨word, hInside,
    (mem_of_length_eq hWord.length_eq.symm).mpr hWord⟩

/- Without one, each word of a piece is part of a word. -/
theorem exists_mem_around
    {pieces : List (Piece α)}
    (hFertile : ¬ Barren inside (letters pieces))
    {piece : Piece α}
    (hMem : piece ∈ pieces)
    {word : List α}
    (hWord : word ∈ piece.language) :
    ∃ left right, (∀ c ∈ left ++ right, inside c) ∧
      left ++ (word ++ right) ∈ language pieces := by
  rcases List.append_of_mem hMem with ⟨before, after, rfl⟩
  have hBefore : ¬ Barren inside (letters before) :=
    fun hBarren => hFertile (barren_of_subset
      (List.subset_append_left _ _) hBarren)
  have hAfter : ¬ Barren inside (letters after) :=
    fun hBarren => hFertile (barren_of_subset
      (fun _ hIn => List.mem_append_right _
        (List.mem_cons_of_mem _ hIn)) hBarren)
  rcases exists_mem_of_fertile hBefore with
    ⟨left, hLeftIn, hLeft⟩
  rcases exists_mem_of_fertile hAfter with
    ⟨right, hRightIn, hRight⟩
  refine ⟨left, right, ?_, ?_⟩
  · intro c hC
    rcases List.mem_append.mp hC with hL | hR
    · exact hLeftIn c hL
    · exact hRightIn c hR
  · exact mem_language_append hLeft
      (mem_language_cons_iff.mpr
        ⟨word, hWord, right, hRight, rfl⟩)

/-
  Two patterns with as many letters that have the same words
  have the same letters, or both have one that nothing fits.
-/
theorem letters_agree_or_barren
    {pieces pieces' : List (Piece α)}
    (hLength :
      (letters pieces).length = (letters pieces').length)
    (hSame : ∀ word, (∀ c ∈ word, inside c) →
      (word ∈ language pieces ↔ word ∈ language pieces')) :
    SameSets inside (letters pieces) (letters pieces') ∨
      Barren inside (letters pieces) ∧
        Barren inside (letters pieces') := by
  apply sameSets_or_barren hLength
  intro word hInside hLong
  rw [← mem_of_length_eq hLong,
    ← mem_of_length_eq (hLong.trans hLength)]
  exact hSame word hInside

/- Pieces that agree one by one make the same pattern. -/
theorem language_congr
    {pieces pieces' : List (Piece α)}
    (hPieces : List.Forall₂ (fun piece piece' =>
      ∀ word, (∀ c ∈ word, inside c) →
        (word ∈ piece.language ↔ word ∈ piece'.language))
      pieces pieces')
    {word : List α}
    (hInside : ∀ c ∈ word, inside c) :
    word ∈ language pieces ↔ word ∈ language pieces' := by
  induction hPieces generalizing word with
  | nil => exact Iff.rfl
  | cons hHead hTail ih =>
      rw [mem_language_cons_iff, mem_language_cons_iff]
      constructor
      · rintro ⟨left, hLeft, right, hRight, rfl⟩
        have hLeftIn : ∀ c ∈ left, inside c := fun c hMem =>
          hInside c (List.mem_append_left _ hMem)
        have hRightIn : ∀ c ∈ right, inside c := fun c hMem =>
          hInside c (List.mem_append_right _ hMem)
        exact ⟨left, (hHead left hLeftIn).mp hLeft, right,
          (ih hRightIn).mp hRight, rfl⟩
      · rintro ⟨left, hLeft, right, hRight, rfl⟩
        have hLeftIn : ∀ c ∈ left, inside c := fun c hMem =>
          hInside c (List.mem_append_left _ hMem)
        have hRightIn : ∀ c ∈ right, inside c := fun c hMem =>
          hInside c (List.mem_append_right _ hMem)
        exact ⟨left, (hHead left hLeftIn).mpr hLeft, right,
          (ih hRightIn).mpr hRight, rfl⟩

end Agreement

------------------------------------------------------------
-- Counting A Pair Of Symbols
------------------------------------------------------------

section Pairs

variable [DecidableEq α]

/- How often the second symbol follows the first at once. -/
def count
    (x y : α) : List α → ℕ
| [] => 0
| [_] => 0
| c :: d :: word =>
    (if c = x ∧ d = y then 1 else 0) + count x y (d :: word)

theorem count_eq_zero_of_not_mem
    {x y : α}
    {word : List α}
    (hNot : x ∉ word ∨ y ∉ word) :
    count x y word = 0 := by
  induction word with
  | nil => rfl
  | cons c word ih =>
      have hRest : count x y word = 0 := ih (hNot.imp
        (fun hX hMem => hX (List.mem_cons_of_mem _ hMem))
        (fun hY hMem => hY (List.mem_cons_of_mem _ hMem)))
      cases word with
      | nil => rfl
      | cons d word =>
          rw [count, hRest, if_neg]
          rintro ⟨rfl, rfl⟩
          rcases hNot with hX | hY
          · exact hX List.mem_cons_self
          · exact hY
              (List.mem_cons_of_mem _ List.mem_cons_self)

theorem count_append_le
    (x y : α)
    (left right : List α) :
    count x y (left ++ right) ≤
      count x y left + count x y right + 1 := by
  induction left with
  | nil => simp [count]
  | cons c left ih =>
      cases left with
      | nil =>
          cases right with
          | nil => simp [count]
          | cons d right =>
              simp only [List.singleton_append, count]
              split <;> omega
      | cons d left =>
          simp only [List.cons_append, count] at ih ⊢
          omega

/- Pieces without the pair have it at their borders only. -/
theorem count_le_of_mem
    {x y : α}
    {pieces : List (Piece α)}
    (hNone : ∀ piece ∈ pieces,
      ∀ word ∈ piece.language, count x y word = 0)
    {word : List α}
    (hWord : word ∈ language pieces) :
    count x y word ≤ pieces.length := by
  induction pieces generalizing word with
  | nil =>
      rw [mem_language_nil_iff] at hWord
      simp [hWord, count]
  | cons piece pieces ih =>
      rcases mem_language_cons_iff.mp hWord with
        ⟨left, hLeft, right, hRight, rfl⟩
      have hBorder := count_append_le x y left right
      have hHere := hNone piece List.mem_cons_self left hLeft
      have hThere := ih (fun other hMem =>
        hNone other (List.mem_cons_of_mem _ hMem)) hRight
      rw [List.length_cons]
      omega

/- The pair written again and again. -/
def pairs
    (x y : α) : ℕ → List α
| 0 => []
| k + 1 => x :: y :: pairs x y k

omit [DecidableEq α] in
theorem eq_or_eq_of_mem_pairs
    {x y c : α}
    {k : ℕ}
    (hMem : c ∈ pairs x y k) :
    c = x ∨ c = y := by
  induction k with
  | zero => cases hMem
  | succ k ih =>
      rcases List.mem_cons.mp hMem with hFirst | hRest
      · exact Or.inl hFirst
      · rcases List.mem_cons.mp hRest with hSecond | hLater
        · exact Or.inr hSecond
        · exact ih hLater

theorem count_le_count_cons
    (x y c : α)
    (word : List α) :
    count x y word ≤ count x y (c :: word) := by
  cases word with
  | nil => exact Nat.le_refl _
  | cons d word => exact Nat.le_add_left _ _

theorem le_count_append_pairs
    (x y : α)
    (left right : List α)
    (k : ℕ) :
    k ≤ count x y (left ++ (pairs x y k ++ right)) := by
  induction left with
  | nil =>
      induction k with
      | zero => exact Nat.zero_le _
      | succ k ih =>
          have hMore := count_le_count_cons x y y
            (pairs x y k ++ right)
          simp only [List.nil_append] at ih
          simp only [List.nil_append, pairs,
            List.cons_append, count, and_self, if_true]
          omega
  | cons c left ih =>
      exact ih.trans (count_le_count_cons x y c _)

end Pairs

end Pieces
