import Mathlib.Algebra.GroupWithZero.Nat
import Mathlib.Computability.Language

/-
  Regular expressions whose letters are predicates, and the
  decision by derivatives whether a word matches.

  Main declarations:
    * `Regex`, `Regex.language`
    * `Regex.derivative`, `Regex.accepts`
    * `Regex.accepts_iff_mem_language`
    * `Regex.exists_length_le_least`
-/

open Computability

/- An expression for words over an arbitrary alphabet. -/
inductive Regex (α : Type) where
| never : Regex α
| empty : Regex α
| letter : (α → Bool) → Regex α
| append : Regex α → Regex α → Regex α
| either : Regex α → Regex α → Regex α
| star : Regex α → Regex α

namespace Regex

variable {α : Type}

/- The expression or nothing. -/
def optional (r : Regex α) : Regex α :=
  either r empty

/- The expressions, one after the other. -/
def concat (rs : List (Regex α)) : Regex α :=
  rs.foldr append empty

------------------------------------------------------------
-- What an Expression Means
------------------------------------------------------------

def language : Regex α → Language α
| never => 0
| empty => 1
| letter p => { word | ∃ c, p c = true ∧ word = [c] }
| append r r' => r.language * r'.language
| either r r' => r.language + r'.language
| star r => r.language∗

section Meaning

variable
  {r r' : Regex α}
  {p : α → Bool}
  {word : List α}

@[simp] theorem notMem_language_never :
    word ∉ (never : Regex α).language :=
  id

@[simp] theorem mem_language_empty_iff :
    word ∈ (empty : Regex α).language ↔ word = [] :=
  Iff.rfl

@[simp] theorem mem_language_letter_iff :
    word ∈ (letter p).language ↔
      ∃ c, p c = true ∧ word = [c] :=
  Iff.rfl

theorem mem_language_append_iff :
    word ∈ (append r r').language ↔
      ∃ left ∈ r.language, ∃ right ∈ r'.language,
        left ++ right = word :=
  Language.mem_mul

theorem mem_language_either_iff :
    word ∈ (either r r').language ↔
      word ∈ r.language ∨ word ∈ r'.language :=
  Language.mem_add r.language r'.language word

/- A word that is not empty begins with a part of its own. -/
theorem cons_mem_language_star_iff
    {c : α} :
    c :: word ∈ (star r).language ↔
      ∃ left right, c :: left ∈ r.language ∧
        right ∈ (star r).language ∧ left ++ right = word := by
  constructor
  · intro hWord
    rcases Language.mem_kstar_iff_exists_nonempty.mp hWord
      with ⟨parts, hJoin, hParts⟩
    cases parts with
    | nil => cases hJoin
    | cons part parts =>
        rcases hParts part List.mem_cons_self with
          ⟨hPart, hNonempty⟩
        cases part with
        | nil => exact absurd rfl hNonempty
        | cons first left =>
            rw [List.flatten_cons, List.cons_append,
              List.cons.injEq] at hJoin
            rcases hJoin with ⟨hFirst, hRest⟩
            refine ⟨left, parts.flatten, ?_, ?_, hRest.symm⟩
            · rw [hFirst]
              exact hPart
            · refine Language.mem_kstar.mpr
                ⟨parts, rfl, ?_⟩
              exact fun part hIn =>
                (hParts part (List.mem_cons_of_mem _ hIn)).1
  · rintro ⟨left, right, hLeft, hRight, hJoin⟩
    rcases Language.mem_kstar.mp hRight with
      ⟨parts, hRest, hParts⟩
    refine Language.mem_kstar.mpr
      ⟨(c :: left) :: parts, ?_, ?_⟩
    · rw [List.flatten_cons, ← hRest, List.cons_append,
        hJoin]
    · intro part hPart
      rcases List.mem_cons.mp hPart with hHead | hTail
      · rw [hHead]
        exact hLeft
      · exact hParts part hTail

/- Any number of letters. -/
theorem mem_language_star_letter_iff :
    word ∈ (star (letter p)).language ↔
      ∀ c ∈ word, p c = true := by
  induction word with
  | nil =>
      exact iff_of_true (Language.nil_mem_kstar _) (by simp)
  | cons c word ih =>
      rw [cons_mem_language_star_iff, List.forall_mem_cons]
      constructor
      · rintro ⟨left, right, hLeft, hRight, hJoin⟩
        rcases hLeft with ⟨d, hLetter, hWord⟩
        rw [List.cons.injEq] at hWord
        rw [hWord.2, List.nil_append] at hJoin
        rw [hWord.1]
        exact ⟨hLetter, ih.mp (hJoin ▸ hRight)⟩
      · rintro ⟨hLetter, hRest⟩
        exact ⟨[], word, ⟨c, hLetter, rfl⟩, ih.mpr hRest, rfl⟩

theorem mem_language_optional_iff :
    word ∈ (optional r).language ↔
      word ∈ r.language ∨ word = [] :=
  mem_language_either_iff

theorem mem_language_concat_cons_iff
    {rs : List (Regex α)} :
    word ∈ (concat (r :: rs)).language ↔
      ∃ left ∈ r.language, ∃ right ∈ (concat rs).language,
        left ++ right = word :=
  mem_language_append_iff

end Meaning

------------------------------------------------------------
-- Deciding by Derivatives
------------------------------------------------------------

/- The expression matches the empty word. -/
def nullable : Regex α → Bool
| never => false
| empty => true
| letter _ => false
| append r r' => r.nullable && r'.nullable
| either r r' => r.nullable || r'.nullable
| star _ => true

/- What is left to match after one letter. -/
def derivative
    (c : α) : Regex α → Regex α
| never => never
| empty => never
| letter p => if p c then empty else never
| append r r' =>
    if r.nullable then
      either (append (r.derivative c) r') (r'.derivative c)
    else
      append (r.derivative c) r'
| either r r' => either (r.derivative c) (r'.derivative c)
| star r => append (r.derivative c) (star r)

/- The whole word matches. -/
def accepts : Regex α → List α → Bool
| r, [] => r.nullable
| r, c :: word => accepts (r.derivative c) word

theorem nullable_iff
    (r : Regex α) :
    r.nullable = true ↔ [] ∈ r.language := by
  induction r with
  | never => simp [nullable]
  | empty => simp [nullable]
  | letter p => simp [nullable]
  | append r r' ih ih' =>
      rw [nullable, Bool.and_eq_true, ih, ih',
        mem_language_append_iff]
      constructor
      · rintro ⟨hLeft, hRight⟩
        exact ⟨[], hLeft, [], hRight, rfl⟩
      · rintro ⟨left, hLeft, right, hRight, hJoin⟩
        rcases List.append_eq_nil_iff.mp hJoin with
          ⟨rfl, rfl⟩
        exact ⟨hLeft, hRight⟩
  | either r r' ih ih' =>
      rw [nullable, Bool.or_eq_true, ih, ih',
        mem_language_either_iff]
  | star r =>
      exact iff_of_true rfl (Language.nil_mem_kstar _)

/- The derivative of a sequence, as words. -/
theorem cons_mem_language_append_iff
    {c : α}
    {r r' : Regex α}
    {word : List α} :
    c :: word ∈ (append r r').language ↔
      (∃ left, c :: left ∈ r.language ∧
        ∃ right ∈ r'.language, left ++ right = word) ∨
      r.nullable = true ∧ c :: word ∈ r'.language := by
  rw [mem_language_append_iff, nullable_iff]
  constructor
  · rintro ⟨left, hLeft, right, hRight, hJoin⟩
    cases left with
    | nil =>
        rw [List.nil_append] at hJoin
        rw [← hJoin]
        exact Or.inr ⟨hLeft, hRight⟩
    | cons first left =>
        rw [List.cons_append, List.cons.injEq] at hJoin
        rw [← hJoin.1]
        exact Or.inl ⟨left, hLeft, right, hRight, hJoin.2⟩
  · rintro (⟨left, hLeft, right, hRight, hJoin⟩ |
      ⟨hEmpty, hWord⟩)
    · refine ⟨c :: left, hLeft, right, hRight, ?_⟩
      rw [List.cons_append, hJoin]
    · exact ⟨[], hEmpty, c :: word, hWord, rfl⟩

theorem mem_language_derivative_iff
    {c : α}
    {r : Regex α}
    {word : List α} :
    word ∈ (r.derivative c).language ↔
      c :: word ∈ r.language := by
  induction r generalizing word with
  | never => exact Iff.rfl
  | empty => simp [derivative]
  | letter p =>
      rw [derivative]
      split
      next hLetter => simp [hLetter]
      next hLetter => simp [hLetter]
  | append r r' ih ih' =>
      rw [cons_mem_language_append_iff, derivative]
      have hFirst :
          word ∈ (append (r.derivative c) r').language ↔
            ∃ left, c :: left ∈ r.language ∧
              ∃ right ∈ r'.language,
                left ++ right = word := by
        rw [mem_language_append_iff]
        exact exists_congr fun left => by rw [ih]
      split
      next hNullable =>
        rw [mem_language_either_iff, hFirst, ih']
        simp [hNullable]
      next hNullable =>
        rw [hFirst]
        simp [hNullable]
  | either r r' ih ih' =>
      rw [derivative, mem_language_either_iff, ih, ih',
        mem_language_either_iff]
  | star r ih =>
      rw [derivative, mem_language_append_iff,
        cons_mem_language_star_iff]
      constructor
      · rintro ⟨left, hLeft, right, hRight, hJoin⟩
        exact ⟨left, right, ih.mp hLeft, hRight, hJoin⟩
      · rintro ⟨left, right, hLeft, hRight, hJoin⟩
        exact ⟨left, ih.mpr hLeft, right, hRight, hJoin⟩

/- A word is accepted exactly when it is in the language. -/
theorem accepts_iff_mem_language
    (r : Regex α)
    (word : List α) :
    r.accepts word = true ↔ word ∈ r.language := by
  induction word generalizing r with
  | nil => exact nullable_iff r
  | cons c word ih =>
      rw [accepts, ih, mem_language_derivative_iff]

------------------------------------------------------------
-- Short Words
------------------------------------------------------------

/- One letter for each that has to be there. -/
def least : Regex α → ℕ
| never => 0
| empty => 0
| letter _ => 1
| append r r' => r.least + r'.least
| either r r' => min r.least r'.least
| star _ => 0

/- Every alternative is to leave something out. -/
def Simple : Regex α → Prop
| append r r' => r.Simple ∧ r'.Simple
| either _ r' => r' = empty
| _ => True

/- If there is a word, there is one that short. -/
theorem exists_length_le_least
    {inside : α → Prop}
    {r : Regex α}
    (hSimple : r.Simple)
    (hSome : ∃ word ∈ r.language, ∀ c ∈ word, inside c) :
    ∃ word ∈ r.language, (∀ c ∈ word, inside c) ∧
      word.length ≤ r.least := by
  induction r with
  | never =>
      rcases hSome with ⟨word, hWord, _⟩
      exact absurd hWord notMem_language_never
  | empty => exact ⟨[], rfl, by simp, Nat.le_refl _⟩
  | letter p =>
      rcases hSome with ⟨word, hWord, hInside⟩
      refine ⟨word, hWord, hInside, ?_⟩
      rcases hWord with ⟨c, _, rfl⟩
      exact Nat.le_refl _
  | append r r' ih ih' =>
      rcases hSome with ⟨word, hWord, hInside⟩
      rcases mem_language_append_iff.mp hWord with
        ⟨left, hLeft, right, hRight, rfl⟩
      rcases ih hSimple.1 ⟨left, hLeft, fun c hMem =>
        hInside c (List.mem_append_left _ hMem)⟩ with
        ⟨first, hFirst, hFirstIn, hFirstShort⟩
      rcases ih' hSimple.2 ⟨right, hRight, fun c hMem =>
        hInside c (List.mem_append_right _ hMem)⟩ with
        ⟨second, hSecond, hSecondIn, hSecondShort⟩
      refine ⟨first ++ second,
        mem_language_append_iff.mpr
          ⟨first, hFirst, second, hSecond, rfl⟩, ?_, ?_⟩
      · intro c hMem
        rcases List.mem_append.mp hMem with hIn | hIn
        · exact hFirstIn c hIn
        · exact hSecondIn c hIn
      · rw [List.length_append]
        exact Nat.add_le_add hFirstShort hSecondShort
  | either r r' =>
      have hEmpty : r' = empty := hSimple
      refine ⟨[], ?_, by simp, Nat.zero_le _⟩
      rw [mem_language_either_iff, hEmpty]
      exact Or.inr rfl
  | star r =>
      exact ⟨[], Language.nil_mem_kstar _, by simp,
        Nat.zero_le _⟩

/- The sets that each word has a character of. -/
def needs : Regex α → List (α → Bool)
| never => [fun _ => false]
| empty => []
| letter p => [p]
| append r r' => r.needs ++ r'.needs
| either _ _ => []
| star _ => []

/- There is a word just if every such set has a character. -/
theorem exists_mem_iff_needs
    {inside : α → Prop}
    {r : Regex α}
    (hSimple : r.Simple) :
    (∃ word ∈ r.language, ∀ c ∈ word, inside c) ↔
      ∀ p ∈ r.needs, ∃ c, inside c ∧ p c = true := by
  induction r with
  | never =>
      constructor
      · rintro ⟨word, hWord, -⟩
        exact absurd hWord notMem_language_never
      · intro hNeeds
        rcases hNeeds _ List.mem_cons_self with ⟨c, -, hC⟩
        cases hC
  | empty =>
      exact iff_of_true ⟨[], rfl, by simp⟩
        (fun _ hMem => by cases hMem)
  | letter p =>
      constructor
      · rintro ⟨word, ⟨c, hLetter, rfl⟩, hInside⟩ p' hMem
        rw [List.mem_singleton.mp hMem]
        exact ⟨c, hInside c List.mem_cons_self, hLetter⟩
      · intro hNeeds
        rcases hNeeds p List.mem_cons_self with
          ⟨c, hInside, hLetter⟩
        exact ⟨[c], ⟨c, hLetter, rfl⟩, by simpa using hInside⟩
  | append r r' ih ih' =>
      rw [needs, List.forall_mem_append, ← ih hSimple.1,
        ← ih' hSimple.2]
      constructor
      · rintro ⟨word, hWord, hInside⟩
        rcases mem_language_append_iff.mp hWord with
          ⟨left, hLeft, right, hRight, rfl⟩
        rw [List.forall_mem_append] at hInside
        exact ⟨⟨left, hLeft, hInside.1⟩,
          ⟨right, hRight, hInside.2⟩⟩
      · rintro ⟨⟨left, hLeft, hLeftIn⟩,
          ⟨right, hRight, hRightIn⟩⟩
        refine ⟨left ++ right, mem_language_append_iff.mpr
          ⟨left, hLeft, right, hRight, rfl⟩, ?_⟩
        exact List.forall_mem_append.mpr
          ⟨hLeftIn, hRightIn⟩
  | either r r' =>
      have hEmpty : r' = empty := hSimple
      refine iff_of_true ⟨[], ?_, by simp⟩
        (fun _ hMem => by cases hMem)
      rw [mem_language_either_iff, hEmpty]
      exact Or.inr rfl
  | star r =>
      exact iff_of_true
        ⟨[], Language.nil_mem_kstar _, by simp⟩
        (fun _ hMem => by cases hMem)

@[simp] theorem needs_concat
    (rs : List (Regex α)) :
    (concat rs).needs = rs.flatMap needs := by
  induction rs with
  | nil => rfl
  | cons r rs ih =>
      exact congrArg (r.needs ++ ·) ih

@[simp] theorem least_concat
    (rs : List (Regex α)) :
    (concat rs).least = (rs.map least).sum := by
  induction rs with
  | nil => rfl
  | cons r rs ih =>
      exact congrArg (r.least + ·) ih

theorem simple_concat
    {rs : List (Regex α)}
    (hSimple : ∀ r ∈ rs, r.Simple) :
    (concat rs).Simple := by
  induction rs with
  | nil => trivial
  | cons r rs ih =>
      exact ⟨hSimple r List.mem_cons_self,
        ih (fun other hMem =>
          hSimple other (List.mem_cons_of_mem _ hMem))⟩

end Regex
