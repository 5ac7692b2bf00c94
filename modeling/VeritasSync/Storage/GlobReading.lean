import VeritasSync.Storage.ClassReading

/-
  How the texts of the items of a glob are read, one after the
  other.

  Main declarations:
    * `FileFilter.ReadAs`, `FileFilter.exists_readAs`
    * `FileFilter.read_between`
-/

namespace VeritasSync

namespace FileFilter

open StdRegex

------------------------------------------------------------
-- Items
------------------------------------------------------------

/- How many characters an item needs. -/
def width : GlobItem → ℕ
| .char _ => 1
| .one => 1
| .cls _ => 1
| _ => 0

def IsRead : GlobItem → Prop
| .cls inside => (readClass inside).isSome = true
| _ => True

/- The characters that `.` stands for. -/
def dotAccepts (c : Char) : Bool :=
  c != '\n' && c != '\r'

/- What an item is read as, whatever was read before. -/
structure ReadAs
    (item : GlobItem)
    (term : Regex Char) : Prop where
  simple : term.Simple
  least : term.least = width item
  language : ∀ word, word ∈ term.language ↔
    word ∈ (itemPiece dotAccepts readAccepts item).language
  read : ∀ terms outer,
    (itemText item).foldlM Reader.step
      ⟨.plain, terms, outer⟩ =
        some ⟨.plain, term :: terms, outer⟩

theorem readAs_char
    {c : Char}
    (hWell : WellFormed (.char c)) :
    ReadAs (.char c) (literal c) where
  simple := trivial
  least := rfl
  language := fun _ => Iff.rfl
  read := by
    intro terms outer
    rw [itemText_char]
    split
    next => rfl
    next hPlain =>
      have hStep : Reader.plain ⟨.plain, terms, outer⟩ c =
          some ⟨.plain, literal c :: terms, outer⟩ := by
        unfold Reader.plain
        split
        all_goals first
          | exact absurd (by decide) hPlain
          | exact absurd rfl hWell.1
          | exact absurd rfl hWell.2.1
          | exact absurd rfl hWell.2.2
          | rfl
      exact (bind_pure _).trans hStep

/- `[^/]`, as it is read. -/
def notSlash : Bracket where
  negated := true
  members := (Bracket.opened true).accepts
  last := some '/'
  dash := false

theorem notSlash_accepts
    (c : Char) :
    (notSlash.accepts c != notSlash.negated) =
      (c != '/') := by
  by_cases hSlash : c = '/'
  · rw [hSlash]
    rfl
  · have hOther : ('/' == c) = false :=
      beq_false_of_ne (Ne.symm hSlash)
    simp [notSlash, Bracket.accepts, Bracket.opened, hOther,
      bne, hSlash]

theorem readAs_one :
    ReadAs .one notSlash.regex where
  simple := trivial
  least := rfl
  language := by
    intro word
    change (∃ c, (notSlash.accepts c != notSlash.negated) =
      true ∧ word = [c]) ↔ ∃ c, (c != '/') = true ∧ word = [c]
    simp only [notSlash_accepts]
  read := fun _ _ => rfl

theorem readAs_star :
    ReadAs .star (.star notSlash.regex) where
  simple := trivial
  least := rfl
  language := by
    intro word
    rw [Bracket.regex, Regex.mem_language_star_letter_iff]
    simp only [notSlash_accepts]
    change _ ↔ '/' ∉ word
    constructor
    · intro hAll hMem
      simpa using hAll '/' hMem
    · intro hNot c hMem
      have hOther : c ≠ '/' := fun hSame =>
        hNot (hSame ▸ hMem)
      simpa using hOther
  read := fun _ _ => rfl

theorem mem_language_star_dot_iff
    {word : List Char} :
    word ∈ (Regex.star dot).language ↔
      ∀ c ∈ word, dotAccepts c = true :=
  Regex.mem_language_star_letter_iff

theorem mem_language_literal_iff
    {word : List Char}
    {c : Char} :
    word ∈ (literal c).language ↔ word = [c] := by
  simp [literal]

theorem readAs_everything :
    ReadAs .everything (.star dot) where
  simple := trivial
  least := rfl
  language := fun _ => mem_language_star_dot_iff
  read := fun _ _ => rfl

theorem readAs_dirs :
    ReadAs .dirs (.optional
      (.concat [.star dot, literal '/'])) where
  simple := rfl
  least := rfl
  language := by
    intro word
    rw [Regex.mem_language_optional_iff,
      Regex.mem_language_concat_cons_iff, or_comm]
    change _ ↔ word = [] ∨ ∃ path,
      (∀ c ∈ path, dotAccepts c = true) ∧ word = path ++ ['/']
    refine or_congr Iff.rfl ?_
    constructor
    · rintro ⟨path, hPath, right, hRight, rfl⟩
      rcases Regex.mem_language_concat_cons_iff.mp hRight
        with ⟨slash, hSlash, rest, hRest, rfl⟩
      rw [mem_language_literal_iff] at hSlash
      refine ⟨path, mem_language_star_dot_iff.mp hPath, ?_⟩
      rw [hSlash, show rest = [] from hRest]
      rfl
    · rintro ⟨path, hPath, rfl⟩
      exact ⟨path, mem_language_star_dot_iff.mpr hPath, ['/'],
        Regex.mem_language_concat_cons_iff.mpr
          ⟨['/'], mem_language_literal_iff.mpr rfl, [], rfl,
            rfl⟩, rfl⟩
  read := fun _ _ => rfl

theorem readAs_below :
    ReadAs .below (.optional
      (.concat [literal '/', .star dot])) where
  simple := rfl
  least := rfl
  language := by
    intro word
    rw [Regex.mem_language_optional_iff,
      Regex.mem_language_concat_cons_iff, or_comm]
    change _ ↔ word = [] ∨ ∃ path,
      (∀ c ∈ path, dotAccepts c = true) ∧ word = '/' :: path
    refine or_congr Iff.rfl ?_
    constructor
    · rintro ⟨slash, hSlash, right, hRight, rfl⟩
      rcases Regex.mem_language_concat_cons_iff.mp hRight
        with ⟨path, hPath, rest, hRest, rfl⟩
      rw [mem_language_literal_iff] at hSlash
      refine ⟨path, mem_language_star_dot_iff.mp hPath, ?_⟩
      rw [hSlash, show rest = [] from hRest, List.append_nil]
      rfl
    · rintro ⟨path, hPath, rfl⟩
      exact ⟨['/'], mem_language_literal_iff.mpr rfl, path,
        Regex.mem_language_concat_cons_iff.mpr
          ⟨path, mem_language_star_dot_iff.mpr hPath, [], rfl,
            List.append_nil path⟩, rfl⟩
  read := fun _ _ => rfl

/- An item whose class can be read is read as one term. -/
theorem exists_readAs
    {item : GlobItem}
    (hWell : WellFormed item)
    (hRead : IsRead item) :
    ∃ term, ReadAs item term := by
  cases item with
  | char c => exact ⟨_, readAs_char hWell⟩
  | one => exact ⟨_, readAs_one⟩
  | star => exact ⟨_, readAs_star⟩
  | everything => exact ⟨_, readAs_everything⟩
  | dirs => exact ⟨_, readAs_dirs⟩
  | below => exact ⟨_, readAs_below⟩
  | cls inside =>
      rcases read_class hWell with
        ⟨p, hClass, hReads⟩ | ⟨hNone, _⟩
      · refine ⟨.letter p, trivial, rfl, ?_, hReads⟩
        intro word
        change (∃ c, p c = true ∧ word = [c]) ↔
          ∃ c, readAccepts inside c = true ∧ word = [c]
        simp [readAccepts, hClass]
      · simp [IsRead, hNone] at hRead

------------------------------------------------------------
-- Whole Globs
------------------------------------------------------------

/- A reader at the border of two items. -/
structure AtBorder (r : Reader) : Prop where
  mode : r.mode = .plain ∨ r.mode.Between
  outer : r.outer = []
  simple : ∀ term ∈ r.terms, term.Simple

/- The characters that the terms so far need. -/
def size (r : Reader) : ℕ :=
  (r.terms.map Regex.least).sum

/- What a reader between brackets makes of some text. -/
structure Grows
    (terms : List (Regex Char))
    (limit : ℕ)
    (r : Reader) : Prop where
  outer : r.outer = []
  terms_cases : r.mode.Between ∧ r.terms = terms ∨
    r.mode = .plain ∧ ∃ term : Regex Char,
      term.Simple ∧ term.least ≤ limit ∧
        r.terms = term :: terms

theorem grows_of_outcome
    {mode : Mode}
    {text : List Char}
    {outcome : Outcome}
    (hOutcome : HasOutcome mode text outcome)
    {terms : List (Regex Char)}
    {limit : ℕ}
    (hLimit : outcome.Stays ∨ 1 ≤ limit)
    {r : Reader}
    (hRead : text.foldlM Reader.step ⟨mode, terms, []⟩ =
      some r) :
    Grows terms limit r := by
  rw [hOutcome.2] at hRead
  cases outcome with
  | stays stays =>
      rcases Option.map_eq_some_iff.mp hRead with
        ⟨m, hMode, rfl⟩
      exact ⟨rfl, Or.inl ⟨hOutcome.1 m hMode, rfl⟩⟩
  | closes p =>
      rw [← Option.some.inj hRead]
      have hLimit : 1 ≤ limit := by
        rcases hLimit with hStays | hOne
        · exact hStays.elim
        · exact hOne
      exact ⟨rfl, Or.inr ⟨rfl, .letter p, trivial, hLimit,
        rfl⟩⟩

/- `*` after a class makes it need nothing. -/
theorem grows_star
    {mode : Mode}
    (hBetween : mode.Between)
    {terms : List (Regex Char)}
    {r : Reader}
    (hRead : (itemText .star).foldlM Reader.step
      ⟨mode, terms, []⟩ = some r) :
    Grows terms 0 r := by
  rcases hasOutcome_of_close
      (show ']' ∉ "[^/".toList by decide) hBetween with
    ⟨outcome, hSound, hApply⟩
  have hSplit : itemText .star =
      ("[^/".toList ++ [']']) ++ ['*'] := rfl
  rw [hSplit, List.foldlM_append, hApply] at hRead
  cases outcome with
  | closes p =>
      rw [← Option.some.inj hRead]
      exact ⟨rfl, Or.inr ⟨rfl, .star (.letter p), trivial,
        Nat.le_refl _, rfl⟩⟩
  | stays stays =>
      cases stays with
      | none => cases hRead
      | some m =>
          rcases hasOutcome_of_no_close
              (show ']' ∉ ['*'] by decide) (hSound m rfl) with
            ⟨last, hLast⟩
          exact grows_of_outcome hLast (Or.inl trivial) hRead

theorem no_close_in_char
    {c : Char}
    (hOther : c ≠ ']') :
    ']' ∉ itemText (.char c) := by
  intro hMem
  have hEither : ']' ∈ ['\\', c] := by
    rw [itemText_char] at hMem
    split at hMem
    next => exact hMem
    next => exact List.mem_cons_of_mem _ hMem
  rcases List.mem_cons.mp hEither with hSlash | hHere
  · exact absurd hSlash (by decide)
  · exact hOther (List.mem_singleton.mp hHere).symm

/- No item makes such a reader need more than it should. -/
theorem read_between
    {item : GlobItem}
    (hWell : WellFormed item)
    {mode : Mode}
    (hBetween : mode.Between)
    {terms : List (Regex Char)}
    {r : Reader}
    (hRead : (itemText item).foldlM Reader.step
      ⟨mode, terms, []⟩ = some r) :
    Grows terms (width item) r := by
  have hOpen : ']' ∉ itemText item →
      Grows terms (width item) r := by
    intro hText
    rcases hasOutcome_of_no_close hText hBetween with
      ⟨stays, hStays⟩
    exact grows_of_outcome hStays (Or.inl trivial) hRead
  have hClose : ∀ text, ']' ∉ text →
      itemText item = text ++ [']'] → 1 ≤ width item →
        Grows terms (width item) r := by
    intro text hText hEq hWidth
    rcases hasOutcome_of_close hText hBetween with
      ⟨outcome, hOutcome⟩
    rw [hEq] at hRead
    exact grows_of_outcome hOutcome (Or.inr hWidth) hRead
  cases item with
  | char c =>
      by_cases hSame : c = ']'
      · exact hClose [] (by decide) (by rw [hSame]; rfl)
          (Nat.le_refl _)
      · exact hOpen (no_close_in_char hSame)
  | one =>
      exact hClose "[^/".toList (by decide) rfl
        (Nat.le_refl _)
  | cls inside =>
      rcases bracketText_eq hWell with ⟨text, hText, hEq⟩
      exact hClose ('[' :: text) (by simpa using hText) hEq
        (Nat.le_refl _)
  | star => exact grows_star hBetween hRead
  | everything => exact hOpen (by decide)
  | dirs => exact hOpen (by decide)
  | below => exact hOpen (by decide)

/- What one item does to a reader at a border. -/
theorem read_item
    {item : GlobItem}
    (hWell : WellFormed item)
    {r : Reader}
    (hBorder : AtBorder r)
    {r' : Reader}
    (hRead : (itemText item).foldlM Reader.step r = some r') :
    AtBorder r' ∧ size r' ≤ size r + width item ∧
      (r.mode = .plain → IsRead item ∧ r'.mode = .plain ∨
        size r' < size r + width item) := by
  rcases r with ⟨mode, terms, outer⟩
  have hOuter : outer = [] := hBorder.outer
  subst hOuter
  rcases hBorder.mode with hPlain | hBetween
  · have hPlain : mode = .plain := hPlain
    subst hPlain
    by_cases hItem : IsRead item
    · rcases exists_readAs hWell hItem with ⟨term, hTerm⟩
      rw [hTerm.read] at hRead
      rw [← Option.some.inj hRead]
      refine ⟨⟨Or.inl rfl, rfl, ?_⟩, ?_, ?_⟩
      · exact List.forall_mem_cons.mpr
          ⟨hTerm.simple, hBorder.simple⟩
      · simp only [size, List.map_cons, List.sum_cons,
          hTerm.least]
        omega
      · exact fun _ => Or.inl ⟨hItem, rfl⟩
    · cases item with
      | cls inside =>
          rcases read_class hWell with
            ⟨p, hClass, _⟩ | ⟨_, m, hSound, hReads⟩
          · exact absurd (by simp [IsRead, hClass]) hItem
          · rw [itemText_cls, hReads] at hRead
            rcases Option.map_eq_some_iff.mp hRead with
              ⟨next, hMode, rfl⟩
            exact ⟨⟨Or.inr (hSound next hMode), rfl,
              hBorder.simple⟩, Nat.le_succ _,
              fun _ => Or.inr (Nat.lt_succ_self _)⟩
      | char c => exact absurd trivial hItem
      | one => exact absurd trivial hItem
      | star => exact absurd trivial hItem
      | everything => exact absurd trivial hItem
      | dirs => exact absurd trivial hItem
      | below => exact absurd trivial hItem
  · have hGrows := read_between hWell hBetween hRead
    refine ⟨?_, ?_, ?_⟩
    · rcases hGrows.terms_cases with
        ⟨hMode, hTerms⟩ | ⟨hMode, term, hSimple, _, hTerms⟩
      · refine ⟨Or.inr hMode, hGrows.outer, ?_⟩
        rw [hTerms]
        exact hBorder.simple
      · refine ⟨Or.inl hMode, hGrows.outer, ?_⟩
        rw [hTerms]
        exact List.forall_mem_cons.mpr
          ⟨hSimple, hBorder.simple⟩
    · rcases hGrows.terms_cases with
        ⟨_, hTerms⟩ | ⟨_, term, _, hLeast, hTerms⟩
      · rw [size, hTerms]
        exact Nat.le_add_right _ _
      · rw [size, hTerms, List.map_cons, List.sum_cons]
        simp only [size]
        omega
    · intro hPlain
      have hPlain : mode = .plain := hPlain
      rw [hPlain] at hBetween
      exact hBetween.elim

def needed (items : List GlobItem) : ℕ :=
  (items.map width).sum

/- A class that is not read as one term is missing. -/
theorem read_items
    {items : List GlobItem}
    (hWell : ∀ item ∈ items, WellFormed item)
    {r : Reader}
    (hBorder : AtBorder r)
    {r' : Reader}
    (hRead : (items.flatMap itemText).foldlM Reader.step r =
      some r') :
    AtBorder r' ∧ size r' ≤ size r + needed items ∧
      (r.mode = .plain → (∃ item ∈ items, ¬ IsRead item) →
        size r' < size r + needed items) := by
  induction items generalizing r with
  | nil =>
      rw [← Option.some.inj hRead]
      exact ⟨hBorder, Nat.le_refl _,
        fun _ hSome => nomatch hSome⟩
  | cons item items ih =>
      rw [List.forall_mem_cons] at hWell
      rw [List.flatMap_cons, List.foldlM_append] at hRead
      rcases Option.bind_eq_some_iff.mp hRead with
        ⟨next, hItem, hRest⟩
      rcases read_item hWell.1 hBorder hItem with
        ⟨hNext, hSize, hHere⟩
      rcases ih hWell.2 hNext hRest with
        ⟨hLast, hRestSize, hLater⟩
      have hNeeded : needed (item :: items) =
          width item + needed items := rfl
      refine ⟨hLast, by omega, ?_⟩
      intro hPlain hUnread
      rcases hHere hPlain with ⟨hItemRead, hMode⟩ | hLess
      · have hSome : ∃ item ∈ items, ¬ IsRead item := by
          rcases hUnread with ⟨other, hMem, hNot⟩
          rcases List.mem_cons.mp hMem with rfl | hTail
          · exact absurd hItemRead hNot
          · exact ⟨other, hTail, hNot⟩
        have hRestLess := hLater hMode hSome
        omega
      · omega

/- Items that are all read make one term each. -/
theorem readAs_items
    {items : List GlobItem}
    (hWell : ∀ item ∈ items, WellFormed item)
    (hItems : ∀ item ∈ items, IsRead item) :
    ∃ terms, List.Forall₂ ReadAs items terms ∧
      ∀ before, (items.flatMap itemText).foldlM Reader.step
        ⟨.plain, before, []⟩ =
          some ⟨.plain, terms.reverse ++ before, []⟩ := by
  induction items with
  | nil => exact ⟨[], List.Forall₂.nil, fun _ => rfl⟩
  | cons item items ih =>
      rw [List.forall_mem_cons] at hWell hItems
      rcases exists_readAs hWell.1 hItems.1 with
        ⟨term, hTerm⟩
      rcases ih hWell.2 hItems.2 with ⟨terms, hTerms, hReads⟩
      refine ⟨term :: terms,
        List.Forall₂.cons hTerm hTerms, ?_⟩
      intro before
      rw [List.flatMap_cons, List.foldlM_append, hTerm.read]
      refine (hReads (term :: before)).trans ?_
      rw [List.reverse_cons, List.append_assoc]
      rfl

theorem mem_language_concat_iff
    {items : List GlobItem}
    {terms : List (Regex Char)}
    (hTerms : List.Forall₂ ReadAs items terms)
    {word : List Char} :
    word ∈ (Regex.concat terms).language ↔
      word ∈ Pieces.language
        (items.map (itemPiece dotAccepts readAccepts)) := by
  induction hTerms generalizing word with
  | nil => exact Pieces.mem_language_nil_iff.symm
  | cons hTerm _ ih =>
      rw [Regex.mem_language_concat_cons_iff, List.map_cons,
        Pieces.mem_language_cons_iff]
      simp only [hTerm.language, ih]

theorem compile_anchored
    (text : List Char) :
    compile ('^' :: text ++ ['$']) =
      (text.foldlM Reader.step ⟨.plain, [], []⟩).bind
        (fun r => (Reader.step r '$').bind
          Reader.finish) := by
  rw [compile, List.cons_append, List.foldlM_cons]
  change ((text ++ ['$']).foldlM Reader.step
    ⟨.plain, [], []⟩).bind Reader.finish = _
  rw [List.foldlM_append]
  cases text.foldlM Reader.step ⟨.plain, [], []⟩ with
  | none => rfl
  | some r =>
      exact congrArg (fun o => Option.bind o Reader.finish)
        (bind_pure (Reader.step r '$'))

/- `$` ends the expression, but not between brackets. -/
theorem finish_cases
    {r : Reader}
    (hBorder : AtBorder r) :
    (r.mode = .plain ∧
      (Reader.step r '$').bind Reader.finish =
        some (Regex.concat r.terms.reverse)) ∨
    (r.mode.Between ∧
      (Reader.step r '$').bind Reader.finish = none) := by
  rcases r with ⟨mode, terms, outer⟩
  have hOuter : outer = [] := hBorder.outer
  subst hOuter
  rcases hBorder.mode with hPlain | hBetween
  · have hPlain : mode = .plain := hPlain
    subst hPlain
    exact Or.inl ⟨rfl, rfl⟩
  · right
    refine ⟨hBetween, ?_⟩
    rcases happens_step hBetween '$' with
      ⟨outcome, hSound, hStays, hStep⟩
    have hStays := hStays (by decide)
    rw [show Reader.step ⟨mode, terms, []⟩ '$' = _ from
      hStep terms []]
    cases outcome with
    | closes p => exact hStays.elim
    | stays stays =>
        cases stays with
        | none => rfl
        | some next =>
            have hNext : next.Between := hSound next rfl
            cases next <;>
              first | exact hNext.elim | rfl

end FileFilter

end VeritasSync
