import VeritasSync.Storage.GlobReading

/-
  Whether a glob and the expression that it is turned into
  match the same paths.

  Main declarations:
    * `FileFilter.matchesRegex`, `FileFilter.AgreesOn`
    * `FileFilter.FaithfulGlob`, `FileFilter.readSets`,
      `FileFilter.Hopeless`
    * `FileFilter.globToRegex_correct_iff`
-/

namespace VeritasSync

namespace FileFilter

open StdRegex

------------------------------------------------------------
-- The Two Meanings
------------------------------------------------------------

/- A text that is no expression matches nothing. -/
def matchesRegex (glob path : List Char) : Bool :=
  (compile (globToRegex glob)).any (regexMatch path)

/- The paths of the given characters match both or neither. -/
def AgreesOn
    (among : Char → Prop)
    (glob : List Char) : Prop :=
  ∀ path, (∀ c ∈ path, among c) →
    (matchesRegex glob path = true ↔ GlobMatches glob path)

/- The pieces of a glob, as they are read. -/
def readPieces (glob : List Char) : List (Piece Char) :=
  (globItems glob).map (itemPiece dotAccepts readAccepts)

section Letters

variable
  {dot dot' : Char → Bool}
  {accepts accepts' : List Char → Char → Bool}

/- A letter for each character that an item needs. -/
theorem length_letters
    (items : List GlobItem) :
    (Pieces.letters
      (items.map (itemPiece dot accepts))).length =
        needed items := by
  induction items with
  | nil => rfl
  | cons item items ih =>
      have hNeeded : needed (item :: items) =
          width item + needed items := rfl
      rw [hNeeded, ← ih, Nat.add_comm]
      cases item with
      | char c => rfl
      | one => rfl
      | cls inside => rfl
      | star => exact (Nat.add_zero _).symm
      | everything => exact (Nat.add_zero _).symm
      | dirs => exact (Nat.add_zero _).symm
      | below => exact (Nat.add_zero _).symm

theorem same_classes
    {among : Char → Prop}
    {items : List GlobItem}
    (hSame : Pieces.SameSets among
      (Pieces.letters (items.map (itemPiece dot accepts)))
      (Pieces.letters
        (items.map (itemPiece dot' accepts'))))
    {inside : List Char}
    (hMem : .cls inside ∈ items)
    {c : Char}
    (hAmong : among c) :
    accepts inside c = accepts' inside c := by
  induction items with
  | nil => cases hMem
  | cons item items ih =>
      cases item with
      | cls other =>
          cases hSame with
          | cons hHere hRest =>
              rcases List.mem_cons.mp hMem with hHead | hTail
              · rw [GlobItem.cls.inj hHead]
                exact hHere c hAmong
              · exact ih hRest hTail
      | char d =>
          cases hSame with
          | cons _ hRest =>
              exact ih hRest
                ((List.mem_cons.mp hMem).resolve_left nofun)
      | one =>
          cases hSame with
          | cons _ hRest =>
              exact ih hRest
                ((List.mem_cons.mp hMem).resolve_left nofun)
      | star =>
          exact ih hSame
            ((List.mem_cons.mp hMem).resolve_left nofun)
      | everything =>
          exact ih hSame
            ((List.mem_cons.mp hMem).resolve_left nofun)
      | dirs =>
          exact ih hSame
            ((List.mem_cons.mp hMem).resolve_left nofun)
      | below =>
          exact ih hSame
            ((List.mem_cons.mp hMem).resolve_left nofun)

end Letters

section Compiled

variable {glob path : List Char}

theorem matchesRegex_iff
    (hGlob : '\\' ∉ glob)
    (hItems : ∀ item ∈ globItems glob, IsRead item) :
    matchesRegex glob path = true ↔
      path ∈ Pieces.language (readPieces glob) := by
  rcases readAs_items
      (fun item => wellFormed_of_mem_globItems hGlob) hItems
    with ⟨terms, hTerms, hReads⟩
  have hCompile : compile (globToRegex glob) =
      some (Regex.concat terms) := by
    rw [globToRegex_eq hGlob, compile_anchored, hReads]
    change some (Regex.concat
      (terms.reverse ++ []).reverse) = _
    rw [List.append_nil, List.reverse_reverse]
  rw [matchesRegex, hCompile, readPieces,
    ← mem_language_concat_iff hTerms]
  exact Regex.accepts_iff_mem_language _ path

theorem atBorder_start :
    AtBorder ⟨.plain, [], []⟩ where
  mode := Or.inl rfl
  outer := rfl
  simple := fun _ hMem => absurd hMem List.not_mem_nil

/- Where the texts of the items leave the reader. -/
def readItems (glob : List Char) : Option Reader :=
  ((globItems glob).flatMap itemText).foldlM Reader.step
    ⟨.plain, [], []⟩

theorem compile_globToRegex
    (hGlob : '\\' ∉ glob) :
    compile (globToRegex glob) =
      (readItems glob).bind (fun r =>
        (Reader.step r '$').bind Reader.finish) := by
  rw [globToRegex_eq hGlob]
  exact compile_anchored _

/-
  The glob makes an expression just if the reader is outside
  brackets at the end, and then of the terms that were read.
-/
theorem compile_cases
    (hGlob : '\\' ∉ glob)
    {r : Reader}
    (hRead : readItems glob = some r) :
    (r.mode = .plain ∧
      compile (globToRegex glob) =
        some (Regex.concat r.terms.reverse) ∧
      (Regex.concat r.terms.reverse).Simple) ∨
    (r.mode.Between ∧
      compile (globToRegex glob) = none) := by
  rcases read_items
      (fun item => wellFormed_of_mem_globItems hGlob)
      atBorder_start hRead with ⟨hBorder, -, -⟩
  rw [compile_globToRegex hGlob, hRead, Option.bind_some]
  rcases finish_cases hBorder with
    ⟨hMode, hFinish⟩ | hBetween
  · refine Or.inl ⟨hMode, hFinish, ?_⟩
    apply Regex.simple_concat
    intro term hMem
    exact hBorder.simple term (List.mem_reverse.mp hMem)
  · exact Or.inr hBetween

theorem exists_read_of_match
    (hGlob : '\\' ∉ glob)
    (hMatch : matchesRegex glob path = true) :
    ∃ r, readItems glob = some r ∧ r.mode = .plain ∧
      path ∈ (Regex.concat r.terms.reverse).language ∧
      (Regex.concat r.terms.reverse).Simple := by
  rw [matchesRegex, Option.any_eq_true] at hMatch
  rcases hMatch with ⟨regex, hCompile, hAccepts⟩
  rw [regexMatch, Regex.accepts_iff_mem_language] at hAccepts
  have hText := hCompile
  rw [compile_globToRegex hGlob] at hText
  rcases Option.bind_eq_some_iff.mp hText with
    ⟨r, hRead, -⟩
  rcases compile_cases hGlob hRead with
    ⟨hMode, hTerms, hSimple⟩ | ⟨-, hNone⟩
  · rw [hTerms] at hCompile
    cases hCompile
    exact ⟨r, hRead, hMode, hAccepts, hSimple⟩
  · rw [hNone] at hCompile
    cases hCompile

/- With a class missing, a shorter path matches as well. -/
theorem exists_short_match
    (hGlob : '\\' ∉ glob)
    (hUnread : ∃ item ∈ globItems glob, ¬ IsRead item)
    {among : Char → Prop}
    (hPath : ∀ c ∈ path, among c)
    (hMatch : matchesRegex glob path = true) :
    ∃ short, (∀ c ∈ short, among c) ∧
      matchesRegex glob short = true ∧
        short.length < needed (globItems glob) := by
  rcases exists_read_of_match hGlob hMatch with
    ⟨r, hRead, hMode, hWord, hSimple⟩
  rcases read_items
      (fun item => wellFormed_of_mem_globItems hGlob)
      atBorder_start hRead with ⟨-, -, hMissing⟩
  have hLeast : (Regex.concat r.terms.reverse).least =
      size r := by
    rw [Regex.least_concat, List.map_reverse,
      List.sum_reverse]
    rfl
  have hSize := hMissing rfl hUnread
  rcases Regex.exists_length_le_least hSimple
      ⟨path, hWord, hPath⟩ with
    ⟨short, hShortWord, hAmong, hShort⟩
  refine ⟨short, hAmong, ?_, ?_⟩
  · rcases compile_cases hGlob hRead with
      ⟨-, hCompile, -⟩ | ⟨hBetween, -⟩
    · rw [matchesRegex, hCompile]
      exact (Regex.accepts_iff_mem_language _ short).mpr
        hShortWord
    · rw [hMode] at hBetween
      exact hBetween.elim
  · have hStart : size ⟨.plain, [], []⟩ = 0 := rfl
    omega

end Compiled

------------------------------------------------------------
-- Where They Differ
------------------------------------------------------------

def FaithfulItem : GlobItem → Prop
| .cls inside => FaithfulClass inside
| _ => True

instance : DecidablePred FaithfulItem
| .cls inside => inferInstanceAs
    (Decidable (FaithfulClass inside))
| .char _ => isTrue trivial
| .one => isTrue trivial
| .star => isTrue trivial
| .everything => isTrue trivial
| .dirs => isTrue trivial
| .below => isTrue trivial

/- A condition on the classes of the glob alone. -/
def FaithfulGlob (glob : List Char) : Prop :=
  ∀ item ∈ globItems glob, FaithfulItem item

instance (glob : List Char) :
    Decidable (FaithfulGlob glob) :=
  inferInstanceAs (Decidable (∀ item ∈ _, _))

/-
  A character or a class of the glob that none of the given
  characters fits, so that the glob has no such path.
-/
def HasVoid
    (among : Char → Prop)
    (glob : List Char) : Prop :=
  Pieces.Barren among (Pieces.letters (globMeaning glob))

/-
  The sets of characters that the places of a glob are read
  as.  There are none when its text ends between brackets or
  when a range runs backwards: that is no expression.
-/
def readSets (glob : List Char) :
    Option (List (Char → Bool)) :=
  match readItems glob with
  | some ⟨.plain, terms, _⟩ =>
      some (terms.flatMap Regex.needs)
  | _ => none

/-
  A place of the glob that no given character fits, as it is
  meant and also as it is read, if it can be read at all.
-/
structure Hopeless
    (among : Char → Prop)
    (glob : List Char) : Prop where
  hasVoid : HasVoid among glob
  never : ∀ sets ∈ readSets glob, Pieces.Barren among sets

/- A range that runs backwards is neither. -/
example : (readSets "[z-a]".toList).isNone = true := by
  decide +kernel

section Comparison

variable
  {glob : List Char}
  {among : Char → Prop}

/-
  The expression has a path just if it can be read, with a
  character for each place.
-/
theorem exists_match_iff
    (hGlob : '\\' ∉ glob) :
    (∃ path, (∀ c ∈ path, among c) ∧
        matchesRegex glob path = true) ↔
      ∃ sets ∈ readSets glob, ¬ Pieces.Barren among sets := by
  have hSets : ∀ r, readItems glob = some r →
      r.mode = .plain →
      readSets glob = some (r.terms.flatMap Regex.needs) := by
    rintro ⟨mode, terms, outer⟩ hRead hMode
    have hMode : mode = .plain := hMode
    rw [readSets, hRead, hMode]
  have hFertile : ∀ r : Reader,
      (¬ Pieces.Barren among
          (r.terms.flatMap Regex.needs) ↔
        ∀ p ∈ (Regex.concat r.terms.reverse).needs,
          ∃ c, among c ∧ p c = true) := by
    intro r
    simp [Pieces.Barren, Regex.needs_concat]
  constructor
  · rintro ⟨path, hPath, hMatch⟩
    rcases exists_read_of_match hGlob hMatch with
      ⟨r, hRead, hMode, hWord, hSimple⟩
    refine ⟨_, hSets r hRead hMode, (hFertile r).mpr ?_⟩
    exact (Regex.exists_mem_iff_needs hSimple).mp
      ⟨path, hWord, hPath⟩
  · rintro ⟨sets, hMem, hNot⟩
    cases hRead : readItems glob with
    | none =>
        rw [readSets, hRead] at hMem
        cases hMem
    | some r =>
        rcases compile_cases hGlob hRead with
          ⟨hMode, hCompile, hSimple⟩ | ⟨hBetween, -⟩
        · rw [hSets r hRead hMode] at hMem
          cases hMem
          rcases (Regex.exists_mem_iff_needs hSimple).mpr
            ((hFertile r).mp hNot) with
            ⟨path, hWord, hPath⟩
          refine ⟨path, hPath, ?_⟩
          rw [matchesRegex, hCompile]
          exact (Regex.accepts_iff_mem_language _ path).mpr
            hWord
        · exfalso
          rcases r with ⟨mode, terms, outer⟩
          rw [readSets, hRead] at hMem
          cases mode <;>
            first | exact hBetween.elim | cases hMem

theorem agreesOn_of_hopeless
    (hGlob : '\\' ∉ glob)
    (hHopeless : Hopeless among glob) :
    AgreesOn among glob := by
  intro path hPath
  refine iff_of_false ?_
    (Pieces.not_mem_of_barren hPath hHopeless.hasVoid)
  intro hMatch
  rcases (exists_match_iff hGlob).mp ⟨path, hPath, hMatch⟩
    with ⟨sets, hSets, hFertile⟩
  exact hFertile (hHopeless.never sets hSets)

/- What has no path has a place that nothing fits. -/
theorem hopeless_of_no_path
    (hGlob : '\\' ∉ glob)
    (hAgree : AgreesOn among glob)
    (hNone : ∀ path, (∀ c ∈ path, among c) →
      ¬ GlobMatches glob path) :
    Hopeless among glob where
  hasVoid := by
    by_contra hFertile
    rcases Pieces.exists_mem_of_fertile hFertile with
      ⟨word, hWord, hMeant⟩
    exact hNone word hWord hMeant
  never := by
    intro sets hSets
    by_contra hFertile
    rcases (exists_match_iff hGlob).mpr
      ⟨sets, hSets, hFertile⟩ with ⟨path, hPath, hMatch⟩
    exact hNone path hPath ((hAgree path hPath).mp hMatch)

/- A glob with such a class has no path, where they agree. -/
theorem hopeless_of_unread
    (hGlob : '\\' ∉ glob)
    (hUnread : ∃ item ∈ globItems glob, ¬ IsRead item)
    (hAgree : AgreesOn among glob) :
    Hopeless among glob := by
  apply hopeless_of_no_path hGlob hAgree
  intro path hPath hMeant
  rcases exists_short_match hGlob hUnread hPath
      ((hAgree path hPath).mpr hMeant) with
    ⟨short, hShortPath, hShortMatch, hShort⟩
  have hShortMeant :=
    (hAgree short hShortPath).mp hShortMatch
  have hLength := Pieces.length_letters_le hShortMeant
  rw [globMeaning, length_letters] at hLength
  omega

/- The classes decide, if the slash is one of the letters. -/
theorem faithful_or_hopeless
    (hGlob : '\\' ∉ glob)
    (hSlash : among '/')
    (hAgree : AgreesOn among glob) :
    FaithfulGlob glob ∨ Hopeless among glob := by
  by_cases hItems : ∀ item ∈ globItems glob, IsRead item
  · have hSame : ∀ path, (∀ c ∈ path, among c) →
        (path ∈ Pieces.language (readPieces glob) ↔
          path ∈ Pieces.language (globMeaning glob)) := by
      intro path hPath
      rw [← matchesRegex_iff hGlob hItems]
      exact hAgree path hPath
    have hLength :
        (Pieces.letters (readPieces glob)).length =
          (Pieces.letters (globMeaning glob)).length := by
      rw [readPieces, globMeaning, length_letters,
        length_letters]
    rcases Pieces.letters_agree_or_barren hLength hSame with
      hSets | ⟨hRead, hMeant⟩
    · left
      intro item hMem
      cases item with
      | cls inside =>
          have hWell := wellFormed_of_mem_globItems hGlob hMem
          refine (readAccepts_eq_classMeaning_iff hWell
            hSlash).mp ⟨hItems _ hMem, ?_⟩
          exact fun c => same_classes hSets hMem
      | char c => trivial
      | one => trivial
      | star => trivial
      | everything => trivial
      | dirs => trivial
      | below => trivial
    · right
      apply hopeless_of_no_path hGlob hAgree
      exact fun path hPath =>
        Pieces.not_mem_of_barren hPath hMeant
  · right
    simp only [not_forall] at hItems
    rcases hItems with ⟨item, hMem, hUnread⟩
    exact hopeless_of_unread hGlob ⟨item, hMem, hUnread⟩
      hAgree

end Comparison

------------------------------------------------------------
-- Ends Of Lines
------------------------------------------------------------

/- An item that stands for directories of any name. -/
def spansDirs : GlobItem → Bool
| .everything => true
| .dirs => true
| .below => true
| _ => false

section Spans

variable {glob : List Char}

theorem isRead_of_faithful
    (hGlob : '\\' ∉ glob)
    (hFaithful : FaithfulGlob glob) :
    ∀ item ∈ globItems glob, IsRead item := by
  intro item hMem
  cases item with
  | cls inside =>
      have hWell := wellFormed_of_mem_globItems hGlob hMem
      exact (readAccepts_eq_of_faithful hWell
        (hFaithful _ hMem)).1
  | char c => trivial
  | one => trivial
  | star => trivial
  | everything => trivial
  | dirs => trivial
  | below => trivial

/- Only the items over directories see the ends of lines. -/
theorem agree_of_faithful
    (hGlob : '\\' ∉ glob)
    (hFaithful : FaithfulGlob glob)
    {path : List Char}
    (hPath : ∀ c ∈ path, dotAccepts c = true ∨
      ∀ item ∈ globItems glob, spansDirs item = false) :
    matchesRegex glob path = true ↔
      GlobMatches glob path := by
  rw [matchesRegex_iff hGlob
    (isRead_of_faithful hGlob hFaithful)]
  refine Pieces.language_congr ?_ hPath
  rw [readPieces, globMeaning,
    List.forall₂_map_left_iff, List.forall₂_map_right_iff,
    List.forall₂_same]
  intro item hMem word hWord
  have hLines : spansDirs item = true →
      ∀ c ∈ word, dotAccepts c = true := by
    intro hSpans c hIn
    rcases hWord c hIn with hDot | hNone
    · exact hDot
    · rw [hNone item hMem] at hSpans
      cases hSpans
  cases item with
  | char c => exact Iff.rfl
  | one => exact Iff.rfl
  | star => exact Iff.rfl
  | cls inside =>
      have hWell := wellFormed_of_mem_globItems hGlob hMem
      have hSame := (readAccepts_eq_of_faithful hWell
        (hFaithful _ hMem)).2
      change (∃ c, readAccepts inside c = true ∧ word = [c]) ↔
        ∃ c, classMeaning inside c = true ∧ word = [c]
      simp only [hSame]
  | everything =>
      exact iff_of_true (hLines rfl) (fun _ _ => rfl)
  | dirs =>
      have hLines := hLines rfl
      refine or_congr Iff.rfl (exists_congr fun path => ?_)
      refine and_congr_left fun hEq => ?_
      refine iff_of_true ?_ (fun _ _ => rfl)
      intro c hIn
      apply hLines c
      rw [hEq]
      exact List.mem_append_left _ hIn
  | below =>
      have hLines := hLines rfl
      refine or_congr Iff.rfl (exists_congr fun path => ?_)
      refine and_congr_left fun hEq => ?_
      refine iff_of_true ?_ (fun _ _ => rfl)
      intro c hIn
      apply hLines c
      rw [hEq]
      exact List.mem_cons_of_mem _ hIn

/- An end of a line and a slash after it. -/
theorem count_readPieces
    {piece : Piece Char}
    (hPiece : piece ∈ readPieces glob)
    {word : List Char}
    (hWord : word ∈ piece.language) :
    Pieces.count '\n' '/' word = 0 := by
  rcases List.mem_map.mp hPiece with ⟨item, _, rfl⟩
  have hLetter : ∀ p : Char → Bool,
      word ∈ (Piece.letter p).language →
        '\n' ∉ word ∨ '/' ∉ word := by
    rintro p ⟨c, _, rfl⟩
    by_cases hSlash : c = '/'
    · left
      simp [hSlash]
    · right
      simp [Ne.symm hSlash]
  have hDots : ∀ path : List Char,
      (∀ c ∈ path, dotAccepts c = true) → '\n' ∉ path :=
    fun path hPath hMem => nomatch hPath _ hMem
  apply Pieces.count_eq_zero_of_not_mem
  cases item with
  | char c => exact hLetter _ hWord
  | one => exact hLetter _ hWord
  | cls inside => exact hLetter _ hWord
  | star => exact Or.inr hWord
  | everything => exact Or.inl (hDots word hWord)
  | dirs =>
      left
      rcases hWord with rfl | ⟨path, hPath, rfl⟩
      · exact List.not_mem_nil
      · simpa using hDots path hPath
  | below =>
      left
      rcases hWord with rfl | ⟨path, hPath, rfl⟩
      · exact List.not_mem_nil
      · simpa using hDots path hPath

/- Directories may have any number of such names. -/
theorem exists_span
    {item : GlobItem}
    (hSpans : spansDirs item = true)
    (k : ℕ) :
    ∃ before after, (∀ c ∈ before ++ after, c = '/') ∧
      before ++ (Pieces.pairs '\n' '/' k ++ after) ∈
        (itemPiece (fun _ => true) classMeaning
          item).language := by
  cases item with
  | everything =>
      exact ⟨[], [], nofun, fun _ _ => rfl⟩
  | dirs =>
      refine ⟨[], ['/'], by simp, Or.inr ⟨_, ?_, rfl⟩⟩
      exact fun _ _ => rfl
  | below =>
      refine ⟨['/'], [], by simp, Or.inr ⟨_, ?_, rfl⟩⟩
      exact fun _ _ => rfl
  | char c => cases hSpans
  | one => cases hSpans
  | cls inside => cases hSpans
  | star => cases hSpans

theorem disagrees_of_span
    (hGlob : '\\' ∉ glob)
    (hFaithful : FaithfulGlob glob)
    {among : Char → Prop}
    (hFertile : ¬ HasVoid among glob)
    (hSlash : among '/')
    (hLine : among '\n')
    {item : GlobItem}
    (hMem : item ∈ globItems glob)
    (hSpans : spansDirs item = true) :
    ¬ AgreesOn among glob := by
  intro hAgree
  let k := (readPieces glob).length + 1
  rcases exists_span hSpans k with
    ⟨before, after, hSlashes, hSpan⟩
  rcases Pieces.exists_mem_around hFertile
      (List.mem_map_of_mem hMem) hSpan with
    ⟨left, right, hAround, hMeant⟩
  have hPath : ∀ c ∈ left ++ (before ++
      (Pieces.pairs '\n' '/' k ++ after) ++ right),
        among c := by
    intro c hC
    simp only [List.mem_append] at hC hSlashes hAround
    rcases hC with hL | (hB | hP | hA) | hR
    · exact hAround c (Or.inl hL)
    · rw [hSlashes c (Or.inl hB)]
      exact hSlash
    · rcases Pieces.eq_or_eq_of_mem_pairs hP with rfl | rfl
      · exact hLine
      · exact hSlash
    · rw [hSlashes c (Or.inr hA)]
      exact hSlash
    · exact hAround c (Or.inr hR)
  have hRead := (matchesRegex_iff hGlob
    (isRead_of_faithful hGlob hFaithful)).mp
      ((hAgree _ hPath).mpr hMeant)
  have hFew := Pieces.count_le_of_mem
    (fun piece hPiece word => count_readPieces hPiece) hRead
  have hMany := Pieces.le_count_append_pairs '\n' '/'
    (left ++ before) (after ++ right) k
  simp only [List.append_assoc] at hFew hMany
  omega

end Spans

------------------------------------------------------------
-- Exactly When
------------------------------------------------------------

/- A text is a sequence of bytes. -/
def IsByte (c : Char) : Prop :=
  c.toNat < 256

def InLine (c : Char) : Prop :=
  IsByte c ∧ dotAccepts c = true

instance (c : Char) : Decidable (IsByte c) :=
  inferInstanceAs (Decidable (c.toNat < 256))

instance (c : Char) : Decidable (InLine c) :=
  inferInstanceAs (Decidable (_ ∧ _))

/-
  The expression is right for all names on one line just if
  every class of the glob is read as it is meant.  It is right
  for all paths just if no item stands for directories either.
  Globs that have no path at all are the exception.
-/
theorem globToRegex_correct_iff
    {glob : List Char}
    (hGlob : '\\' ∉ glob) :
    (AgreesOn InLine glob ↔
      FaithfulGlob glob ∨ Hopeless InLine glob) ∧
    (AgreesOn IsByte glob ↔
      (FaithfulGlob glob ∧
        ∀ item ∈ globItems glob, spansDirs item = false) ∨
      Hopeless IsByte glob) := by
  constructor
  · constructor
    · exact faithful_or_hopeless hGlob (by decide)
    · rintro (hFaithful | hHopeless)
      · exact fun path hPath => agree_of_faithful hGlob
          hFaithful (fun c hMem => Or.inl (hPath c hMem).2)
      · exact agreesOn_of_hopeless hGlob hHopeless
  · constructor
    · intro hAgree
      rcases faithful_or_hopeless hGlob (by decide) hAgree
        with hFaithful | hHopeless
      · by_cases hVoid : HasVoid IsByte glob
        · right
          apply hopeless_of_no_path hGlob hAgree
          exact fun path hPath =>
            Pieces.not_mem_of_barren hPath hVoid
        · left
          refine ⟨hFaithful, fun item hMem => ?_⟩
          rw [← Bool.not_eq_true]
          exact fun hSpans => disagrees_of_span hGlob
            hFaithful hVoid (by decide) (by decide) hMem
            hSpans hAgree
      · exact Or.inr hHopeless
    · rintro (⟨hFaithful, hSpans⟩ | hHopeless)
      · exact fun path _ => agree_of_faithful hGlob hFaithful
          (fun _ _ => Or.inr hSpans)
      · exact agreesOn_of_hopeless hGlob hHopeless

/- `*.[ch]pp` is right for all names on one line. -/
theorem globToRegex_correct_iff_sources :
    AgreesOn InLine "*.[ch]pp".toList :=
  (globToRegex_correct_iff (by decide)).1.mpr
    (Or.inl (by decide))

/- `x[!a]y` matches `x/y`, though no class has the slash. -/
theorem negated_class_matches_slash :
    ¬ ∀ glob path, '\\' ∉ glob →
      (∀ c ∈ path, IsByte c) →
        (matchesRegex glob path = true ↔
          GlobMatches glob path) := by
  intro hAll
  have hPath : ∀ c ∈ "x/y".toList, IsByte c := by
    intro c hMem
    have hCases : c = 'x' ∨ c = '/' ∨ c = 'y' := by
      simpa using hMem
    rcases hCases with rfl | rfl | rfl
    all_goals decide
  have hHere : "x/y".toList ∈
      Pieces.language (globMeaning "x[!a]y".toList) :=
    (hAll "x[!a]y".toList "x/y".toList (by decide)
      hPath).mp (by decide +kernel)
  have hLength : "x/y".toList.length =
      (Pieces.letters
        (globMeaning "x[!a]y".toList)).length := by
    decide +kernel
  rw [Pieces.mem_of_length_eq hLength] at hHere
  cases hHere with
  | cons _ hRest =>
      cases hRest with
      | cons hSlash _ => exact absurd hSlash (by decide)

end FileFilter

end VeritasSync
