import VeritasSync.Storage.GlobCompiler
import VeritasSync.Storage.RuleOrder

/-
  The rules whose shortcut has more paths than their pattern:
  a suffix that is fixed at the root, and a fixed path without
  a slash at its end.

  Main declarations:
    * `FileFilter.Overreaches`
    * `FileFilter.hit_without_match_iff`
    * `FileFilter.shouldIgnore_eq_lastMatch_iff_reach`
-/

namespace VeritasSync

namespace FileFilter

open StdRegex

------------------------------------------------------------
-- Patterns Without Classes
------------------------------------------------------------

section Patterns

variable {pattern : List Char}

theorem unrooted_of_rooted
    (hRooted : pattern.head? = some '/') :
    pattern = '/' :: unrooted pattern := by
  cases pattern with
  | nil => cases hRooted
  | cons c rest =>
      rw [List.head?_cons, Option.some.injEq] at hRooted
      rw [hRooted]
      rfl

theorem unrooted_of_not_rooted
    (hRooted : pattern.head? ≠ some '/') :
    unrooted pattern = pattern := by
  rw [unrooted, if_neg (by simpa using hRooted)]

theorem globItems_of_plain_end
    (hLast : pattern.getLast? ≠ some '/') :
    globItems pattern =
      (if '/' ∈ pattern then [] else [.dirs]) ++
        itemsOf 0 (unrooted pattern) := by
  simp [globItems, unrooted, hLast]

theorem globItems_of_slash_end
    (hLast : pattern.getLast? = some '/') :
    globItems pattern =
      (if '/' ∈ pattern.dropLast then [] else [.dirs]) ++
        itemsOf 0 (unrooted pattern.dropLast) ++
          [.below] := by
  simp [globItems, unrooted, hLast]

theorem itemsOf_of_plain
    {text : List Char}
    (hPlain : hasWildcard text = false) :
    itemsOf 0 text = text.map .char := by
  induction text with
  | nil => rfl
  | cons c rest ih =>
      rw [hasWildcard, List.any_cons, Bool.or_eq_false_iff]
        at hPlain
      have hHere : c ≠ '*' ∧ c ≠ '?' ∧ c ≠ '[' := by
        simpa [and_assoc] using hPlain.1
      rw [itemsOf_char hHere.1 hHere.2.1 hHere.2.2,
        ih hPlain.2, List.map_cons]

/- Characters stand for themselves, one after the other. -/
theorem mem_language_chars_iff
    {dot : Char → Bool}
    {accepts : List Char → Char → Bool}
    {text word : List Char} :
    word ∈ Pieces.language ((text.map GlobItem.char).map
        (itemPiece dot accepts)) ↔
      word = text := by
  induction text generalizing word with
  | nil => exact Pieces.mem_language_nil_iff
  | cons c text ih =>
      rw [List.map_cons, List.map_cons,
        Pieces.mem_language_cons_iff]
      constructor
      · rintro ⟨left, ⟨d, hLetter, rfl⟩, right, hRight, rfl⟩
        rw [ih] at hRight
        rw [hRight, eq_of_beq hLetter]
        rfl
      · rintro rfl
        exact ⟨[c], ⟨c, beq_self_eq_true c, rfl⟩, text,
          ih.mpr rfl, rfl⟩

/- Without classes the expression is right on one line. -/
theorem matchesRegex_iff_globMatches
    (hPattern : '\\' ∉ pattern)
    (hClasses : FaithfulGlob pattern)
    {path : List Char}
    (hPath : ∀ c ∈ path, dotAccepts c = true) :
    matchesRegex pattern path = true ↔
      GlobMatches pattern path :=
  agree_of_faithful hPattern hClasses
    (fun c hMem => Or.inl (hPath c hMem))

end Patterns

------------------------------------------------------------
-- Suffixes
------------------------------------------------------------

section Suffixes

variable {pattern ext path : List Char}

theorem suffixOf_eq_some
    (hSuffix : suffixOf pattern = some ext) :
    pattern = '*' :: ext ∧ ext.head? = some '.' ∧
      ext.getLast? ≠ some '/' ∧ '/' ∉ ext ∧
        hasWildcard ext = false := by
  unfold suffixOf at hSuffix
  split at hSuffix
  next rest =>
    split at hSuffix
    next => cases hSuffix
    next hRest =>
      rw [← Option.some.inj hSuffix]
      simp only [not_or, Bool.not_eq_true] at hRest
      have hSlash : '/' ∉ '.' :: rest := by
        simpa using hRest.2.2
      refine ⟨rfl, rfl, ?_, hSlash, ?_⟩
      · exact fun hLast =>
          hSlash (List.mem_of_getLast? hLast)
      · rw [hasWildcard, List.any_cons]
        exact hRest.2.1
  next => cases hSuffix

/- What is found from the last dot on ends the path. -/
theorem suffix_of_fromLastDot
    (hDot : fromLastDot path = some ext) :
    ext <:+ path := by
  induction path with
  | nil => cases hDot
  | cons c rest ih =>
      rw [fromLastDot] at hDot
      cases hRest : fromLastDot rest with
      | some found =>
          rw [hRest] at hDot
          exact (ih (hRest.trans hDot)).trans
            (List.suffix_cons c rest)
      | none =>
          rw [hRest] at hDot
          by_cases hHere : c = '.'
          · rw [if_pos hHere, Option.some.injEq] at hDot
            rw [hDot]
          · rw [if_neg hHere] at hDot
            cases hDot

theorem globItems_of_suffix
    (hSuffix : suffixOf (unrooted pattern) = some ext) :
    globItems pattern =
      (if pattern.head? = some '/' then [] else [.dirs]) ++
        .star :: ext.map .char := by
  rcases suffixOf_eq_some hSuffix with
    ⟨hEq, hDot, hLast, hSlash, hPlain⟩
  have hStar : ('*' :: ext).getLast? = ext.getLast? := by
    cases ext with
    | nil => cases hDot
    | cons c rest => exact List.getLast?_cons_cons
  have hItems : itemsOf 0 ('*' :: ext) =
      .star :: ext.map .char := by
    rw [← itemsOf_of_plain hPlain]
    cases ext with
    | nil => cases hDot
    | cons c rest =>
        rw [Option.some.inj hDot]
        rfl
  by_cases hRooted : pattern.head? = some '/'
  · have hPattern := unrooted_of_rooted hRooted
    rw [hEq] at hPattern
    rw [globItems_of_plain_end, hEq, hItems, if_pos hRooted,
      if_pos]
    · rw [hPattern]
      exact List.mem_cons_self
    · rw [hPattern, List.getLast?_cons_cons, hStar]
      exact hLast
  · have hPattern := unrooted_of_not_rooted hRooted
    rw [hEq] at hPattern
    rw [globItems_of_plain_end, hEq, hItems, if_neg hRooted,
      if_neg]
    · rw [← hPattern]
      simpa using hSlash
    · rw [← hPattern, hStar]
      exact hLast

theorem hits_of_suffix
    (hSuffix : suffixOf (unrooted pattern) = some ext) :
    hits (shortcutsOf pattern) path = true ↔
      fromLastDot path = some ext := by
  have hWild : hasWildcard (unrooted pattern) = true := by
    rw [(suffixOf_eq_some hSuffix).1]
    rfl
  have hNoDir : ∀ rooted,
      fixedPathOf rooted (unrooted pattern) = none := by
    intro rooted
    rw [fixedPathOf, if_pos hWild]
  have hFast : shortcutsOf pattern = ⟨[ext], []⟩ := by
    unfold shortcutsOf
    rw [hSuffix, hNoDir]
    split <;> rfl
  rw [hFast, hits, hasExt]
  cases hDot : fromLastDot path with
  | none => simp [isInDir]
  | some found => simp [isInDir]

/- Directories, and a name in the last of them. -/
theorem exists_dirs_name
    (path : List Char) :
    ∃ dirs name, path = dirs ++ name ∧ '/' ∉ name ∧
      (dirs = [] ∨ ∃ parent, dirs = parent ++ ['/']) := by
  induction path with
  | nil => exact ⟨[], [], rfl, List.not_mem_nil, Or.inl rfl⟩
  | cons c rest ih =>
      rcases ih with
        ⟨dirs, name, rfl, hName, rfl | ⟨parent, rfl⟩⟩
      · by_cases hSlash : c = '/'
        · refine ⟨['/'], name, ?_, hName, Or.inr ⟨[], rfl⟩⟩
          rw [hSlash]
          rfl
        · refine ⟨[], c :: name, rfl, ?_, Or.inl rfl⟩
          simp [Ne.symm hSlash, hName]
      · exact ⟨c :: (parent ++ ['/']), name, rfl, hName,
          Or.inr ⟨c :: parent, rfl⟩⟩

/- The name that a suffix ends is anything without a slash. -/
theorem globMatches_suffix_iff
    (hSuffix : suffixOf (unrooted pattern) = some ext)
    (stem : List Char) :
    GlobMatches pattern (stem ++ ext) ↔
      (pattern.head? = some '/' → '/' ∉ stem) := by
  have hName : ∀ word : List Char,
      word ∈ Pieces.language
        ((GlobItem.star :: ext.map .char).map
          (itemPiece (fun _ => true) classMeaning)) ↔
      ∃ name : List Char, '/' ∉ name ∧ name ++ ext = word := by
    intro word
    rw [List.map_cons, Pieces.mem_language_cons_iff]
    simp only [mem_language_chars_iff]
    constructor
    · rintro ⟨name, hSlash, right, rfl, hJoin⟩
      exact ⟨name, hSlash, hJoin⟩
    · rintro ⟨name, hSlash, hJoin⟩
      exact ⟨name, hSlash, ext, rfl, hJoin⟩
  rw [GlobMatches, globMeaning, globItems_of_suffix hSuffix]
  by_cases hRooted : pattern.head? = some '/'
  · rw [if_pos hRooted, List.nil_append, hName]
    simp [hRooted]
  · rw [if_neg hRooted]
    refine iff_of_true ?_ (fun hHead => absurd hHead hRooted)
    rcases exists_dirs_name stem with
      ⟨dirs, name, rfl, hSlash, hDirs⟩
    refine Pieces.mem_language_cons_iff.mpr
      ⟨dirs, ?_, name ++ ext, (hName _).mpr
        ⟨name, hSlash, rfl⟩, (List.append_assoc ..).symm⟩
    rcases hDirs with rfl | ⟨parent, rfl⟩
    · exact Or.inl rfl
    · exact Or.inr ⟨parent, fun _ _ => rfl, rfl⟩

end Suffixes

------------------------------------------------------------
-- Fixed Paths
------------------------------------------------------------

/- A pattern that is looked up by the path that it fixes. -/
structure Fixes (pattern dir : List Char) : Prop where
  plain : hasWildcard (unrooted pattern) = false
  slash : '/' ∈ pattern
  nonempty : unrooted pattern ≠ []
  dir_eq : dir =
    if pattern.getLast? = some '/' then
      (unrooted pattern).dropLast
    else
      unrooted pattern

section FixedPaths

variable {pattern dir path : List Char}

theorem getLast?_unrooted
    (hSome : unrooted pattern ≠ []) :
    (unrooted pattern).getLast? = pattern.getLast? := by
  by_cases hRooted : pattern.head? = some '/'
  · have hPattern := unrooted_of_rooted hRooted
    cases hRest : unrooted pattern with
    | nil => exact absurd hRest hSome
    | cons c rest =>
        rw [hPattern, hRest, List.getLast?_cons_cons]
  · rw [unrooted_of_not_rooted hRooted]

theorem slash_mem_iff :
    ((pattern.head? == some '/') ||
        (unrooted pattern).contains '/') = true ↔
      '/' ∈ pattern := by
  by_cases hRooted : pattern.head? = some '/'
  · refine iff_of_true (by simp [hRooted]) ?_
    rw [unrooted_of_rooted hRooted]
    exact List.mem_cons_self
  · rw [unrooted_of_not_rooted hRooted]
    simp [hRooted]

theorem fixedPathOf_eq_some_iff
    (hSome : unrooted pattern ≠ []) :
    fixedPathOf (pattern.head? == some '/')
        (unrooted pattern) = some dir ↔
      Fixes pattern dir := by
  unfold fixedPathOf
  rw [getLast?_unrooted hSome]
  constructor
  · intro hFixed
    split at hFixed
    next => cases hFixed
    next hPlain =>
      split at hFixed
      next hSlash =>
        refine ⟨by simpa using hPlain,
          slash_mem_iff.mp hSlash, hSome, ?_⟩
        rw [← Option.some.inj hFixed]
        simp
      next => cases hFixed
  · intro hFixes
    rw [if_neg (by simp [hFixes.plain]),
      if_pos (slash_mem_iff.mpr hFixes.slash),
      hFixes.dir_eq]
    simp

theorem suffixOf_of_fixes
    (hFixes : Fixes pattern dir) :
    suffixOf (unrooted pattern) = none := by
  cases hSuffix : suffixOf (unrooted pattern) with
  | none => rfl
  | some ext =>
      have hPlain := hFixes.plain
      rw [(suffixOf_eq_some hSuffix).1] at hPlain
      cases hPlain

theorem hits_of_fixes
    (hFixes : Fixes pattern dir) :
    hits (shortcutsOf pattern) path = true ↔
      path = dir ∨ dir ++ ['/'] <+: path := by
  have hFast : shortcutsOf pattern = ⟨[], [dir]⟩ := by
    unfold shortcutsOf
    rw [suffixOf_of_fixes hFixes, if_neg hFixes.nonempty,
      (fixedPathOf_eq_some_iff hFixes.nonempty).mpr hFixes]
    rfl
  rw [hFast, hits, hasExt]
  cases fromLastDot path with
  | none => simp [isInDir]
  | some found => simp [isInDir]

/- A pattern of no such kind is not in the tables. -/
theorem hits_of_neither
    (hSuffix : suffixOf (unrooted pattern) = none)
    (hFixes : ∀ dir, ¬ Fixes pattern dir) :
    hits (shortcutsOf pattern) path = false := by
  have hFast : shortcutsOf pattern = ⟨[], []⟩ := by
    unfold shortcutsOf
    rw [hSuffix]
    split
    next => rfl
    next hSome =>
      cases hFixed : fixedPathOf (pattern.head? == some '/')
          (unrooted pattern) with
      | none => rfl
      | some dir =>
          exact absurd
            ((fixedPathOf_eq_some_iff hSome).mp hFixed)
            (hFixes dir)
  rw [hFast, hits, hasExt]
  cases fromLastDot path <;> rfl

/- The pattern is the fixed path, and nothing below it. -/
theorem globMatches_of_plain_end
    (hFixes : Fixes pattern dir)
    (hLast : pattern.getLast? ≠ some '/') :
    GlobMatches pattern path ↔ path = dir := by
  rw [GlobMatches, globMeaning,
    globItems_of_plain_end hLast, if_pos hFixes.slash,
    List.nil_append, itemsOf_of_plain hFixes.plain,
    mem_language_chars_iff, hFixes.dir_eq, if_neg hLast]

theorem unrooted_dropLast
    (hSome : unrooted pattern ≠ []) :
    unrooted pattern.dropLast =
      (unrooted pattern).dropLast := by
  by_cases hRooted : pattern.head? = some '/'
  · have hPattern := unrooted_of_rooted hRooted
    cases hRest : unrooted pattern with
    | nil => exact absurd hRest hSome
    | cons c rest =>
        rw [hPattern, hRest]
        rfl
  · rw [unrooted_of_not_rooted hRooted]
    apply unrooted_of_not_rooted
    cases pattern with
    | nil => nofun
    | cons c rest =>
        cases rest with
        | nil => nofun
        | cons d rest => exact hRooted

theorem itemsOf_of_slash_end
    (hFixes : Fixes pattern dir)
    (hLast : pattern.getLast? = some '/') :
    itemsOf 0 (unrooted pattern.dropLast) =
      dir.map .char := by
  have hDir := hFixes.dir_eq
  rw [if_pos hLast] at hDir
  have hPlain : hasWildcard dir = false := by
    have hAll := hFixes.plain
    rw [hasWildcard, List.any_eq_false] at hAll ⊢
    rw [hDir]
    exact fun c hMem => hAll c (List.mem_of_mem_dropLast hMem)
  rw [unrooted_dropLast hFixes.nonempty, ← hDir,
    itemsOf_of_plain hPlain]

theorem globItems_of_fixes
    (hFixes : Fixes pattern dir)
    {item : GlobItem}
    (hMem : item ∈ globItems pattern) :
    item = .dirs ∨ (∃ c, item = .char c) ∨ item = .below := by
  by_cases hLast : pattern.getLast? = some '/'
  · rw [globItems_of_slash_end hLast,
      itemsOf_of_slash_end hFixes hLast] at hMem
    split at hMem <;> simp at hMem <;> grind
  · rw [globItems_of_plain_end hLast, if_pos hFixes.slash,
      itemsOf_of_plain hFixes.plain, List.nil_append]
      at hMem
    rcases List.mem_map.mp hMem with ⟨c, _, rfl⟩
    exact Or.inr (Or.inl ⟨c, rfl⟩)

/- With a slash at its end it is all that is below, too. -/
theorem globMatches_of_slash_end
    (hFixes : Fixes pattern dir)
    (hLast : pattern.getLast? = some '/')
    (hPath : path = dir ∨ dir ++ ['/'] <+: path) :
    GlobMatches pattern path := by
  have hBelow : ∃ rest, path = dir ++ rest ∧
      rest ∈ Pieces.language ([GlobItem.below].map
        (itemPiece (fun _ => true) classMeaning)) := by
    rcases hPath with hHere | ⟨below, hBelow⟩
    · refine ⟨[], by rw [hHere, List.append_nil], ?_⟩
      exact Pieces.mem_language_cons_iff.mpr
        ⟨[], Or.inl rfl, [],
          Pieces.mem_language_nil_iff.mpr rfl, rfl⟩
    · refine ⟨'/' :: below, ?_, ?_⟩
      · rw [← hBelow, List.append_assoc]
        rfl
      · exact Pieces.mem_language_cons_iff.mpr
          ⟨'/' :: below, Or.inr ⟨below, fun _ _ => rfl, rfl⟩,
            [], Pieces.mem_language_nil_iff.mpr rfl,
            List.append_nil _⟩
  rcases hBelow with ⟨rest, rfl, hRest⟩
  rw [GlobMatches, globMeaning,
    globItems_of_slash_end hLast,
    itemsOf_of_slash_end hFixes hLast, List.map_append]
  refine Pieces.mem_language_append ?_ hRest
  rw [List.map_append, ← List.nil_append dir]
  refine Pieces.mem_language_append ?_
    (mem_language_chars_iff.mpr rfl)
  split
  next => exact Pieces.mem_language_nil_iff.mpr rfl
  next =>
    exact Pieces.mem_language_cons_iff.mpr
      ⟨[], Or.inl rfl, [],
        Pieces.mem_language_nil_iff.mpr rfl, rfl⟩

end FixedPaths

------------------------------------------------------------
-- Reaching Too Far
------------------------------------------------------------

/-
  A path that is in the shortcut of a rule, but is not one of
  its paths: one in a directory, for a suffix that is fixed at
  the root, and one below a fixed path that is not said to be
  a directory.
-/
inductive Overreaches (pattern path : List Char) : Prop where
| suffix (ext : List Char) :
    suffixOf (unrooted pattern) = some ext →
    fromLastDot path = some ext →
    pattern.head? = some '/' → '/' ∈ path →
    Overreaches pattern path
| below (dir : List Char) :
    Fixes pattern dir →
    pattern.getLast? ≠ some '/' →
    dir ++ ['/'] <+: path →
    Overreaches pattern path

section Reach

variable {pattern path : List Char}

theorem faithful_of_suffix
    {ext : List Char}
    (hSuffix : suffixOf (unrooted pattern) = some ext) :
    FaithfulGlob pattern := by
  intro item hMem
  rw [globItems_of_suffix hSuffix] at hMem
  cases item with
  | cls inside =>
      split at hMem <;> simp at hMem
  | _ => trivial

theorem faithful_of_fixes
    {dir : List Char}
    (hFixes : Fixes pattern dir) :
    FaithfulGlob pattern := by
  intro item hMem
  cases item with
  | cls inside =>
      rcases globItems_of_fixes hFixes hMem with
        hDirs | ⟨c, hChar⟩ | hBelow
      · cases hDirs
      · cases hChar
      · cases hBelow
  | _ => trivial

/- A path below the fixed one is missed without the slash. -/
theorem fixed_hit_iff
    {dir : List Char}
    (hFixes : Fixes pattern dir)
    (hSuffix : suffixOf (unrooted pattern) = none) :
    (path = dir ∨ dir ++ ['/'] <+: path) ∧
        ¬ GlobMatches pattern path ↔
      Overreaches pattern path := by
  by_cases hLast : pattern.getLast? = some '/'
  · refine iff_of_false ?_ ?_
    · exact fun hBoth => hBoth.2
        (globMatches_of_slash_end hFixes hLast hBoth.1)
    · intro hReach
      cases hReach with
      | suffix ext hOther =>
          rw [hSuffix] at hOther
          cases hOther
      | below other _ hNot => exact hNot hLast
  · rw [globMatches_of_plain_end hFixes hLast]
    constructor
    · rintro ⟨hHere | hBelow, hNot⟩
      · exact absurd hHere hNot
      · exact .below dir hFixes hLast hBelow
    · intro hReach
      cases hReach with
      | suffix ext hOther =>
          rw [hSuffix] at hOther
          cases hOther
      | below other hOther _ hBelow =>
          have hSame : other = dir :=
            hOther.dir_eq.trans hFixes.dir_eq.symm
          rw [hSame] at hBelow
          refine ⟨Or.inr hBelow, ?_⟩
          rintro rfl
          have hLong := hBelow.length_le
          rw [List.length_append, List.length_singleton]
            at hLong
          omega

/- On one line these are the paths in between. -/
theorem hit_without_match_iff
    (hPattern : '\\' ∉ pattern)
    (hPath : ∀ c ∈ path, dotAccepts c = true) :
    hits (shortcutsOf pattern) path = true ∧
        matchesRegex pattern path = false ↔
      Overreaches pattern path := by
  rw [← Bool.not_eq_true]
  cases hSuffix : suffixOf (unrooted pattern) with
  | some ext =>
      have hNoFix : ∀ dir, ¬ Fixes pattern dir := by
        intro dir hFixes
        rw [suffixOf_of_fixes hFixes] at hSuffix
        cases hSuffix
      rw [hits_of_suffix hSuffix,
        matchesRegex_iff_globMatches hPattern
          (faithful_of_suffix hSuffix) hPath]
      constructor
      · rintro ⟨hDot, hNot⟩
        rcases suffix_of_fromLastDot hDot with ⟨stem, rfl⟩
        rw [globMatches_suffix_iff hSuffix,
          Classical.not_imp, not_not] at hNot
        exact .suffix ext hSuffix hDot hNot.1
          (List.mem_append_left _ hNot.2)
      · intro hReach
        cases hReach with
        | suffix other hOther hDot hRooted hSlash =>
            have hSame : other = ext :=
              Option.some.inj (hOther.symm.trans hSuffix)
            rw [hSame] at hDot
            rcases suffix_of_fromLastDot hDot with
              ⟨stem, rfl⟩
            refine ⟨hDot, ?_⟩
            rw [globMatches_suffix_iff hSuffix,
              Classical.not_imp, not_not]
            have hExt := suffixOf_eq_some hSuffix
            exact ⟨hRooted, (List.mem_append.mp
              hSlash).resolve_right hExt.2.2.2.1⟩
        | below dir hFixes =>
            exact absurd hFixes (hNoFix dir)
  | none =>
      by_cases hSome : ∃ dir, Fixes pattern dir
      · rcases hSome with ⟨dir, hFixes⟩
        rw [hits_of_fixes hFixes,
          matchesRegex_iff_globMatches hPattern
            (faithful_of_fixes hFixes) hPath]
        exact fixed_hit_iff hFixes hSuffix
      · rw [hits_of_neither hSuffix (not_exists.mp hSome)]
        refine iff_of_false (fun hBoth => nomatch hBoth.1) ?_
        intro hReach
        cases hReach with
        | suffix ext hOther =>
            rw [hSuffix] at hOther
            cases hOther
        | below dir hFixes => exact hSome ⟨dir, hFixes⟩

end Reach

theorem hits_nil
    (path : List Char) :
    hits (shortcutsOf []) path ≠ true := by
  rw [show shortcutsOf [] = ⟨[], []⟩ from rfl, hits, hasExt]
  cases fromLastDot path <;> nofun

theorem matchesPath_eq
    {r : UserRule}
    (hPattern : r.pattern ≠ [])
    (path : List Char) :
    r.matchesPath path = matchesRegex r.pattern path := by
  rw [UserRule.matchesPath, UserRule.regex, if_neg hPattern]
  rfl

/-
  Without escapes, and on one line, the filter differs from
  the last match just where a rule before the first negated
  one reaches too far and no rule matches.
-/
theorem shouldIgnore_eq_lastMatch_iff_reach
    {rules : List UserRule}
    (hRules : ∀ r ∈ rules, '\\' ∉ r.pattern)
    {path : List Char}
    (hSome : path ≠ [])
    (hPath : ∀ c ∈ path, dotAccepts c = true)
    (hDefault : defaults.ignoredByDefault path = false) :
    (loadUserRules rules).shouldIgnore path =
        lastMatchIgnores rules path ↔
      (∃ r ∈ rules, r.matchesPath path = true) ∨
        ∀ r ∈ beforeNegation rules,
          ¬ Overreaches r.pattern path := by
  rw [shouldIgnore_loadUserRules rules hSome hDefault]
  cases hMatch : rules.any (fun r => r.matchesPath path) with
  | true =>
      rw [if_pos rfl]
      exact iff_of_true rfl
        (Or.inl (List.any_eq_true.mp hMatch))
  | false =>
      have hNone := List.any_eq_false.mp hMatch
      have hNoMatch :
          ¬ ∃ r ∈ rules, r.matchesPath path = true :=
        fun ⟨r, hMem, hHere⟩ => hNone r hMem hHere
      rw [if_neg Bool.false_ne_true,
        lastMatchIgnores_of_no_match hMatch,
        or_iff_right hNoMatch, shortcutHits,
        List.any_eq_false]
      refine forall₂_congr fun r hBefore => not_congr ?_
      have hMem : r ∈ rules :=
        (List.takeWhile_prefix _).subset hBefore
      rw [← hit_without_match_iff (hRules r hMem) hPath]
      by_cases hPattern : r.pattern = []
      · have hNoHit : hits (shortcutsOf r.pattern) path ≠
            true := by
          rw [hPattern]
          exact hits_nil path
        exact iff_of_false hNoHit (fun hBoth => hNoHit hBoth.1)
      · have hNot := hNone r hMem
        rw [matchesPath_eq hPattern, Bool.not_eq_true] at hNot
        simp [hNot]

end FileFilter

end VeritasSync
