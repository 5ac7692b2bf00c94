import VeritasSync.Storage.FileFilter

/-
  The last rule that matches decides: what the ordered list
  of the user's rules says of a path, and when the shortcuts
  let the filter say something else.

  Main declarations:
    * `FileFilter.UserRule`, `FileFilter.loadUserRules`
    * `FileFilter.lastMatchIgnores`
    * `FileFilter.Loaded`, `FileFilter.loaded_foldl`
    * `FileFilter.shouldIgnore_eq_lastMatch_iff`
-/

namespace VeritasSync

namespace FileFilter

open StdRegex

------------------------------------------------------------
-- The Rules in Order
------------------------------------------------------------

/- A line of the rules file, and whether its `!` is plain. -/
structure UserRule where
  text : List Char
  bangEscaped : Bool

namespace UserRule

def negated (r : UserRule) : Bool :=
  !r.bangEscaped && r.text.head? == some '!'

def pattern (r : UserRule) : List Char :=
  if r.negated then r.text.tail else r.text

/- A rule with nothing in it is skipped. -/
def regex (r : UserRule) : Option (Regex Char) :=
  if r.pattern = [] then
    none
  else
    compile (globToRegex r.pattern)

def matchesPath
    (r : UserRule)
    (path : List Char) : Bool :=
  r.regex.any (regexMatch path)

def compiled (r : UserRule) : Option CompiledRule :=
  r.regex.map (fun regex => ⟨regex, r.negated⟩)

/- From such a rule on no shortcut is filled. -/
def isNegating (r : UserRule) : Bool :=
  r.negated && r.pattern != []

end UserRule

/- What a pattern that is not negated is looked up by. -/
def shortcutsOf (pattern : List Char) : FastPath where
  exts := (suffixOf (unrooted pattern)).toList
  dirs :=
    if unrooted pattern = [] then
      []
    else
      (fixedPathOf (pattern.head? == some '/')
        (unrooted pattern)).toList

def loadUserRules (rules : List UserRule) : FileFilter :=
  rules.foldl
    (fun f r => parseRule r.text false r.bangEscaped f)
    defaults

/- The rule on a line of the file. -/
def readLine (line : List Char) : UserRule :=
  let line :=
    if line.getLast? == some '\r' then
      line.dropLast
    else
      line
  let line := line.dropWhile isBlank
  ⟨(unescape line).rdropWhile isBlank,
    ['\\', '!'].isPrefixOf line⟩

/- The rules of a file are those on its lines, in order. -/
theorem loadRules_some
    (text : List Char) :
    loadRules (some text) =
      loadUserRules ((text.splitOn '\n').map readLine) := by
  rw [loadUserRules, List.foldl_map]
  rfl

/-
  The last of the rules whose pattern matches decides, and
  nothing is ignored when there is none.
-/
def lastMatchIgnores
    (rules : List UserRule)
    (path : List Char) : Bool :=
  match (rules.filter (fun r => r.matchesPath path)).getLast?
    with
  | some r => !r.negated
  | none => false

/- A path is found in one of the two tables. -/
def hits
    (fast : FastPath)
    (path : List Char) : Bool :=
  hasExt fast path || isInDir fast path

/- The rules that fill the shortcuts. -/
def beforeNegation
    (rules : List UserRule) : List UserRule :=
  rules.takeWhile (fun r => !r.isNegating)

def shortcutHits
    (rules : List UserRule)
    (path : List Char) : Bool :=
  (beforeNegation rules).any (fun r =>
    hits (shortcutsOf r.pattern) path)

------------------------------------------------------------
-- One More Rule
------------------------------------------------------------

theorem hasExt_addExt
    (fast : FastPath)
    (ext path : List Char) :
    hasExt (addExt fast ext) path =
      (hasExt fast path || hasExt ⟨[ext], []⟩ path) := by
  unfold hasExt addExt
  cases fromLastDot path with
  | none => rfl
  | some found =>
      rw [Bool.eq_iff_iff]
      simp [or_comm]

theorem isInDir_addDir
    (fast : FastPath)
    (dir path : List Char) :
    isInDir (addDir fast dir) path =
      (isInDir fast path || isInDir ⟨[], [dir]⟩ path) := by
  rw [Bool.eq_iff_iff]
  simp only [isInDir, addDir, List.any_eq_true,
    List.mem_insert_iff, Bool.or_eq_true,
    List.mem_singleton]
  constructor
  · rintro ⟨other, hSame | hOld, hIn⟩
    · exact Or.inr ⟨other, hSame, hIn⟩
    · exact Or.inl ⟨other, hOld, hIn⟩
  · rintro (⟨other, hOld, hIn⟩ | ⟨other, hSame, hIn⟩)
    · exact ⟨other, Or.inr hOld, hIn⟩
    · exact ⟨other, Or.inl hSame, hIn⟩

/- The shortcuts of one more pattern. -/
theorem hits_addShortcuts
    (fast : FastPath)
    (pattern path : List Char)
    (hPattern : unrooted pattern ≠ []) :
    hits
      (let fast :=
        match suffixOf (unrooted pattern) with
        | some ext => addExt fast ext
        | none => fast
      match fixedPathOf (pattern.head? == some '/')
          (unrooted pattern) with
      | some dir => addDir fast dir
      | none => fast) path =
        (hits fast path ||
          hits (shortcutsOf pattern) path) := by
  have hExts : ∀ exts dirs,
      hasExt ⟨exts, dirs⟩ path = hasExt ⟨exts, []⟩ path :=
    fun _ _ => rfl
  have hDirs : ∀ exts dirs,
      isInDir ⟨exts, dirs⟩ path = isInDir ⟨[], dirs⟩ path :=
    fun _ _ => rfl
  have hNoExt : hasExt ⟨[], []⟩ path = false := by
    unfold hasExt
    split <;> rfl
  have hNoDir : isInDir ⟨[], []⟩ path = false := rfl
  unfold hits shortcutsOf
  rw [if_neg hPattern, hExts _ (Option.toList _),
    hDirs (Option.toList _)]
  cases suffixOf (unrooted pattern) with
  | none =>
      cases fixedPathOf (pattern.head? == some '/')
          (unrooted pattern) with
      | none => simp [hNoExt, hNoDir]
      | some dir =>
          simp only [Option.toList, hNoExt, Bool.false_or,
            isInDir_addDir]
          rw [← Bool.or_assoc]
          rfl
  | some ext =>
      cases fixedPathOf (pattern.head? == some '/')
          (unrooted pattern) with
      | none =>
          simp only [Option.toList, hNoDir, Bool.or_false,
            hasExt_addExt]
          rw [Bool.or_right_comm]
          rfl
      | some dir =>
          simp only [Option.toList, isInDir_addDir]
          have hFirst : hasExt (addDir (addExt fast ext) dir)
              path = hasExt (addExt fast ext) path := rfl
          have hSecond : isInDir (addExt fast ext) path =
              isInDir fast path := rfl
          rw [hFirst, hSecond, hasExt_addExt]
          grind

theorem shortcutsOf_of_unrooted_eq_nil
    {pattern : List Char}
    (hPattern : unrooted pattern = []) :
    shortcutsOf pattern = ⟨[], []⟩ := by
  simp [shortcutsOf, hPattern, suffixOf]

/- What some rules of the user add to a filter. -/
structure Loaded
    (rules : List UserRule)
    (f f' : FileFilter) : Prop where
  default : ∀ path,
    f'.ignoredByDefault path = f.ignoredByDefault path
  compiled : f'.userRules =
    f.userRules ++ rules.filterMap UserRule.compiled
  negation : f'.hasNegation =
    (f.hasNegation || rules.any UserRule.isNegating)
  shortcuts : ∀ path, hits f'.userFast path =
    (hits f.userFast path ||
      (!f.hasNegation && shortcutHits rules path))

/- A rule that is not empty, as it is parsed. -/
theorem loaded_parseUserRule
    {r : UserRule}
    (hPattern : r.pattern ≠ [])
    (f : FileFilter) :
    Loaded [r] f
      (parseUserRule r.negated r.pattern
        { f with
          hasNegation := f.hasNegation || r.negated }) := by
  have hRegex : r.regex = compile (globToRegex r.pattern) :=
    if_neg hPattern
  have hNegating : r.isNegating = r.negated := by
    simp [UserRule.isNegating, hPattern]
  have hPrefix : ∀ path, shortcutHits [r] path =
      (!r.negated && hits (shortcutsOf r.pattern) path) := by
    intro path
    cases hNegated : r.negated <;>
      simp [shortcutHits, beforeNegation, hNegating, hNegated]
  constructor
  · intro path
    unfold parseUserRule
    dsimp only
    split <;> split <;> rfl
  · unfold parseUserRule
    dsimp only
    simp only [List.filterMap_cons, List.filterMap_nil,
      UserRule.compiled, hRegex]
    cases compile (globToRegex r.pattern) with
    | none =>
        simp only [Option.map_none, List.append_nil]
        split <;> rfl
    | some regex =>
        simp only [Option.map_some]
        split <;> rfl
  · have hAfter : ∀ g : FileFilter,
        (parseUserRule r.negated r.pattern g).hasNegation =
          g.hasNegation := by
      intro g
      unfold parseUserRule
      dsimp only
      split <;> split <;> rfl
    rw [hAfter]
    simp [hNegating]
  · intro path
    rw [hPrefix]
    unfold parseUserRule
    dsimp only
    by_cases hFill : (!r.negated &&
        !(f.hasNegation || r.negated) &&
          unrooted r.pattern != []) = true
    · rw [if_pos hFill]
      simp only [Bool.and_eq_true, Bool.not_eq_true',
        Bool.or_eq_false_iff, bne_iff_ne] at hFill
      rcases hFill with ⟨⟨hPlain, hNone, -⟩, hSome⟩
      have hAdded := hits_addShortcuts f.userFast r.pattern
        path hSome
      rw [hPlain, hNone, Bool.not_false, Bool.true_and,
        Bool.true_and, ← hAdded]
      split <;> rfl
    · rw [if_neg hFill]
      have hNothing : (!f.hasNegation && (!r.negated &&
          hits (shortcutsOf r.pattern) path)) = false := by
        by_cases hEmpty : unrooted r.pattern = []
        · rw [shortcutsOf_of_unrooted_eq_nil hEmpty]
          have hNoHit : hits ⟨[], []⟩ path = false := by
            unfold hits hasExt
            split <;> rfl
          rw [hNoHit, Bool.and_false, Bool.and_false]
        · cases hNegated : r.negated <;>
            cases hHas : f.hasNegation <;>
            simp_all
      rw [hNothing, Bool.or_false]
      split <;> rfl

/- A rule with nothing in it changes nothing. -/
theorem loaded_of_pattern_eq_nil
    {r : UserRule}
    (hPattern : r.pattern = [])
    (f : FileFilter) :
    Loaded [r] f f := by
  have hPrefix : ∀ path, shortcutHits [r] path = false := by
    intro path
    have hNoHit : hits (shortcutsOf r.pattern) path =
        false := by
      rw [hPattern, shortcutsOf_of_unrooted_eq_nil rfl]
      unfold hits hasExt
      split <;> rfl
    cases hNegating : r.isNegating <;>
      simp [shortcutHits, beforeNegation, hNegating, hNoHit]
  exact {
    default := fun _ => rfl
    compiled := by
      simp [UserRule.compiled, UserRule.regex, hPattern]
    negation := by
      simp [UserRule.isNegating, hPattern]
    shortcuts := fun path => by
      rw [hPrefix, Bool.and_false, Bool.or_false] }

theorem loaded_parseRule
    (r : UserRule)
    (f : FileFilter) :
    Loaded [r] f
      (parseRule r.text false r.bangEscaped f) := by
  by_cases hText : r.text = []
  · rw [parseRule, if_pos hText]
    apply loaded_of_pattern_eq_nil
    simp [UserRule.pattern, hText]
  · have hBang : (!r.bangEscaped &&
        r.text.head? == some '!') = r.negated := rfl
    rw [parseRule, if_neg hText, if_neg Bool.false_ne_true,
      hBang]
    by_cases hNegated : r.negated = true
    · have hPattern : r.pattern = r.text.tail :=
        if_pos hNegated
      rw [if_pos hNegated]
      split
      next hTail =>
        exact loaded_of_pattern_eq_nil
          (hPattern.trans hTail) f
      next hTail =>
        rw [← hPattern] at hTail ⊢
        have hLoaded := loaded_parseUserRule hTail f
        rw [hNegated, Bool.or_true] at hLoaded
        exact hLoaded
    · have hPattern : r.pattern = r.text := if_neg hNegated
      rw [if_neg hNegated, ← hPattern]
      have hLoaded := loaded_parseUserRule
        (hPattern ▸ hText) f
      rw [Bool.not_eq_true] at hNegated
      rw [hNegated, Bool.or_false] at hLoaded
      exact hLoaded

/- Rules and then more rules. -/
theorem Loaded.cons
    {r : UserRule}
    {rules : List UserRule}
    {f f' f'' : FileFilter}
    (hFirst : Loaded [r] f f')
    (hRest : Loaded rules f' f'') :
    Loaded (r :: rules) f f'' where
  default := fun path =>
    (hRest.default path).trans (hFirst.default path)
  compiled := by
    rw [hRest.compiled, hFirst.compiled, List.append_assoc,
      ← List.filterMap_append, List.singleton_append]
  negation := by
    rw [hRest.negation, hFirst.negation, Bool.or_assoc,
      ← List.any_append, List.singleton_append]
  shortcuts := fun path => by
    have hSplit : shortcutHits (r :: rules) path =
        (!r.isNegating &&
          (hits (shortcutsOf r.pattern) path ||
            shortcutHits rules path)) := by
      cases hNegating : r.isNegating <;>
        simp [shortcutHits, beforeNegation, hNegating]
    have hOne : shortcutHits [r] path =
        (!r.isNegating &&
          hits (shortcutsOf r.pattern) path) := by
      cases hNegating : r.isNegating <;>
        simp [shortcutHits, beforeNegation, hNegating]
    rw [hRest.shortcuts, hFirst.shortcuts, hFirst.negation,
      hSplit, hOne]
    cases hNegating : r.isNegating <;>
      cases f.hasNegation <;>
      simp [hNegating, Bool.or_assoc]

theorem loaded_foldl
    (rules : List UserRule)
    (f : FileFilter) :
    Loaded rules f (rules.foldl
      (fun f r => parseRule r.text false r.bangEscaped f)
        f) := by
  induction rules generalizing f with
  | nil =>
      exact {
        default := fun _ => rfl
        compiled := by simp
        negation := by simp
        shortcuts := fun path => by
          simp [shortcutHits, beforeNegation] }
  | cons r rules ih =>
      exact (loaded_parseRule r f).cons (ih _)

------------------------------------------------------------
-- The Last Match
------------------------------------------------------------

/- Going through the rules ends with the last that matches. -/
theorem foldl_applyRule
    (rules : List UserRule)
    (path : List Char)
    (ignored : Bool) :
    (rules.filterMap UserRule.compiled).foldl
        (applyRule path) ignored =
      match (rules.filter (fun r =>
          r.matchesPath path)).getLast? with
      | some r => !r.negated
      | none => ignored := by
  induction rules generalizing ignored with
  | nil => rfl
  | cons r rules ih =>
      have hStep : (([r].filterMap UserRule.compiled).foldl
          (applyRule path) ignored) =
            if r.matchesPath path then !r.negated
            else ignored := by
        cases hRegex : r.regex with
        | none =>
            simp [UserRule.compiled, UserRule.matchesPath,
              hRegex]
        | some regex =>
            simp [UserRule.compiled, UserRule.matchesPath,
              hRegex, applyRule]
      rw [← List.singleton_append, List.filterMap_append,
        List.foldl_append, hStep, ih, List.filter_append,
        List.getLast?_append]
      cases (rules.filter (fun r =>
          r.matchesPath path)).getLast? with
      | some last => rfl
      | none =>
          by_cases hMatches : r.matchesPath path = true
          · simp [hMatches]
          · simp [hMatches]

/- Without a negated rule any match decides. -/
theorem any_eq_lastMatchIgnores
    {rules : List UserRule}
    (hPlain : rules.any UserRule.isNegating = false)
    (path : List Char) :
    rules.any (fun r => r.matchesPath path) =
      lastMatchIgnores rules path := by
  unfold lastMatchIgnores
  split
  next r hLast =>
    have hMem := List.mem_of_getLast? hLast
    rcases List.mem_filter.mp hMem with ⟨hIn, hMatches⟩
    have hNegating := List.any_eq_false.mp hPlain r hIn
    have hPattern : r.pattern ≠ [] := by
      intro hEmpty
      simp [UserRule.matchesPath, UserRule.regex, hEmpty]
        at hMatches
    have hNegated : r.negated = false := by
      simpa [UserRule.isNegating, hPattern] using hNegating
    rw [hNegated, Bool.not_false]
    exact List.any_eq_true.mpr ⟨r, hIn, hMatches⟩
  next hNone =>
    rw [List.getLast?_eq_none_iff, List.filter_eq_nil_iff]
      at hNone
    rw [List.any_eq_false]
    exact hNone

theorem lastMatchIgnores_of_no_match
    {rules : List UserRule}
    {path : List Char}
    (hNone : rules.any (fun r => r.matchesPath path) =
      false) :
    lastMatchIgnores rules path = false := by
  have hEmpty : rules.filter (fun r => r.matchesPath path) =
      [] :=
    List.filter_eq_nil_iff.mpr (List.any_eq_false.mp hNone)
  rw [lastMatchIgnores, hEmpty]
  rfl

/- A match decides, and without one the shortcuts do. -/
theorem ignoredByUser_of_loaded
    {rules : List UserRule}
    {f : FileFilter}
    {path : List Char}
    (hRules : f.userRules =
      rules.filterMap UserRule.compiled)
    (hNegation :
      f.hasNegation = rules.any UserRule.isNegating)
    (hFast :
      hits f.userFast path = shortcutHits rules path) :
    f.ignoredByUser path =
      if rules.any (fun r => r.matchesPath path) then
        lastMatchIgnores rules path
      else
        shortcutHits rules path := by
  have hAny : f.userRules.any (fun rule =>
      regexMatch path rule.regex) =
        rules.any (fun r => r.matchesPath path) := by
    rw [hRules, List.any_filterMap]
    refine congrArg _ (funext ?_)
    intro r
    simp only [UserRule.compiled, UserRule.matchesPath]
    cases r.regex <;> rfl
  unfold ignoredByUser
  change (if f.hasNegation = true then
      f.userRules.foldl (applyRule path)
        (hits f.userFast path)
    else
      hits f.userFast path || f.userRules.any (fun rule =>
        regexMatch path rule.regex)) = _
  rw [hFast, hAny]
  by_cases hHas : f.hasNegation = true
  · rw [if_pos hHas, hRules, foldl_applyRule]
    cases hMatch : rules.any (fun r =>
        r.matchesPath path) with
    | true =>
        have hSome : rules.filter (fun r =>
            r.matchesPath path) ≠ [] := by
          intro hEmpty
          rcases List.any_eq_true.mp hMatch with
            ⟨r, hIn, hMatches⟩
          exact List.filter_eq_nil_iff.mp hEmpty r hIn
            hMatches
        rw [lastMatchIgnores, List.getLast?_eq_some_getLast
          hSome]
        rfl
    | false =>
        have hEmpty : rules.filter (fun r =>
            r.matchesPath path) = [] :=
          List.filter_eq_nil_iff.mpr
            (List.any_eq_false.mp hMatch)
        rw [hEmpty]
        rfl
  · rw [if_neg hHas]
    rw [Bool.not_eq_true, hNegation] at hHas
    rw [any_eq_lastMatchIgnores hHas]
    cases hLast : lastMatchIgnores rules path with
    | true => simp
    | false => simp

/- What is built in has no part in the user's tables. -/
theorem defaults_user :
    defaults.userRules = [] ∧
      defaults.hasNegation = false ∧
      defaults.userFast.exts = [] ∧
      defaults.userFast.dirs = [] := by
  decide +kernel

/- What the filter says of a path that is left to the user. -/
theorem shouldIgnore_loadUserRules
    (rules : List UserRule)
    {path : List Char}
    (hPath : path ≠ [])
    (hDefault : defaults.ignoredByDefault path = false) :
    (loadUserRules rules).shouldIgnore path =
      if rules.any (fun r => r.matchesPath path) then
        lastMatchIgnores rules path
      else
        shortcutHits rules path := by
  have hLoaded : Loaded rules defaults (loadUserRules rules) :=
    loaded_foldl rules defaults
  rcases defaults_user with
    ⟨hNoRules, hNoNegation, hNoExts, hNoDirs⟩
  have hNoFast : hits defaults.userFast path = false := by
    unfold hits hasExt isInDir
    rw [hNoExts, hNoDirs]
    split <;> rfl
  have hFast := hLoaded.shortcuts path
  rw [hNoFast, hNoNegation, Bool.false_or, Bool.not_false,
    Bool.true_and] at hFast
  have hRules := hLoaded.compiled
  rw [hNoRules, List.nil_append] at hRules
  have hNegation := hLoaded.negation
  rw [hNoNegation, Bool.false_or] at hNegation
  rw [shouldIgnore, if_neg hPath,
    show (loadUserRules rules).ignoredByDefault path =
      false from (hLoaded.default path).trans hDefault,
    Bool.false_or]
  exact ignoredByUser_of_loaded hRules hNegation hFast

/-
  The filter says of a path what the last match says, exactly
  when some rule matches whenever a shortcut finds the path.
  The empty path is never ignored.
-/
theorem shouldIgnore_eq_lastMatch_iff
    (rules : List UserRule)
    {path : List Char}
    (hDefault : defaults.ignoredByDefault path = false) :
    (loadUserRules rules).shouldIgnore path =
        lastMatchIgnores rules path ↔
      (path = [] → lastMatchIgnores rules path = false) ∧
        (path ≠ [] → shortcutHits rules path = true →
          ∃ r ∈ rules, r.matchesPath path = true) := by
  by_cases hPath : path = []
  · rw [shouldIgnore, if_pos hPath]
    constructor
    · exact fun hSame =>
        ⟨fun _ => hSame.symm, fun hSome => absurd hPath hSome⟩
    · exact fun hBoth => (hBoth.1 hPath).symm
  · rw [shouldIgnore_loadUserRules rules hPath hDefault]
    cases hMatch : rules.any (fun r =>
        r.matchesPath path) with
    | true =>
        rw [if_pos rfl]
        exact iff_of_true rfl
          ⟨fun hEmpty => absurd hEmpty hPath,
            fun _ _ => List.any_eq_true.mp hMatch⟩
    | false =>
        rw [if_neg Bool.false_ne_true,
          lastMatchIgnores_of_no_match hMatch]
        constructor
        · intro hNoShortcut
          refine ⟨fun _ => rfl, fun _ hHit => ?_⟩
          rw [hNoShortcut] at hHit
          cases hHit
        · intro hBoth
          rw [← Bool.not_eq_true]
          intro hHit
          have hSome :=
            List.any_eq_true.mpr (hBoth.2 hPath hHit)
          rw [hMatch] at hSome
          cases hSome

/- A rule of the file, with no escape in it. -/
def plainRule (text : String) : UserRule :=
  ⟨bytes text, false⟩

theorem shouldIgnore_eq_lastMatch_iff_logs :
    let rules := ["logs/", "*.tmp", "!logs/keep.log"].map
      plainRule
    let path := bytes "logs/keep.log"
    ((loadUserRules rules).shouldIgnore path =
        lastMatchIgnores rules path) ↔
      (path = [] → lastMatchIgnores rules path = false) ∧
        (path ≠ [] → shortcutHits rules path = true →
          ∃ r ∈ rules, r.matchesPath path = true) :=
  shouldIgnore_eq_lastMatch_iff
    (["logs/", "*.tmp", "!logs/keep.log"].map plainRule)
    (by decide +kernel)

/-
  The suffix of a rule that is fixed at the root is looked up
  at any depth.  A negated rule before it, whatever it says,
  makes the filter follow the pattern.
-/
theorem rooted_suffix_over_matches :
    let rules := [plainRule "/*.log"]
    let path := bytes "sub/a.log"
    defaults.ignoredByDefault path = false ∧
      rules.all (fun r => !r.matchesPath path) = true ∧
      lastMatchIgnores rules path = false ∧
      (loadUserRules rules).shouldIgnore path = true ∧
      (loadUserRules
        (plainRule "!x" :: rules)).shouldIgnore path =
          false := by
  decide +kernel

end FileFilter

end VeritasSync
