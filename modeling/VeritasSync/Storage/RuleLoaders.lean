import VeritasSync.Library.Lines
import VeritasSync.Storage.RuleOrder

/-
  The two readers of a rules text: the one of the rules file
  and the one of a dry run, which knows of no escapes.

  Main declarations:
    * `FileFilter.readTrimmed`,
      `FileFilter.loadRulesFromString`
    * `FileFilter.fileRules`, `FileFilter.stringRules`
    * `FileFilter.unescape_of_notMem`
    * `FileFilter.loaders_agree`
-/

namespace VeritasSync

namespace FileFilter

open StdRegex

------------------------------------------------------------
-- The Simple Reader
------------------------------------------------------------

/- The rule on a line, when there is one. -/
def readTrimmed (line : List Char) : Option (List Char) :=
  let line :=
    if line.getLast? == some '\r' then
      line.dropLast
    else
      line
  let trimmed := line.dropWhile isBlank
  if trimmed = [] then
    none
  -- a line that is a comment
  else if trimmed.head? = some '#' then
    none
  else
    let trimmed := trimmed.takeWhile (fun c => c != '#')
    let trimmed := trimmed.rdropWhile isBlank
    if trimmed = [] then
      none
    else
      some trimmed

def loadRulesFromString (rules : List Char) : FileFilter :=
  (Lines.getLines '\n' rules).foldl
    (fun f line =>
      match readTrimmed line with
      | none => f
      | some trimmed => parseRule trimmed false false f)
    defaults

------------------------------------------------------------
-- The Rules That Are Read
------------------------------------------------------------

/- The rules of the file, without the lines of none. -/
def fileRules (text : List Char) : List UserRule :=
  ((Lines.getLines '\n' text).map readLine).filter
    (fun r => r.text != [])

def stringRules (rules : List Char) : List UserRule :=
  ((Lines.getLines '\n' rules).filterMap readTrimmed).map
    (fun trimmed => ⟨trimmed, false⟩)

/- A rule with no text changes nothing. -/
theorem loadUserRules_filter
    (rules : List UserRule) :
    loadUserRules (rules.filter (fun r => r.text != [])) =
      loadUserRules rules := by
  unfold loadUserRules
  generalize defaults = f
  induction rules generalizing f with
  | nil => rfl
  | cons r rules ih =>
      by_cases hText : r.text = []
      · rw [List.filter_cons_of_neg (by simp [hText]),
          List.foldl_cons, ih]
        have hSkip : parseRule r.text false r.bangEscaped f =
            f := by
          rw [parseRule, if_pos hText]
        rw [hSkip]
      · rw [List.filter_cons_of_pos (by simp [hText]),
          List.foldl_cons, List.foldl_cons, ih]

theorem loadRules_eq_fileRules
    (text : List Char) :
    loadRules (some text) =
      loadUserRules (fileRules text) := by
  rw [fileRules, loadUserRules_filter, loadUserRules,
    List.foldl_map]
  exact Lines.foldl_splitOn '\n' (fun _ => rfl) defaults text

theorem loadRulesFromString_eq_stringRules
    (rules : List Char) :
    loadRulesFromString rules =
      loadUserRules (stringRules rules) := by
  unfold loadRulesFromString loadUserRules stringRules
  generalize defaults = f
  induction Lines.getLines '\n' rules generalizing f with
  | nil => rfl
  | cons line lines ih =>
      rw [List.foldl_cons, ih]
      cases hLine : readTrimmed line with
      | none => rw [List.filterMap_cons_none hLine]
      | some trimmed =>
          rw [List.filterMap_cons_some hLine,
            List.map_cons, List.foldl_cons]

------------------------------------------------------------
-- Text Without Escapes
------------------------------------------------------------

theorem unescape_of_notMem
    {line : List Char}
    (hPlain : '\\' ∉ line) :
    unescape line =
      line.takeWhile (fun c => c != '#') := by
  induction line with
  | nil => rfl
  | cons c line ih =>
      rw [List.mem_cons, not_or] at hPlain
      have hRest := ih hPlain.2
      by_cases hComment : c = '#'
      · subst hComment
        rfl
      · rw [List.takeWhile_cons_of_pos (by simpa), ← hRest,
          unescape]
        · intro next rest hEscape
          exact absurd hEscape (Ne.symm hPlain.1)
        · exact hComment

/- On one line the readers find the same. -/
theorem readLine_of_notMem
    {line : List Char}
    (hPlain : '\\' ∉ line) :
    readLine line =
      ⟨(readTrimmed line).getD [], false⟩ := by
  have hShort : '\\' ∉
      (if line.getLast? == some '\r' then line.dropLast
        else line) := by
    split
    · exact fun hMem =>
        hPlain (List.mem_of_mem_dropLast hMem)
    · exact hPlain
  unfold readLine readTrimmed
  generalize (if line.getLast? == some '\r' then line.dropLast
    else line) = short at hShort
  have hTrimmed : '\\' ∉ short.dropWhile isBlank :=
    fun hMem => hShort (List.dropWhile_subset _ hMem)
  simp only
  generalize short.dropWhile isBlank = trimmed at hTrimmed
  have hBang : ['\\', '!'].isPrefixOf trimmed = false := by
    cases trimmed with
    | nil => rfl
    | cons c rest =>
        have hOther : ('\\' == c) = false :=
          beq_eq_false_iff_ne.mpr
            (List.ne_of_not_mem_cons hTrimmed)
        rw [List.isPrefixOf, hOther, Bool.false_and]
  rw [unescape_of_notMem hTrimmed, hBang]
  refine congrArg (fun text => UserRule.mk text false) ?_
  split
  next hEmpty =>
    rw [hEmpty]
    rfl
  · split
    next hComment =>
      cases trimmed with
      | nil => rfl
      | cons c rest =>
          rw [Option.some.inj hComment]
          rfl
    · split
      next hNone => exact hNone
      next => rfl

theorem readTrimmed_ne_nil
    {line trimmed : List Char}
    (hRead : readTrimmed line = some trimmed) :
    trimmed ≠ [] := by
  unfold readTrimmed at hRead
  generalize (if line.getLast? == some '\r' then line.dropLast
    else line) = short at hRead
  simp only at hRead
  intro hEmpty
  split at hRead
  · cases hRead
  · split at hRead
    · cases hRead
    · split at hRead
      · cases hRead
      next hSome =>
        exact hSome ((Option.some.inj hRead).trans hEmpty)

theorem fileRules_eq_stringRules
    {lines : List (List Char)}
    (hPlain : ∀ line ∈ lines, '\\' ∉ line) :
    (lines.map readLine).filter (fun r => r.text != []) =
      (lines.filterMap readTrimmed).map
        (fun trimmed => ⟨trimmed, false⟩) := by
  induction lines with
  | nil => rfl
  | cons line lines ih =>
      have hRest := ih (fun other hMem =>
        hPlain other (List.mem_cons_of_mem line hMem))
      have hLine :=
        readLine_of_notMem (hPlain line List.mem_cons_self)
      rw [List.map_cons, hLine]
      cases hRead : readTrimmed line with
      | none =>
          rw [List.filterMap_cons_none hRead, ← hRest]
          rfl
      | some trimmed =>
          have hSome := readTrimmed_ne_nil hRead
          rw [List.filterMap_cons_some hRead, List.map_cons,
            List.filter_cons_of_pos (by simpa), hRest]
          rfl

/-
  Without a backslash the readers find the same rules, and
  the filters they load say the same of every path.
-/
theorem loaders_agree
    {rules : List Char}
    (hPlain : '\\' ∉ rules) :
    fileRules rules = stringRules rules ∧
      loadRules (some rules) = loadRulesFromString rules ∧
      ∀ path, (loadRules (some rules)).shouldIgnore path =
        (loadRulesFromString rules).shouldIgnore path := by
  have hRules : fileRules rules = stringRules rules :=
    fileRules_eq_stringRules (fun line hLine hMem =>
      hPlain (Lines.mem_of_mem_getLines '\n' hLine hMem))
  have hFilters :
      loadRules (some rules) = loadRulesFromString rules := by
    rw [loadRules_eq_fileRules, hRules,
      loadRulesFromString_eq_stringRules]
  refine ⟨hRules, hFilters, ?_⟩
  intro path
  rw [hFilters]

/- A comment, a blank line, and a last line with no end. -/
theorem loaders_agree_keep :
    (loadRules (some (bytes
        "*.log # all\r\n \t\r\n!keep.log"))).shouldIgnore
          (bytes "keep.log") =
      (loadRulesFromString (bytes
        "*.log # all\r\n \t\r\n!keep.log")).shouldIgnore
          (bytes "keep.log") :=
  (loaders_agree (by decide)).2.2 _

end FileFilter

end VeritasSync
