import Mathlib.Data.List.DropRight
import VeritasSync.Common.StdRegex

/-
  Which paths are ignored: the rules that are built in and
  those of the user, and how a rule is read.

  Main declarations:
    * `FileFilter.globToRegex`
    * `FileFilter.parseRule`, `FileFilter.loadRules`
    * `FileFilter.shouldIgnore`
    * `FileFilter.shouldIgnore_of_ignoredByDefault`
-/

namespace VeritasSync

------------------------------------------------------------
-- Filters
------------------------------------------------------------

/- Rules that are looked up instead of being matched. -/
structure FastPath where
  exts : List (List Char)
  dirs : List (List Char)

structure CompiledRule where
  regex : Regex Char
  negated : Bool

structure FileFilter where
  defaultFast : FastPath
  defaultComplex : List (Regex Char)
  userRules : List CompiledRule
  userFast : FastPath
  hasNegation : Bool

namespace FileFilter

open StdRegex

def cleared : FileFilter where
  defaultFast := ⟨[], []⟩
  defaultComplex := []
  userRules := []
  userFast := ⟨[], []⟩
  hasNegation := false

------------------------------------------------------------
-- From a Glob to an Expression
------------------------------------------------------------

/- What is between the brackets, with `\` made literal. -/
def escapeBracket : List Char → List Char
| [] => []
| '\\' :: rest => '\\' :: '\\' :: escapeBracket rest
| c :: rest => c :: escapeBracket rest

def bracketText (inside : List Char) : List Char :=
  match inside with
  | '!' :: rest => '[' :: '^' :: escapeBracket rest ++ [']']
  | inside => '[' :: escapeBracket inside ++ [']']

/-
  The pattern character by character.  The number is how
  many of the next ones belong to what was written last.
-/
def convert : ℕ → List Char → List Char
| _, [] => []
| skip + 1, _ :: rest => convert skip rest
| 0, c :: rest =>
    match c with
    | '*' =>
        match rest with
        | '*' :: '/' :: _ =>
            "(.*/)?".toList ++ convert 2 rest
        -- at the border of a name or not, it is the same
        | '*' :: _ => ".*".toList ++ convert 1 rest
        | _ => "[^/]*".toList ++ convert 0 rest
    | '?' => "[^/]".toList ++ convert 0 rest
    | '[' =>
        let inside := rest.takeWhile (fun d => d != ']')
        if inside.length = rest.length then
          '\\' :: '[' :: convert 0 rest
        else
          bracketText inside ++
            convert (inside.length + 1) rest
    | '\\' => '/' :: convert 0 rest
    | c =>
        if c ∈ ".+(){}^$|".toList then
          '\\' :: c :: convert 0 rest
        else
          c :: convert 0 rest

def globToRegex (glob : List Char) : List Char :=
  let isDir := glob.getLast? == some '/'
  let pattern := if isDir then glob.dropLast else glob
  let rooted := pattern.contains '/'
  let pattern :=
    if pattern.head? == some '/' then
      pattern.tail
    else
      pattern
  '^' :: (if rooted then [] else "(.*/)?".toList) ++
    convert 0 pattern ++
    (if isDir then "(/.*)?$".toList else ['$'])

------------------------------------------------------------
-- Reading a Rule
------------------------------------------------------------

def hasWildcard (pattern : List Char) : Bool :=
  pattern.any (fun c => c == '*' || c == '?' || c == '[')

/- The suffix `.ext` of a rule `*.ext`. -/
def suffixOf (pattern : List Char) : Option (List Char) :=
  match pattern with
  | '*' :: '.' :: ext =>
      if ext = [] ∨ hasWildcard ext ∨ '/' ∈ ext then
        none
      else
        some ('.' :: ext)
  | _ => none

/- The directory that a rule without wildcards fixes. -/
def fixedPathOf
    (rooted : Bool)
    (pattern : List Char) : Option (List Char) :=
  if hasWildcard pattern then
    none
  else if rooted || pattern.contains '/' then
    some (if pattern.getLast? == some '/' then
      pattern.dropLast
    else
      pattern)
  else
    none

def addExt
    (fast : FastPath)
    (ext : List Char) : FastPath :=
  { fast with exts := fast.exts.insert ext }

def addDir
    (fast : FastPath)
    (dir : List Char) : FastPath :=
  { fast with dirs := fast.dirs.insert dir }

/- A slash at the front, which fixes a rule at the root. -/
def unrooted (rule : List Char) : List Char :=
  if rule.head? == some '/' then rule.tail else rule

/- A rule that is built in. -/
def parseDefaultRule
    (rule : List Char)
    (f : FileFilter) : FileFilter :=
  let rooted := rule.head? == some '/'
  let pattern := unrooted rule
  if pattern = [] then
    f
  else
    match suffixOf pattern, fixedPathOf rooted pattern with
    | some ext, _ =>
        { f with defaultFast := addExt f.defaultFast ext }
    | none, some dir =>
        { f with defaultFast := addDir f.defaultFast dir }
    | none, none =>
        match compile (globToRegex rule) with
        | some regex =>
            { f with
              defaultComplex :=
                f.defaultComplex ++ [regex] }
        | none => f

/-
  A rule of the user, without the `!` of a negated one.  The
  fast path is filled until the first negated rule comes.
-/
def parseUserRule
    (negated : Bool)
    (rule : List Char)
    (f : FileFilter) : FileFilter :=
  let rooted := rule.head? == some '/'
  let pattern := unrooted rule
  let f :=
    if !negated && !f.hasNegation && pattern != [] then
      let fast :=
        match suffixOf pattern with
        | some ext => addExt f.userFast ext
        | none => f.userFast
      { f with
        userFast :=
          match fixedPathOf rooted pattern with
          | some dir => addDir fast dir
          | none => fast }
    else
      f
  match compile (globToRegex rule) with
  | some regex =>
      { f with userRules := f.userRules ++ [⟨regex, negated⟩] }
  | none => f

def parseRule
    (rawRule : List Char)
    (isDefault bangEscaped : Bool)
    (f : FileFilter) : FileFilter :=
  if rawRule = [] then
    f
  else if isDefault then
    parseDefaultRule rawRule f
  else if !bangEscaped && rawRule.head? == some '!' then
    if rawRule.tail = [] then
      f
    else
      parseUserRule true rawRule.tail
        { f with hasNegation := true }
  else
    parseUserRule false rawRule f

------------------------------------------------------------
-- Loading Rules
------------------------------------------------------------

def defaultIgnorePatterns : List String :=
  [".git", ".git/", "*.veritas_tmp", ".veritasignore",
    "*.part", ".DS_Store", "Thumbs.db", "build/", "bin/",
    "out/", ".veritas.db", ".veritas.db-journal",
    ".veritas.db-wal", ".veritas.db-shm"]

/- The rules that a filter has from the start. -/
def defaults : FileFilter :=
  defaultIgnorePatterns.foldl
    (fun f pattern => parseRule (bytes pattern) true false f)
    cleared

def isBlank (c : Char) : Bool :=
  c == ' ' || c == '\t'

/- The rest of a line up to a `#` that is not escaped. -/
def unescape : List Char → List Char
| [] => []
| '\\' :: next :: rest =>
    if next = '#' ∨ next = '!' ∨ next = '\\' then
      next :: unescape rest
    else
      '\\' :: unescape (next :: rest)
| '#' :: _ => []
| c :: rest => c :: unescape rest

def parseLine
    (f : FileFilter)
    (line : List Char) : FileFilter :=
  let line :=
    if line.getLast? == some '\r' then
      line.dropLast
    else
      line
  let line := line.dropWhile isBlank
  parseRule ((unescape line).rdropWhile isBlank) false
    (['\\', '!'].isPrefixOf line) f

/- The text of the rules file, when there is one. -/
def loadRules
    (ignoreFile : Option (List Char)) : FileFilter :=
  match ignoreFile with
  | none => defaults
  | some text => (text.splitOn '\n').foldl parseLine defaults

------------------------------------------------------------
-- What Is Ignored
------------------------------------------------------------

/- The path from its last dot on. -/
def fromLastDot : List Char → Option (List Char)
| [] => none
| c :: rest =>
    match fromLastDot rest with
    | some ext => some ext
    | none => if c = '.' then some (c :: rest) else none

def hasExt
    (fast : FastPath)
    (path : List Char) : Bool :=
  match fromLastDot path with
  | some ext => fast.exts.contains ext
  | none => false

/- The path is one of the directories or below one. -/
def isInDir
    (fast : FastPath)
    (path : List Char) : Bool :=
  fast.dirs.any (fun dir =>
    path == dir || (dir ++ ['/']).isPrefixOf path)

def ignoredByDefault
    (f : FileFilter)
    (path : List Char) : Bool :=
  hasExt f.defaultFast path || isInDir f.defaultFast path ||
    f.defaultComplex.any (regexMatch path)

/- The last rule that matches decides. -/
def applyRule
    (path : List Char)
    (ignored : Bool)
    (rule : CompiledRule) : Bool :=
  if regexMatch path rule.regex then
    !rule.negated
  else
    ignored

def ignoredByUser
    (f : FileFilter)
    (path : List Char) : Bool :=
  let fast := hasExt f.userFast path ||
    isInDir f.userFast path
  if f.hasNegation then
    f.userRules.foldl (applyRule path) fast
  else
    fast || f.userRules.any (fun rule =>
      regexMatch path rule.regex)

def shouldIgnore
    (f : FileFilter)
    (path : List Char) : Bool :=
  if path = [] then
    false
  else
    f.ignoredByDefault path || f.ignoredByUser path

/- No rule of the user brings such a path back. -/
theorem shouldIgnore_of_ignoredByDefault
    {f : FileFilter}
    {path : List Char}
    (hPath : path ≠ [])
    (hDefault : f.ignoredByDefault path = true) :
    f.shouldIgnore path = true := by
  rw [shouldIgnore, if_neg hPath, hDefault, Bool.true_or]

/- What the rules in a text say about a path. -/
def verdict (rules path : String) : Bool :=
  (loadRules (some (bytes rules))).shouldIgnore (bytes path)

example :
    verdict "logs/\n!logs/critical.log\n" "logs/debug.log" =
        true ∧
      verdict "logs/\n!logs/critical.log\n"
        "logs/critical.log" = false ∧
      verdict "!*.part\n!.git\n" ".git/config" = true ∧
      verdict "\\!important.txt # a file\n"
        "!important.txt" = true := by
  decide +kernel

end FileFilter

end VeritasSync
