import Mathlib.Data.Nat.Notation
import VeritasSync.Library.Regex

/-
  The text of a regular expression as the standard library
  reads it: the part of the ECMAScript grammar, bracket
  expressions included, that the program's expressions use.

  A text is a sequence of bytes.  Each byte stands here as
  the character with its code.

  Main declarations:
    * `bytes`
    * `StdRegex.compile`, `StdRegex.regexMatch`
-/

namespace VeritasSync

/- The bytes of a text in UTF-8. -/
def bytes (text : String) : List Char :=
  text.toUTF8.data.toList.map
    (fun byte => Char.ofNat byte.toNat)

namespace StdRegex

------------------------------------------------------------
-- Bracket Expressions
------------------------------------------------------------

def between
    (low high c : Char) : Bool :=
  low ≤ c && c ≤ high

/- The classes that have a name, in the plain locale. -/
def classNamed (name : String) : Option (Char → Bool) :=
  let alpha := fun c => between 'a' 'z' c || between 'A' 'Z' c
  let digit := between '0' '9'
  let space := fun c => c == ' ' || between '\t' '\r' c
  match name with
  | "alpha" => some alpha
  | "digit" => some digit
  | "d" => some digit
  | "alnum" => some (fun c => alpha c || digit c)
  | "w" => some (fun c => alpha c || digit c || c == '_')
  | "lower" => some (between 'a' 'z')
  | "upper" => some (between 'A' 'Z')
  | "space" => some space
  | "s" => some space
  | "blank" => some (fun c => c == ' ' || c == '\t')
  | "cntrl" => some (fun c => c < ' ' || c == '\x7f')
  | "graph" => some (between '!' '~')
  | "print" => some (between ' ' '~')
  | "punct" => some (fun c =>
      between '!' '~' c && !(alpha c || digit c))
  | "xdigit" => some (fun c =>
      digit c || between 'a' 'f' c || between 'A' 'F' c)
  | _ => none

/-
  A bracket expression up to some place.  The last character
  may begin a range, and after a dash it does.
-/
structure Bracket where
  negated : Bool
  members : Char → Bool
  last : Option Char
  dash : Bool

namespace Bracket

def opened
    (negated : Bool) : Bracket where
  negated := negated
  members := fun _ => false
  last := none
  dash := false

def accepts
    (b : Bracket)
    (c : Char) : Bool :=
  b.members c || b.last == some c || (b.dash && c == '-')

/- One more character; a range must not run backwards. -/
def take
    (b : Bracket)
    (c : Char) : Option Bracket :=
  match b.dash, b.last with
  | true, some low =>
      if low ≤ c then
        some { b with
          members := fun d => b.members d || between low c d
          last := none
          dash := false }
      else
        none
  | _, _ =>
      some { b with members := b.accepts, last := some c }

/- One more class; it does not end a range. -/
def takeClass
    (b : Bracket)
    (members : Char → Bool) : Option Bracket :=
  if b.dash then
    none
  else
    some { b with
      members := fun c => b.accepts c || members c
      last := none }

/- A name between `[:` and `:]`, or the other two kinds. -/
def takeNamed
    (b : Bracket)
    (kind : Char)
    (name : List Char) : Option Bracket :=
  if kind = ':' then
    (classNamed (String.ofList name)).bind b.takeClass
  else
    match name with
    | [c] => b.take c
    | _ => none

def regex (b : Bracket) : Regex Char :=
  .letter (fun c => b.accepts c != b.negated)

end Bracket

------------------------------------------------------------
-- Reading an Expression
------------------------------------------------------------

/- What the next character belongs to. -/
inductive Mode where
| start : Mode
| plain : Mode
| escaped : Mode
| bracketStart : Mode
| bracket : Bracket → Mode
| bracketEscaped : Bracket → Mode
| bracketOpened : Bracket → Mode
| name : Bracket → Char → List Char → Mode
| nameEnd : Bracket → Char → List Char → Mode
| ended : Mode

/-
  An expression up to some place: the terms of the innermost
  open group and of those around it, the last one first.
-/
structure Reader where
  mode : Mode
  terms : List (Regex Char)
  outer : List (List (Regex Char))

/- `.` is every character but the ends of lines. -/
def dot : Regex Char :=
  .letter (fun c => c != '\n' && c != '\r')

def literal (c : Char) : Regex Char :=
  .letter (fun d => d == c)

namespace Reader

def start : Reader where
  mode := .start
  terms := []
  outer := []

def goto
    (r : Reader)
    (mode : Mode) : Reader :=
  { r with mode := mode }

def push
    (r : Reader)
    (term : Regex Char) : Reader :=
  { r with mode := .plain, terms := term :: r.terms }

/- What a quantifier makes of the last term. -/
def quantify
    (r : Reader)
    (quantifier : Regex Char → Regex Char) :
    Option Reader :=
  match r.terms with
  | [] => none
  | term :: terms =>
      some { r with terms := quantifier term :: terms }

def openGroup (r : Reader) : Reader :=
  { r with terms := [], outer := r.terms :: r.outer }

def closeGroup (r : Reader) : Option Reader :=
  match r.outer with
  | [] => none
  | terms :: outer =>
      some { r with
        terms := Regex.concat r.terms.reverse :: terms
        outer := outer }

/- The program writes no other assertion or alternative. -/
def plain
    (r : Reader)
    (c : Char) : Option Reader :=
  match c with
  | '$' => some (r.goto .ended)
  | '\\' => some (r.goto .escaped)
  | '.' => some (r.push dot)
  | '*' => r.quantify .star
  | '?' => r.quantify .optional
  | '(' => some r.openGroup
  | ')' => r.closeGroup
  | '[' => some (r.goto .bracketStart)
  | '^' => none
  | '+' => none
  | '{' => none
  | '|' => none
  | c => some (r.push (literal c))

def inBracket
    (r : Reader)
    (b : Bracket)
    (c : Char) : Option Reader :=
  match c with
  | ']' => some (r.push b.regex)
  | '\\' => some (r.goto (.bracketEscaped b))
  | '[' => some (r.goto (.bracketOpened b))
  | '-' =>
      if b.last.isSome && !b.dash then
        some (r.goto (.bracket { b with dash := true }))
      else
        (b.take '-').map (fun b => r.goto (.bracket b))
  | c => (b.take c).map (fun b => r.goto (.bracket b))

/- One more character. -/
def step
    (r : Reader)
    (c : Char) : Option Reader :=
  match r.mode with
  | .start => if c = '^' then some (r.goto .plain) else none
  | .plain => r.plain c
  | .escaped => some (r.push (literal c))
  | .bracketStart =>
      if c = '^' then
        some (r.goto (.bracket (.opened true)))
      else
        r.inBracket (.opened false) c
  | .bracket b => r.inBracket b c
  | .bracketEscaped b =>
      (b.take c).map (fun b => r.goto (.bracket b))
  | .bracketOpened b =>
      if c = ':' ∨ c = '.' ∨ c = '=' then
        some (r.goto (.name b c []))
      else
        (b.take '[').bind (fun b => r.inBracket b c)
  | .name b kind name =>
      if c = kind then
        some (r.goto (.nameEnd b kind name))
      else
        some (r.goto (.name b kind (name ++ [c])))
  | .nameEnd b kind name =>
      if c = ']' then
        (b.takeNamed kind name).map
          (fun b => r.goto (.bracket b))
      else if c = kind then
        some (r.goto (.nameEnd b kind (name ++ [kind])))
      else
        some (r.goto (.name b kind (name ++ [kind, c])))
  | .ended => none

def finish (r : Reader) : Option (Regex Char) :=
  match r.mode, r.outer with
  | .ended, [] => some (Regex.concat r.terms.reverse)
  | _, _ => none

end Reader

/- The expression of a text that is anchored at both ends. -/
def compile
    (text : List Char) : Option (Regex Char) :=
  (text.foldlM Reader.step Reader.start).bind Reader.finish

/- The whole of a path matches. -/
def regexMatch
    (path : List Char)
    (regex : Regex Char) : Bool :=
  regex.accepts path

def matchesText
    (text path : String) : Option Bool :=
  (compile text.toList).map (regexMatch (bytes path))

example :
    matchesText "^(.*/)?[^/]*\\.log$" "sub/a.log" =
        some true ∧
      matchesText "^(.*/)?logs(/.*)?$" "logs/a" =
        some true ∧
      matchesText "^[[:digit:]x-z]\\]$" "y]" = some true ∧
      matchesText "^[z-a]$" "b" = none := by
  decide +kernel

end StdRegex

end VeritasSync
