import VeritasSync.Library.Pieces
import VeritasSync.Storage.FileFilter

/-
  What a glob means, apart from the expression that it is
  turned into: the items that it is made of, and the words
  that each of them stands for.

  Main declarations:
    * `GlobItem`, `FileFilter.globItems`
    * `FileFilter.classMeaning`
    * `FileFilter.globMeaning`, `FileFilter.GlobMatches`
    * `FileFilter.globToRegex_eq`
-/

namespace VeritasSync

------------------------------------------------------------
-- Items
------------------------------------------------------------

/-
  A character that stands for itself, `?`, what is between
  brackets, `*`, `**`, `**` and a slash (or the directories
  that an unrooted glob may be in), and what a slash at the
  end adds.
-/
inductive GlobItem where
| char : Char → GlobItem
| one : GlobItem
| cls : List Char → GlobItem
| star : GlobItem
| everything : GlobItem
| dirs : GlobItem
| below : GlobItem
deriving DecidableEq

namespace FileFilter

/-
  The items of a pattern.  The number is how many of the next
  characters belong to the last item.
-/
def itemsOf : ℕ → List Char → List GlobItem
| _, [] => []
| skip + 1, _ :: rest => itemsOf skip rest
| 0, c :: rest =>
    match c with
    | '*' =>
        match rest with
        | '*' :: '/' :: _ => .dirs :: itemsOf 2 rest
        | '*' :: _ => .everything :: itemsOf 1 rest
        | _ => .star :: itemsOf 0 rest
    | '?' => .one :: itemsOf 0 rest
    | '[' =>
        let inside := rest.takeWhile (fun d => d != ']')
        if inside.length = rest.length then
          .char '[' :: itemsOf 0 rest
        else
          .cls inside :: itemsOf (inside.length + 1) rest
    | c => .char c :: itemsOf 0 rest

/-
  A slash at the end is taken off first.  Any other slash
  fixes the glob at the root.
-/
def globItems (glob : List Char) : List GlobItem :=
  let isDir := glob.getLast? == some '/'
  let pattern := if isDir then glob.dropLast else glob
  let rooted := pattern.contains '/'
  let pattern :=
    if pattern.head? == some '/' then
      pattern.tail
    else
      pattern
  (if rooted then [] else [.dirs]) ++ itemsOf 0 pattern ++
    (if isDir then [.below] else [])

------------------------------------------------------------
-- The Meaning
------------------------------------------------------------

/- Single characters, and ranges of them. -/
def classMembers : List Char → Char → Bool
| low :: '-' :: high :: rest, c =>
    StdRegex.between low high c || classMembers rest c
| d :: rest, c => c == d || classMembers rest c
| [], _ => false

/- `!` negates a class, and so does `^`, as gitignore has it. -/
def classBody : List Char → Bool × List Char
| '!' :: rest => (true, rest)
| '^' :: rest => (true, rest)
| inside => (false, inside)

/- No bracket stands for a slash, negated or not. -/
def classMeaning
    (inside : List Char)
    (c : Char) : Bool :=
  c != '/' &&
    (classMembers (classBody inside).2 c !=
      (classBody inside).1)

/-
  The words of an item, given the characters that a gap over
  directories may hold and what the brackets accept.
-/
def itemPiece
    (dot : Char → Bool)
    (accepts : List Char → Char → Bool) :
    GlobItem → Piece Char
| .char c => .letter (fun d => d == c)
| .one => .letter (fun d => d != '/')
| .cls inside => .letter (accepts inside)
| .star => .gap { word | '/' ∉ word } List.not_mem_nil
| .everything =>
    .gap { word | ∀ c ∈ word, dot c = true }
      (fun _ hMem => absurd hMem List.not_mem_nil)
| .dirs =>
    .gap { word | word = [] ∨ ∃ path,
      (∀ c ∈ path, dot c = true) ∧ word = path ++ ['/'] }
      (Or.inl rfl)
| .below =>
    .gap { word | word = [] ∨ ∃ path,
      (∀ c ∈ path, dot c = true) ∧ word = '/' :: path }
      (Or.inl rfl)

/- Directories have any characters in their names. -/
def globMeaning (glob : List Char) : List (Piece Char) :=
  (globItems glob).map
    (itemPiece (fun _ => true) classMeaning)

def GlobMatches (glob path : List Char) : Prop :=
  path ∈ Pieces.language (globMeaning glob)

------------------------------------------------------------
-- The Text
------------------------------------------------------------

/- What the filter writes for an item. -/
def itemText : GlobItem → List Char
| .char c =>
    if c ∈ "[.+(){}^$|".toList then ['\\', c] else [c]
| .one => "[^/]".toList
| .cls inside => bracketText inside
| .star => "[^/]*".toList
| .everything => ".*".toList
| .dirs => "(.*/)?".toList
| .below => "(/.*)?".toList

theorem itemText_char (c : Char) :
    itemText (.char c) =
      if c ∈ "[.+(){}^$|".toList then
        ['\\', c]
      else
        [c] := rfl

@[simp] theorem itemText_one :
    itemText .one = "[^/]".toList := rfl

@[simp] theorem itemText_cls (inside : List Char) :
    itemText (.cls inside) = bracketText inside := rfl

@[simp] theorem itemText_star :
    itemText .star = "[^/]*".toList := rfl

@[simp] theorem itemText_everything :
    itemText .everything = ".*".toList := rfl

@[simp] theorem itemText_dirs :
    itemText .dirs = "(.*/)?".toList := rfl

@[simp] theorem itemText_below :
    itemText .below = "(/.*)?".toList := rfl

@[simp] theorem itemText_open :
    itemText (.char '[') = ['\\', '['] := rfl

/- A character without a meaning of its own. -/
theorem itemsOf_char
    {c : Char}
    (hStar : c ≠ '*')
    (hOne : c ≠ '?')
    (hOpen : c ≠ '[')
    (rest : List Char) :
    itemsOf 0 (c :: rest) = .char c :: itemsOf 0 rest := by
  rw [itemsOf]
  · exact hStar
  · exact hOne
  · exact hOpen

theorem convert_eq
    {pattern : List Char}
    (hPattern : '\\' ∉ pattern)
    (skip : ℕ) :
    convert skip pattern =
      (itemsOf skip pattern).flatMap itemText := by
  induction pattern generalizing skip with
  | nil => cases skip <;> rfl
  | cons c rest ih =>
      rw [List.mem_cons, not_or] at hPattern
      have ih := ih hPattern.2
      cases skip with
      | succ skip => exact ih skip
      | zero =>
          unfold convert
          split
          next =>
            split
            next => simp [itemsOf, ih]
            next hNoSlash _ =>
              rw [itemsOf]
              · simp [ih]
              · exact hNoSlash
            next => simp [itemsOf, ih]
          next => simp [itemsOf, ih]
          next =>
            dsimp only
            split
            next hUnclosed =>
              simp [itemsOf, ih, hUnclosed]
            next hClosed =>
              simp [itemsOf, ih, hClosed]
          next => exact absurd rfl hPattern.1
          next hStar hOne hOpen hBackslash =>
            have hList : c ∈ "[.+(){}^$|".toList ↔
                c ∈ ".+(){}^$|".toList := by
              simp [show ¬ c = '[' from hOpen]
            rw [itemsOf_char hStar hOne hOpen,
              List.flatMap_cons, itemText_char, ih]
            by_cases hSpecial : c ∈ ".+(){}^$|".toList
            · rw [if_pos hSpecial,
                if_pos (hList.mpr hSpecial)]
              rfl
            · rw [if_neg hSpecial,
                if_neg (fun hMem => hSpecial (hList.mp hMem))]
              rfl

/- The part of a glob that is converted. -/
theorem mem_of_mem_unslashed
    {glob : List Char}
    {c : Char} :
    let pattern :=
      if glob.getLast? == some '/' then glob.dropLast
      else glob
    c ∈ (if pattern.head? == some '/' then pattern.tail
      else pattern) → c ∈ glob := by
  intro pattern hMem
  have hPattern : c ∈ pattern := by
    split at hMem
    next => exact List.mem_of_mem_tail hMem
    next => exact hMem
  simp only [pattern] at hPattern
  split at hPattern
  next => exact List.mem_of_mem_dropLast hPattern
  next => exact hPattern

/- The text is the texts of the items, one by one. -/
theorem globToRegex_eq
    {glob : List Char}
    (hGlob : '\\' ∉ glob) :
    globToRegex glob =
      '^' :: (globItems glob).flatMap itemText ++ ['$'] := by
  unfold globToRegex globItems
  dsimp only
  rw [convert_eq (fun hMem =>
    hGlob (mem_of_mem_unslashed hMem))]
  split <;> split <;> simp

/- What the characters of an item cannot be. -/
def WellFormed : GlobItem → Prop
| .char c => c ≠ '*' ∧ c ≠ '?' ∧ c ≠ '\\'
| .cls inside => ']' ∉ inside ∧ '\\' ∉ inside
| _ => True

theorem wellFormed_of_mem_itemsOf
    {pattern : List Char}
    (hPattern : '\\' ∉ pattern)
    {skip : ℕ}
    {item : GlobItem}
    (hItem : item ∈ itemsOf skip pattern) :
    WellFormed item := by
  induction pattern generalizing skip with
  | nil => cases skip <;> cases hItem
  | cons c rest ih =>
      rw [List.mem_cons, not_or] at hPattern
      have hLater : ∀ skip, item ∈ itemsOf skip rest →
          WellFormed item := fun _ => ih hPattern.2
      cases skip with
      | succ skip => exact hLater skip hItem
      | zero =>
          have hFirst : ∀ first skip,
              item ∈ first :: itemsOf skip rest →
              WellFormed first → WellFormed item := by
            intro first skip hMem hHead
            rcases List.mem_cons.mp hMem with rfl | hTail
            · exact hHead
            · exact hLater skip hTail
          unfold itemsOf at hItem
          split at hItem
          next =>
            split at hItem
            next => exact hFirst _ _ hItem trivial
            next => exact hFirst _ _ hItem trivial
            next => exact hFirst _ _ hItem trivial
          next => exact hFirst _ _ hItem trivial
          next =>
            dsimp only at hItem
            split at hItem
            next =>
              exact hFirst _ _ hItem
                ⟨by decide, by decide, by decide⟩
            next =>
              refine hFirst _ _ hItem ⟨?_, ?_⟩
              · intro hMem
                have hNot := List.mem_takeWhile_imp hMem
                simp at hNot
              · intro hMem
                exact hPattern.2
                  ((List.takeWhile_prefix _).subset hMem)
          next hStar hOne hOpen =>
            refine hFirst _ _ hItem ⟨hStar, hOne, ?_⟩
            exact Ne.symm hPattern.1

theorem wellFormed_of_mem_globItems
    {glob : List Char}
    (hGlob : '\\' ∉ glob)
    {item : GlobItem}
    (hItem : item ∈ globItems glob) :
    WellFormed item := by
  unfold globItems at hItem
  dsimp only at hItem
  rcases List.mem_append.mp hItem with hMost | hLast
  · rcases List.mem_append.mp hMost with hFirst | hPattern
    · rw [List.mem_ite_nil_left, List.mem_singleton]
        at hFirst
      rw [hFirst.2]
      trivial
    · exact wellFormed_of_mem_itemsOf
        (fun hMem => hGlob (mem_of_mem_unslashed hMem))
        hPattern
  · rw [List.mem_ite_nil_right, List.mem_singleton] at hLast
    rw [hLast.2]
    trivial

end FileFilter

end VeritasSync
