import VeritasSync.Host

/-
  Path normalization, case-insensitive keys, and the check
  that a path received from a peer stays below the root.

  Main declarations:
    * `PathUtils.normalize`, `PathUtils.key`
    * `PathUtils.isPathSafe`
    * `PathUtils.locate_inside_of_isPathSafe`
    * `PathUtils.OrdinaryNames`
    * `PathUtils.inside_of_isPathSafe`
-/

namespace VeritasSync

------------------------------------------------------------
-- Normalization And Comparison
------------------------------------------------------------

namespace PathUtils

/- Drop slashes from a reversed path, keeping one name. -/
def dropSlashes : List Char → List Char
| '/' :: next :: rest => dropSlashes (next :: rest)
| chars => chars

/- Separators become slashes; trailing slashes go. -/
def normalize (path : String) : String :=
  String.ofList
    (dropSlashes
      (path.toList.map
        (fun c => if c = '\\' then '/' else c)).reverse).reverse

/- Bytes compared after `tolower`. -/
def caseFold (path : String) : List Char :=
  path.toList.map Char.toLower

/-
  What the case-insensitive containers compare: the folded
  bytes of the normalized path.
-/
def key (path : String) : List Char :=
  caseFold (normalize path)

------------------------------------------------------------
-- Path Safety
------------------------------------------------------------

/-
  `full` is `root` itself, or continues it after a
  separator.  Both separators are accepted.
-/
def hasRootPrefix
    (root full : List Char) : Bool :=
  root.isPrefixOf full &&
    match full.drop root.length with
    | [] => true
    | next :: _ => next == '/' || next == '\\'

/- `weakly_canonical(root / path)`, unless it fails. -/
def weaklyCanonical
    (H : Host)
    (path : String) : Option Loc :=
  if H.canonicalFails path then
    none
  else
    some (H.locate path)

/- The check against a root that is already canonical. -/
def isPathSafeWithCanonicalRoot
    (H : Host)
    (path : String) : Bool :=
  !path.isEmpty &&
    !(components path).contains ".." &&
    !isAbsolute path &&
    match weaklyCanonical H path with
    | none => false
    | some full =>
        hasRootPrefix (pathString H.root).toList
          (pathString full).toList

/- The check that first makes the root canonical. -/
def isPathSafe
    (H : Host)
    (path : String) : Bool :=
  !H.canonicalFails "" &&
    isPathSafeWithCanonicalRoot H path

theorem isPathSafeWithCanonicalRoot_of_isPathSafe
    {H : Host}
    {path : String}
    (hSafe : isPathSafe H path = true) :
    isPathSafeWithCanonicalRoot H path = true := by
  simp only [isPathSafe, Bool.and_eq_true] at hSafe
  exact hSafe.2

/- A path that names a place below the root by itself. -/
def IsPlain (path : String) : Prop :=
  isAbsolute path = false ∧ ".." ∉ components path

instance (path : String) : Decidable (IsPlain path) := by
  unfold IsPlain
  infer_instance

theorem isPlain_of_isPathSafeWithCanonicalRoot
    {H : Host}
    {path : String}
    (hSafe : isPathSafeWithCanonicalRoot H path = true) :
    IsPlain path := by
  simp only [isPathSafeWithCanonicalRoot,
    Bool.and_eq_true, Bool.not_eq_true',
    List.contains_eq_mem, decide_eq_false_iff_not] at hSafe
  exact ⟨hSafe.1.2, hSafe.1.1.2⟩

------------------------------------------------------------
-- Resolution Below The Root
------------------------------------------------------------

/- No symbolic link below the root leads out of it. -/
def LinksStayInside (H : Host) : Prop :=
  ∀ loc, H.Inside loc → H.Inside (H.follow loc)

theorem enter_inside
    {H : Host}
    (hLinks : LinksStayInside H)
    {loc : Loc}
    {name : String}
    (hName : name ≠ "..")
    (hLoc : H.Inside loc) :
    H.Inside (H.enter loc name) := by
  unfold Host.enter
  split
  · exact hLoc
  · exact hLinks _ (hLoc.trans (List.prefix_append _ _))

theorem foldl_enter_inside
    {H : Host}
    (hLinks : LinksStayInside H)
    (names : List String)
    (hNames : ".." ∉ names)
    {loc : Loc}
    (hLoc : H.Inside loc) :
    H.Inside (names.foldl H.enter loc) := by
  induction names generalizing loc with
  | nil => exact hLoc
  | cons name names ih =>
      simp only [List.mem_cons, not_or] at hNames
      exact ih hNames.2
        (enter_inside hLinks (Ne.symm hNames.1) hLoc)

/- A plain path resolves inside the root. -/
theorem locate_inside_of_isPlain
    {H : Host}
    (hLinks : LinksStayInside H)
    {path : String}
    (hPlain : IsPlain path) :
    H.Inside (H.locate path) := by
  unfold Host.locate
  rw [hPlain.1]
  exact foldl_enter_inside hLinks _ hPlain.2
    (List.prefix_refl _)

/- A path that passes the check resolves inside the root. -/
theorem locate_inside_of_isPathSafe
    {H : Host}
    (hLinks : LinksStayInside H)
    {path : String}
    (hSafe : isPathSafeWithCanonicalRoot H path = true) :
    H.Inside (H.locate path) :=
  locate_inside_of_isPlain hLinks
    (isPlain_of_isPathSafeWithCanonicalRoot hSafe)

------------------------------------------------------------
-- Locations And Their Text
------------------------------------------------------------

def isSeparator (c : Char) : Bool :=
  c == '/' || c == '\\'

/- A name as a host gives it: not empty, no separators. -/
def OrdinaryName (name : String) : Prop :=
  name ≠ "" ∧ ∀ c ∈ name.toList, isSeparator c = false

/- Nothing comes, or a separator does. -/
def StartsApart (chars : List Char) : Prop :=
  ∀ c ∈ chars.head?, isSeparator c = true

/- The characters of a location, name by name. -/
def spelled (names : Loc) : List Char :=
  names.flatMap (fun name => '/' :: name.toList)

theorem StartsApart.append
    {left right : List Char}
    (hLeft : StartsApart left)
    (hRight : StartsApart right) :
    StartsApart (left ++ right) := by
  cases left with
  | nil => exact hRight
  | cons c left => exact hLeft

theorem startsApart_spelled (names : Loc) :
    StartsApart (spelled names) := by
  cases names with
  | nil => simp [StartsApart, spelled]
  | cons name names =>
      simp [StartsApart, spelled, isSeparator]

/- A part is taken up to the character that ends it. -/
theorem takeWhile_append_of_stop
    {p : Char → Bool}
    {part rest : List Char}
    (hPart : ∀ c ∈ part, p c = true)
    (hRest : ∀ c ∈ rest.head?, p c = false) :
    (part ++ rest).takeWhile p = part := by
  rw [List.takeWhile_append_of_pos hPart]
  cases rest with
  | nil => simp
  | cons c rest =>
      have hStop : p c = false := hRest c rfl
      simp [hStop]

/- Up to the first separator stands the first name. -/
theorem takeWhile_name
    {name : String}
    {rest : List Char}
    (hName : OrdinaryName name)
    (hRest : StartsApart rest) :
    (name.toList ++ rest).takeWhile
        (fun c => !isSeparator c) = name.toList := by
  apply takeWhile_append_of_stop
  · intro c hMem
    simp [hName.2 c hMem]
  · intro c hHead
    simp [hRest c hHead]

/-
  A text that goes on after a separator spells a place
  below.
-/
theorem mono_of_spelled_eq
    {top full : Loc}
    {rest : List Char}
    (hTop : ∀ name ∈ top, OrdinaryName name)
    (hFull : ∀ name ∈ full, OrdinaryName name)
    (hRest : StartsApart rest)
    (hEq : spelled full = spelled top ++ rest) :
    top <+: full := by
  induction top generalizing full with
  | nil => exact List.nil_prefix
  | cons name top ih =>
      cases full with
      | nil => simp [spelled] at hEq
      | cons other full =>
          simp only [List.mem_cons, forall_eq_or_imp]
            at hTop hFull
          have hTail : other.toList ++ spelled full =
              name.toList ++ (spelled top ++ rest) := by
            simpa [spelled] using hEq
          have hFirst := congrArg
            (List.takeWhile (fun c => !isSeparator c)) hTail
          rw [takeWhile_name hFull.1
              (startsApart_spelled full),
            takeWhile_name hTop.1
              ((startsApart_spelled top).append hRest)]
            at hFirst
          have hSame := String.toList_injective hFirst
          subst hSame
          rw [List.append_cancel_left_eq] at hTail
          rw [List.cons_prefix_cons]
          exact ⟨rfl, ih hTop.2 hFull.2 hTail⟩

theorem toList_pathString
    (name : String)
    (names : Loc) :
    (pathString (name :: names)).toList =
      spelled (name :: names) := by
  unfold pathString spelled
  simp [String.toList_join, List.flatMap, Function.comp_def]

theorem exists_rest_of_hasRootPrefix
    {top full : List Char}
    (hStarts : hasRootPrefix top full = true) :
    ∃ rest, full = top ++ rest ∧ StartsApart rest := by
  simp only [hasRootPrefix, Bool.and_eq_true,
    List.isPrefixOf_iff_prefix] at hStarts
  rcases hStarts with ⟨⟨rest, rfl⟩, hRest⟩
  rw [List.drop_left] at hRest
  refine ⟨rest, rfl, ?_⟩
  cases rest with
  | nil => simp [StartsApart]
  | cons c rest =>
      simpa [StartsApart, isSeparator] using hRest

/- On ordinary names the comparison of texts is right. -/
theorem mono_of_hasRootPrefix
    {top full : Loc}
    (hTop : ∀ name ∈ top, OrdinaryName name)
    (hFull : ∀ name ∈ full, OrdinaryName name)
    (hStarts : hasRootPrefix (pathString top).toList
      (pathString full).toList = true) :
    top <+: full := by
  rcases exists_rest_of_hasRootPrefix hStarts with
    ⟨rest, hEq, hRest⟩
  cases top with
  | nil => exact List.nil_prefix
  | cons name top =>
      rw [toList_pathString] at hEq
      cases full with
      | nil =>
          have hName := (hTop name List.mem_cons_self).1
          cases hChars : name.toList with
          | nil => exact absurd (by simpa using hChars) hName
          | cons c chars =>
              simp [pathString, spelled, hChars] at hEq
      | cons other full =>
          rw [toList_pathString] at hEq
          exact mono_of_spelled_eq hTop hFull hRest hEq

/-
  The root has ordinary names, and so has every place
  outside it that a link below the root leads to.
-/
structure OrdinaryNames (H : Host) : Prop where
  root : ∀ name ∈ H.root, OrdinaryName name
  outside : ∀ path, IsPlain path →
    ¬H.Inside (H.locate path) →
      ∀ name ∈ H.locate path, OrdinaryName name

/- The check keeps out every path that leads outside. -/
theorem inside_of_isPathSafe
    {H : Host}
    (hNames : OrdinaryNames H)
    {path : String}
    (hSafe : isPathSafeWithCanonicalRoot H path = true) :
    H.Inside (H.locate path) := by
  by_contra hOutside
  have hFull := hNames.outside path
    (isPlain_of_isPathSafeWithCanonicalRoot hSafe) hOutside
  apply hOutside
  apply mono_of_hasRootPrefix hNames.root hFull
  simp only [isPathSafeWithCanonicalRoot, weaklyCanonical,
    Bool.and_eq_true] at hSafe
  split at hSafe
  next => cases hSafe.2
  next full hCanonical =>
    split at hCanonical
    · cases hCanonical
    · cases hCanonical
      exact hSafe.2

theorem ordinaryNames_of_linksStayInside
    {H : Host}
    (hLinks : LinksStayInside H)
    (hRoot : ∀ name ∈ H.root, OrdinaryName name) :
    OrdinaryNames H where
  root := hRoot
  outside _ hPlain hOutside :=
    absurd (locate_inside_of_isPlain hLinks hPlain) hOutside

example :
    isPathSafe Host.plain "a/b.txt" = true ∧
      isPathSafe Host.plain "../b.txt" = false := by
  decide

end PathUtils

end VeritasSync
