import VeritasSync.Common.PathUtils

/-
  How exact the comparison of path texts is.  On POSIX a
  backslash is an ordinary character of a name, while the
  comparison takes it for a separator.

  Main declarations:
    * `PathUtils.PosixName`
    * `PathUtils.spelled_append_iff`
    * `PathUtils.hasRootPrefix_iff`
    * `PathUtils.isPathSafe_exact_iff`
-/

namespace VeritasSync

namespace PathUtils

------------------------------------------------------------
-- Names
------------------------------------------------------------

/- What a directory may call its entries. -/
def PosixName (name : String) : Prop :=
  name ≠ "" ∧ '/' ∉ name.toList

/- Up to the first slash stands the first name. -/
theorem takeWhile_posixName
    {name rest : List Char}
    (hName : '/' ∉ name)
    (hRest : ∀ c ∈ rest.head?, c = '/') :
    (name ++ rest).takeWhile (fun c => c != '/') = name := by
  apply takeWhile_append_of_stop
  · intro c hMem
    rw [bne_iff_ne]
    rintro rfl
    exact hName hMem
  · intro c hHead
    simp [hRest c hHead]

theorem head?_spelled (names : Loc) :
    ∀ c ∈ (spelled names).head?, c = '/' := by
  cases names with
  | nil => simp [spelled]
  | cons name names => simp [spelled]

/-
  A text that goes on after the text of a place: the last
  name goes on, and further names follow.
-/
theorem spelled_append_iff
    {front full : Loc}
    {last : String}
    {rest : List Char}
    (hTop : ∀ name ∈ front ++ [last], '/' ∉ name.toList)
    (hFull : ∀ name ∈ full, '/' ∉ name.toList) :
    spelled full = spelled (front ++ [last]) ++ rest ↔
      ∃ more below,
        full = front ++ (last ++ more) :: below ∧
          rest = more.toList ++ spelled below := by
  induction front generalizing full with
  | nil =>
      constructor
      · intro hEq
        cases full with
        | nil => simp [spelled] at hEq
        | cons name below =>
            have hTail : name.toList ++ spelled below =
                last.toList ++ rest := by
              simpa [spelled] using hEq
            rcases List.append_eq_append_iff.mp hTail with
              ⟨extra, hLast, hBelow⟩ | ⟨more, hName, hRest⟩
            · -- nothing of the last name is left over
              have hNone : extra = [] := by
                cases extra with
                | nil => rfl
                | cons c extra =>
                    have hSlash := head?_spelled below c
                      (by rw [hBelow]; rfl)
                    have hMem : c ∈ last.toList := by
                      rw [hLast]
                      simp
                    rw [hSlash] at hMem
                    exact absurd hMem (hTop last (by simp))
              subst hNone
              refine ⟨"", below, ?_, by simpa using hBelow.symm⟩
              have hSame : last = name := by
                apply String.toList_injective
                simpa using hLast
              simp [hSame]
            · refine ⟨String.ofList more, below, ?_,
                by simpa using hRest⟩
              have hSame :
                  name = last ++ String.ofList more := by
                apply String.toList_injective
                simpa using hName
              simp [hSame]
      · rintro ⟨more, below, rfl, rfl⟩
        simp [spelled]
  | cons name front ih =>
      have hFront : ∀ other ∈ front ++ [last],
          '/' ∉ other.toList := by
        intro other hMem
        exact hTop other (List.mem_cons_of_mem name hMem)
      constructor
      · intro hEq
        cases full with
        | nil => simp [spelled] at hEq
        | cons other full =>
            have hTail : other.toList ++ spelled full =
                name.toList ++
                  (spelled (front ++ [last]) ++ rest) := by
              simpa [spelled] using hEq
            have hNext : ∀ c ∈ (spelled (front ++ [last]) ++
                rest).head?, c = '/' := by
              cases front with
              | nil => simp [spelled]
              | cons inner front => simp [spelled]
            have hFirst := congrArg
              (List.takeWhile (fun c => c != '/')) hTail
            rw [takeWhile_posixName
                (hFull other List.mem_cons_self)
                (head?_spelled full),
              takeWhile_posixName
                (hTop name List.mem_cons_self) hNext]
              at hFirst
            have hSame := String.toList_injective hFirst
            subst hSame
            rw [List.append_cancel_left_eq] at hTail
            rcases (ih hFront (fun inner hMem => hFull inner
              (List.mem_cons_of_mem other hMem))).mp hTail
              with ⟨more, below, rfl, hRest⟩
            exact ⟨more, below, rfl, hRest⟩
      · rintro ⟨more, below, rfl, rfl⟩
        simp [spelled]

------------------------------------------------------------
-- The Comparison
------------------------------------------------------------

/-
  A place whose text continues that of the root with a
  backslash: a sibling of the root, or a place below one.
-/
def BackslashSibling
    (H : Host)
    (loc : Loc) : Prop :=
  ∃ front last more below,
    H.root = front ++ [last] ∧
      loc = front ++ (last ++ "\\" ++ more) :: below

/- The text of the top is a slash, and no root's prefix. -/
theorem hasRootPrefix_top
    {front : Loc}
    {last : String}
    (hLast : last ≠ "") :
    hasRootPrefix (spelled (front ++ [last]))
      (pathString []).toList = false := by
  cases hPrefix : hasRootPrefix (spelled (front ++ [last]))
      (pathString []).toList with
  | false => rfl
  | true =>
      rcases exists_rest_of_hasRootPrefix hPrefix with
        ⟨rest, hEq, -⟩
      have hShort := congrArg List.length hEq
      have hSome : 0 < last.toList.length := by
        rw [List.length_pos_iff]
        simpa using hLast
      simp [pathString, spelled] at hShort
      omega

theorem hasRootPrefix_append
    {top rest : List Char}
    (hApart : StartsApart rest) :
    hasRootPrefix top (top ++ rest) = true := by
  simp only [hasRootPrefix, Bool.and_eq_true,
    List.isPrefixOf_iff_prefix, List.drop_left]
  refine ⟨List.prefix_append _ _, ?_⟩
  cases rest with
  | nil => rfl
  | cons c rest =>
      simpa [isSeparator] using hApart c rfl

section Continued

variable
  {H : Host}
  {front full : Loc}
  {last : String}

/-
  No name has a slash, so what comes behind the last name of
  the root in one name is a backslash.
-/
theorem place_of_spelled_append
    {rest : List Char}
    (hSplit : H.root = front ++ [last])
    (hTop : ∀ name ∈ front ++ [last], '/' ∉ name.toList)
    (hFull : ∀ name ∈ full, '/' ∉ name.toList)
    (hEq : spelled full = spelled (front ++ [last]) ++ rest)
    (hApart : StartsApart rest) :
    H.Inside full ∨ BackslashSibling H full := by
  rcases (spelled_append_iff hTop hFull).mp hEq with
    ⟨more, below, hLoc, hRest⟩
  cases hMore : more.toList with
  | nil =>
      have hEmpty : more = "" := by
        simpa using hMore
      refine Or.inl ?_
      rw [hLoc, hEmpty, Host.Inside, hSplit]
      exact ⟨below, by simp⟩
  | cons c chars =>
      refine Or.inr ⟨front, last, String.ofList chars,
        below, hSplit, ?_⟩
      have hFirst : isSeparator c = true := by
        apply hApart c
        rw [hRest, hMore]
        rfl
      have hNotSlash : c ≠ '/' := by
        rintro rfl
        have hName := hFull (last ++ more)
          (by rw [hLoc]; simp)
        rw [String.toList_append, hMore] at hName
        simp at hName
      have hBack : c = '\\' := by
        simpa [isSeparator, hNotSlash] using hFirst
      rw [hLoc]
      congr 2
      apply String.toList_injective
      simp [hMore, hBack]

theorem spelled_append_of_place
    (hSplit : H.root = front ++ [last])
    (hPlace : H.Inside full ∨ BackslashSibling H full) :
    ∃ rest,
      spelled full = spelled (front ++ [last]) ++ rest ∧
        StartsApart rest := by
  rcases hPlace with ⟨below, hLoc⟩ | hSibling
  · refine ⟨spelled below, ?_, startsApart_spelled below⟩
    rw [← hLoc, hSplit]
    simp [spelled]
  · rcases hSibling with
      ⟨front', last', more, below, hRoot, hLoc⟩
    rw [hSplit] at hRoot
    rcases List.append_inj' hRoot rfl with ⟨hFront, hLast⟩
    subst hFront
    cases hLast
    refine ⟨'\\' :: (more.toList ++ spelled below), ?_,
      by simp [StartsApart, isSeparator]⟩
    rw [hLoc]
    simp [spelled]

end Continued

/- The comparison of texts accepts just these places. -/
theorem hasRootPrefix_iff
    {H : Host}
    {loc : Loc}
    (hRoot : H.root ≠ [])
    (hTop : ∀ name ∈ H.root, PosixName name)
    (hFull : ∀ name ∈ loc, PosixName name) :
    hasRootPrefix (pathString H.root).toList
        (pathString loc).toList = true ↔
      H.Inside loc ∨ BackslashSibling H loc := by
  rcases List.eq_nil_or_concat H.root with
    hNone | ⟨front, last, hSplit⟩
  · exact absurd hNone hRoot
  rw [List.concat_eq_append] at hSplit
  have hRootText : (pathString H.root).toList =
      spelled (front ++ [last]) := by
    rw [hSplit]
    cases front with
    | nil => exact toList_pathString last []
    | cons name front =>
        exact toList_pathString name (front ++ [last])
  rw [hRootText]
  cases loc with
  | nil =>
      have hLast := (hTop last (by simp [hSplit])).1
      rw [hasRootPrefix_top hLast]
      refine iff_of_false Bool.false_ne_true ?_
      rintro (hInside | ⟨front', last', more, below, -, hLoc⟩)
      · exact hRoot (List.prefix_nil.mp hInside)
      · simp at hLoc
  | cons name names =>
      rw [toList_pathString]
      constructor
      · intro hPrefix
        rcases exists_rest_of_hasRootPrefix hPrefix with
          ⟨rest, hEq, hApart⟩
        rw [hSplit] at hTop
        exact place_of_spelled_append hSplit
          (fun other hMem => (hTop other hMem).2)
          (fun other hMem => (hFull other hMem).2) hEq hApart
      · intro hPlace
        rcases spelled_append_of_place hSplit hPlace with
          ⟨rest, hEq, hApart⟩
        rw [hEq]
        exact hasRootPrefix_append hApart

/- What the check is meant to accept. -/
def Acceptable
    (H : Host)
    (path : String) : Prop :=
  path ≠ "" ∧ isAbsolute path = false ∧
    ".." ∉ components path ∧ H.Inside (H.locate path)

/- A place at or below the root is no such sibling. -/
theorem not_inside_of_backslashSibling
    {H : Host}
    {loc : Loc}
    (hSibling : BackslashSibling H loc) :
    ¬ H.Inside loc := by
  rcases hSibling with
    ⟨front, last, more, below, hRoot, rfl⟩
  rw [Host.Inside, hRoot, List.prefix_append_right_inj]
  intro hPrefix
  have hSame := (List.cons_prefix_cons.mp hPrefix).1
  have hLength := congrArg (fun name => name.toList.length)
    hSame
  simp at hLength

theorem isPathSafe_iff
    {H : Host}
    {path : String}
    (hRootResolves : H.canonicalFails "" = false)
    (hResolves : H.canonicalFails path = false)
    (hRoot : H.root ≠ [])
    (hTop : ∀ name ∈ H.root, PosixName name)
    (hFull : ∀ name ∈ H.locate path, PosixName name) :
    isPathSafe H path = true ↔
      path ≠ "" ∧ isAbsolute path = false ∧
        ".." ∉ components path ∧
        (H.Inside (H.locate path) ∨
          BackslashSibling H (H.locate path)) := by
  rw [← hasRootPrefix_iff hRoot hTop hFull]
  simp only [isPathSafe, isPathSafeWithCanonicalRoot,
    weaklyCanonical, hRootResolves, hResolves,
    Bool.and_eq_true, Bool.not_eq_true', Bool.not_false,
    true_and, Bool.false_eq_true, if_false,
    List.contains_eq_mem, decide_eq_false_iff_not,
    String.isEmpty_eq_false_iff]
  tauto

/-
  The check is exact unless the path leads to a sibling
  whose name continues the root's with a backslash.
-/
theorem isPathSafe_exact_iff
    {H : Host}
    {path : String}
    (hRootResolves : H.canonicalFails "" = false)
    (hResolves : H.canonicalFails path = false)
    (hRoot : H.root ≠ [])
    (hTop : ∀ name ∈ H.root, PosixName name)
    (hFull : ∀ name ∈ H.locate path, PosixName name) :
    (isPathSafe H path = true ↔ Acceptable H path) ↔
      ¬ (path ≠ "" ∧ isAbsolute path = false ∧
        ".." ∉ components path ∧
        BackslashSibling H (H.locate path)) := by
  rw [isPathSafe_iff hRootResolves hResolves hRoot hTop
    hFull]
  unfold Acceptable
  constructor
  · rintro hExact ⟨hSome, hRelative, hDots, hSibling⟩
    have hInside := (hExact.mp
      ⟨hSome, hRelative, hDots, Or.inr hSibling⟩).2.2.2
    exact not_inside_of_backslashSibling hSibling hInside
  · intro hNone
    constructor
    · rintro ⟨hSome, hRelative, hDots, hInside | hSibling⟩
      · exact ⟨hSome, hRelative, hDots, hInside⟩
      · exact absurd ⟨hSome, hRelative, hDots, hSibling⟩
          hNone
    · rintro ⟨hSome, hRelative, hDots, hInside⟩
      exact ⟨hSome, hRelative, hDots, Or.inl hInside⟩

/- The link `/r/l` leads to `/r\x`, a sibling of the root. -/
def linkedSibling : Host :=
  { Host.plain with
    follow := fun loc =>
      if loc = ["r", "l"] then ["r\\x"] else loc }

theorem sibling_accepted :
    isPathSafe linkedSibling "l" = true ∧
      ¬ Acceptable linkedSibling "l" := by
  refine ⟨by decide +kernel, ?_⟩
  rintro ⟨-, -, -, hInside⟩
  exact absurd hInside (by decide +kernel)

theorem isPathSafe_exact_plain :
    isPathSafe Host.plain "a/b.txt" = true ↔
      Acceptable Host.plain "a/b.txt" := by
  have hNames : ∀ name ∈ ["r", "a", "b.txt"],
      PosixName name := by
    intro name hMem
    simp only [List.mem_cons, List.not_mem_nil,
      or_false] at hMem
    rcases hMem with rfl | rfl | rfl
    · exact ⟨by decide, by decide⟩
    · exact ⟨by decide, by decide⟩
    · exact ⟨by decide, by decide⟩
  have hPlace : Host.plain.locate "a/b.txt" =
      ["r", "a", "b.txt"] := by
    decide +kernel
  refine (isPathSafe_exact_iff rfl rfl (by decide) ?_ ?_).mpr ?_
  · intro name hMem
    exact hNames name (by
      rw [List.mem_singleton.mp hMem]
      simp)
  · rw [hPlace]
    exact hNames
  · rintro ⟨-, -, -, hSibling⟩
    apply not_inside_of_backslashSibling hSibling
    rw [hPlace]
    decide

end PathUtils

end VeritasSync
