import Mathlib.Data.List.AList
import Mathlib.Data.List.Infix

/-
  A finite tree of files and directories, keyed by the
  list of names leading to each node.

  The operations are the ones an operating system offers on
  whole paths: create the missing ancestors of a path,
  remove one node, remove a subtree, move a subtree.  Each
  one comes with the lookup equation that later proofs use
  in place of its definition.

  Main declarations:
    * `FileTree.createDirectories` and its lookup equation
    * `FileTree.remove`, `FileTree.removeAll`
    * `FileTree.sweep` and its lookup equation
    * `FileTree.rename`
-/

------------------------------------------------------------
-- Association Lists
------------------------------------------------------------

namespace AList

variable {α : Type*} {β : α → Type*}

/- Keep the entries whose key satisfies a test. -/
def filterKeys
    (keep : α → Bool)
    (s : AList β) : AList β where
  entries := s.entries.filter (fun entry => keep entry.1)
  nodupKeys := s.nodupKeys.sublist List.filter_sublist

variable [DecidableEq α]

@[simp] theorem lookup_filterKeys
    (keep : α → Bool)
    (s : AList β)
    (key : α) :
    (s.filterKeys keep).lookup key =
      if keep key then s.lookup key else none := by
  apply Option.ext
  intro value
  change value ∈ (s.filterKeys keep).lookup key ↔ _
  rw [mem_lookup_iff]
  by_cases hKeep : keep key
  · rw [if_pos hKeep]
    change _ ↔ value ∈ s.lookup key
    rw [mem_lookup_iff]
    simp [filterKeys, hKeep]
  · simp [filterKeys, hKeep]

theorem lookup_foldl_erase
    (keys : List α)
    (s : AList β)
    (key : α) :
    (keys.foldl (fun s key => s.erase key) s).lookup key =
      if key ∈ keys then none else s.lookup key := by
  induction keys generalizing s with
  | nil => simp
  | cons erased keys ih =>
      rw [List.foldl_cons, ih]
      by_cases hSame : key = erased
      · rw [hSame, lookup_erase, if_pos List.mem_cons_self]
        split <;> rfl
      · rw [lookup_erase_ne hSame]
        simp [hSame]

/-
  A loop over the entries that changes the view at an entry's
  own key only.
-/
theorem view_foldl
    {σ γ : Type*}
    (step : σ → (key : α) → β key → σ)
    (view : σ → α → γ)
    (here : (key : α) → β key → γ → γ)
    (hHere : ∀ s key value,
      view (step s key value) key =
        here key value (view s key))
    (hElse : ∀ s key value other,
      other ≠ key →
      view (step s key value) other = view s other)
    (l : AList β)
    (s : σ)
    (key : α) :
    view (l.entries.foldl
        (fun s entry => step s entry.1 entry.2) s) key =
      (l.lookup key).elim (view s key)
        (fun value => here key value (view s key)) := by
  have hEntries : ∀ entries : List (Sigma β),
      entries.NodupKeys → ∀ s,
        view (entries.foldl
            (fun s entry => step s entry.1 entry.2) s) key =
          (entries.dlookup key).elim (view s key)
            (fun value => here key value (view s key)) := by
    intro entries
    induction entries with
    | nil =>
        intro _ s
        rfl
    | cons entry rest ih =>
        intro hNodup s
        have hRest := ih
          (List.nodupKeys_of_nodupKeys_cons hNodup)
          (step s entry.1 entry.2)
        rw [List.foldl_cons, hRest]
        by_cases hKey : key = entry.1
        · subst hKey
          have hAbsent : rest.dlookup entry.1 = none :=
            List.dlookup_eq_none.mpr
              (List.notMem_keys_of_nodupKeys_cons hNodup)
          rw [hAbsent, List.dlookup_cons_eq]
          exact hHere s entry.1 entry.2
        · rw [List.dlookup_cons_ne _ _ hKey,
            hElse s entry.1 entry.2 key hKey]
  exact hEntries l.entries l.nodupKeys s

end AList

------------------------------------------------------------
-- Nodes And Trees
------------------------------------------------------------

/- A node carries a payload when it is a regular file. -/
inductive Node (α : Type) where
| file : α → Node α
| dir : Node α
deriving DecidableEq, Repr

namespace Node

variable {α : Type}

def isFile : Node α → Bool
| .file _ => true
| .dir => false

end Node

/- A tree maps the name lists of its nodes to the nodes. -/
abbrev FileTree (N α : Type) :=
  AList (fun _ : List N => Node α)

namespace FileTree

variable {N α : Type} [DecidableEq N]

/- The payload of a regular file. -/
def payload?
    (tree : FileTree N α)
    (loc : List N) : Option α :=
  match tree.lookup loc with
  | some (.file payload) => some payload
  | _ => none

@[simp] theorem payload?_eq_some_iff
    (tree : FileTree N α)
    (loc : List N)
    (payload : α) :
    tree.payload? loc = some payload ↔
      tree.lookup loc = some (.file payload) := by
  unfold payload?
  cases hNode : tree.lookup loc with
  | none => simp
  | some node => cases node <;> simp

theorem payload?_congr
    {tree tree' : FileTree N α}
    {loc loc' : List N}
    (hLookup : tree.lookup loc = tree'.lookup loc') :
    tree.payload? loc = tree'.payload? loc' := by
  simp [payload?, hLookup]

------------------------------------------------------------
-- Creating Directories
------------------------------------------------------------

/- Insert a directory where nothing exists yet. -/
def insertDir
    (tree : FileTree N α)
    (loc : List N) : FileTree N α :=
  if tree.lookup loc = none then
    AList.insert loc .dir tree
  else
    tree

theorem lookup_insertDir
    (tree : FileTree N α)
    (loc key : List N) :
    (tree.insertDir loc).lookup key =
      if key = loc ∧ tree.lookup key = none then
        some .dir
      else
        tree.lookup key := by
  unfold insertDir
  by_cases hKey : key = loc
  · subst hKey
    by_cases hNone : tree.lookup key = none
    · simp [hNone]
    · simp [hNone]
  · by_cases hNone : tree.lookup loc = none
    · simp [hNone, hKey, AList.lookup_insert_ne hKey]
    · simp [hNone, hKey]

/- Some node on the way to `loc` is a regular file. -/
def blocked
    (tree : FileTree N α)
    (loc : List N) : Bool :=
  loc.inits.any (fun key =>
    (tree.lookup key).any Node.isFile)

/-
  Create `loc` and its missing ancestors.  The result is
  `none` when a regular file stands in the way.
-/
def createDirectories
    (tree : FileTree N α)
    (loc : List N) : Option (FileTree N α) :=
  if tree.blocked loc then
    none
  else
    some (loc.inits.foldl insertDir tree)

theorem blocked_congr
    {tree tree' : FileTree N α}
    {loc : List N}
    (hAbove : ∀ key, key <+: loc →
      tree'.lookup key = tree.lookup key) :
    tree'.blocked loc = tree.blocked loc := by
  unfold blocked
  rw [Bool.eq_iff_iff, List.any_eq_true, List.any_eq_true]
  apply exists_congr
  intro key
  rw [and_congr_right_iff, List.mem_inits]
  intro hKey
  rw [hAbove key hKey]

theorem lookup_foldl_insertDir
    (locs : List (List N))
    (tree : FileTree N α)
    (key : List N) :
    (locs.foldl insertDir tree).lookup key =
      if key ∈ locs ∧ tree.lookup key = none then
        some .dir
      else
        tree.lookup key := by
  induction locs generalizing tree with
  | nil => simp
  | cons loc locs ih =>
      rw [List.foldl_cons, ih, lookup_insertDir]
      by_cases hKey : key = loc
      · subst hKey
        by_cases hNone : tree.lookup key = none <;>
          simp [hNone]
      · simp [hKey]

theorem lookup_createDirectories
    {tree tree' : FileTree N α}
    {loc : List N}
    (hCreate : tree.createDirectories loc = some tree')
    (key : List N) :
    tree'.lookup key =
      if key <+: loc ∧ tree.lookup key = none then
        some .dir
      else
        tree.lookup key := by
  unfold createDirectories at hCreate
  split at hCreate
  · cases hCreate
  · cases hCreate
    simp only [lookup_foldl_insertDir, List.mem_inits]

------------------------------------------------------------
-- Removing Nodes
------------------------------------------------------------

/- Some node lies strictly below `loc`. -/
def hasChild
    (tree : FileTree N α)
    (loc : List N) : Bool :=
  tree.keys.any (fun key => loc <+: key ∧ key ≠ loc)

theorem hasChild_iff
    (tree : FileTree N α)
    (loc : List N) :
    tree.hasChild loc = true ↔
      ∃ key, loc <+: key ∧ key ≠ loc ∧
        tree.lookup key ≠ none := by
  unfold hasChild
  simp only [List.any_eq_true, decide_eq_true_eq]
  constructor
  · rintro ⟨key, hMem, hBelow, hNe⟩
    refine ⟨key, hBelow, hNe, ?_⟩
    have hKey : key ∈ tree := hMem
    rw [ne_eq, AList.lookup_eq_none]
    exact fun hAbsent => hAbsent hKey
  · rintro ⟨key, hBelow, hNe, hSome⟩
    refine ⟨key, ?_, hBelow, hNe⟩
    by_contra hAbsent
    exact hSome (AList.lookup_eq_none.mpr hAbsent)

theorem hasChild_congr
    {tree tree' : FileTree N α}
    {loc : List N}
    (hBelow : ∀ key, loc <+: key →
      tree'.lookup key = tree.lookup key) :
    tree'.hasChild loc = tree.hasChild loc := by
  rw [Bool.eq_iff_iff, hasChild_iff, hasChild_iff]
  constructor
  · rintro ⟨key, hKey, hNe, hSome⟩
    exact ⟨key, hKey, hNe, hBelow key hKey ▸ hSome⟩
  · rintro ⟨key, hKey, hNe, hSome⟩
    exact ⟨key, hKey, hNe, (hBelow key hKey).symm ▸ hSome⟩

/-
  Remove one regular file or one empty directory.  The
  result is `none` when there is nothing to remove or the
  directory is not empty.
-/
def remove
    (tree : FileTree N α)
    (loc : List N) : Option (FileTree N α) :=
  match tree.lookup loc with
  | none => none
  | some (.file _) => some (tree.erase loc)
  | some .dir =>
      if tree.hasChild loc then
        none
      else
        some (tree.erase loc)

theorem remove_eq_some
    {tree tree' : FileTree N α}
    {loc : List N}
    (hRemove : tree.remove loc = some tree') :
    tree' = tree.erase loc := by
  unfold remove at hRemove
  split at hRemove
  · cases hRemove
  · exact (Option.some.inj hRemove).symm
  · split at hRemove
    · cases hRemove
    · exact (Option.some.inj hRemove).symm

theorem remove_of_file
    {tree : FileTree N α}
    {loc : List N}
    {payload : α}
    (hFile : tree.lookup loc = some (.file payload)) :
    tree.remove loc = some (tree.erase loc) := by
  simp [remove, hFile]

theorem lookup_remove
    {tree tree' : FileTree N α}
    {loc : List N}
    (hRemove : tree.remove loc = some tree')
    (key : List N) :
    tree'.lookup key =
      if key = loc then none else tree.lookup key := by
  rw [remove_eq_some hRemove]
  by_cases hKey : key = loc
  · subst hKey
    simp
  · rw [if_neg hKey]
    exact AList.lookup_erase_ne hKey

/-
  Remove the subtree at `loc`, except the nodes that could
  not be removed.
-/
def removeAll
    (survives : List N → Bool)
    (tree : FileTree N α)
    (loc : List N) : FileTree N α :=
  tree.filterKeys (fun key => !(loc <+: key) || survives key)

theorem lookup_removeAll
    (survives : List N → Bool)
    (tree : FileTree N α)
    (loc key : List N) :
    (tree.removeAll survives loc).lookup key =
      if loc <+: key ∧ survives key = false then
        none
      else
        tree.lookup key := by
  unfold removeAll
  rw [AList.lookup_filterKeys]
  by_cases hBelow : loc <+: key <;>
    cases hSurvives : survives key <;>
    simp [hBelow]

------------------------------------------------------------
-- Removing Empty Directories
------------------------------------------------------------

/- Remove one location after the other, where possible. -/
def sweep
    (tree : FileTree N α)
    (locs : List (List N)) : FileTree N α :=
  locs.foldl (fun tree loc => (tree.remove loc).getD tree)
    tree

/- The location and whatever exists below it is listed. -/
def Covered
    (tree : FileTree N α)
    (locs : List (List N))
    (key : List N) : Prop :=
  key ∈ locs ∧ ∀ below, key <+: below →
    tree.lookup below ≠ none → below ∈ locs

/- A location that has gone need not be listed any more. -/
theorem covered_cons_of_gone
    {tree tree' : FileTree N α}
    {loc key : List N}
    (hGone : ∀ other, tree'.lookup other =
      if other = loc then none else tree.lookup other)
    (hKey : key ≠ loc)
    (locs : List (List N)) :
    tree.Covered (loc :: locs) key ↔
      tree'.Covered locs key := by
  refine and_congr (by simp [hKey]) ?_
  refine forall₂_congr (fun below _ => ?_)
  rw [hGone below]
  by_cases hBelow : below = loc
  · simp [hBelow]
  · simp [hBelow]

/- A directory that something unlisted holds back. -/
theorem covered_cons_of_child
    {tree : FileTree N α}
    {loc child : List N}
    {locs : List (List N)}
    (hChild : loc <+: child)
    (hSome : tree.lookup child ≠ none)
    (hUnlisted : child ∉ loc :: locs)
    (key : List N) :
    tree.Covered (loc :: locs) key ↔
      tree.Covered locs key := by
  constructor
  · intro hCovered
    have hAway : ¬ key <+: loc := fun hAbove =>
      hUnlisted (hCovered.2 child (hAbove.trans hChild) hSome)
    refine ⟨?_, fun below hBelow hHere => ?_⟩
    · refine (List.mem_cons.mp hCovered.1).resolve_left ?_
      intro hKey
      exact hAway (hKey ▸ List.prefix_refl key)
    · refine (List.mem_cons.mp
        (hCovered.2 below hBelow hHere)).resolve_left ?_
      intro hLoc
      exact hAway (hLoc ▸ hBelow)
  · intro hCovered
    exact ⟨List.mem_cons_of_mem _ hCovered.1,
      fun below hBelow hHere => List.mem_cons_of_mem _
        (hCovered.2 below hBelow hHere)⟩

/- A directory that is not held back goes. -/
theorem lookup_getD_remove
    {tree : FileTree N α}
    {loc : List N}
    (hChild : tree.hasChild loc = false)
    (key : List N) :
    ((tree.remove loc).getD tree).lookup key =
      if key = loc then none else tree.lookup key := by
  cases hRemove : tree.remove loc with
  | some tree' =>
      exact lookup_remove hRemove key
  | none =>
      have hNone : tree.lookup loc = none := by
        unfold remove at hRemove
        split at hRemove
        next hNone => exact hNone
        next => cases hRemove
        next => simp [hChild] at hRemove
      rw [Option.getD_none]
      split
      next hKey => rw [hKey, hNone]
      next => rfl

/-
  When no listed location comes before one below it, a sweep
  over directories removes those that it covers.
-/
theorem lookup_sweep
    {locs : List (List N)}
    (hOrder : locs.Pairwise (fun first second =>
      first <+: second → first = second))
    (tree : FileTree N α)
    (hDirs : ∀ loc ∈ locs,
      tree.lookup loc = none ∨ tree.lookup loc = some .dir)
    (key : List N) :
    (tree.Covered locs key →
        (tree.sweep locs).lookup key = none) ∧
      (¬ tree.Covered locs key →
        (tree.sweep locs).lookup key = tree.lookup key) := by
  induction locs generalizing tree with
  | nil => simp [sweep, Covered]
  | cons loc locs ih =>
      rw [List.pairwise_cons] at hOrder
      rw [List.forall_mem_cons] at hDirs
      change (_ → (((tree.remove loc).getD tree).sweep
          locs).lookup key = none) ∧
        (_ → (((tree.remove loc).getD tree).sweep
          locs).lookup key = _)
      by_cases hChild : tree.hasChild loc = true
      -- an earlier step would have removed a listed child
      · rcases (tree.hasChild_iff loc).mp hChild with
          ⟨child, hBelow, hNe, hSome⟩
        have hUnlisted : child ∉ loc :: locs := by
          rw [List.mem_cons, not_or]
          exact ⟨hNe, fun hMem =>
            hNe (hOrder.1 child hMem hBelow).symm⟩
        have hStays : (tree.remove loc).getD tree = tree := by
          rcases hDirs.1 with hNone | hDir
          · simp [remove, hNone]
          · simp [remove, hDir, hChild]
        rw [hStays,
          covered_cons_of_child hBelow hSome hUnlisted]
        exact ih hOrder.2 tree hDirs.2
      · have hAlone := Bool.eq_false_iff.mpr hChild
        have hGone := lookup_getD_remove hAlone
        have hLeft : ∀ other ∈ locs,
            ((tree.remove loc).getD tree).lookup other =
                none ∨
              ((tree.remove loc).getD tree).lookup other =
                some .dir := by
          intro other hMem
          rw [hGone]
          split
          · exact Or.inl rfl
          · exact hDirs.2 other hMem
        have hRest := ih hOrder.2 _ hLeft
        by_cases hKey : key = loc
        · subst hKey
          have hCovered : tree.Covered (key :: locs) key := by
            refine ⟨List.mem_cons_self, ?_⟩
            intro below hBelow hSome
            by_contra hUnlisted
            have hNe : below ≠ key := by
              intro hEq
              exact hUnlisted (hEq ▸ List.mem_cons_self)
            exact hChild ((tree.hasChild_iff key).mpr
              ⟨below, hBelow, hNe, hSome⟩)
          refine ⟨fun _ => ?_,
            fun hNot => absurd hCovered hNot⟩
          rw [hGone, if_pos rfl] at hRest
          exact (em _).elim hRest.1 hRest.2
        · rw [covered_cons_of_gone hGone hKey]
          rw [hGone, if_neg hKey] at hRest
          exact hRest

------------------------------------------------------------
-- Moving A Subtree
------------------------------------------------------------

/- Replace the leading `source` of a key by `target`. -/
def rebase
    (source target key : List N) : List N :=
  target ++ key.drop source.length

omit [DecidableEq N] in
theorem rebase_append
    (source target rest : List N) :
    rebase source target (source ++ rest) =
      target ++ rest := by
  simp [rebase]

/-
  Move the subtree at `source` to `target`, replacing what
  was there, as a rename does.
-/
def rename
    (source target : List N)
    (tree : FileTree N α) : FileTree N α where
  entries :=
    (tree.entries.filter
        (fun entry => source <+: entry.1)).map
      (fun entry =>
        ⟨rebase source target entry.1, entry.2⟩) ++
    tree.entries.filter
      (fun entry =>
        !(source <+: entry.1) && !(target <+: entry.1))
  nodupKeys := by
    rw [List.nodupKeys_iff_pairwise]
    rw [List.pairwise_append]
    refine ⟨?_, ?_, ?_⟩
    · rw [List.pairwise_map, List.pairwise_filter]
      have hKeys := List.nodupKeys_iff_pairwise.mp
        tree.nodupKeys
      refine hKeys.imp ?_
      intro left right hNe hLeft hRight hEq
      obtain ⟨restL, hRestL⟩ := of_decide_eq_true hLeft
      obtain ⟨restR, hRestR⟩ := of_decide_eq_true hRight
      apply hNe
      simp only [← hRestL, ← hRestR,
        rebase_append] at hEq ⊢
      rw [List.append_cancel_left hEq]
    · exact (List.nodupKeys_iff_pairwise.mp
        tree.nodupKeys).filter _
    · intro left hLeft right hRight hEq
      rcases List.mem_map.mp hLeft with ⟨entry, _, rfl⟩
      have hAway := (List.mem_filter.mp hRight).2
      simp only [Bool.and_eq_true, Bool.not_eq_true',
        decide_eq_false_iff_not] at hAway
      apply hAway.2
      rw [← hEq]
      exact ⟨_, rfl⟩

theorem lookup_rename
    (source target : List N)
    (tree : FileTree N α)
    (key : List N) :
    (tree.rename source target).lookup key =
      if target <+: key then
        tree.lookup (rebase target source key)
      else if source <+: key then
        none
      else
        tree.lookup key := by
  apply Option.ext
  intro node
  change node ∈ (tree.rename source target).lookup key ↔ _
  rw [AList.mem_lookup_iff]
  simp only [rename, List.mem_append, List.mem_map,
    List.mem_filter, decide_eq_true_eq, Bool.and_eq_true,
    Bool.not_eq_true', decide_eq_false_iff_not]
  by_cases hTarget : target <+: key
  · rw [if_pos hTarget]
    change _ ↔ node ∈ tree.lookup _
    rw [AList.mem_lookup_iff]
    obtain ⟨rest, rfl⟩ := hTarget
    rw [rebase_append]
    constructor
    · rintro (⟨entry, ⟨hMem, below, hBelow⟩, hEq⟩ | hOut)
      · obtain ⟨entryKey, entryNode⟩ := entry
        subst hBelow
        simp only [rebase_append, Sigma.mk.injEq] at hEq
        obtain ⟨hKey, hNode⟩ := hEq
        rw [List.append_cancel_left hKey] at hMem
        rw [← eq_of_heq hNode]
        exact hMem
      · exact absurd (List.prefix_append _ _) hOut.2.2
    · intro hMem
      left
      refine ⟨⟨source ++ rest, node⟩,
        ⟨hMem, List.prefix_append _ _⟩, ?_⟩
      rw [rebase_append]
  · rw [if_neg hTarget]
    by_cases hSource : source <+: key
    · rw [if_pos hSource]
      constructor
      · rintro (⟨entry, _, hEq⟩ | hOut)
        · exact absurd
            ⟨_, congrArg Sigma.fst hEq⟩ hTarget
        · exact absurd hSource hOut.2.1
      · intro hNone
        cases hNone
    · rw [if_neg hSource]
      change _ ↔ node ∈ tree.lookup _
      rw [AList.mem_lookup_iff]
      constructor
      · rintro (⟨entry, _, hEq⟩ | hOut)
        · exact absurd
            ⟨_, congrArg Sigma.fst hEq⟩ hTarget
        · exact hOut.1
      · intro hMem
        exact Or.inr ⟨hMem, hSource, hTarget⟩

/- The moved node is found under its new key. -/
theorem lookup_rename_target
    (source target : List N)
    (tree : FileTree N α) :
    (tree.rename source target).lookup target =
      tree.lookup source := by
  have hKey : rebase target source target = source := by
    simp [rebase]
  rw [lookup_rename, if_pos (List.prefix_refl _), hKey]

end FileTree
