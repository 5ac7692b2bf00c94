import VeritasSync.Storage.CachedFileStore

/-
  When the cache and the `files` table agree once no thread
  is in the middle of anything.

  Main declarations:
    * `CachedFileStore.Careful`, `CachedFileStore.Inv`
    * `CachedFileStore.cacheCoherent_of_run`
-/

namespace VeritasSync

------------------------------------------------------------
-- Writes in Sequence
------------------------------------------------------------

namespace FileWrite

def Covers (writes : List FileWrite) (path : String) : Prop :=
  ∃ w ∈ writes, w.path = path

theorem applyAll_append
    (table : FileTable)
    (writes : List FileWrite)
    (w : FileWrite) :
    applyAll table (writes ++ [w]) =
      w.apply (applyAll table writes) :=
  List.foldl_concat ..

/- A path that no write names keeps its row. -/
theorem applyAll_of_not_covers
    {table : FileTable}
    {writes : List FileWrite}
    {path : String}
    (hNot : ¬ Covers writes path) :
    applyAll table writes path = table path := by
  induction writes generalizing table with
  | nil => rfl
  | cons w writes ih =>
      have hRest : ¬ Covers writes path := by
        rintro ⟨w', hIn, hPath⟩
        exact hNot ⟨w', List.mem_cons_of_mem w hIn, hPath⟩
      have hOther : path ≠ w.path := fun hSame =>
        hNot ⟨w, List.mem_cons_self, hSame.symm⟩
      rw [applyAll, List.foldl_cons]
      exact (ih hRest).trans (Function.update_of_ne hOther ..)

/- The row of one that is named comes from the writes. -/
theorem applyAll_of_covers
    {writes : List FileWrite}
    {path : String}
    (table table' : FileTable)
    (hCovers : Covers writes path) :
    applyAll table writes path =
      applyAll table' writes path := by
  induction writes generalizing table table' with
  | nil =>
      rcases hCovers with ⟨w, hIn, _⟩
      cases hIn
  | cons w writes ih =>
      by_cases hRest : Covers writes path
      · exact ih (w.apply table) (w.apply table') hRest
      · rcases hCovers with ⟨w', hIn, hPath⟩
        have hFirst : w.path = path := by
          rcases List.mem_cons.mp hIn with hSame | hIn
          · rw [← hSame]
            exact hPath
          · exact absurd ⟨w', hIn, hPath⟩ hRest
        have hEach : ∀ t : FileTable,
            applyAll t (w :: writes) path = w.value := by
          intro t
          refine (applyAll_of_not_covers hRest).trans ?_
          rw [apply, ← hFirst]
          exact Function.update_self ..
        rw [hEach, hEach]

end FileWrite

namespace CachedFileStore

open FileWrite Transition

------------------------------------------------------------
-- The Condition
------------------------------------------------------------

/- The thread will still put a row of the path in the cache. -/
def Owes (state : StoreThread) (path : String) : Prop :=
  match state with
  | ⟨_, false, .writing w⟩ => w.path = path
  | ⟨guard :: _, _, .committing⟩ =>
      Covers guard.localPendingOps path
  | _ => False

/-
  Guards are not nested.  A guard is written in only while
  its transaction is under way, unless nothing changes.  A
  write without a guard reaches the cache before a later one
  has done so that the table keeps.
-/
def Careful
    (s : CachedFileStore) : Event → Prop
| .beginGuard thread _ => (s.threads thread).guards = []
| .writeDb thread w ok =>
    ok = true → (s.threads thread).registered = true →
      s.db.saved.isSome = true ∨
        s.db.files w.path = w.value
| .writeCache thread =>
    ∀ w, (s.threads thread).phase = .writing w →
      (s.threads thread).registered = false →
      s.db.base w.path = w.value ∨
        ∃ other, other ≠ thread ∧
          Owes (s.threads other) w.path
| _ => True

------------------------------------------------------------
-- The Invariant
------------------------------------------------------------

/- The write that the thread is in the middle of. -/
def inFlight (state : StoreThread) : List FileWrite :=
  match state.phase with
  | .writing w => [w]
  | _ => []

/-
  The thread with the mutex is the one with the guard.  An
  open transaction has done what its guard keeps, and apart
  from what is still owed the cache has the committed rows.
-/
structure Inv (s : CachedFileStore) : Prop where
  single : ∀ t, (s.threads t).guards.length ≤ 1
  registered : ∀ t, (s.threads t).registered = true ↔
    (s.threads t).guards ≠ []
  owner : ∀ t, (s.threads t).guards ≠ [] ↔
    s.db.owner = some t
  opened : ∀ table, s.db.saved = some table →
    ∃ t guard, (s.threads t).guards = [guard] ∧
      guard.dbCommitted = false ∧
      s.db.files = applyAll table
        (guard.localPendingOps ++ inFlight (s.threads t))
  committed : ∀ t guard, (s.threads t).guards = [guard] →
    guard.dbCommitted = true →
    s.db.saved = none ∧
      (guard.committed = true ∨
        (s.threads t).phase = .committing)
  committing : ∀ t, (s.threads t).phase = .committing →
    ∃ guard, (s.threads t).guards = [guard] ∧
      guard.dbCommitted = true ∧
      ∀ table path, Covers guard.localPendingOps path →
        applyAll table guard.localPendingOps path =
          s.db.files path
  cached : ∀ path, s.cache path = s.db.base path ∨
    ∃ t, Owes (s.threads t) path

theorem inv_start (table : FileTable) : Inv (start table) where
  single := fun _ => Nat.zero_le 1
  registered := fun _ => by simp [start, StoreThread.start]
  owner := fun _ => by simp [start, StoreThread.start]
  opened := fun _ hSaved => nomatch hSaved
  committed := fun _ _ hGuards => nomatch hGuards
  committing := fun _ hPhase => nomatch hPhase
  cached := fun _ => Or.inl rfl

/- An idle thread owes nothing. -/
theorem not_owes_of_idle
    {state : StoreThread}
    (path : String)
    (hIdle : state.phase = .idle) :
    ¬ Owes state path := by
  rcases state with ⟨guards, registered, phase⟩
  simp only at hIdle
  subst hIdle
  cases guards <;> cases registered <;> exact id

section Invariant

variable
  {s : CachedFileStore}
  {thread : ℕ}

theorem threads_withThread_self
    (s : CachedFileStore)
    (thread : ℕ)
    (state : StoreThread) :
    (s.withThread thread state).threads thread = state :=
  Function.update_self ..

theorem threads_withThread_other
    (s : CachedFileStore)
    {thread other : ℕ}
    (state : StoreThread)
    (hOther : other ≠ thread) :
    (s.withThread thread state).threads other =
      s.threads other :=
  Function.update_of_ne hOther ..

/- No other thread has a guard when one is free to write. -/
theorem Inv.owner_eq_none
    (hInv : Inv s)
    (hAdmits : s.db.admits thread = true)
    (hNone : (s.threads thread).guards = []) :
    s.db.owner = none := by
  rcases Bool.or_eq_true_iff.mp hAdmits with hFree | hOwn
  · exact eq_of_beq hFree
  · exact absurd hNone
      ((hInv.owner thread).mpr (eq_of_beq hOwn))

theorem Inv.guards_eq_nil
    (hInv : Inv s)
    (hFree : s.db.owner = none)
    (t : ℕ) :
    (s.threads t).guards = [] := by
  by_contra hSome
  rw [(hInv.owner t).mp hSome] at hFree
  cases hFree

/- Without a guard there is no transaction. -/
theorem Inv.saved_eq_none
    (hInv : Inv s)
    (hFree : s.db.owner = none) :
    s.db.saved = none := by
  cases hSaved : s.db.saved with
  | none => rfl
  | some table =>
      rcases hInv.opened table hSaved with
        ⟨t, guard, hGuards, _⟩
      rw [hInv.guards_eq_nil hFree t] at hGuards
      cases hGuards

/- Only one thread has a guard. -/
theorem Inv.eq_of_guards
    (hInv : Inv s)
    {t t' : ℕ}
    (hFirst : (s.threads t).guards ≠ [])
    (hSecond : (s.threads t').guards ≠ []) :
    t = t' := by
  have hOwner := (hInv.owner t).mp hFirst
  rw [(hInv.owner t').mp hSecond] at hOwner
  exact (Option.some.inj hOwner).symm

/- A thread has at most one guard. -/
theorem Inv.guards_cons
    (hInv : Inv s)
    {guard : CacheAwareGuard}
    {guards : List CacheAwareGuard}
    (hGuards : (s.threads thread).guards =
      guard :: guards) :
    guards = [] := by
  have hSingle := hInv.single thread
  rw [hGuards, List.length_cons] at hSingle
  exact List.eq_nil_of_length_eq_zero (by omega)

/- The guard of a thread is its only one. -/
theorem Inv.turn_of_at
    (hInv : Inv s)
    {guard : CacheAwareGuard}
    {guards : List CacheAwareGuard}
    {registered : Bool}
    {phase : StorePhase}
    (hAt : s.threads thread =
      ⟨guard :: guards, registered, phase⟩) :
    guards = [] ∧ (s.threads thread).guards ≠ [] := by
  constructor
  · apply hInv.guards_cons
    rw [hAt]
  · rw [hAt]
    exact List.cons_ne_nil _ _

/- An open transaction is that of the thread with a guard. -/
theorem Inv.opened_turn
    (hInv : Inv s)
    (hSome : (s.threads thread).guards ≠ [])
    {table : FileTable}
    (hSaved : s.db.saved = some table) :
    ∃ guard, (s.threads thread).guards = [guard] ∧
      guard.dbCommitted = false ∧
      s.db.files = applyAll table
        (guard.localPendingOps ++
          inFlight (s.threads thread)) := by
  rcases hInv.opened table hSaved with
    ⟨t, guard, hGuards, hRest⟩
  have hSame : t = thread := by
    apply hInv.eq_of_guards _ hSome
    rw [hGuards]
    exact List.cons_ne_nil _ _
  subst hSame
  exact ⟨guard, hGuards, hRest⟩

/- A thread out of the registry has no guard. -/
theorem Inv.guards_eq_nil_of_out
    (hInv : Inv s)
    (hOut : (s.threads thread).registered = false) :
    (s.threads thread).guards = [] := by
  by_contra hSome
  rw [(hInv.registered thread).mpr hSome] at hOut
  cases hOut

/- A thread without a guard is not committing one. -/
theorem Inv.of_guards_eq_nil
    (hInv : Inv s)
    (hNone : (s.threads thread).guards = []) :
    (s.threads thread).registered = false ∧
      (s.threads thread).phase ≠ .committing := by
  constructor
  · by_contra hIn
    exact (hInv.registered thread).mp
      (Bool.of_not_eq_false hIn) hNone
  · intro hPhase
    rcases hInv.committing thread hPhase with ⟨_, hSome, _⟩
    rw [hNone] at hSome
    cases hSome

/- The others have no guard while this thread has the turn. -/
theorem Inv.others
    (hInv : Inv s)
    (hTurn : (s.threads thread).guards ≠ [] ∨
      s.db.owner = none)
    {t : ℕ}
    (hOther : t ≠ thread) :
    (s.threads t).guards = [] := by
  rcases hTurn with hSome | hFree
  · by_contra hGuards
    exact hOther (hInv.eq_of_guards hGuards hSome)
  · exact hInv.guards_eq_nil hFree t

/-
  A step of the only thread that has, or may have, a guard.
  What the others are doing stays as it is.
-/
theorem Inv.of_turn
    {s' : CachedFileStore}
    (hInv : Inv s)
    (hTurn : (s.threads thread).guards ≠ [] ∨
      s.db.owner = none)
    (hOthers : ∀ t, t ≠ thread →
      s'.threads t = s.threads t)
    (hSingle : (s'.threads thread).guards.length ≤ 1)
    (hRegistered : (s'.threads thread).registered = true ↔
      (s'.threads thread).guards ≠ [])
    (hOwner : s'.db.owner =
      if (s'.threads thread).guards = [] then none
      else some thread)
    (hOpened : ∀ table, s'.db.saved = some table →
      ∃ guard, (s'.threads thread).guards = [guard] ∧
        guard.dbCommitted = false ∧
        s'.db.files = applyAll table
          (guard.localPendingOps ++
            inFlight (s'.threads thread)))
    (hCommitted : ∀ guard,
      (s'.threads thread).guards = [guard] →
      guard.dbCommitted = true →
      s'.db.saved = none ∧
        (guard.committed = true ∨
          (s'.threads thread).phase = .committing))
    (hCommitting :
      (s'.threads thread).phase = .committing →
      ∃ guard, (s'.threads thread).guards = [guard] ∧
        guard.dbCommitted = true ∧
        ∀ table path, Covers guard.localPendingOps path →
          applyAll table guard.localPendingOps path =
            s'.db.files path)
    (hCached : ∀ path, s'.cache path = s'.db.base path ∨
      ∃ t, Owes (s'.threads t) path) :
    Inv s' := by
  have hNone : ∀ t, t ≠ thread →
      (s'.threads t).guards = [] := by
    intro t hOther
    rw [hOthers t hOther]
    exact hInv.others hTurn hOther
  exact {
    single := fun t => by
      by_cases hSame : t = thread
      · rw [hSame]
        exact hSingle
      · rw [hNone t hSame]
        exact Nat.zero_le 1
    registered := fun t => by
      by_cases hSame : t = thread
      · rw [hSame]
        exact hRegistered
      · rw [hOthers t hSame]
        exact hInv.registered t
    owner := fun t => by
      rw [hOwner]
      by_cases hSame : t = thread
      · subst hSame
        split
        next hGuards => simp [hGuards]
        next hGuards => simp [hGuards]
      · rw [hNone t hSame]
        split
        next => simp
        next => simp [Ne.symm hSame]
    opened := fun table hSaved =>
      ⟨thread, hOpened table hSaved⟩
    committed := fun t guard hGuards => by
      by_cases hSame : t = thread
      · subst hSame
        exact hCommitted guard hGuards
      · rw [hNone t hSame] at hGuards
        cases hGuards
    committing := fun t hPhase => by
      by_cases hSame : t = thread
      · subst hSame
        exact hCommitting hPhase
      · rw [hOthers t hSame] at hPhase
        exact absurd hPhase (hInv.of_guards_eq_nil
          (hInv.others hTurn hSame)).2
    cached := hCached }

/-
  A step of a thread without a guard that leaves the database
  alone.  What the thread with the guard is doing stays as it
  is.
-/
theorem Inv.of_bystander
    {s' : CachedFileStore}
    (hInv : Inv s)
    (hNone : (s.threads thread).guards = [])
    (hOthers : ∀ t, t ≠ thread →
      s'.threads t = s.threads t)
    (hSelf : s'.threads thread =
      { s.threads thread with phase := .idle })
    (hDb : s'.db = s.db)
    (hCached : ∀ path, s'.cache path = s'.db.base path ∨
      ∃ t, Owes (s'.threads t) path) :
    Inv s' := by
  have hGuards : ∀ t,
      (s'.threads t).guards = (s.threads t).guards := by
    intro t
    by_cases hSame : t = thread
    · rw [hSame, hSelf]
    · rw [hOthers t hSame]
  have hNot : ∀ t guard,
      (s.threads t).guards = [guard] → t ≠ thread := by
    rintro t guard hGuard rfl
    rw [hNone] at hGuard
    cases hGuard
  exact {
    single := fun t => by
      rw [hGuards t]
      exact hInv.single t
    registered := fun t => by
      by_cases hSame : t = thread
      · rw [hSame, hSelf]
        exact hInv.registered thread
      · rw [hOthers t hSame]
        exact hInv.registered t
    owner := fun t => by
      rw [hGuards t, hDb]
      exact hInv.owner t
    opened := fun table hOpen => by
      rw [hDb] at hOpen ⊢
      rcases hInv.opened table hOpen with
        ⟨t, guard, hGuard, hRest⟩
      refine ⟨t, guard, ?_⟩
      rw [hOthers t (hNot t guard hGuard)]
      exact ⟨hGuard, hRest⟩
    committed := fun t guard hGuard hKept => by
      rw [hGuards t] at hGuard
      rw [hDb, hOthers t (hNot t guard hGuard)]
      exact hInv.committed t guard hGuard hKept
    committing := fun t hCommitting => by
      have hOther : t ≠ thread := by
        rintro rfl
        rw [hSelf] at hCommitting
        cases hCommitting
      rw [hOthers t hOther] at hCommitting ⊢
      rw [hDb]
      exact hInv.committing t hCommitting
    cached := hCached }

/- What a thread that owes nothing does leaves as it is. -/
theorem Inv.cached_of_not_owes
    {s' : CachedFileStore}
    (hInv : Inv s)
    (hOthers : ∀ t, t ≠ thread →
      s'.threads t = s.threads t)
    (hNot : ∀ path, ¬ Owes (s.threads thread) path)
    {path : String}
    (hCache : s'.cache path = s.cache path)
    (hBase : s'.db.base path = s.db.base path) :
    s'.cache path = s'.db.base path ∨
      ∃ t, Owes (s'.threads t) path := by
  rw [hCache, hBase]
  rcases hInv.cached path with hRow | ⟨t, hOwes⟩
  · exact Or.inl hRow
  · refine Or.inr ⟨t, ?_⟩
    have hOther : t ≠ thread := by
      rintro rfl
      exact hNot path hOwes
    rw [hOthers t hOther]
    exact hOwes

------------------------------------------------------------
-- Writes
------------------------------------------------------------

/- What is in flight is owed from now on. -/
theorem Inv.writeDb_unregistered
    (hInv : Inv s)
    (w : FileWrite)
    (hAdmits : s.db.admits thread = true)
    (hIdle : (s.threads thread).phase = .idle)
    (hOut : (s.threads thread).registered = false) :
    Inv (s.writeDb thread w true) := by
  have hNone := hInv.guards_eq_nil_of_out hOut
  have hFree := hInv.owner_eq_none hAdmits hNone
  have hSaved := hInv.saved_eq_none hFree
  have hOthers : ∀ t, t ≠ thread →
      (s.writeDb thread w true).threads t = s.threads t :=
    fun t hOther => threads_withThread_other _ _ hOther
  have hSelf : (s.writeDb thread w true).threads thread =
      { s.threads thread with phase := .writing w } :=
    threads_withThread_self ..
  apply hInv.of_turn (Or.inr hFree) hOthers
  · rw [hSelf]
    exact hInv.single thread
  · rw [hSelf]
    exact hInv.registered thread
  · rw [hSelf]
    exact hFree.trans (if_pos hNone).symm
  · intro table hOpen
    rw [show (s.writeDb thread w true).db.saved = none
      from hSaved] at hOpen
    cases hOpen
  · intro guard hGuards
    rw [hSelf] at hGuards
    rw [hNone] at hGuards
    cases hGuards
  · intro hPhase
    rw [hSelf] at hPhase
    cases hPhase
  · intro path
    by_cases hPath : w.path = path
    · refine Or.inr ⟨thread, ?_⟩
      rw [hSelf]
      rcases hState : s.threads thread with
        ⟨guards, registered, phase⟩
      rw [hState] at hOut
      simp only at hOut
      subst hOut
      exact hPath
    · apply hInv.cached_of_not_owes hOthers
        (fun path => not_owes_of_idle path hIdle) rfl
      simp only [writeDb, if_true, withThread,
        Database.base, Database.write, hSaved,
        Option.getD_none, FileWrite.apply]
      exact Function.update_of_ne (Ne.symm hPath) ..

/- A guard is given one more write to keep. -/
theorem Inv.writeDb_registered
    (hInv : Inv s)
    (w : FileWrite)
    (hIdle : (s.threads thread).phase = .idle)
    (hIn : (s.threads thread).registered = true)
    (hCareful : s.db.saved.isSome = true ∨
      s.db.files w.path = w.value) :
    Inv (s.writeDb thread w true) := by
  have hSome := (hInv.registered thread).mp hIn
  have hOthers : ∀ t, t ≠ thread →
      (s.writeDb thread w true).threads t = s.threads t :=
    fun t hOther => threads_withThread_other _ _ hOther
  have hSelf : (s.writeDb thread w true).threads thread =
      { s.threads thread with phase := .writing w } :=
    threads_withThread_self ..
  apply hInv.of_turn (Or.inl hSome) hOthers
  · rw [hSelf]
    exact hInv.single thread
  · rw [hSelf]
    exact hInv.registered thread
  · rw [hSelf]
    exact ((hInv.owner thread).mp hSome).trans
      (if_neg hSome).symm
  · intro table hOpen
    rcases hInv.opened_turn hSome hOpen with
      ⟨guard, hGuards, hOpenGuard, hFiles⟩
    refine ⟨guard, ?_, hOpenGuard, ?_⟩
    · rw [hSelf]
      exact hGuards
    · rw [hSelf]
      have hNothing : inFlight (s.threads thread) = [] := by
        rw [inFlight, hIdle]
      rw [hNothing, List.append_nil] at hFiles
      rw [show inFlight { s.threads thread with
        phase := .writing w } = [w] from rfl,
        applyAll_append, ← hFiles]
      rfl
  · intro guard hGuards hDb
    rw [hSelf] at hGuards
    rcases hInv.committed thread guard hGuards hDb with
      ⟨hSaved, hFlag | hPhase⟩
    · exact ⟨hSaved, Or.inl hFlag⟩
    · rw [hIdle] at hPhase
      cases hPhase
  · intro hPhase
    rw [hSelf] at hPhase
    cases hPhase
  · intro path
    apply hInv.cached_of_not_owes hOthers
      (fun path => not_owes_of_idle path hIdle) rfl
    simp only [writeDb, if_true, withThread,
      Database.base, Database.write]
    cases hSaved : s.db.saved with
    | some table => rfl
    | none =>
        have hSameRow : s.db.files w.path = w.value := by
          rcases hCareful with hOpen | hSameRow
          · rw [hSaved] at hOpen
            cases hOpen
          · exact hSameRow
        rw [Option.getD_none, Option.getD_none,
          FileWrite.apply, ← hSameRow,
          Function.update_eq_self]

/- The guard keeps the write; the cache stays as it is. -/
theorem Inv.writeCache_registered
    (hInv : Inv s)
    {w : FileWrite}
    {guard : CacheAwareGuard}
    {guards : List CacheAwareGuard}
    (hAt : s.threads thread =
      ⟨guard :: guards, true, .writing w⟩) :
    Inv (s.writeCache thread w) := by
  rcases hInv.turn_of_at hAt with ⟨rfl, hSome⟩
  have hStep : s.writeCache thread w =
      s.withThread thread
        ⟨[{ guard with
            localPendingOps := guard.localPendingOps ++ [w]
          }], true, .idle⟩ := by
    rw [writeCache, hAt]
  have hOthers : ∀ t, t ≠ thread →
      (s.writeCache thread w).threads t = s.threads t := by
    intro t hOther
    rw [hStep]
    exact threads_withThread_other _ _ hOther
  have hSelf : (s.writeCache thread w).threads thread =
      ⟨[{ guard with
          localPendingOps := guard.localPendingOps ++ [w]
        }], true, .idle⟩ := by
    rw [hStep]
    exact threads_withThread_self ..
  have hDb : (s.writeCache thread w).db = s.db := by
    rw [hStep]
    rfl
  apply hInv.of_turn (Or.inl hSome) hOthers
  · rw [hSelf]
    exact Nat.le_refl 1
  · simp [hSelf]
  · rw [hDb, (hInv.owner thread).mp hSome, hSelf]
    rfl
  · intro table hOpen
    rw [hDb] at hOpen ⊢
    rcases hInv.opened_turn hSome hOpen with
      ⟨opened, hGuards, hOpenGuard, hFiles⟩
    rw [hAt] at hGuards hFiles
    cases hGuards
    refine ⟨{ guard with
      localPendingOps := guard.localPendingOps ++ [w] },
      by rw [hSelf], hOpenGuard, ?_⟩
    rw [hSelf]
    simpa [inFlight] using hFiles
  · intro kept hGuards hKept
    rw [hDb]
    rw [hSelf] at hGuards
    cases hGuards
    rcases hInv.committed thread guard (by rw [hAt]) hKept
      with ⟨hSaved, hFlag | hPhase⟩
    · exact ⟨hSaved, Or.inl hFlag⟩
    · rw [hAt] at hPhase
      cases hPhase
  · intro hPhase
    rw [hSelf] at hPhase
    cases hPhase
  · intro path
    apply hInv.cached_of_not_owes hOthers
    · intro path hOwes
      rw [hAt] at hOwes
      exact hOwes
    · rw [hStep]
      rfl
    · rw [hDb]

/- A write that is not overtaken brings what is committed. -/
theorem Inv.writeCache_unregistered
    (hInv : Inv s)
    {w : FileWrite}
    (hPhase : (s.threads thread).phase = .writing w)
    (hOut : (s.threads thread).registered = false)
    (hCareful : s.db.base w.path = w.value ∨
      ∃ other, other ≠ thread ∧
        Owes (s.threads other) w.path) :
    Inv (s.writeCache thread w) := by
  have hStep : s.writeCache thread w =
      { s with cache := w.apply s.cache }.withThread thread
        { s.threads thread with phase := .idle } := by
    unfold writeCache
    split
    next hAt =>
      rw [hAt] at hOut
      cases hOut
    next => rfl
  have hOther : ∀ t, t ≠ thread →
      (s.writeCache thread w).threads t = s.threads t := by
    intro t hOther
    rw [hStep]
    exact threads_withThread_other _ _ hOther
  have hSelf : (s.writeCache thread w).threads thread =
      { s.threads thread with phase := .idle } := by
    rw [hStep]
    exact threads_withThread_self ..
  have hDb : (s.writeCache thread w).db = s.db := by
    rw [hStep]
    rfl
  have hCache : (s.writeCache thread w).cache =
      w.apply s.cache := by
    rw [hStep]
    rfl
  apply hInv.of_bystander
    (hInv.guards_eq_nil_of_out hOut) hOther hSelf hDb
  intro path
  rw [hDb, hCache, FileWrite.apply]
  by_cases hPath : path = w.path
  · rw [hPath, Function.update_self]
    rcases hCareful with hRow | ⟨t, hNot, hOwes⟩
    · exact Or.inl hRow.symm
    · refine Or.inr ⟨t, ?_⟩
      rw [hOther t hNot]
      exact hOwes
  · rw [Function.update_of_ne hPath]
    rcases hInv.cached path with hRow | ⟨t, hOwes⟩
    · exact Or.inl hRow
    · refine Or.inr ⟨t, ?_⟩
      have hNot : t ≠ thread := by
        rintro rfl
        rcases hAt : s.threads t with
          ⟨guards, registered, phase⟩
        rw [hAt] at hOwes hPhase hOut
        simp only at hPhase hOut
        subst hPhase hOut
        exact hPath hOwes.symm
      rw [hOther t hNot]
      exact hOwes

------------------------------------------------------------
-- Guards
------------------------------------------------------------

theorem Inv.beginGuard
    (hInv : Inv s)
    (ok : Bool)
    (hAdmits : s.db.admits thread = true)
    (hIdle : (s.threads thread).phase = .idle)
    (hNone : (s.threads thread).guards = []) :
    Inv (s.beginGuard thread ok) := by
  have hFree := hInv.owner_eq_none hAdmits hNone
  have hSaved := hInv.saved_eq_none hFree
  have hOthers : ∀ t, t ≠ thread →
      (s.beginGuard thread ok).threads t = s.threads t :=
    fun t hOther => threads_withThread_other _ _ hOther
  have hSelf : (s.beginGuard thread ok).threads thread =
      { s.threads thread with
        guards := [⟨[], false, false⟩]
        registered := true } := by
    rw [CachedFileStore.beginGuard, threads_withThread_self,
      hNone]
  apply hInv.of_turn (Or.inr hFree) hOthers
  · rw [hSelf]
    exact Nat.le_refl 1
  · simp [hSelf]
  · rw [hSelf]
    rfl
  · intro table hOpen
    refine ⟨_, by rw [hSelf], rfl, ?_⟩
    rw [hSelf]
    simp only [inFlight, hIdle, List.append_nil]
    cases ok with
    | false =>
        rw [show (s.beginGuard thread false).db.saved = none
          from hSaved] at hOpen
        cases hOpen
    | true =>
        simp only [CachedFileStore.beginGuard, withThread,
          Database.beginTransaction, hSaved,
          Option.isNone_none, and_self, if_true,
          Option.some.injEq] at hOpen ⊢
        exact hOpen
  · intro guard hGuards hKept
    rw [hSelf] at hGuards
    cases hGuards
    cases hKept
  · intro hPhase
    rw [hSelf] at hPhase
    simp only [hIdle] at hPhase
    cases hPhase
  · intro path
    apply hInv.cached_of_not_owes hOthers
      (fun path => not_owes_of_idle path hIdle) rfl
    cases ok with
    | false => rfl
    | true =>
        simp [CachedFileStore.beginGuard, withThread,
          Database.beginTransaction, Database.base, hSaved]

/- The committed writes of the guard are owed now. -/
theorem Inv.commitDb
    (hInv : Inv s)
    {guard : CacheAwareGuard}
    {guards : List CacheAwareGuard}
    {registered : Bool}
    (ok : Bool)
    (hAt : s.threads thread =
      ⟨guard :: guards, registered, .idle⟩) :
    Inv (s.commitDb thread guard guards ok) := by
  rcases hInv.turn_of_at hAt with ⟨rfl, hSome⟩
  unfold CachedFileStore.commitDb
  by_cases hDone : guard.committed = true
  · rw [if_pos hDone]
    exact hInv
  · have hDbNot : guard.dbCommitted = false := by
      by_contra hKept
      rcases hInv.committed thread guard (by rw [hAt])
        (Bool.of_not_eq_false hKept) with ⟨_, hFlag | hPhase⟩
      · exact hDone hFlag
      · rw [hAt] at hPhase
        cases hPhase
    rw [if_neg hDone, hDbNot]
    simp only [Bool.false_eq_true, if_false,
      Database.commitTransaction?]
    by_cases hOpen : ok = true ∧ s.db.saved.isSome = true
    · rw [if_pos hOpen]
      rcases Option.isSome_iff_exists.mp hOpen.2 with
        ⟨table, hSaved⟩
      rcases hInv.opened_turn hSome hSaved with
        ⟨opened, hGuards, _, hFiles⟩
      rw [hAt] at hGuards hFiles
      cases hGuards
      simp only [inFlight, List.append_nil] at hFiles
      have hOthers : ∀ t, t ≠ thread →
          ({ s with
            db := { s.db with saved := none }
          }.withThread thread
            { s.threads thread with
              guards := [{ guard with dbCommitted := true }]
              phase := .committing }).threads t =
            s.threads t :=
        fun t hOther => threads_withThread_other _ _ hOther
      apply hInv.of_turn (Or.inl hSome) hOthers
      · rw [threads_withThread_self]
        exact Nat.le_refl 1
      · rw [threads_withThread_self]
        refine iff_of_true ?_ (List.cons_ne_nil _ _)
        exact (hInv.registered thread).mpr hSome
      · rw [threads_withThread_self]
        exact (hInv.owner thread).mp hSome
      · intro table hNone
        cases hNone
      · intro kept hGuards _
        rw [threads_withThread_self] at hGuards ⊢
        exact ⟨rfl, Or.inr rfl⟩
      · intro _
        refine ⟨_, by rw [threads_withThread_self], rfl, ?_⟩
        intro table' path hCovers
        refine (applyAll_of_covers table' table
          hCovers).trans ?_
        exact (congrFun hFiles path).symm
      · intro path
        by_cases hCovers :
            Covers guard.localPendingOps path
        · refine Or.inr ⟨thread, ?_⟩
          rw [threads_withThread_self, hAt]
          cases registered <;> exact hCovers
        · apply hInv.cached_of_not_owes hOthers
          · intro path
            apply not_owes_of_idle
            rw [hAt]
          · rfl
          · simp only [Database.base, withThread,
              Option.getD_none, hSaved, Option.getD_some]
            rw [hFiles]
            exact applyAll_of_not_covers hCovers
    · rw [if_neg hOpen]
      exact hInv

/- What was owed is paid, whoever wrote the rows before. -/
theorem Inv.commitCache
    (hInv : Inv s)
    {guard : CacheAwareGuard}
    {guards : List CacheAwareGuard}
    {registered : Bool}
    (hAt : s.threads thread =
      ⟨guard :: guards, registered, .committing⟩) :
    Inv (s.commitCache thread guard guards) := by
  rcases hInv.turn_of_at hAt with ⟨rfl, hSome⟩
  rcases hInv.committing thread (by rw [hAt]) with
    ⟨own, hOwn, hKept, hRows⟩
  rw [hAt] at hOwn
  cases hOwn
  have hSaved : s.db.saved = none :=
    (hInv.committed thread guard (by rw [hAt]) hKept).1
  have hOthers : ∀ t, t ≠ thread →
      (s.commitCache thread guard []).threads t =
        s.threads t :=
    fun t hOther => threads_withThread_other _ _ hOther
  have hSelf : (s.commitCache thread guard []).threads thread =
      { s.threads thread with
        guards := [{ guard with
          localPendingOps := guard.localPendingOps.filter
            (fun w => w.value == none)
          committed := true }]
        phase := .idle } :=
    threads_withThread_self ..
  apply hInv.of_turn (Or.inl hSome) hOthers
  · rw [hSelf]
    exact Nat.le_refl 1
  · rw [hSelf]
    refine iff_of_true ?_ (List.cons_ne_nil _ _)
    exact (hInv.registered thread).mpr hSome
  · rw [hSelf]
    exact (hInv.owner thread).mp hSome
  · intro table hOpen
    rw [show (s.commitCache thread guard []).db.saved = none
      from hSaved] at hOpen
    cases hOpen
  · intro kept hGuards _
    rw [hSelf] at hGuards
    cases hGuards
    exact ⟨hSaved, Or.inl rfl⟩
  · intro hPhase
    rw [hSelf] at hPhase
    cases hPhase
  · intro path
    have hBase : (s.commitCache thread guard []).db.base path =
        s.db.files path := by
      simp [CachedFileStore.commitCache, withThread,
        Database.base, hSaved]
    have hCache : (s.commitCache thread guard []).cache path =
        applyAll s.cache guard.localPendingOps path := rfl
    rw [hBase, hCache]
    by_cases hCovers : Covers guard.localPendingOps path
    · exact Or.inl (hRows s.cache path hCovers)
    · rw [applyAll_of_not_covers hCovers]
      rcases hInv.cached path with hRow | ⟨t, hOwes⟩
      · rw [Database.base, hSaved] at hRow
        exact Or.inl hRow
      · refine Or.inr ⟨t, ?_⟩
        have hOther : t ≠ thread := by
          rintro rfl
          rw [hAt] at hOwes
          cases registered <;> exact hCovers hOwes
        rw [hOthers t hOther]
        exact hOwes

/- What was not committed has never been in the cache. -/
theorem Inv.dropGuard
    (hInv : Inv s)
    {guard : CacheAwareGuard}
    {guards : List CacheAwareGuard}
    {registered : Bool}
    (hAt : s.threads thread =
      ⟨guard :: guards, registered, .idle⟩) :
    Inv (s.dropGuard thread guard guards) := by
  rcases hInv.turn_of_at hAt with ⟨rfl, hSome⟩
  have hOthers : ∀ t, t ≠ thread →
      (s.dropGuard thread guard []).threads t =
        s.threads t :=
    fun t hOther => threads_withThread_other _ _ hOther
  have hSelf : (s.dropGuard thread guard []).threads thread =
      ⟨[], false, .idle⟩ := by
    rw [CachedFileStore.dropGuard, threads_withThread_self,
      hAt]
  have hRolled : (s.dropGuard thread guard []).db.saved =
        none ∧
      (s.dropGuard thread guard []).db.files =
        s.db.base := by
    simp only [CachedFileStore.dropGuard, withThread,
      Database.rollbackTransaction, Database.base]
    split
    next hKept =>
      have hSaved := (hInv.committed thread guard
        (by rw [hAt]) hKept).1
      simp [hSaved]
    next =>
      cases hSaved : s.db.saved with
      | none => simp [hSaved]
      | some table => simp
  apply hInv.of_turn (Or.inl hSome) hOthers
  · rw [hSelf]
    exact Nat.zero_le 1
  · simp [hSelf]
  · rw [hSelf]
    rfl
  · intro table hOpen
    rw [hRolled.1] at hOpen
    cases hOpen
  · intro kept hGuards
    rw [hSelf] at hGuards
    cases hGuards
  · intro hPhase
    rw [hSelf] at hPhase
    cases hPhase
  · intro path
    apply hInv.cached_of_not_owes hOthers
    · intro path
      apply not_owes_of_idle
      rw [hAt]
    · rfl
    · rw [Database.base, hRolled.1, hRolled.2]
      rfl

end Invariant

------------------------------------------------------------
-- Whole Runs
------------------------------------------------------------

theorem inv_step
    {s s' : CachedFileStore}
    {e : Event}
    (hInv : Inv s)
    (hCareful : Careful s e)
    (hStep : step s e = some s') :
    Inv s' := by
  cases e with
  | get thread path =>
      simp only [step] at hStep
      split at hStep
      next =>
        rw [← Option.some.inj hStep]
        exact hInv
      next => cases hStep
  | writeDb thread w ok =>
      simp only [step] at hStep
      split at hStep
      next hReady =>
        rw [← Option.some.inj hStep]
        cases ok with
        | false => exact hInv
        | true =>
            cases hIn : (s.threads thread).registered with
            | false =>
                exact hInv.writeDb_unregistered w hReady.2
                  hReady.1 hIn
            | true =>
                exact hInv.writeDb_registered w hReady.1 hIn
                  (hCareful rfl hIn)
      next => cases hStep
  | writeCache thread =>
      simp only [step] at hStep
      split at hStep
      next w hPhase =>
        rw [← Option.some.inj hStep]
        cases hIn : (s.threads thread).registered with
        | false =>
            exact hInv.writeCache_unregistered hPhase hIn
              (hCareful w hPhase hIn)
        | true =>
            have hSome := (hInv.registered thread).mp hIn
            rcases hAt : s.threads thread with
              ⟨_ | ⟨guard, guards⟩, registered, phase⟩
            · rw [hAt] at hSome
              exact absurd rfl hSome
            · rw [hAt] at hIn hPhase
              simp only at hIn hPhase
              subst hIn hPhase
              exact hInv.writeCache_registered hAt
      next => cases hStep
  | beginGuard thread ok =>
      simp only [step] at hStep
      split at hStep
      next hReady =>
        rw [← Option.some.inj hStep]
        exact hInv.beginGuard ok hReady.2 hReady.1 hCareful
      next => cases hStep
  | commitDb thread ok =>
      simp only [step] at hStep
      split at hStep
      next guard guards registered hAt =>
        rw [← Option.some.inj hStep]
        exact hInv.commitDb ok hAt
      next => cases hStep
  | commitCache thread =>
      simp only [step] at hStep
      split at hStep
      next guard guards registered hAt =>
        rw [← Option.some.inj hStep]
        exact hInv.commitCache hAt
      next => cases hStep
  | dropGuard thread =>
      simp only [step] at hStep
      split at hStep
      next guard guards registered hAt =>
        rw [← Option.some.inj hStep]
        exact hInv.dropGuard hAt
      next => cases hStep

/- At rest nothing is owed, and nothing is uncommitted. -/
theorem Inv.coherent
    {s : CachedFileStore}
    (hInv : Inv s)
    (hRest : AtRest s) :
    Coherent s := by
  have hFree : s.db.owner = none := by
    cases hOwner : s.db.owner with
    | none => rfl
    | some t =>
        exact absurd (hRest t).2 ((hInv.owner t).mpr hOwner)
  intro path
  rcases hInv.cached path with hRow | ⟨t, hOwes⟩
  · rw [hRow, Database.base, hInv.saved_eq_none hFree]
    rfl
  · exact absurd hOwes (not_owes_of_idle path (hRest t).1)

/-
  After any run whose steps are careful, the cache has what
  the table has as soon as nothing is in progress.
-/
theorem cacheCoherent_of_run
    {table : FileTable}
    {events : List Event}
    {s : CachedFileStore}
    (hCareful : Meets step Careful (start table) events)
    (hRun : run step (start table) events = some s)
    (hRest : AtRest s) :
    Coherent s :=
  (invariant_of_run
    (fun _ _ _ hInv hCareful hStep =>
      inv_step hInv hCareful hStep)
    (inv_start table) hCareful hRun).coherent hRest

/- A guard whose writes are committed and then dropped. -/
def guardedUpdate : List Event :=
  [.beginGuard 0 true,
    .writeDb 0 ⟨"a.txt", some ⟨"h1", 1⟩⟩ true,
    .writeCache 0, .commitDb 0 true, .commitCache 0,
    .dropGuard 0]

theorem coherent_guardedUpdate :
    ∃ s, run step (start fun _ => none) guardedUpdate =
        some s ∧
      s.cache "a.txt" = some ⟨"h1", 1⟩ ∧ Coherent s := by
  have hCareful : Meets step Careful (start fun _ => none)
      guardedUpdate := by
    refine .cons rfl rfl ?_
    refine .cons (fun _ _ => Or.inl rfl) rfl ?_
    refine .cons (fun _ _ hOut => nomatch hOut) rfl ?_
    refine .cons trivial rfl ?_
    refine .cons trivial rfl ?_
    exact .cons trivial rfl trivial
  refine ⟨_, rfl, rfl, cacheCoherent_of_run hCareful rfl ?_⟩
  rintro (_ | t) <;> exact ⟨rfl, rfl⟩

------------------------------------------------------------
-- Where the Cache and the Table Part
------------------------------------------------------------

/- Two threads write a path, and swap before the cache. -/
def overtaken : List Event :=
  [.writeDb 0 ⟨"a.txt", some ⟨"h1", 1⟩⟩ true,
    .writeDb 1 ⟨"a.txt", some ⟨"h2", 2⟩⟩ true,
    .writeCache 1, .writeCache 0]

/- A write in a guard that has been committed. -/
def afterCommit : List Event :=
  [.beginGuard 0 true, .commitDb 0 true, .commitCache 0,
    .writeDb 0 ⟨"a.txt", some ⟨"h1", 1⟩⟩ true,
    .writeCache 0, .dropGuard 0]

theorem not_coherent_overtaken :
    (∃ s, run step (start fun _ => none) overtaken =
        some s ∧ AtRest s ∧ ¬ Coherent s) ∧
      ∃ s, run step (start fun _ => none) afterCommit =
        some s ∧ AtRest s ∧ ¬ Coherent s := by
  constructor
  · refine ⟨_, rfl, ?_, ?_⟩
    · rintro (_ | _ | t) <;> exact ⟨rfl, rfl⟩
    · intro hCoherent
      exact absurd (hCoherent "a.txt") (by decide)
  · refine ⟨_, rfl, ?_, ?_⟩
    · rintro (_ | t) <;> exact ⟨rfl, rfl⟩
    · intro hCoherent
      exact absurd (hCoherent "a.txt") (by decide)

end CachedFileStore

end VeritasSync
