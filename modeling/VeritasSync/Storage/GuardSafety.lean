import VeritasSync.Storage.CacheCoherence

/-
  One thread in a guard: what it reads, and what is left of
  its writes once the guard has been committed or dropped.

  Main declarations:
    * `CachedFileStore.Call`, `CachedFileStore.withinGuard`
    * `CachedFileStore.run_withinGuard`
    * `CachedFileStore.GuardSafe`
    * `CachedFileStore.guardSafe_iff`
-/

namespace VeritasSync

namespace FileWrite

/- The last write of a path gives its row. -/
theorem applyAll_eq_find
    (table : FileTable)
    (writes : List FileWrite)
    (path : String) :
    applyAll table writes path =
      match writes.reverse.find? (fun w => w.path == path)
        with
      | some w => w.value
      | none => table path := by
  induction writes using List.reverseRecOn with
  | nil => rfl
  | append_singleton writes w ih =>
      rw [applyAll_append, List.reverse_append,
        List.reverse_singleton, List.singleton_append,
        List.find?_cons, apply]
      by_cases hPath : w.path = path
      · rw [hPath, Function.update_self]
        simp
      · have hOther : (w.path == path) = false := by
          simpa using hPath
        rw [Function.update_of_ne (Ne.symm hPath), hOther, ih]

end FileWrite

namespace CachedFileStore

open FileWrite Transition

------------------------------------------------------------
-- Calls
------------------------------------------------------------

/- `get`, and `update` or `remove` with its result. -/
inductive Call where
| get (path : String) : Call
| write (w : FileWrite) (ok : Bool) : Call
deriving DecidableEq

/- A write that succeeds goes on to the cache. -/
def Call.events (thread : ℕ) : Call → List Event
| .get path => [.get thread path]
| .write w true => [.writeDb thread w true, .writeCache thread]
| .write w false => [.writeDb thread w false]

def Call.writes : Call → List FileWrite
| .get _ => []
| .write w true => [w]
| .write _ false => []

/- The writes that the database accepted. -/
def writesOf (calls : List Call) : List FileWrite :=
  calls.flatMap Call.writes

/- The guard begins, and the calls are made in it. -/
def guardEvents
    (thread : ℕ)
    (ok : Bool)
    (calls : List Call) : List Event :=
  .beginGuard thread ok :: calls.flatMap (Call.events thread)

/- No guard, no transaction, and nobody has the mutex. -/
structure Quiet (s : CachedFileStore) : Prop where
  rest : AtRest s
  saved : s.db.saved = none
  owner : s.db.owner = none
  coherent : Coherent s

------------------------------------------------------------
-- Inside The Guard
------------------------------------------------------------

/- The store once some writes were accepted in the guard. -/
def withinGuard
    (s : CachedFileStore)
    (thread : ℕ)
    (ok : Bool)
    (writes : List FileWrite) : CachedFileStore where
  db :=
    { files := applyAll s.db.files writes
      saved := if ok then some s.db.files else none
      owner := some thread }
  cache := s.cache
  threads := Function.update s.threads thread
    ⟨[⟨writes, false, false⟩], true, .idle⟩

section Guard

variable
  {s : CachedFileStore}
  {thread : ℕ}
  {ok : Bool}
  {writes : List FileWrite}

theorem step_beginGuard
    (hQuiet : Quiet s)
    (thread : ℕ)
    (ok : Bool) :
    s.step (.beginGuard thread ok) =
      some (s.withinGuard thread ok []) := by
  rcases hQuiet.rest thread with ⟨hPhase, hGuards⟩
  have hAdmits : s.db.admits thread = true := by
    simp [Database.admits, hQuiet.owner]
  simp only [step, hPhase, hAdmits, and_self, if_true,
    Option.some.injEq]
  unfold beginGuard withinGuard withThread
    Database.beginTransaction
  cases ok with
  | true => simp [hQuiet.saved, hGuards, hPhase, applyAll]
  | false => simp [hQuiet.saved, hGuards, hPhase, applyAll]

/- The thread has one guard, with the writes in it. -/
theorem threads_withinGuard
    (s : CachedFileStore)
    (thread : ℕ)
    (ok : Bool)
    (writes : List FileWrite) :
    (s.withinGuard thread ok writes).threads thread =
      ⟨[⟨writes, false, false⟩], true, .idle⟩ :=
  Function.update_self ..

/- A call in the guard keeps its write, if there is one. -/
theorem run_call
    (s : CachedFileStore)
    (thread : ℕ)
    (ok : Bool)
    (writes : List FileWrite)
    (call : Call) :
    run step (s.withinGuard thread ok writes)
        (call.events thread) =
      some (s.withinGuard thread ok
        (writes ++ call.writes)) := by
  have hAdmits :
      (s.withinGuard thread ok writes).db.admits thread =
        true := by
    simp [Database.admits, withinGuard]
  cases call with
  | get path =>
      simp [Call.events, Call.writes, run, step,
        threads_withinGuard]
  | write w accepted =>
      cases accepted with
      | false =>
          simp [Call.events, Call.writes, run, step,
            threads_withinGuard, hAdmits, writeDb]
      | true =>
          simp only [Call.events, Call.writes, run, step,
            threads_withinGuard, hAdmits, writeDb,
            withThread, and_self, if_true, Option.bind_some,
            Function.update_self, writeCache]
          simp [withinGuard, Database.write, applyAll_append]

theorem run_calls
    (s : CachedFileStore)
    (thread : ℕ)
    (ok : Bool)
    (writes : List FileWrite)
    (calls : List Call) :
    run step (s.withinGuard thread ok writes)
        (calls.flatMap (Call.events thread)) =
      some (s.withinGuard thread ok
        (writes ++ writesOf calls)) := by
  induction calls generalizing writes with
  | nil => simp [run, writesOf]
  | cons call calls ih =>
      rw [List.flatMap_cons, run_append, run_call,
        Option.bind_some, ih, writesOf, writesOf,
        List.flatMap_cons, List.append_assoc]

/- Where a thread stands after some calls in a guard. -/
theorem run_withinGuard
    (hQuiet : Quiet s)
    (thread : ℕ)
    (ok : Bool)
    (calls : List Call) :
    run step s (guardEvents thread ok calls) =
      some (s.withinGuard thread ok (writesOf calls)) := by
  rw [guardEvents, run, step_beginGuard hQuiet,
    Option.bind_some, run_calls, List.nil_append]

/- A thread reads what its connection holds. -/
theorem get_withinGuard
    (hCoherent : Coherent s)
    (path : String) :
    (s.withinGuard thread ok writes).get thread path =
      (s.withinGuard thread ok writes).db.files path := by
  have hLast := applyAll_eq_find s.db.files writes path
  rw [← hCoherent path] at hLast
  unfold get
  rw [threads_withinGuard]
  exact hLast.symm

------------------------------------------------------------
-- Leaving The Guard
------------------------------------------------------------

/- Dropped, the guard takes back what it can roll back. -/
theorem step_dropGuard
    (s : CachedFileStore)
    (thread : ℕ)
    (ok : Bool)
    (writes : List FileWrite) :
    ∃ s',
      (s.withinGuard thread ok writes).step (.dropGuard thread) =
          some s' ∧
        s'.cache = s.cache ∧
        s'.db.files =
          if ok then
            s.db.files
          else
            applyAll s.db.files writes := by
  refine ⟨(s.withinGuard thread ok writes).dropGuard thread
    ⟨writes, false, false⟩ [], ?_, rfl, ?_⟩
  · rw [step, threads_withinGuard]
  · cases ok with
    | true => simp [dropGuard, withinGuard, withThread,
        Database.rollbackTransaction]
    | false => simp [dropGuard, withinGuard, withThread,
        Database.rollbackTransaction]

/- A commit needs the transaction that the guard began. -/
theorem step_commitDb
    (s : CachedFileStore)
    (thread : ℕ)
    (ok accepted : Bool)
    (writes : List FileWrite) :
    (s.withinGuard thread ok writes).step
        (.commitDb thread accepted) =
      some
        (if accepted ∧ ok then
          { s with
            db :=
              { files := applyAll s.db.files writes
                saved := none
                owner := some thread }
            threads := Function.update s.threads thread
              ⟨[⟨writes, false, true⟩], true, .committing⟩ }
        else
          s.withinGuard thread ok writes) := by
  rw [step, threads_withinGuard]
  cases ok <;> cases accepted <;>
    simp [commitDb, Database.commitTransaction?, withinGuard,
      withThread]

end Guard

/-
  In the guard every read gives what the connection holds; a
  commit leaves the cache equal to the table; and without
  one, or when it fails, dropping the guard leaves both as
  they were.
-/
structure GuardSafe
    (s : CachedFileStore)
    (thread : ℕ)
    (ok : Bool)
    (calls : List Call) : Prop where
  reads : ∀ before, before <+: calls → ∃ s',
    run step s (guardEvents thread ok before) = some s' ∧
      ∀ path, s'.get thread path = s'.db.files path
  committed : ∀ accepted s',
    run step s (guardEvents thread ok calls ++
        [.commitDb thread accepted, .commitCache thread]) =
          some s' →
      Coherent s'
  dropped : ∃ s',
    run step s (guardEvents thread ok calls ++
        [.dropGuard thread]) = some s' ∧
      s'.cache = s.cache ∧ s'.db.files = s.db.files
  failed : ∀ accepted s',
    run step s (guardEvents thread ok calls ++
        [.commitDb thread accepted, .dropGuard thread]) =
          some s' →
      s'.cache = s.cache ∧ s'.db.files = s.db.files

section Outcome

variable
  {s : CachedFileStore}

theorem run_after_calls
    (hQuiet : Quiet s)
    (thread : ℕ)
    (ok : Bool)
    (calls : List Call)
    (later : List Event) :
    run step s (guardEvents thread ok calls ++ later) =
      run step (s.withinGuard thread ok (writesOf calls))
        later := by
  rw [run_append, run_withinGuard hQuiet, Option.bind_some]

/- The commit puts the kept writes into the cache. -/
theorem coherent_of_commit
    (hCoherent : Coherent s)
    {thread : ℕ}
    {ok accepted : Bool}
    {writes : List FileWrite}
    {s' : CachedFileStore}
    (hRun : run step (s.withinGuard thread ok writes)
      [.commitDb thread accepted, .commitCache thread] =
        some s') :
    Coherent s' := by
  rw [run, step_commitDb, Option.bind_some] at hRun
  split at hRun
  next =>
    simp only [run, step, Function.update_self,
      Option.bind_some, Option.some.injEq] at hRun
    have hSame : s.cache = s.db.files := funext hCoherent
    rw [← hRun]
    intro path
    simp only [commitCache, withThread]
    rw [hSame]
  next =>
    -- the commit failed, and nothing is to be finished
    simp [run, step, withinGuard, Function.update_self] at hRun

theorem files_of_failed_commit
    {thread : ℕ}
    {ok accepted : Bool}
    {writes : List FileWrite}
    {s' : CachedFileStore}
    (hRun : run step (s.withinGuard thread ok writes)
      [.commitDb thread accepted, .dropGuard thread] =
        some s') :
    s'.cache = s.cache ∧
      s'.db.files =
        if ok then
          s.db.files
        else
          applyAll s.db.files writes := by
  rw [run, step_commitDb, Option.bind_some] at hRun
  split at hRun
  next => simp [run, step, Function.update_self] at hRun
  next =>
    rcases step_dropGuard s thread ok writes with
      ⟨dropped, hStep, hCache, hFiles⟩
    rw [run, hStep, Option.bind_some, run,
      Option.some.injEq] at hRun
    rw [← hRun]
    exact ⟨hCache, hFiles⟩

/-
  The guard is safe exactly when its transaction has begun,
  or the writes that were accepted changed nothing.
-/
theorem guardSafe_iff
    (hQuiet : Quiet s)
    (thread : ℕ)
    (ok : Bool)
    (calls : List Call) :
    GuardSafe s thread ok calls ↔
      ok = true ∨
        applyAll s.db.files (writesOf calls) =
          s.db.files := by
  rcases step_dropGuard s thread ok (writesOf calls) with
    ⟨dropped, hStep, hCache, hFiles⟩
  have hDropped : run step s (guardEvents thread ok calls ++
      [.dropGuard thread]) = some dropped := by
    rw [run_after_calls hQuiet, run, hStep,
      Option.bind_some, run]
  constructor
  · intro hSafe
    rcases hSafe.dropped with ⟨s', hRun, -, hKept⟩
    rw [hDropped, Option.some.injEq] at hRun
    rw [← hRun, hFiles] at hKept
    cases ok with
    | true => exact Or.inl rfl
    | false => exact Or.inr (by simpa using hKept)
  · intro hWhen
    have hSame : (if ok then s.db.files
        else applyAll s.db.files (writesOf calls)) =
          s.db.files := by
      rcases hWhen with hBegun | hNothing
      · rw [if_pos hBegun]
      · rw [hNothing, ite_self]
    refine
      { reads := ?_
        committed := ?_
        dropped := ⟨dropped, hDropped, hCache,
          hFiles.trans hSame⟩
        failed := ?_ }
    · intro before _
      exact ⟨_, run_withinGuard hQuiet thread ok before,
        get_withinGuard hQuiet.coherent⟩
    · intro accepted s' hRun
      rw [run_after_calls hQuiet] at hRun
      exact coherent_of_commit hQuiet.coherent hRun
    · intro accepted s' hRun
      rw [run_after_calls hQuiet] at hRun
      rcases files_of_failed_commit hRun with
        ⟨hCache', hFiles'⟩
      exact ⟨hCache', hFiles'.trans hSame⟩

end Outcome

theorem quiet_start (table : FileTable) :
    Quiet (start table) where
  rest := fun _ => ⟨rfl, rfl⟩
  saved := rfl
  owner := rfl
  coherent := fun _ => rfl

/- The transaction does not begin, and the write stays. -/
theorem not_guardSafe_without_begin :
    ¬ GuardSafe (start (fun _ => none)) 0 false
      [.write ⟨"a.txt", some ⟨"h", 0⟩⟩ true] := by
  intro hSafe
  rcases hSafe.dropped with ⟨s', hRun, -, hFiles⟩
  rw [run_after_calls (quiet_start _)] at hRun
  rcases step_dropGuard (start (fun _ => none)) 0 false
    (writesOf [.write ⟨"a.txt", some ⟨"h", 0⟩⟩ true]) with
    ⟨dropped, hStep, -, hKept⟩
  rw [run, hStep, Option.bind_some, run,
    Option.some.injEq] at hRun
  rw [← hRun, hKept] at hFiles
  have hRow := congrFun hFiles "a.txt"
  simp [writesOf, Call.writes, applyAll, FileWrite.apply,
    start] at hRow

theorem guardSafe_two_writes :
    GuardSafe (start (fun _ => none)) 0 true
      [.write ⟨"a.txt", some ⟨"h", 0⟩⟩ true, .get "a.txt",
        .write ⟨"a.txt", none⟩ true,
        .write ⟨"b.txt", none⟩ false] :=
  (guardSafe_iff (quiet_start _) 0 true _).mpr (Or.inl rfl)

end CachedFileStore

end VeritasSync
