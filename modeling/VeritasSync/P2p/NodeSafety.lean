import Mathlib.Data.List.Perm.Subperm
import VeritasSync.P2p.NodeChanges

/-
  No node runs without a task, over every run of the process
  and of those that follow it.

  Main declarations:
    * `ActiveNodes.Backed`, `ActiveNodes.Backed.change`
    * `ActiveNodes.Distinct`, `ActiveNodes.Distinct.change`
    * `ActiveNodes.nodes_of_run`
-/

namespace VeritasSync

open Config
open WebUIServer (Starting Request)

namespace ActiveNodes

open SyncNode (StartCalls Startable)

------------------------------------------------------------
-- Invariants
------------------------------------------------------------

section Invariants

variable
  {p p' : Process}

/-
  There are at most as many nodes of a key as tasks, and
  each has been started.
-/
structure Backed (p : Process) : Prop where
  readable : Readable p.server.file
  startable : ∀ t ∈ p.nodes, Startable t
  keys : (keysOf p.nodes).Subperm (keysOf p.tasks)

/- The nodes are those of some of the tasks, in order. -/
structure Distinct (p : Process) : Prop where
  stored : (keysOf (storedTasks p.server.file)).Nodup
  configured : (keysOf p.tasks).Nodup
  nodes : p.nodes.Sublist p.tasks

theorem keysOf_append_singleton
    (tasks : List SyncTask)
    (task : SyncTask) :
    keysOf (tasks ++ [task]) =
      keysOf tasks ++ [task.syncKey] := by
  simp [keysOf]

theorem nodup_append_task
    {tasks : List SyncTask}
    {task : SyncTask}
    (hNodup : (keysOf tasks).Nodup)
    (hNew : ∀ t ∈ tasks, t.syncKey ≠ task.syncKey) :
    (keysOf (tasks ++ [task])).Nodup := by
  rw [keysOf_append_singleton, List.nodup_append]
  refine ⟨hNodup, List.nodup_singleton _, ?_⟩
  intro key hKey other hOther
  rcases List.mem_map.mp hKey with ⟨t, hMem, rfl⟩
  rw [List.mem_singleton.mp hOther]
  exact hNew t hMem

theorem keysOf_eraseP
    (nodes : List SyncTask)
    (key : String) :
    keysOf (nodes.eraseP (fun node => node.syncKey == key)) =
      (keysOf nodes).erase key := by
  rw [List.erase_eq_eraseP', keysOf, keysOf, List.eraseP_map]
  rfl

theorem keysOf_eraseIdx_perm
    {tasks : List SyncTask}
    {idx : ℕ}
    {task : SyncTask}
    (hFound : tasks[idx]? = some task) :
    (keysOf (tasks.eraseIdx idx)).Perm
      ((keysOf tasks).erase task.syncKey) := by
  rcases List.getElem?_eq_some_iff.mp hFound with
    ⟨hLt, rfl⟩
  have hPerm := (List.getElem_cons_eraseIdx_perm hLt).map
    SyncTask.syncKey
  have hErased := hPerm.erase tasks[idx].syncKey
  rw [List.map_cons, List.erase_cons_head] at hErased
  exact hErased

/- With keys of their own, all but one task are left. -/
theorem eraseIdx_eq_filter
    {tasks : List SyncTask}
    {idx : ℕ}
    {task : SyncTask}
    (hNodup : (keysOf tasks).Nodup)
    (hFound : tasks[idx]? = some task) :
    tasks.eraseIdx idx =
      tasks.filter (fun t => t.syncKey != task.syncKey) := by
  induction tasks generalizing idx with
  | nil => simp at hFound
  | cons first rest ih =>
      rw [keysOf, List.map_cons, List.nodup_cons] at hNodup
      cases idx with
      | zero =>
          cases hFound
          rw [List.eraseIdx_cons_zero,
            List.filter_cons_of_neg (by simp),
            List.filter_eq_self.mpr]
          intro t hMem
          rw [bne_iff_ne]
          exact fun hSame => hNodup.1
            (List.mem_map.mpr ⟨t, hMem, hSame⟩)
      | succ idx =>
          have hRest : rest[idx]? = some task := hFound
          have hOther : first.syncKey ≠ task.syncKey := by
            intro hSame
            exact hNodup.1 (List.mem_map.mpr
              ⟨task, List.mem_of_getElem? hRest,
                hSame.symm⟩)
          rw [List.eraseIdx_cons_succ, ih hNodup.2 hRest,
            List.filter_cons_of_pos (by simpa)]

theorem eraseP_eq_filter
    {nodes : List SyncTask}
    (hNodup : (keysOf nodes).Nodup)
    (key : String) :
    nodes.eraseP (fun node => node.syncKey == key) =
      nodes.filter (fun node => node.syncKey != key) := by
  induction nodes with
  | nil => rfl
  | cons first rest ih =>
      rw [keysOf, List.map_cons, List.nodup_cons] at hNodup
      by_cases hKey : first.syncKey = key
      · rw [List.eraseP_cons_of_pos (by simpa),
          List.filter_cons_of_neg (by simpa),
          List.filter_eq_self.mpr]
        intro node hMem
        rw [bne_iff_ne]
        exact fun hSame => hNodup.1 (List.mem_map.mpr
          ⟨node, hMem, hSame.trans hKey.symm⟩)
      · rw [List.eraseP_cons_of_neg (by simpa),
          List.filter_cons_of_pos (by simpa), ih hNodup.2]

/- No node has an empty key. -/
theorem Backed.nodes_removed
    (hBacked : Backed p)
    {task : SyncTask}
    {nodes : List SyncTask}
    (hNodes : nodes =
        p.nodes.eraseP (fun node =>
          node.syncKey == task.syncKey) ∨
      task.syncKey = "" ∧ nodes = p.nodes) :
    nodes = p.nodes.eraseP (fun node =>
      node.syncKey == task.syncKey) := by
  rcases hNodes with hErased | ⟨hEmpty, hSame⟩
  · exact hErased
  · rw [hSame, hEmpty, List.eraseP_of_forall_not]
    intro node hMem hKey
    exact ne_empty_of_isValidSyncKey
      (hBacked.startable node hMem).key
      (beq_iff_eq.mp hKey)

theorem Backed.change
    {O : Outcomes}
    {request : Request}
    (hBacked : Backed p)
    (hChange : Change O p request p') :
    Backed p' := by
  have hReadable : ∀ {lists file},
      LeftIn lists p.server.file file → Readable file :=
    fun hLeft => (FileHolds.leftIn (Q := fun _ => True)
      ⟨hBacked.readable, trivial⟩ trivial
      (fun _ _ => trivial) hLeft).readable
  cases hChange with
  | kept hTasks hFile =>
      refine ⟨hReadable hFile, hBacked.startable, ?_⟩
      rw [Process.tasks, hTasks]
      exact hBacked.keys
  | added hNew hStart hTasks hFile =>
      refine ⟨hReadable hFile, ?_, ?_⟩
      · intro t hMem
        rcases List.mem_append.mp hMem with hOld | hLast
        · exact hBacked.startable t hOld
        · rw [List.mem_singleton.mp hLast]
          exact SyncNode.startable_of_start hStart
      · rw [Process.tasks, hTasks, keysOf_append_singleton,
          keysOf_append_singleton]
        exact hBacked.keys.append (List.Subperm.refl _)
  | unstarted _ _ _ hTasks hFile =>
      refine ⟨hReadable hFile, hBacked.startable, ?_⟩
      rcases hTasks with hSame | hMore
      · rw [Process.tasks, hSame]
        exact hBacked.keys
      · rw [Process.tasks, hMore, keysOf_append_singleton]
        exact hBacked.keys.trans
          (List.sublist_append_left _ _).subperm
  | removed hFound hNodes hTasks hFile =>
      have hErased := hBacked.nodes_removed hNodes
      refine ⟨hReadable hFile, ?_, ?_⟩
      · intro t hMem
        rw [hErased] at hMem
        exact hBacked.startable t
          (List.mem_of_mem_eraseP hMem)
      · rw [Process.tasks, hTasks, hErased, keysOf_eraseP]
        exact (hBacked.keys.erase _).trans
          (keysOf_eraseIdx_perm hFound).symm.subperm

theorem Distinct.change
    {O : Outcomes}
    {request : Request}
    (hDistinct : Distinct p)
    (hBacked : Backed p)
    (hChange : Change O p request p') :
    Distinct p' := by
  have hStored : ∀ {lists file},
      (∀ tasks ∈ lists, (keysOf tasks).Nodup) →
      LeftIn lists p.server.file file →
      (keysOf (storedTasks file)).Nodup :=
    fun hLists hLeft => (FileHolds.leftIn
      (Q := fun tasks => (keysOf tasks).Nodup)
      ⟨hBacked.readable, hDistinct.stored⟩ List.nodup_nil
      hLists hLeft).tasks
  have hOld := hDistinct.configured
  cases hChange with
  | kept hTasks hFile =>
      refine ⟨hStored (by simpa) hFile, ?_, ?_⟩
      · rw [Process.tasks, hTasks]
        exact hOld
      · rw [Process.tasks, hTasks]
        exact hDistinct.nodes
  | added hNew _ hTasks hFile =>
      have hMore := nodup_append_task hOld hNew
      refine ⟨hStored (by simpa) hFile, ?_, ?_⟩
      · rw [Process.tasks, hTasks]
        exact hMore
      · rw [Process.tasks, hTasks]
        exact hDistinct.nodes.append (List.Sublist.refl _)
  | @unstarted _ task _ _ hNew _ hTasks hFile =>
      have hMore := nodup_append_task hOld hNew
      have hBoth : ∀ tasks ∈ [p.tasks ++ [task], p.tasks],
          (keysOf tasks).Nodup := by
        simpa using ⟨hMore, hOld⟩
      refine ⟨hStored hBoth hFile, ?_, ?_⟩
      · rcases hTasks with hSame | hAppended
        · rw [Process.tasks, hSame]
          exact hOld
        · rw [Process.tasks, hAppended]
          exact hMore
      · rcases hTasks with hSame | hAppended
        · rw [Process.tasks, hSame]
          exact hDistinct.nodes
        · rw [Process.tasks, hAppended]
          exact hDistinct.nodes.trans
            (List.sublist_append_left _ _)
  | @removed _ idx _ _ _ hFound hNodes hTasks hFile =>
      have hLess : (keysOf (p.tasks.eraseIdx idx)).Nodup :=
        hOld.sublist ((List.eraseIdx_sublist _ _).map _)
      have hErased := hBacked.nodes_removed hNodes
      refine ⟨hStored (by simpa) hFile, ?_, ?_⟩
      · rw [Process.tasks, hTasks]
        exact hLess
      · rw [Process.tasks, hTasks, hErased,
          eraseIdx_eq_filter hOld hFound,
          eraseP_eq_filter
            (hOld.sublist (hDistinct.nodes.map _))]
        exact hDistinct.nodes.filter _

/- As long as every node starts, no task is without one. -/
theorem nodes_eq_of_change
    {O : Outcomes}
    {request : Request}
    (hSame : p.nodes = p.tasks)
    (hDistinct : Distinct p)
    (hBacked : Backed p)
    (hStarts : Starts p (.request O request))
    (hChange : Change O p request p') :
    p'.nodes = p'.tasks := by
  have hOld := hDistinct.configured
  cases hChange with
  | kept hTasks _ => exact hSame.trans hTasks.symm
  | added _ _ hTasks _ =>
      rw [Process.tasks, hTasks, ← hSame]
  | unstarted hAdded _ hStart _ _ =>
      exact absurd (hStarts _ hAdded) hStart
  | removed hFound hNodes hTasks _ =>
      rw [Process.tasks, hTasks,
        hBacked.nodes_removed hNodes, hSame,
        eraseIdx_eq_filter hOld hFound,
        eraseP_eq_filter hOld]

------------------------------------------------------------
-- Runs
------------------------------------------------------------

variable
  {S : Startup}
  {C : ℕ → StartCalls}
  {dir : ConfigDir}

theorem backed_of_boot
    (hReadable : Readable dir.config)
    (hCut : S.configWriting ≠ .cut)
    (hBoot : boot S C dir = some p) :
    Backed p := by
  rcases boot_cases hReadable hCut hBoot with
    ⟨-, hFile, hNodes⟩
  have hSublist := startAll_sublist hNodes
  exact ⟨hFile.readable, hSublist.2,
    (hSublist.1.map _).subperm⟩

theorem distinct_of_boot
    (hReadable : Readable dir.config)
    (hCut : S.configWriting ≠ .cut)
    (hBoot : boot S C dir = some p)
    (hNodup : (keysOf (storedTasks dir.config)).Nodup) :
    Distinct p := by
  rcases boot_cases hReadable hCut hBoot with
    ⟨hTasks, hFile, hNodes⟩
  rw [← hTasks] at hNodup
  refine ⟨?_, hNodup, (startAll_sublist hNodes).1⟩
  rw [hFile.tasks]
  exact hNodup

theorem nodes_eq_of_boot
    (hReadable : Readable dir.config)
    (hCut : S.configWriting ≠ .cut)
    (hBoot : boot S C dir = some p)
    (hStarts : ∀ i task,
      (storedTasks dir.config)[i]? = some task →
        SyncNode.start (C i) task = .starts) :
    p.nodes = p.tasks := by
  rcases boot_cases hReadable hCut hBoot with
    ⟨hTasks, -, hNodes⟩
  refine startAll_eq (fun i task hFound => ?_) hNodes
  rw [hTasks] at hFound
  rw [Nat.zero_add]
  exact hStarts i task hFound

theorem backed_step
    {e : Event}
    (hBacked : Backed p)
    (hSmooth : Smooth e)
    (hStep : step p e = some p') :
    Backed p' := by
  cases e with
  | request O request =>
      rw [← Option.some.inj hStep]
      exact hBacked.change (handle_cases hSmooth request p)
  | restart S C =>
      exact backed_of_boot hBacked.readable hSmooth hStep

theorem distinct_step
    {e : Event}
    (hDistinct : Distinct p)
    (hBacked : Backed p)
    (hSmooth : Smooth e)
    (hStep : step p e = some p') :
    Distinct p' := by
  cases e with
  | request O request =>
      rw [← Option.some.inj hStep]
      exact hDistinct.change hBacked
        (handle_cases hSmooth request p)
  | restart S C =>
      exact distinct_of_boot hBacked.readable hSmooth hStep
        hDistinct.stored

theorem nodes_eq_step
    {e : Event}
    (hSame : p.nodes = p.tasks)
    (hDistinct : Distinct p)
    (hBacked : Backed p)
    (hSmooth : Smooth e)
    (hStarts : Starts p e)
    (hStep : step p e = some p') :
    p'.nodes = p'.tasks := by
  cases e with
  | request O request =>
      rw [← Option.some.inj hStep]
      exact nodes_eq_of_change hSame hDistinct hBacked
        hStarts (handle_cases hSmooth request p)
  | restart S C =>
      exact nodes_eq_of_boot hBacked.readable hSmooth hStep
        hStarts

/-
  Each node that runs has been started for a task that is
  still configured.  With keys of their own the tasks keep
  them, and the nodes are those of some of the tasks; of all
  as long as each node starts that is to.
-/
theorem nodes_of_run
    {p₀ : Process}
    {events : List Event}
    (hReadable : Readable dir.config)
    (hCut : S.configWriting ≠ .cut)
    (hBoot : boot S C dir = some p₀)
    (hSmooth : ∀ e ∈ events, Smooth e)
    (hRun : Transition.run step p₀ events = some p) :
    (keysOf p.nodes).Subperm (keysOf p.tasks) ∧
      (∀ t ∈ p.nodes, Startable t) ∧
      ((keysOf (storedTasks dir.config)).Nodup →
        (keysOf p.tasks).Nodup ∧
          p.nodes.Sublist p.tasks ∧
          (p₀.nodes = p₀.tasks →
            Transition.Meets step Starts p₀ events →
              p.nodes = p.tasks)) := by
  have hFirst := backed_of_boot hReadable hCut hBoot
  have hMeets : Transition.Meets step
      (fun _ e => Smooth e) p₀ events :=
    Transition.meets_of_forall hSmooth
  have hBacked : Backed p :=
    Transition.invariant_of_run
      (fun _ _ _ => backed_step) hFirst hMeets hRun
  refine ⟨hBacked.keys, hBacked.startable, ?_⟩
  intro hNodup
  have hDistinct₀ :=
    distinct_of_boot hReadable hCut hBoot hNodup
  have hKeep : ∀ q e q', Backed q ∧ Distinct q →
      Smooth e → step q e = some q' →
        Backed q' ∧ Distinct q' := by
    intro q e q' hBoth hEvent hStep
    exact ⟨backed_step hBoth.1 hEvent hStep,
      distinct_step hBoth.2 hBoth.1 hEvent hStep⟩
  have hDistinct := (Transition.invariant_of_run hKeep
    ⟨hFirst, hDistinct₀⟩ hMeets hRun).2
  refine ⟨hDistinct.configured, hDistinct.nodes, ?_⟩
  intro hSame hStarts
  have hKeepAll : ∀ q e q',
      (Backed q ∧ Distinct q) ∧ q.nodes = q.tasks →
      Smooth e ∧ Starts q e → step q e = some q' →
        (Backed q' ∧ Distinct q') ∧
          q'.nodes = q'.tasks := by
    intro q e q' hAll hEvent hStep
    exact ⟨hKeep q e q' hAll.1 hEvent.1 hStep,
      nodes_eq_step hAll.2 hAll.1.2 hAll.1.1 hEvent.1
        hEvent.2 hStep⟩
  exact (Transition.invariant_of_run hKeepAll
    ⟨⟨hFirst, hDistinct₀⟩, hSame⟩
    (Transition.meets_and hSmooth hStarts) hRun).2

end Invariants

/- Whatever can go wrong at a start goes well. -/
def sampleStart : StartCalls where
  convertsPath := true
  folderExists := true
  createsDirectories := true
  createsP2PManager := true
  createsStateManager := true
  throwsLater := false

def sampleOutcomes : Outcomes where
  calls := WebUIServer.sampleCalls
  node := sampleStart
  stopping := none

/- The file has one task in it. -/
def sampleDir : ConfigDir where
  config := WebUIServer.sampleServer.file
  backup := .missing
  advanced := .missing

/- A task comes, the other one goes, and a new process. -/
def sampleEvents : List Event :=
  [.request sampleOutcomes
      (.postTask (some WebUIServer.photosBody)),
    .request sampleOutcomes (.deleteTask "0"),
    .restart calmStartup (fun _ => sampleStart)]

theorem isSome_sampleBoot :
    (boot calmStartup (fun _ => sampleStart)
      sampleDir).isSome = true := by
  decide +kernel

theorem nodes_of_run_photos :
    ∃ p,
      Transition.run step ((boot calmStartup
          (fun _ => sampleStart) sampleDir).get
            isSome_sampleBoot) sampleEvents = some p ∧
        keysOf p.nodes = ["photos"] ∧
        (keysOf p.tasks).Nodup ∧
        p.nodes.Sublist p.tasks := by
  have hRuns : ((Transition.run step ((boot calmStartup
      (fun _ => sampleStart) sampleDir).get
        isSome_sampleBoot) sampleEvents).map (fun p =>
          keysOf p.nodes)) = some ["photos"] := by
    decide +kernel
  rcases Option.map_eq_some_iff.mp hRuns with
    ⟨p, hRun, hKeys⟩
  have hNodup : (keysOf (storedTasks
      sampleDir.config)).Nodup := by
    rw [show storedTasks sampleDir.config =
      [WebUIServer.sampleTask] from storedTasks_written _]
    decide
  have hSmooth : ∀ e ∈ sampleEvents, Smooth e := by
    simp [sampleEvents, Smooth, sampleOutcomes,
      calmStartup]
  have hSafe := nodes_of_run (readable_written _)
    (by decide) (Option.some_get _).symm hSmooth hRun
  have hBoth := hSafe.2.2 hNodup
  exact ⟨p, hRun, hKeys, hBoth.1, hBoth.2.1⟩

end ActiveNodes

end VeritasSync
