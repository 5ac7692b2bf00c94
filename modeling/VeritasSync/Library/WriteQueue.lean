import Mathlib.Data.List.Basic
import Mathlib.Data.List.Nodup
import Mathlib.Data.List.Pairwise

/-
  A queue of messages of which the front is being written,
  while connections end and others begin.

  Main declarations:
    * `WriteQueue.Writer`, `WriteQueue.Safe`
    * `WriteQueue.Ordered`
    * `WriteQueue.Ordered.pushed`,
      `WriteQueue.Ordered.popped`,
      `WriteQueue.Ordered.dropped`
-/

namespace WriteQueue

variable {β : Type}

------------------------------------------------------------
-- Writers
------------------------------------------------------------

/- A message, when it was queued and for which connection. -/
structure Queued (β : Type) where
  message : β
  serial : ℕ
  queuedFor : ℕ
deriving DecidableEq

/- What has been done with the queue. -/
inductive Event (β : Type) where
| started
    (connection : ℕ)
    (packet : Queued β) : Event β
| popped
    (written : Queued β)
    (front : Option (Queued β)) : Event β
| dropped
    (connection : ℕ)
    (packets : List (Queued β)) : Event β
deriving DecidableEq

/- A write is on the connection that it was started on. -/
abbrev Write (β : Type) := ℕ × Queued β

structure Writer (β : Type) where
  connection : ℕ
  queue : List (Queued β)
  nextSerial : ℕ
  log : List (Event β)
  writes : List (Write β)

namespace Writer

variable
  (w : Writer β)

def reopen : Writer β :=
  { w with connection := w.connection + 1 }

def clear : Writer β :=
  { w.reopen with queue := [] }

def startNext : Writer β :=
  match w.queue with
  | [] => w
  | packet :: _ =>
      { w with
        log := w.log ++ [.started w.connection packet]
        writes := w.writes ++ [(w.connection, packet)] }

/- The message is put at the end of the queue. -/
def enqueue (message : β) : Writer β :=
  { w with
    queue := w.queue ++
      [⟨message, w.nextSerial, w.connection⟩]
    nextSerial := w.nextSerial + 1 }

def push (message : β) : Writer β :=
  if w.queue = [] then
    (w.enqueue message).startNext
  else
    w.enqueue message

/- A write has succeeded: what is at the front goes. -/
def removeFront (written : Queued β) : Writer β :=
  { w with
    queue := w.queue.tail
    log := w.log ++ [.popped written w.queue.head?] }

def pop (written : Queued β) : Writer β :=
  (w.removeFront written).startNext

/- A write has failed: the whole queue goes. -/
def drop (connection : ℕ) : Writer β :=
  { w with
    log := w.log ++ [Event.dropped connection w.queue]
  }.clear

def withWrites (writes : List (Write β)) : Writer β :=
  { w with writes := writes }

end Writer

------------------------------------------------------------
-- Safety
------------------------------------------------------------

/-
  A message is written on its own connection, and a write
  removes only what it has written or what was queued for
  its connection.
-/
def Event.Safe : Event β → Prop
| .started connection packet => packet.queuedFor = connection
| .popped written front => front = some written
| .dropped connection packets =>
    ∀ packet ∈ packets, packet.queuedFor = connection

def Event.start? : Event β → Option (Queued β)
| .started _ packet => some packet
| _ => none

def starts (log : List (Event β)) : List (Queued β) :=
  log.filterMap Event.start?

/-
  Nothing unsafe has been done, messages were written once
  and in order, and no connection has two writes.
-/
structure Safe (w : Writer β) : Prop where
  events : ∀ event ∈ w.log, event.Safe
  inOrder : (starts w.log).Pairwise
    (fun p q => p.serial < q.serial)
  oneWrite : (w.writes.map Prod.fst).Nodup

/-
  The queue is in the order of arrival, what was started is
  at the front or before it, and a write on the present
  connection is of the front.
-/
structure Ordered (w : Writer β) : Prop extends Safe w where
  increasing : w.queue.Pairwise (fun p q =>
    p.serial < q.serial ∧ p.queuedFor ≤ q.queuedFor)
  fresh : ∀ packet ∈ w.queue,
    packet.serial < w.nextSerial ∧
      packet.queuedFor ≤ w.connection
  startedFresh : ∀ packet ∈ starts w.log,
    packet.serial < w.nextSerial
  startedFirst : ∀ packet ∈ starts w.log,
    ∀ front, w.queue.head? = some front →
      packet.serial ≤ front.serial
  known : ∀ write ∈ w.writes,
    write.1 ≤ w.connection ∧ write.2 ∈ starts w.log
  distinct : (w.writes.map Prod.snd).Nodup
  atFront : ∀ write ∈ w.writes, write.1 = w.connection →
    w.queue.head? = some write.2 ∧
      write.2.queuedFor = w.connection

/- Nothing was queued, and nothing written. -/
theorem ordered_start
    (w : Writer β)
    (hQueue : w.queue = [])
    (hLog : w.log = [])
    (hWrites : w.writes = []) :
    Ordered w := by
  have hStarts : starts w.log = [] := by
    rw [hLog]
    rfl
  constructor
  · constructor
    · simp [hLog]
    · simp [hStarts]
    · simp [hWrites]
  all_goals simp [hQueue, hStarts, hWrites]

/- A successful write finds itself, and no stale message. -/
def PopFits
    (w : Writer β)
    (write : Write β) : Prop :=
  write.1 = w.connection ∨
    w.queue.head? = some write.2 ∧
      ∀ next ∈ w.queue.tail.head?,
        next.queuedFor = w.connection

/- A failed write finds messages of its connection only. -/
def DropFits
    (w : Writer β)
    (write : Write β) : Prop :=
  write.1 = w.connection ∨
    ∀ packet ∈ w.queue, packet.queuedFor = write.1

------------------------------------------------------------
-- What the Operations Keep
------------------------------------------------------------

theorem starts_append
    (log : List (Event β))
    (event : Event β) :
    starts (log ++ [event]) =
      starts log ++ event.start?.toList := by
  rw [starts, List.filterMap_append]
  cases hStart : event.start? with
  | none => simp [starts, hStart]
  | some packet => simp [starts, hStart]

theorem starts_removeFront
    (w : Writer β)
    (written : Queued β) :
    starts (w.removeFront written).log = starts w.log := by
  rw [Writer.removeFront, starts_append]
  exact List.append_nil _

namespace Ordered

variable
  {w : Writer β}

/- Writes may end without any effect on the queue. -/
theorem withWrites
    {writes : List (Write β)}
    (hOrdered : Ordered w)
    (hSub : writes.Sublist w.writes) :
    Ordered (w.withWrites writes) where
  toSafe := {
    events := hOrdered.events
    inOrder := hOrdered.inOrder
    oneWrite := hOrdered.oneWrite.sublist (hSub.map _) }
  increasing := hOrdered.increasing
  fresh := hOrdered.fresh
  startedFresh := hOrdered.startedFresh
  startedFirst := hOrdered.startedFirst
  known := fun write hIn =>
    hOrdered.known write (hSub.subset hIn)
  distinct := hOrdered.distinct.sublist (hSub.map _)
  atFront := fun write hIn =>
    hOrdered.atFront write (hSub.subset hIn)

/- No write is one of a new connection. -/
theorem reopen (hOrdered : Ordered w) : Ordered w.reopen where
  toSafe := ⟨hOrdered.events, hOrdered.inOrder,
    hOrdered.oneWrite⟩
  increasing := hOrdered.increasing
  fresh := fun packet hIn =>
    ⟨(hOrdered.fresh packet hIn).1,
      Nat.le_succ_of_le (hOrdered.fresh packet hIn).2⟩
  startedFresh := hOrdered.startedFresh
  startedFirst := hOrdered.startedFirst
  known := fun write hIn =>
    ⟨Nat.le_succ_of_le (hOrdered.known write hIn).1,
      (hOrdered.known write hIn).2⟩
  distinct := hOrdered.distinct
  atFront := by
    intro write hIn hCurrent
    have hOld := (hOrdered.known write hIn).1
    simp only [Writer.reopen] at hCurrent
    omega

theorem clear (hOrdered : Ordered w) : Ordered w.clear where
  toSafe := ⟨hOrdered.events, hOrdered.inOrder,
    hOrdered.oneWrite⟩
  increasing := List.Pairwise.nil
  fresh := fun _ hIn => absurd hIn List.not_mem_nil
  startedFresh := hOrdered.startedFresh
  startedFirst := fun _ _ _ hFront => nomatch hFront
  known := hOrdered.reopen.known
  distinct := hOrdered.distinct
  atFront := by
    intro write hIn hCurrent
    have hOld := (hOrdered.known write hIn).1
    simp only [Writer.clear, Writer.reopen] at hCurrent
    omega

/-
  The front may be written when it is of this connection, is
  newer than all that was started, and nothing is written.
-/
theorem startNext
    (hOrdered : Ordered w)
    (hFront : ∀ front, w.queue.head? = some front →
      front.queuedFor = w.connection ∧
        (∀ packet ∈ starts w.log,
          packet.serial < front.serial) ∧
        ∀ write ∈ w.writes, write.1 ≠ w.connection) :
    Ordered w.startNext := by
  unfold Writer.startNext
  split
  next => exact hOrdered
  next packet rest hQueue =>
    rcases hFront packet (by rw [hQueue]; rfl) with
      ⟨hFor, hNewer, hIdle⟩
    have hStarts :
        starts (w.log ++ [.started w.connection packet]) =
          starts w.log ++ [packet] :=
      starts_append _ _
    have hInQueue : packet ∈ w.queue := by
      rw [hQueue]
      exact List.mem_cons_self
    have hNew : packet ∉ w.writes.map Prod.snd := by
      intro hIn
      rcases List.mem_map.mp hIn with ⟨write, hWrite, rfl⟩
      exact absurd
        (hNewer _ (hOrdered.known write hWrite).2)
        (Nat.lt_irrefl _)
    exact {
      events := by
        intro event hIn
        rcases List.mem_append.mp hIn with hIn | hIn
        · exact hOrdered.events event hIn
        · rw [List.mem_singleton.mp hIn]
          exact hFor
      inOrder := by
        rw [hStarts, List.pairwise_append]
        refine ⟨hOrdered.inOrder,
          List.pairwise_singleton _ _, ?_⟩
        intro old hOld new hIn
        rw [List.mem_singleton.mp hIn]
        exact hNewer old hOld
      oneWrite := by
        rw [List.map_append, List.nodup_append']
        refine ⟨hOrdered.oneWrite, List.nodup_singleton _, ?_⟩
        intro connection hOld hIn
        rcases List.mem_map.mp hOld with ⟨write, hWrite, rfl⟩
        exact hIdle write hWrite (List.mem_singleton.mp hIn)
      increasing := hOrdered.increasing
      fresh := hOrdered.fresh
      startedFresh := by
        intro old hOld
        rw [hStarts] at hOld
        rcases List.mem_append.mp hOld with hOld | hOld
        · exact hOrdered.startedFresh old hOld
        · rw [List.mem_singleton.mp hOld]
          exact (hOrdered.fresh packet hInQueue).1
      startedFirst := by
        intro old hOld front hHead
        rw [hStarts] at hOld
        rcases List.mem_append.mp hOld with hOld | hOld
        · exact hOrdered.startedFirst old hOld front hHead
        · rw [List.mem_singleton.mp hOld]
          have hSame : packet = front := by
            simpa [hQueue] using hHead
          exact Nat.le_of_eq (congrArg Queued.serial hSame)
      known := by
        intro write hIn
        rw [hStarts]
        rcases List.mem_append.mp hIn with hIn | hIn
        · exact ⟨(hOrdered.known write hIn).1,
            List.mem_append_left _
              (hOrdered.known write hIn).2⟩
        · rw [List.mem_singleton.mp hIn]
          exact ⟨Nat.le_refl _, List.mem_append_right _
            (List.mem_singleton_self packet)⟩
      distinct := by
        rw [List.map_append, List.nodup_append']
        refine ⟨hOrdered.distinct, List.nodup_singleton _, ?_⟩
        intro old hOld hIn
        rw [List.mem_singleton.mp hIn] at hOld
        exact hNew hOld
      atFront := by
        intro write hIn hCurrent
        rcases List.mem_append.mp hIn with hIn | hIn
        · exact absurd hCurrent (hIdle write hIn)
        · rw [List.mem_singleton.mp hIn]
          exact ⟨by rw [hQueue]; rfl, hFor⟩ }

/- The new message is newer than all that there is. -/
theorem enqueue
    (message : β)
    (hOrdered : Ordered w) :
    Ordered (w.enqueue message) where
  toSafe := ⟨hOrdered.events, hOrdered.inOrder,
    hOrdered.oneWrite⟩
  increasing := by
    rw [Writer.enqueue, List.pairwise_append]
    refine ⟨hOrdered.increasing,
      List.pairwise_singleton _ _, ?_⟩
    intro old hOld new hIn
    rw [List.mem_singleton.mp hIn]
    exact hOrdered.fresh old hOld
  fresh := by
    intro packet hIn
    rcases List.mem_append.mp hIn with hIn | hIn
    · exact ⟨Nat.lt_succ_of_lt (hOrdered.fresh packet hIn).1,
        (hOrdered.fresh packet hIn).2⟩
    · rw [List.mem_singleton.mp hIn]
      exact ⟨Nat.lt_succ_self _, Nat.le_refl _⟩
  startedFresh := fun packet hIn =>
    Nat.lt_succ_of_lt (hOrdered.startedFresh packet hIn)
  startedFirst := by
    intro packet hIn front hFront
    simp only [Writer.enqueue] at hFront
    cases hQueue : w.queue with
    | nil =>
        simp only [hQueue, List.nil_append, List.head?_cons,
          Option.some.injEq] at hFront
        rw [← hFront]
        exact Nat.le_of_lt (hOrdered.startedFresh packet hIn)
    | cons old rest =>
        apply hOrdered.startedFirst packet hIn front
        simpa [hQueue] using hFront
  known := hOrdered.known
  distinct := hOrdered.distinct
  atFront := by
    intro write hIn hCurrent
    rcases hOrdered.atFront write hIn hCurrent with
      ⟨hHead, hFor⟩
    exact ⟨List.mem_head?_append_of_mem_head? hHead, hFor⟩

theorem pushed
    (message : β)
    (hOrdered : Ordered w) :
    Ordered (w.push message) := by
  unfold Writer.push
  split
  next hEmpty =>
    apply (hOrdered.enqueue message).startNext
    intro front hFront
    simp only [Writer.enqueue, hEmpty, List.nil_append,
      List.head?_cons, Option.some.injEq] at hFront
    rw [← hFront]
    refine ⟨rfl, hOrdered.startedFresh, ?_⟩
    intro write hIn hCurrent
    have hHead := (hOrdered.atFront write hIn hCurrent).1
    rw [hEmpty] at hHead
    cases hHead
  next => exact hOrdered.enqueue message

/- The queue goes when all of it is of one connection. -/
theorem drop
    (connection : ℕ)
    (hOrdered : Ordered w)
    (hOwn : ∀ packet ∈ w.queue,
      packet.queuedFor = connection) :
    Ordered (w.drop connection) := by
  have hStarts :
      starts (w.log ++ [.dropped connection w.queue]) =
        starts w.log := by
    rw [starts_append]
    exact List.append_nil _
  exact {
    events := by
      intro event hIn
      rcases List.mem_append.mp hIn with hIn | hIn
      · exact hOrdered.events event hIn
      · rw [List.mem_singleton.mp hIn]
        exact hOwn
    inOrder := hStarts.symm ▸ hOrdered.inOrder
    oneWrite := hOrdered.oneWrite
    increasing := List.Pairwise.nil
    fresh := fun _ hIn => absurd hIn List.not_mem_nil
    startedFresh := fun packet hIn =>
      hOrdered.startedFresh packet (hStarts ▸ hIn)
    startedFirst := fun _ _ _ hFront => nomatch hFront
    known := fun write hIn =>
      ⟨(hOrdered.clear.known write hIn).1,
        hStarts ▸ (hOrdered.known write hIn).2⟩
    distinct := hOrdered.distinct
    atFront := hOrdered.clear.atFront }

/- What a successful write on its connection finds. -/
theorem front_of_popFits
    {write : Write β}
    (hOrdered : Ordered w)
    (hIn : write ∈ w.writes)
    (hFits : PopFits w write) :
    w.queue.head? = some write.2 ∧
      ∀ next ∈ w.queue.tail.head?,
        next.queuedFor = w.connection := by
  rcases hFits with hCurrent | hFits
  · rcases hOrdered.atFront write hIn hCurrent with
      ⟨hHead, hFor⟩
    refine ⟨hHead, ?_⟩
    intro next hNext
    rcases List.head?_eq_some_iff.mp hHead with
      ⟨rest, hQueue⟩
    rw [hQueue, List.tail_cons] at hNext
    have hInRest := List.mem_of_mem_head? hNext
    have hIncreasing := hOrdered.increasing
    rw [hQueue, List.pairwise_cons] at hIncreasing
    have hLower := (hIncreasing.1 next hInRest).2
    have hUpper := (hOrdered.fresh next (by
      rw [hQueue]
      exact List.mem_cons_of_mem _ hInRest)).2
    omega
  · exact hFits

/- What a failed write on its connection finds. -/
theorem own_of_dropFits
    {write : Write β}
    (hOrdered : Ordered w)
    (hIn : write ∈ w.writes)
    (hFits : DropFits w write) :
    ∀ packet ∈ w.queue, packet.queuedFor = write.1 := by
  rcases hFits with hCurrent | hFits
  · rcases hOrdered.atFront write hIn hCurrent with
      ⟨hHead, hFor⟩
    rcases List.head?_eq_some_iff.mp hHead with
      ⟨rest, hQueue⟩
    have hIncreasing := hOrdered.increasing
    rw [hQueue, List.pairwise_cons] at hIncreasing
    intro packet hPacket
    have hUpper := (hOrdered.fresh packet hPacket).2
    rw [hQueue] at hPacket
    rcases List.mem_cons.mp hPacket with hSame | hInRest
    · rw [hSame, hFor, hCurrent]
    · have hLower := (hIncreasing.1 packet hInRest).2
      omega
  · exact hFits

/- The front goes, and the next message takes its place. -/
theorem removeFront
    {written : Queued β}
    (hOrdered : Ordered w)
    (hHead : w.queue.head? = some written)
    (hIdle : ∀ write ∈ w.writes,
      write.1 ≠ w.connection) :
    Ordered (w.removeFront written) := by
  have hStarts := starts_removeFront w written
  rcases List.head?_eq_some_iff.mp hHead with ⟨rest, hQueue⟩
  have hIncreasing := hOrdered.increasing
  rw [hQueue, List.pairwise_cons] at hIncreasing
  have hTail : (w.removeFront written).queue = rest := by
    rw [Writer.removeFront, hQueue, List.tail_cons]
  exact {
    events := by
      intro event hIn
      rcases List.mem_append.mp hIn with hIn | hIn
      · exact hOrdered.events event hIn
      · rw [List.mem_singleton.mp hIn]
        exact hHead
    inOrder := hStarts ▸ hOrdered.inOrder
    oneWrite := hOrdered.oneWrite
    increasing := hTail ▸ hIncreasing.2
    fresh := fun packet hIn =>
      hOrdered.fresh packet (List.mem_of_mem_tail hIn)
    startedFresh := fun packet hIn =>
      hOrdered.startedFresh packet (hStarts ▸ hIn)
    startedFirst := by
      intro packet hIn front hFront
      rw [hTail] at hFront
      have hFirst := hOrdered.startedFirst packet
        (hStarts ▸ hIn) written hHead
      have hNext := (hIncreasing.1 front
        (List.mem_of_mem_head? hFront)).1
      omega
    known := fun write hIn =>
      ⟨(hOrdered.known write hIn).1,
        hStarts.symm ▸ (hOrdered.known write hIn).2⟩
    distinct := hOrdered.distinct
    atFront := fun write hIn hCurrent =>
      absurd hCurrent (hIdle write hIn) }

theorem mem_and_sublist
    {write : Write β}
    {older newer : List (Write β)}
    (hWrites : w.writes = older ++ write :: newer) :
    write ∈ w.writes ∧
      (older ++ newer).Sublist w.writes := by
  rw [hWrites]
  exact ⟨List.mem_append_right _ List.mem_cons_self,
    (List.Sublist.refl older).append
      (List.sublist_cons_self write newer)⟩

/-
  The write that has ended was the only one that could be on
  the present connection.
-/
theorem popped
    {write : Write β}
    {older newer : List (Write β)}
    (hOrdered : Ordered w)
    (hWrites : w.writes = older ++ write :: newer)
    (hFits : PopFits w write) :
    Ordered ((w.withWrites (older ++ newer)).pop write.2) := by
  rcases mem_and_sublist hWrites with ⟨hIn, hSub⟩
  rcases hOrdered.front_of_popFits hIn hFits with
    ⟨hHead, hNext⟩
  have hIdle : ∀ other ∈ older ++ newer,
      other.1 ≠ w.connection := by
    intro other hOther hCurrent
    have hSame := (hOrdered.atFront other
      (hSub.subset hOther) hCurrent).1
    rw [hHead] at hSame
    have hDistinct := hOrdered.distinct
    rw [hWrites, List.map_append, List.map_cons,
      List.nodup_middle, List.nodup_cons,
      ← List.map_append] at hDistinct
    apply hDistinct.1
    rw [Option.some.inj hSame]
    exact List.mem_map_of_mem hOther
  have hRemoved : Ordered ((w.withWrites
      (older ++ newer)).removeFront write.2) :=
    (hOrdered.withWrites hSub).removeFront hHead hIdle
  apply hRemoved.startNext
  intro front hFront
  refine ⟨hNext front hFront, ?_, hIdle⟩
  rcases List.head?_eq_some_iff.mp hHead with ⟨rest, hQueue⟩
  have hIncreasing := hOrdered.increasing
  rw [hQueue, List.pairwise_cons] at hIncreasing
  intro packet hStarted
  rw [starts_removeFront] at hStarted
  have hFirst :=
    hOrdered.startedFirst packet hStarted write.2 hHead
  have hInRest : front ∈ rest := by
    apply List.mem_of_mem_head?
    have hTail : w.queue.tail.head? = some front := hFront
    rwa [hQueue, List.tail_cons] at hTail
  have hLater := (hIncreasing.1 front hInRest).1
  omega

/- The queue was that of the write that has failed. -/
theorem dropped
    {write : Write β}
    {older newer : List (Write β)}
    (hOrdered : Ordered w)
    (hWrites : w.writes = older ++ write :: newer)
    (hFits : DropFits w write) :
    Ordered
      ((w.withWrites (older ++ newer)).drop write.1) := by
  rcases mem_and_sublist hWrites with ⟨hIn, hSub⟩
  exact (hOrdered.withWrites hSub).drop write.1
    (hOrdered.own_of_dropFits hIn hFits)

------------------------------------------------------------
-- What Is Unsafe
------------------------------------------------------------

/- A success that does not fit does something unsafe. -/
theorem safe_pop_iff
    {write : Write β}
    {older newer : List (Write β)}
    (hOrdered : Ordered w)
    (hWrites : w.writes = older ++ write :: newer) :
    Safe ((w.withWrites (older ++ newer)).pop write.2) ↔
      PopFits w write := by
  constructor
  · intro hSafe
    refine Or.inr ⟨?_, ?_⟩
    · apply hSafe.events (.popped write.2 w.queue.head?)
      unfold Writer.pop Writer.startNext
      split <;> simp [Writer.removeFront, Writer.withWrites]
    · intro next hNext
      apply hSafe.events (.started w.connection next)
      rcases List.head?_eq_some_iff.mp hNext with
        ⟨rest, hTail⟩
      simp [Writer.pop, Writer.startNext,
        Writer.removeFront, Writer.withWrites, hTail]
  · exact fun hFits => (hOrdered.popped hWrites hFits).toSafe

/- So does a failure that does not. -/
theorem safe_drop_iff
    {write : Write β}
    {older newer : List (Write β)}
    (hOrdered : Ordered w)
    (hWrites : w.writes = older ++ write :: newer) :
    Safe ((w.withWrites (older ++ newer)).drop write.1) ↔
      DropFits w write := by
  constructor
  · intro hSafe
    refine Or.inr ?_
    apply hSafe.events (.dropped write.1 w.queue)
    simp [Writer.drop, Writer.clear, Writer.reopen,
      Writer.withWrites]
  · exact fun hFits =>
      (hOrdered.dropped hWrites hFits).toSafe

end Ordered

end WriteQueue
