import VeritasSync.P2p.TrackerClient

/-
  What the client of the tracker does with its queue of
  packets over a whole run, and which completions of writes
  take the packets of another connection for their own.

  Main declarations:
    * `TrackerClient.writer`, `TrackerClient.Fits`
    * `TrackerClient.queueSafe_iff_fits`
-/

namespace VeritasSync

namespace TrackerClient

open WriteQueue Transition

------------------------------------------------------------
-- The Client as a Writer
------------------------------------------------------------

def Pending.write? :
    Pending → Option (Write (List UInt8))
| ⟨.write connection packet, _, _⟩ =>
    some (connection, packet)
| _ => none

/- The writing side of the client. -/
def writer (c : TrackerClient) : Writer (List UInt8) where
  connection := c.connection
  queue := c.writeQueue
  nextSerial := c.nextSerial
  log := c.queueLog
  writes := c.pending.filterMap Pending.write?

/- An operation that has begun or ended stays what it is. -/
theorem write?_eq_of_op_eq
    {p q : Pending}
    (hOp : p.op = q.op) :
    p.write? = q.write? := by
  rcases p with ⟨op, missing, outcome⟩
  rcases q with ⟨op', missing', outcome'⟩
  simp only at hOp
  subst hOp
  cases op <;> rfl

theorem write?_abort
    (cancelled : Op → Bool)
    (p : Pending) :
    (p.abort cancelled).write? = p.write? := by
  apply write?_eq_of_op_eq
  unfold Pending.abort
  split <;> rfl

theorem filterMap_abort
    (cancelled : Op → Bool)
    (pending : List Pending) :
    (pending.map (Pending.abort cancelled)).filterMap
        Pending.write? =
      pending.filterMap Pending.write? := by
  rw [List.filterMap_map]
  congr 1
  funext p
  exact write?_abort cancelled p

theorem filterMap_set
    {pending : List Pending}
    {i : ℕ}
    {p q : Pending}
    (hAt : pending[i]? = some p)
    (hOp : q.op = p.op) :
    (pending.set i q).filterMap Pending.write? =
      pending.filterMap Pending.write? := by
  induction pending generalizing i with
  | nil => rfl
  | cons first pending ih =>
      cases i with
      | zero =>
          simp only [List.getElem?_cons_zero,
            Option.some.injEq] at hAt
          rw [List.set_cons_zero, List.filterMap_cons,
            List.filterMap_cons, hAt,
            write?_eq_of_op_eq hOp]
      | succ i =>
          rw [List.getElem?_cons_succ] at hAt
          rw [List.set_cons_succ, List.filterMap_cons,
            List.filterMap_cons, ih hAt]

section Refinement

variable
  (dump : Json → List UInt8)
  (P : JsonParser)
  (c : TrackerClient)

theorem writer_await
    (p : Pending)
    (hNot : p.write? = none) :
    writer (c.await p) = writer c := by
  simp [writer, await, hNot]

theorem writer_closeSocket :
    writer c.closeSocket = (writer c).reopen := by
  simp only [writer, closeSocket, Writer.reopen,
    filterMap_abort]

theorem writer_openSocket :
    writer c.openSocket = (writer c).reopen :=
  writer_closeSocket c

theorem writer_cancelTimer :
    writer c.cancelTimer = writer c := by
  simp only [writer, cancelTimer, filterMap_abort]

theorem writer_armTimer (delay : ℕ) :
    writer (c.armTimer delay) = writer c :=
  (writer_await c.cancelTimer _ rfl).trans
    (writer_cancelTimer c)

theorem writer_asyncRead
    {op : Op}
    (count : ℕ)
    (hRead : op.isRead = true) :
    writer (c.asyncRead op count) = writer c := by
  apply writer_await
  cases op <;> first | rfl | cases hRead

theorem writer_startWriteNext :
    writer c.startWriteNext = (writer c).startNext := by
  unfold startWriteNext Writer.startNext
  cases hQueue : c.writeQueue with
  | nil => simp [writer, hQueue]
  | cons packet rest =>
      simp [writer, await, hQueue, Pending.write?]

theorem writer_doWrite (msg : List UInt8) :
    writer (c.doWrite msg) =
      (writer c).push (Framing.frame msg) := by
  unfold doWrite Writer.push
  cases hQueue : c.writeQueue with
  | nil =>
      have hEmpty : (writer c).queue = [] := hQueue
      rw [if_pos rfl, if_pos hEmpty, writer_startWriteNext]
      simp only [writer, Writer.enqueue, hQueue]
  | cons packet rest =>
      have hNot : (writer c).queue ≠ [] := by
        simp [writer, hQueue]
      rw [if_neg (List.cons_ne_nil packet rest),
        if_neg hNot]
      simp only [writer, Writer.enqueue, hQueue]

theorem writer_scheduleReconnect_of_not_stopping
    (hNot : c.state ≠ .stopping) :
    writer c.scheduleReconnect = (writer c).clear := by
  rw [scheduleReconnect, if_neg hNot, writer_armTimer]
  simp only [writer, closeSocket, Writer.clear,
    Writer.reopen, filterMap_abort]

theorem writer_stopImpl :
    writer c.stopImpl = (writer c).clear := by
  simp only [writer, stopImpl, closeSocket, cancelTimer,
    Writer.clear, Writer.reopen, filterMap_abort]

theorem writer_doConnect :
    writer c.doConnect = writer c := by
  unfold doConnect
  split
  next => rfl
  next => exact writer_await c _ rfl

theorem writer_asyncConnect :
    writer c.asyncConnect = (writer c).reopen :=
  (writer_await c.openSocket _ rfl).trans
    (writer_openSocket c)

theorem writer_connectCall
    (syncKey : String)
    (onReady : Option ℕ) :
    writer (c.connectCall syncKey onReady) = writer c := by
  unfold connectCall
  split
  next => rfl
  next =>
    split
    next =>
      split <;> rfl
    next => exact writer_doConnect _

theorem writer_handleMessage (msg : Json) :
    writer (c.handleMessage msg) = writer c := by
  rcases handleMessage_eq c msg with
    ⟨_, _, _, _, _, hHandled⟩
  rw [hHandled]
  rfl

theorem ordered_scheduleReconnect
    (hOrdered : Ordered (writer c)) :
    Ordered (writer c.scheduleReconnect) := by
  by_cases hStopping : c.state = .stopping
  · rw [scheduleReconnect_of_stopping c hStopping]
    exact hOrdered
  · rw [writer_scheduleReconnect_of_not_stopping c hStopping]
    exact hOrdered.clear

theorem ordered_doRegister
    (hOrdered : Ordered (writer c)) :
    Ordered (writer (c.doRegister dump)) := by
  unfold doRegister
  split
  next => exact hOrdered
  next =>
    rw [writer_doWrite]
    exact Ordered.pushed _ hOrdered

theorem ordered_onConnected
    (outcome : Outcome)
    (hOrdered : Ordered (writer c)) :
    Ordered (writer (c.onConnected dump outcome)) := by
  cases outcome with
  | success =>
      rw [onConnected, writer_asyncRead _ 4 rfl]
      exact ordered_doRegister dump c hOrdered
  | aborted => exact ordered_scheduleReconnect c hOrdered
  | failure => exact ordered_scheduleReconnect c hOrdered

theorem ordered_onHeaderRead
    (outcome : Outcome)
    (hOrdered : Ordered (writer c)) :
    Ordered (writer (c.onHeaderRead outcome)) := by
  cases outcome with
  | success =>
      simp only [onHeaderRead]
      split
      next => exact ordered_scheduleReconnect _ hOrdered
      next =>
        rw [writer_asyncRead _ _ rfl]
        exact hOrdered
  | aborted => exact hOrdered
  | failure => exact ordered_scheduleReconnect c hOrdered

theorem ordered_onBodyRead
    (outcome : Outcome)
    (hOrdered : Ordered (writer c)) :
    Ordered (writer (c.onBodyRead P outcome)) := by
  cases outcome with
  | success =>
      simp only [onBodyRead]
      rw [writer_asyncRead _ 4 rfl]
      split
      next =>
        rw [writer_handleMessage]
        exact hOrdered
      next => exact hOrdered
  | aborted => exact hOrdered
  | failure => exact ordered_scheduleReconnect c hOrdered

/- Only the completion of a write can harm the queue. -/
theorem ordered_handle
    {op : Op}
    (outcome : Outcome)
    (hNot : ∀ connection packet,
      op ≠ .write connection packet)
    (hOrdered : Ordered (writer c)) :
    Ordered (writer (c.handle dump P op outcome)) := by
  cases op with
  | resolve =>
      cases outcome with
      | success =>
          rw [handle, onResolved, writer_asyncConnect]
          exact hOrdered.reopen
      | aborted => exact ordered_scheduleReconnect c hOrdered
      | failure => exact ordered_scheduleReconnect c hOrdered
  | connect => exact ordered_onConnected dump c outcome hOrdered
  | readHeader => exact ordered_onHeaderRead c outcome hOrdered
  | readBody => exact ordered_onBodyRead P c outcome hOrdered
  | write connection packet =>
      exact absurd rfl (hNot connection packet)
  | timer delay =>
      cases outcome with
      | success =>
          rw [handle, onTimer]
          split
          next => exact hOrdered
          next =>
            rw [writer_doConnect]
            exact hOrdered
      | aborted => exact hOrdered
      | failure => exact hOrdered
  | connectCall syncKey onReady =>
      rw [handle, writer_connectCall]
      exact hOrdered
  | writeCall msg =>
      rw [handle, writer_doWrite]
      exact Ordered.pushed _ hOrdered
  | stopImpl =>
      rw [handle, writer_stopImpl]
      exact hOrdered.clear

end Refinement

------------------------------------------------------------
-- Completions That Fit
------------------------------------------------------------

/-
  A write that succeeds is on the present connection, or else
  it finds itself at the front and no stale packet behind it.
  One that fails is on the present connection, or finds no
  packet of another one, or the client is stopping.
-/
def CompletionFits
    (c : TrackerClient)
    (write : Write (List UInt8)) : Outcome → Prop
| .success => PopFits (writer c) write
| .failure => c.state = .stopping ∨ DropFits (writer c) write
| .aborted => True

def Fits
    (c : TrackerClient) : Event → Prop
| .run i =>
    match c.pending[i]? with
    | some ⟨.write connection packet, _, some outcome⟩ =>
        CompletionFits c (connection, packet) outcome
    | _ => True
| _ => True

theorem ordered_taken
    {c : TrackerClient}
    (i : ℕ)
    (hOrdered : Ordered (writer c)) :
    Ordered (writer (c.taken i)) :=
  hOrdered.withWrites
    ((List.eraseIdx_sublist c.pending i).filterMap _)

/- The other writes are those before and those after it. -/
theorem writes_taken
    {c : TrackerClient}
    {i : ℕ}
    {p : Pending}
    {write : Write (List UInt8)}
    (hAt : c.pending[i]? = some p)
    (hWrite : p.write? = some write) :
    ∃ older newer,
      (writer c).writes = older ++ write :: newer ∧
        writer (c.taken i) =
          (writer c).withWrites (older ++ newer) := by
  rcases List.getElem?_eq_some_iff.mp hAt with ⟨hLt, hGet⟩
  have hSplit : c.pending =
      c.pending.take i ++ p :: c.pending.drop (i + 1) := by
    rw [← hGet, List.getElem_cons_drop,
      List.take_append_drop]
  refine ⟨(c.pending.take i).filterMap Pending.write?,
    (c.pending.drop (i + 1)).filterMap Pending.write?,
    ?_, ?_⟩
  · have hWrites := congrArg
      (List.filterMap Pending.write?) hSplit
    rw [List.filterMap_append, List.filterMap_cons,
      hWrite] at hWrites
    exact hWrites
  · simp only [writer, taken, Writer.withWrites,
      List.eraseIdx_eq_take_drop_succ,
      List.filterMap_append]

/- What a completed write does to the writer. -/
theorem writer_onWritten_success
    (c : TrackerClient)
    (connection : ℕ)
    (packet : Packet) :
    writer (c.onWritten connection packet .success) =
      (writer c).pop packet := by
  rw [onWritten, writer_startWriteNext]
  rfl

theorem writer_onWritten_failure
    (c : TrackerClient)
    (connection : ℕ)
    (packet : Packet)
    (hNot : c.state ≠ .stopping) :
    writer (c.onWritten connection packet .failure) =
      (writer c).drop connection := by
  rw [onWritten, if_neg hNot]
  exact writer_scheduleReconnect_of_not_stopping _ hNot

/-
  The completion of a write is safe exactly when it fits, and
  then the queue stays in order.
-/
theorem onWritten_cases
    {c : TrackerClient}
    {i missing : ℕ}
    {connection : ℕ}
    {packet : Packet}
    {outcome : Outcome}
    (hOrdered : Ordered (writer c))
    (hAt : c.pending[i]? = some
      ⟨.write connection packet, missing, some outcome⟩) :
    (CompletionFits c (connection, packet) outcome →
      Ordered (writer ((c.taken i).onWritten connection
        packet outcome))) ∧
    (¬ CompletionFits c (connection, packet) outcome →
      ¬ Safe (writer ((c.taken i).onWritten connection
        packet outcome))) := by
  have hWrite : (Pending.mk (.write connection packet)
      missing (some outcome)).write? =
        some (connection, packet) := rfl
  rcases writes_taken hAt hWrite with
    ⟨older, newer, hWrites, hTaken⟩
  cases outcome with
  | success =>
      rw [writer_onWritten_success, hTaken]
      exact ⟨fun hFits => hOrdered.popped hWrites hFits,
        fun hNot hSafe => hNot
          ((hOrdered.safe_pop_iff hWrites).mp hSafe)⟩
  | aborted =>
      exact ⟨fun _ => ordered_taken i hOrdered,
        fun hNot => absurd trivial hNot⟩
  | failure =>
      by_cases hStopping : c.state = .stopping
      · have hSame : (c.taken i).onWritten connection packet
            .failure = c.taken i := by
          have hTakenStopping :
              (c.taken i).state = .stopping := hStopping
          rw [onWritten, if_pos hTakenStopping,
            scheduleReconnect_of_stopping _ hTakenStopping]
        rw [hSame]
        exact ⟨fun _ => ordered_taken i hOrdered,
          fun hNot => absurd (Or.inl hStopping) hNot⟩
      · rw [writer_onWritten_failure (c.taken i) connection
          packet hStopping, hTaken]
        constructor
        · rintro (hStop | hFits)
          · exact absurd hStop hStopping
          · exact hOrdered.dropped hWrites hFits
        · exact fun hNot hSafe => hNot (Or.inr
            ((hOrdered.safe_drop_iff hWrites).mp hSafe))

------------------------------------------------------------
-- Whole Runs
------------------------------------------------------------

section Runs

variable
  (dump : Json → List UInt8)
  (P : JsonParser)

/- Operations go on, and bytes arrive. -/
theorem ordered_set
    {c : TrackerClient}
    {i : ℕ}
    {p q : Pending}
    (readBuffer : List UInt8)
    (hOrdered : Ordered (writer c))
    (hAt : c.pending[i]? = some p)
    (hOp : q.op = p.op) :
    Ordered (writer { c with
      readBuffer := readBuffer
      pending := c.pending.set i q }) := by
  simp only [writer, filterMap_set hAt hOp]
  exact hOrdered

/- Besides handlers nothing touches the queue. -/
theorem ordered_of_step_of_not_run
    {c c' : TrackerClient}
    {e : Event}
    (hOrdered : Ordered (writer c))
    (hNot : ∀ i, e ≠ .run i)
    (hStep : step dump P c e = some c') :
    Ordered (writer c') := by
  cases e with
  | connect syncKey onReady =>
      rw [← Option.some.inj hStep, post, writer_await _ _ rfl]
      exact hOrdered
  | stop inThread =>
      rw [← Option.some.inj hStep, stop]
      cases inThread with
      | false =>
          simp only [Bool.false_eq_true, if_false]
          rw [post, writer_await _ _ rfl]
          exact hOrdered
      | true =>
          simp only [if_true]
          rw [writer_stopImpl]
          exact hOrdered.clear
  | send toPeerId type sdp =>
      rw [← Option.some.inj hStep, sendSignalingMessage]
      split
      next =>
        rw [post, writer_await _ _ rfl]
        exact hOrdered
      next => exact hOrdered
  | setP2pManager present =>
      rw [← Option.some.inj hStep]
      exact hOrdered
  | setDeviceId deviceId =>
      rw [← Option.some.inj hStep]
      exact hOrdered
  | receive i bytes =>
      rcases (step_receive_eq_some_iff dump P).mp hStep with
        ⟨p, hAt, -, rfl⟩
      exact ordered_set _ hOrdered hAt rfl
  | finish i outcome =>
      rcases (step_finish_eq_some_iff dump P).mp hStep with
        ⟨p, hAt, -, rfl⟩
      exact ordered_set _ hOrdered hAt rfl
  | nextEndpoint i =>
      rcases (step_nextEndpoint_eq_some_iff dump P).mp hStep
        with ⟨p, hAt, -, rfl⟩
      have hOpened : c.openSocket.pending[i]? =
          some (p.abort Op.usesSocket) := by
        simp [openSocket, closeSocket, hAt]
      have hOp : p.restart.op =
          (p.abort Op.usesSocket).op := by
        unfold Pending.abort
        split <;> rfl
      have hReopened := hOrdered.reopen
      rw [← writer_openSocket] at hReopened
      exact ordered_set _ hReopened hOpened hOp
  | run i => exact absurd rfl (hNot i)

/- A completion that is run is that of a write, or harmless. -/
theorem run_cases
    {c c' : TrackerClient}
    {i : ℕ}
    (hOrdered : Ordered (writer c))
    (hStep : step dump P c (.run i) = some c') :
    (Fits c (.run i) → Ordered (writer c')) ∧
      (¬ Fits c (.run i) → ¬ Safe (writer c')) := by
  rcases (step_run_eq_some_iff dump P).mp hStep with
    ⟨⟨op, missing, _⟩, outcome, hAt, rfl, rfl⟩
  simp only [Fits, hAt]
  by_cases hWrite : ∃ connection packet,
      op = .write connection packet
  · rcases hWrite with ⟨connection, packet, rfl⟩
    exact onWritten_cases hOrdered hAt
  · have hKept : Ordered (writer
        ((c.taken i).handle dump P op outcome)) := by
      apply ordered_handle _ _ _ _ _ (ordered_taken i hOrdered)
      intro connection packet hOp
      exact hWrite ⟨connection, packet, hOp⟩
    refine ⟨fun _ => hKept, ?_⟩
    intro hNot
    apply absurd _ hNot
    split
    next connection packet _ _ hSame =>
      simp only [Option.some.injEq, Pending.mk.injEq] at hSame
      exact absurd ⟨connection, packet, hSame.1⟩ hWrite
    next => trivial

theorem ordered_step
    {c c' : TrackerClient}
    {e : Event}
    (hOrdered : Ordered (writer c))
    (hFits : Fits c e)
    (hStep : step dump P c e = some c') :
    Ordered (writer c') := by
  by_cases hRun : ∃ i, e = .run i
  · rcases hRun with ⟨i, rfl⟩
    exact (run_cases dump P hOrdered hStep).1 hFits
  · apply ordered_of_step_of_not_run dump P hOrdered _ hStep
    exact fun i hEq => hRun ⟨i, hEq⟩

theorem not_safe_step
    {c c' : TrackerClient}
    {e : Event}
    (hOrdered : Ordered (writer c))
    (hNot : ¬ Fits c e)
    (hStep : step dump P c e = some c') :
    ¬ Safe (writer c') := by
  cases e with
  | run i => exact (run_cases dump P hOrdered hStep).2 hNot
  | _ => exact absurd trivial hNot

/- What cannot happen needs no condition. -/
theorem fits_of_step_eq_none
    {c : TrackerClient}
    {e : Event}
    (hNone : step dump P c e = none) :
    Fits c e := by
  cases e with
  | run i =>
      simp only [Fits]
      split
      next connection packet missing outcome hAt =>
        simp [step, hAt] at hNone
      next => trivial
  | _ => trivial

/-
  The queue is safe throughout a run exactly when every
  completion of a write that is handled fits.
-/
theorem queueSafe_iff_fits (events : List Event) :
    Always (step dump P) (fun c => Safe (writer c))
        start events ↔
      Meets (step dump P) Fits start events := by
  apply always_iff_meets (fun c => Ordered.toSafe)
  · exact fun _ _ _ hOrdered hFits hStep =>
      ordered_step dump P hOrdered hFits hStep
  · exact fun _ _ _ hOrdered hNot hStep =>
      not_safe_step dump P hOrdered hNot hStep
  · exact fun _ _ hNone =>
      fits_of_step_eq_none dump P hNone
  · exact ordered_start (writer start) rfl rfl rfl

end Runs

------------------------------------------------------------
-- A Queue That Is Popped Empty
------------------------------------------------------------

/-
  The registration is written and the reading fails; the
  failure is handled first, and the queue is empty when the
  completion of the write takes its front.
-/
def failedFirst : List Event :=
  [.setP2pManager true, .connect "key" none, .run 0,
    .finish 0 .success, .run 0, .finish 0 .success, .run 0,
    .finish 0 .success, .finish 1 .failure, .run 1, .run 0]

theorem not_queueSafe_failedFirst :
    ∃ c,
      run (step (fun _ => [123, 125]) sampleParser) start
          failedFirst = some c ∧
        .popped ⟨[0, 0, 0, 2, 123, 125], 0, 1⟩ none ∈
          c.queueLog ∧
        ¬ Safe (writer c) := by
  refine ⟨_, rfl, ?_, ?_⟩
  · decide
  · intro hSafe
    have hPopped := hSafe.events
      (.popped ⟨[0, 0, 0, 2, 123, 125], 0, 1⟩ none)
      (by decide)
    cases hPopped

end TrackerClient

end VeritasSync
