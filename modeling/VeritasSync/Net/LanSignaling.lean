import Mathlib.Data.List.DropRight
import VeritasSync.Library.Lines

/-
  Signals between two peers of the local network: one line of
  a TCP stream for each, with its type in front.

  Main declarations:
    * `SignalType`, `Signal`, `LanSignaling.sendSignaling`
    * `SignalingChannel`, `SignalingChannel.doSignalingRead`
    * `LanSignaling.Carries`, `LanSignaling.RoundTrips`
    * `LanSignaling.roundTrips_iff`
-/

namespace VeritasSync

------------------------------------------------------------
-- Signals
------------------------------------------------------------

/- The types that the interface names. -/
inductive SignalType where
| iceCandidate : SignalType
| sdpOffer : SignalType
| sdpAnswer : SignalType
| iceGatheringDone : SignalType
deriving DecidableEq

structure Signal where
  signalType : SignalType
  payload : List UInt8
deriving DecidableEq

namespace LanSignaling

def bytes (text : String) : List UInt8 :=
  text.toUTF8.data.toList

def lineFeed : UInt8 := 10

def carriageReturn : UInt8 := 13

def bar : UInt8 := 124

def hello : List UInt8 := bytes "hello"

def typeText : SignalType → List UInt8
| .iceCandidate => bytes "ice_candidate"
| .sdpOffer => bytes "sdp_offer"
| .sdpAnswer => bytes "sdp_answer"
| .iceGatheringDone => bytes "ice_gathering_done"

/- What the peer is to read, up to the end of the line. -/
def signalLine (signal : Signal) : List UInt8 :=
  typeText signal.signalType ++ bar :: signal.payload

/- What is written to the stream of the channel. -/
def sendSignaling (signal : Signal) : List UInt8 :=
  Lines.terminate lineFeed (signalLine signal)

end LanSignaling

------------------------------------------------------------
-- Reading a Channel
------------------------------------------------------------

/- What a callback is given: a peer, a type and a payload. -/
structure ReceivedSignal where
  fromDeviceId : List UInt8
  signalType : List UInt8
  payload : List UInt8
deriving DecidableEq

/- One end of a connection, and what it was sent so far. -/
structure SignalingChannel where
  peerId : List UInt8
  readBuf : List UInt8
  received : List ReceivedSignal
deriving DecidableEq

namespace SignalingChannel

open LanSignaling

def stripReturn (line : List UInt8) : List UInt8 :=
  if line.getLast? = some carriageReturn then
    line.dropLast
  else
    line

/- What comes before the first bar, and what after it. -/
def cutAtBar
    (line : List UInt8) : Option (List UInt8 × List UInt8) :=
  match line.dropWhile (fun c => c != bar) with
  | [] => none
  | _ :: payload =>
      some (line.takeWhile (fun c => c != bar), payload)

/- A line once it is there.  The first one names the peer. -/
def handleLine
    (ch : SignalingChannel)
    (line : List UInt8) : SignalingChannel :=
  match cutAtBar (stripReturn line) with
  | none => ch
  | some (signalType, payload) =>
      if signalType = hello then
        { ch with peerId := payload }
      else if !ch.peerId.isEmpty then
        { ch with
          received := ch.received ++
            [⟨ch.peerId, signalType, payload⟩] }
      else
        ch

def withBuf
    (ch : SignalingChannel)
    (buffer : List UInt8) : SignalingChannel :=
  { ch with readBuf := buffer }

/- Bytes come in, and the lines that end are handled. -/
def doSignalingRead
    (ch : SignalingChannel)
    (chunk : List UInt8) : SignalingChannel :=
  let read := Lines.scan lineFeed ch.readBuf chunk
  (read.1.foldl handleLine ch).withBuf read.2

theorem handleLine_withBuf
    (ch : SignalingChannel)
    (buffer line : List UInt8) :
    handleLine (ch.withBuf buffer) line =
      (handleLine ch line).withBuf buffer := by
  simp only [handleLine, withBuf]
  cases cutAtBar (stripReturn line) with
  | none => rfl
  | some cut =>
      by_cases hHello : cut.1 = hello
      · simp only [if_pos hHello]
      · by_cases hEmpty : ch.peerId.isEmpty
        · simp [hHello, hEmpty]
        · simp [hHello, hEmpty]

theorem foldl_handleLine_withBuf
    (ch : SignalingChannel)
    (buffer : List UInt8)
    (lines : List (List UInt8)) :
    lines.foldl handleLine (ch.withBuf buffer) =
      (lines.foldl handleLine ch).withBuf buffer := by
  induction lines generalizing ch with
  | nil => rfl
  | cons line lines ih =>
      rw [List.foldl_cons, List.foldl_cons,
        handleLine_withBuf, ih]

/- The lines that are handled do not depend on the pieces. -/
theorem foldl_doSignalingRead
    (ch : SignalingChannel)
    (chunks : List (List UInt8)) :
    chunks.foldl doSignalingRead ch =
      ((Lines.scan lineFeed ch.readBuf chunks.flatten
          ).1.foldl handleLine ch).withBuf
        (Lines.scan lineFeed ch.readBuf
          chunks.flatten).2 := by
  rw [← Lines.feed_eq_scan_flatten]
  induction chunks generalizing ch with
  | nil => rfl
  | cons chunk chunks ih =>
      rw [List.foldl_cons, ih]
      simp only [doSignalingRead, Lines.feed,
        List.foldl_append, foldl_handleLine_withBuf]
      rfl

------------------------------------------------------------
-- One Line
------------------------------------------------------------

theorem cutAtBar_append
    {signalType : List UInt8}
    (hType : bar ∉ signalType)
    (payload : List UInt8) :
    cutAtBar (signalType ++ bar :: payload) =
      some (signalType, payload) := by
  have hBefore : ∀ c ∈ signalType, (c != bar) = true := by
    intro c hMem
    exact bne_iff_ne.mpr (ne_of_mem_of_not_mem hMem hType)
  have hStop : (bar != bar) = false := by decide
  unfold cutAtBar
  rw [List.dropWhile_append_of_pos hBefore,
    List.takeWhile_append_of_pos hBefore]
  simp only [List.dropWhile_cons, List.takeWhile_cons,
    hStop, if_false, Bool.false_eq_true, List.append_nil]

/- Only a payload that ends so loses its last byte. -/
theorem stripReturn_append
    (signalType payload : List UInt8) :
    stripReturn (signalType ++ bar :: payload) =
      signalType ++ bar :: stripReturn payload := by
  unfold stripReturn
  rw [List.getLast?_append_of_ne_nil _ (List.cons_ne_nil _ _),
    List.dropLast_append_of_ne_nil (List.cons_ne_nil _ _)]
  cases payload with
  | nil => rfl
  | cons c payload =>
      rw [List.getLast?_cons_cons, List.dropLast_cons_cons]
      split
      · rfl
      · rfl

/- A peer that is known gets a line of any other type. -/
theorem handleLine_append
    {ch : SignalingChannel}
    {signalType : List UInt8}
    (hPeer : ch.peerId ≠ [])
    (hType : bar ∉ signalType)
    (hHello : signalType ≠ hello)
    (payload : List UInt8) :
    handleLine ch (signalType ++ bar :: payload) =
      { ch with
        received := ch.received ++
          [⟨ch.peerId, signalType,
            stripReturn payload⟩] } := by
  have hKnown : ch.peerId.isEmpty = false :=
    List.isEmpty_eq_false_iff.mpr hPeer
  rw [handleLine, stripReturn_append, cutAtBar_append hType]
  simp only [if_neg hHello, hKnown, Bool.not_false, if_true]

/- What was given to the callback stays given. -/
theorem received_prefix
    (ch : SignalingChannel)
    (lines : List (List UInt8)) :
    ch.received <+: (lines.foldl handleLine ch).received := by
  induction lines generalizing ch with
  | nil => exact List.prefix_refl _
  | cons line lines ih =>
      refine List.IsPrefix.trans ?_ (ih (handleLine ch line))
      unfold handleLine
      cases cutAtBar (stripReturn line) with
      | none => exact List.prefix_refl _
      | some cut =>
          simp only
          split
          · exact List.prefix_refl _
          · split
            · exact List.prefix_append _ _
            · exact List.prefix_refl _

/- A payload is a part of its line. -/
theorem mem_of_cutAtBar
    {line signalType payload : List UInt8}
    {c : UInt8}
    (hCut : cutAtBar (stripReturn line) =
      some (signalType, payload))
    (hMem : c ∈ payload) :
    c ∈ line := by
  have hStripped : c ∈ stripReturn line := by
    unfold cutAtBar at hCut
    split at hCut
    · cases hCut
    next rest hRest =>
      have hTail : c ∈ (stripReturn line).dropWhile
          (fun c => c != bar) := by
        rw [hRest, (Prod.mk.inj (Option.some.inj hCut)).2]
        exact List.mem_cons_of_mem _ hMem
      exact List.dropWhile_subset _ hTail
  unfold stripReturn at hStripped
  split at hStripped
  · exact List.dropLast_subset _ hStripped
  · exact hStripped

theorem notMem_payload_of_lines
    {ch : SignalingChannel}
    {lines : List (List UInt8)}
    (hLines : ∀ line ∈ lines, lineFeed ∉ line)
    (hBefore : ∀ got ∈ ch.received,
      lineFeed ∉ got.payload) :
    ∀ got ∈ (lines.foldl handleLine ch).received,
      lineFeed ∉ got.payload := by
  induction lines generalizing ch with
  | nil => exact hBefore
  | cons line lines ih =>
      refine ih (fun other hMem =>
        hLines other (List.mem_cons_of_mem line hMem)) ?_
      intro got hGot
      unfold handleLine at hGot
      cases hCut : cutAtBar (stripReturn line) with
      | none =>
          rw [hCut] at hGot
          exact hBefore got hGot
      | some cut =>
          simp only [hCut] at hGot
          split at hGot
          · exact hBefore got hGot
          · split at hGot
            · rcases List.mem_append.mp hGot with hOld | hNew
              · exact hBefore got hOld
              · rw [List.mem_singleton.mp hNew]
                exact fun hMem =>
                  hLines line List.mem_cons_self
                    (mem_of_cutAtBar hCut hMem)
            · exact hBefore got hGot

end SignalingChannel

------------------------------------------------------------
-- Round Trips
------------------------------------------------------------

namespace LanSignaling

open SignalingChannel

/- A channel whose peer is known, with nothing read yet. -/
def established (peerId : List UInt8) : SignalingChannel :=
  ⟨peerId, [], []⟩

/- What the callback should be given. -/
def ofSignal
    (peerId : List UInt8)
    (signal : Signal) : ReceivedSignal :=
  ⟨peerId, typeText signal.signalType, signal.payload⟩

/-
  The calls that are made while an earlier write is under way
  belong to one burst.  The writes of a burst may overlap:
  nothing makes one wait for another.
-/
def Carries
    (bursts : List (List Signal))
    (stream : List UInt8) : Prop :=
  ∃ parts,
    List.Forall₂ (fun burst part =>
      Lines.Interleaved (burst.map sendSignaling) part)
      bursts parts ∧
    stream = parts.flatten

/- However the stream is put together and cut. -/
def RoundTrips
    (peerId : List UInt8)
    (bursts : List (List Signal)) : Prop :=
  ∀ chunks : List (List UInt8),
    Carries bursts chunks.flatten →
      (chunks.foldl doSignalingRead
        (established peerId)).received =
          bursts.flatten.map (ofSignal peerId)

/- Every write is done before the next call. -/
def Spaced (bursts : List (List Signal)) : Prop :=
  ∀ burst ∈ bursts, burst.length ≤ 1

/- The payload goes on a line and looks like no line end. -/
def FitsLine (signal : Signal) : Prop :=
  lineFeed ∉ signal.payload ∧
    signal.payload.getLast? ≠ some carriageReturn

theorem typeText_spec (signalType : SignalType) :
    bar ∉ typeText signalType ∧
      lineFeed ∉ typeText signalType ∧
      typeText signalType ≠ hello := by
  cases signalType <;> decide

/- No type is another with one byte in front. -/
theorem typeText_cons (first second : SignalType) :
    ∃ c rest, typeText first = c :: rest ∧
      bar ∉ c :: typeText second ∧
      lineFeed ∉ c :: typeText second ∧
      c :: typeText second ≠ hello ∧
      c :: typeText second ≠ typeText first := by
  cases first <;>
    exact ⟨_, _, rfl, by cases second <;> decide,
      by cases second <;> decide, by cases second <;> decide,
      by cases second <;> decide⟩

theorem carries_of_spaced
    {bursts : List (List Signal)}
    {stream : List UInt8}
    (hSpaced : Spaced bursts)
    (hStream : Carries bursts stream) :
    stream = bursts.flatten.flatMap sendSignaling := by
  rcases hStream with ⟨parts, hParts, rfl⟩
  induction hParts with
  | nil => rfl
  | @cons burst part bursts parts hPart _ ih =>
      have hAlone := Lines.Interleaved.eq_flatten_of_alone
        (by
          rw [List.length_map]
          exact hSpaced burst List.mem_cons_self)
        hPart
      rw [List.flatten_cons, List.flatten_cons,
        List.flatMap_append, hAlone,
        ih (fun other hMem =>
          hSpaced other (List.mem_cons_of_mem burst hMem)),
        ← List.flatMap_def]

/- The writes may always come in the order of the calls. -/
theorem carries_inOrder
    (bursts : List (List Signal)) :
    Carries bursts
      (bursts.flatten.flatMap sendSignaling) := by
  refine ⟨bursts.map (fun burst =>
    (burst.map sendSignaling).flatten), ?_, ?_⟩
  · induction bursts with
    | nil => exact List.Forall₂.nil
    | cons burst bursts ih =>
        exact List.Forall₂.cons
          (Lines.Interleaved.inOrder [] (by simp)
            (burst.map sendSignaling)) ih
  · induction bursts with
    | nil => rfl
    | cons burst bursts ih =>
        rw [List.flatten_cons, List.flatMap_append, ih,
          List.map_cons, List.flatten_cons,
          List.flatMap_def]

theorem Carries.append
    {first second : List (List Signal)}
    {stream later : List UInt8}
    (hFirst : Carries first stream)
    (hSecond : Carries second later) :
    Carries (first ++ second) (stream ++ later) := by
  rcases hFirst with ⟨parts, hParts, rfl⟩
  rcases hSecond with ⟨parts', hParts', rfl⟩
  exact ⟨parts ++ parts',
    List.rel_append hParts hParts', by simp⟩

theorem carries_singleton
    {burst : List Signal}
    {stream : List UInt8}
    (hStream : Lines.Interleaved (burst.map sendSignaling)
      stream) :
    Carries [burst] stream :=
  ⟨[stream], List.Forall₂.cons hStream List.Forall₂.nil,
    by simp⟩

/- One byte of a write can stand before the next write. -/
theorem exists_carries_overtaken
    (before : List (List Signal))
    {first second : Signal}
    (rest : List Signal)
    (after : List (List Signal))
    {c : UInt8}
    {tail : List UInt8}
    (hFirst : typeText first.signalType = c :: tail) :
    ∃ later,
      Carries (before ++ (first :: second :: rest) :: after)
        (before.flatten.flatMap sendSignaling ++
          (Lines.terminate lineFeed
            ((c :: typeText second.signalType) ++
              bar :: second.payload) ++ later)) := by
  have hSend : sendSignaling first =
      c :: Lines.terminate lineFeed
        (tail ++ bar :: first.payload) := by
    simp only [sendSignaling, signalLine, hFirst,
      Lines.terminate, List.cons_append]
  have hOvertake := Lines.Interleaved.overtake c
    (Lines.terminate lineFeed (tail ++ bar :: first.payload))
    (sendSignaling second) (rest.map sendSignaling)
  rw [← hSend, ← List.map_cons, ← List.map_cons] at hOvertake
  have hCarried := (carries_inOrder before).append
    ((carries_singleton hOvertake).append
      (carries_inOrder after))
  refine ⟨Lines.terminate lineFeed
    (tail ++ bar :: first.payload) ++
      (rest.map sendSignaling).flatten ++
        after.flatten.flatMap sendSignaling, ?_⟩
  simpa [sendSignaling, signalLine, Lines.terminate]
    using hCarried

------------------------------------------------------------
-- What Is Received
------------------------------------------------------------

section Receiving

variable
  {peerId : List UInt8}

theorem received_eq_foldl
    (chunks : List (List UInt8)) :
    (chunks.foldl doSignalingRead
        (established peerId)).received =
      ((Lines.scan lineFeed [] chunks.flatten).1.foldl
        handleLine (established peerId)).received := by
  rw [foldl_doSignalingRead]
  rfl

theorem notMem_payload_of_received
    (peerId : List UInt8)
    (chunks : List (List UInt8)) :
    ∀ got ∈ (chunks.foldl doSignalingRead
        (established peerId)).received,
      lineFeed ∉ got.payload := by
  rw [received_eq_foldl]
  apply notMem_payload_of_lines
  · intro line hLine
    exact Lines.notMem_of_mem_scan lineFeed
      List.not_mem_nil hLine
  · intro got hNone
    exact absurd hNone List.not_mem_nil

/- Lines that are whole give their signals. -/
theorem foldl_handleLine_signals
    (hPeer : peerId ≠ [])
    (got : List ReceivedSignal)
    (signals : List Signal) :
    (signals.map signalLine).foldl handleLine
        ⟨peerId, [], got⟩ =
      ⟨peerId, [], got ++ signals.map (fun signal =>
        ⟨peerId, typeText signal.signalType,
          stripReturn signal.payload⟩)⟩ := by
  induction signals generalizing got with
  | nil => simp
  | cons signal signals ih =>
      have hType := typeText_spec signal.signalType
      rw [List.map_cons, List.foldl_cons, signalLine,
        handleLine_append hPeer hType.1 hType.2.2, ih,
        List.append_assoc]
      rfl

theorem scan_sendSignaling
    {signals : List Signal}
    (hSignals : ∀ signal ∈ signals,
      lineFeed ∉ signal.payload)
    (input : List UInt8) :
    (Lines.scan lineFeed []
        (signals.flatMap sendSignaling ++ input)).1 =
      signals.map signalLine ++
        (Lines.scan lineFeed [] input).1 := by
  have hLines : ∀ line ∈ signals.map signalLine,
      lineFeed ∉ line := by
    intro line hLine
    rcases List.mem_map.mp hLine with ⟨signal, hSignal, rfl⟩
    simp only [signalLine, List.mem_append, List.mem_cons,
      not_or]
    exact ⟨(typeText_spec signal.signalType).2.1, by decide,
      hSignals signal hSignal⟩
  have hScan := Lines.scan_flatMap_terminate lineFeed hLines
    input
  rw [List.flatMap_map] at hScan
  exact congrArg Prod.fst hScan

/- The payloads come out, each without a return at its end. -/
theorem received_inOrder
    (hPeer : peerId ≠ [])
    {signals : List Signal}
    (hSignals : ∀ signal ∈ signals,
      lineFeed ∉ signal.payload)
    {chunks : List (List UInt8)}
    (hStream : chunks.flatten =
      signals.flatMap sendSignaling) :
    (chunks.foldl doSignalingRead
        (established peerId)).received =
      signals.map (fun signal =>
        ⟨peerId, typeText signal.signalType,
          stripReturn signal.payload⟩) := by
  have hScan := scan_sendSignaling hSignals []
  rw [List.append_nil] at hScan
  rw [received_eq_foldl, hStream, hScan, Lines.scan,
    List.append_nil, established,
    foldl_handleLine_signals hPeer]
  rfl

theorem stripReturn_eq_self_iff
    (payload : List UInt8) :
    stripReturn payload = payload ↔
      payload.getLast? ≠ some carriageReturn := by
  unfold stripReturn
  split
  next hReturn =>
    refine iff_of_false ?_ (fun hNot => hNot hReturn)
    intro hSame
    have hLength := congrArg List.length hSame
    rw [List.length_dropLast] at hLength
    have hNil : payload = [] :=
      List.length_eq_zero_iff.mp (by omega)
    rw [hNil] at hReturn
    cases hReturn
  next hOther => exact iff_of_true rfl hOther

/- A payload that does not fit is not what comes out. -/
theorem fitsLine_of_roundTrips
    (hPeer : peerId ≠ [])
    {bursts : List (List Signal)}
    (hTrips : RoundTrips peerId bursts) :
    ∀ signal ∈ bursts.flatten, FitsLine signal := by
  have hWhole := hTrips
    [bursts.flatten.flatMap sendSignaling] (by
      rw [List.flatten_singleton]
      exact carries_inOrder bursts)
  have hPlain : ∀ signal ∈ bursts.flatten,
      lineFeed ∉ signal.payload := by
    intro signal hSignal
    have hGot := notMem_payload_of_received peerId
      [bursts.flatten.flatMap sendSignaling]
    rw [hWhole] at hGot
    exact hGot (ofSignal peerId signal)
      (List.mem_map_of_mem hSignal)
  rw [received_inOrder hPeer hPlain (List.flatten_singleton)]
    at hWhole
  intro signal hSignal
  have hSame := List.map_inj_left.mp hWhole signal hSignal
  exact ⟨hPlain signal hSignal,
    (stripReturn_eq_self_iff _).mp
      (ReceivedSignal.mk.inj hSame).2.2⟩

/-
  A line that looks like a signal of no known type is given
  to the callback behind what came before.
-/
theorem received_of_strange_line
    (hPeer : peerId ≠ [])
    {before : List Signal}
    (hBefore : ∀ signal ∈ before, lineFeed ∉ signal.payload)
    {signalType payload : List UInt8}
    (hBar : bar ∉ signalType)
    (hHello : signalType ≠ hello)
    (hFeed : lineFeed ∉ signalType ++ bar :: payload)
    (input : List UInt8) :
    ∃ more,
      ([before.flatMap sendSignaling ++
          (Lines.terminate lineFeed
            (signalType ++ bar :: payload) ++ input)].foldl
        doSignalingRead (established peerId)).received =
      before.map (fun signal =>
          ⟨peerId, typeText signal.signalType,
            stripReturn signal.payload⟩) ++
        ⟨peerId, signalType, stripReturn payload⟩ ::
          more := by
  have hAfter := received_prefix
    ⟨peerId, [], before.map (fun signal =>
        ⟨peerId, typeText signal.signalType,
          stripReturn signal.payload⟩) ++
      [⟨peerId, signalType, stripReturn payload⟩]⟩
    (Lines.scan lineFeed [] input).1
  rcases hAfter with ⟨more, hMore⟩
  refine ⟨more, ?_⟩
  rw [received_eq_foldl, List.flatten_singleton,
    scan_sendSignaling hBefore,
    Lines.scan_terminate lineFeed hFeed,
    List.foldl_append, established,
    foldl_handleLine_signals hPeer, List.foldl_cons,
    handleLine_append hPeer hBar hHello]
  rw [List.append_assoc] at hMore
  exact hMore.symm

/-
  Of two writes under way the second may come behind the
  first byte of the first, and its type is another then.
-/
theorem spaced_of_roundTrips
    (hPeer : peerId ≠ [])
    {bursts : List (List Signal)}
    (hTrips : RoundTrips peerId bursts) :
    Spaced bursts := by
  have hFits := fitsLine_of_roundTrips hPeer hTrips
  intro burst hBurst
  rcases burst with _ | ⟨first, _ | ⟨second, rest⟩⟩
  · exact Nat.zero_le 1
  · exact Nat.le_refl 1
  rcases List.append_of_mem hBurst with
    ⟨before, after, rfl⟩
  rcases typeText_cons first.signalType second.signalType
    with ⟨c, tail, hFirst, hBar, hFeed, hHello, hOther⟩
  have hBefore : ∀ signal ∈ before.flatten,
      lineFeed ∉ signal.payload := by
    intro signal hSignal
    exact (hFits signal (by simp [hSignal])).1
  have hSecond : lineFeed ∉
      (c :: typeText second.signalType) ++
        bar :: second.payload := by
    simp only [List.mem_append, not_or]
    refine ⟨hFeed, ?_⟩
    rw [List.mem_cons, not_or]
    exact ⟨by decide, (hFits second (by simp)).1⟩
  rcases exists_carries_overtaken before rest after hFirst
    with ⟨later, hCarried⟩
  rcases received_of_strange_line hPeer hBefore hBar hHello
    hSecond later with ⟨more, hMore⟩
  have hGot := hTrips [_]
    (by rwa [List.flatten_singleton])
  rw [hMore, List.flatten_append, List.map_append] at hGot
  have hSame := (List.append_inj hGot (by
    rw [List.length_map, List.length_map])).2
  rw [List.flatten_cons, List.cons_append, List.map_cons]
    at hSame
  have hType := (ReceivedSignal.mk.inj
    (List.cons.inj hSame).1).2.1
  exact absurd hType hOther

end Receiving

/-
  The signals arrive as they were sent exactly when each call
  waits for the write before it and no payload has the end of
  a line in it or at its end.
-/
theorem roundTrips_iff
    {peerId : List UInt8}
    (hPeer : peerId ≠ [])
    (bursts : List (List Signal)) :
    RoundTrips peerId bursts ↔
      Spaced bursts ∧
        ∀ signal ∈ bursts.flatten, FitsLine signal := by
  constructor
  · intro hTrips
    exact ⟨spaced_of_roundTrips hPeer hTrips,
      fitsLine_of_roundTrips hPeer hTrips⟩
  · rintro ⟨hSpaced, hFits⟩ chunks hStream
    rw [received_inOrder hPeer
      (fun signal hSignal => (hFits signal hSignal).1)
      (carries_of_spaced hSpaced hStream)]
    apply List.map_congr_left
    intro signal hSignal
    rw [(stripReturn_eq_self_iff _).mpr
      (hFits signal hSignal).2]
    rfl

/- A candidate, and later the end of the candidates. -/
theorem roundTrips_candidate :
    RoundTrips (bytes "B")
      [[⟨.iceCandidate, bytes "a=candidate:1 1 UDP"⟩],
        [⟨.iceGatheringDone, []⟩]] := by
  refine (roundTrips_iff (by decide) _).mpr ⟨?_, ?_⟩
  · unfold Spaced
    decide
  · unfold FitsLine
    decide

/-
  Of a description of two lines the first one arrives, and of
  two writes at a time there may be nothing that was sent.
-/
theorem not_roundTrips_description :
    ¬ RoundTrips (bytes "B")
        [[⟨.sdpOffer, bytes "v=0\r\ns=-"⟩]] ∧
      ¬ RoundTrips (bytes "B")
        [[⟨.iceGatheringDone, []⟩,
          ⟨.iceGatheringDone, []⟩]] := by
  constructor
  · intro hTrips
    have hGot := hTrips
      [sendSignaling ⟨.sdpOffer, bytes "v=0\r\ns=-"⟩]
      (carries_inOrder
        [[⟨.sdpOffer, bytes "v=0\r\ns=-"⟩]])
    revert hGot
    decide
  · intro hTrips
    have hSpaced := spaced_of_roundTrips (by decide) hTrips
    revert hSpaced
    unfold Spaced
    decide

end LanSignaling

end VeritasSync
