import VeritasSync.Common.Json
import VeritasSync.Library.Framing

/-
  How the client of the tracker and the sessions of the
  tracker read frames: one keeps its buffer, the others
  empty it.

  Main declarations:
    * `TrackerClient.reader`, `TrackerClient.exact_iff_clean`
    * `Session.reader`, `Session.exact_frames`
-/

namespace VeritasSync

open Framing

/-
  The JSON library.  A parse that succeeds reads its stream
  to the end; one that fails leaves `unread` in it.
-/
structure JsonParser where
  parse : List UInt8 → Option Json
  unread : List UInt8 → List UInt8

namespace TrackerClient

def maxPacketSize : ℕ := 1024 * 1024

/- Parse the buffer, and what stays in it. -/
def parseBody
    (P : JsonParser)
    (buffer : List UInt8) : Option Json × List UInt8 :=
  match P.parse buffer with
  | some msg => (some msg, [])
  | none => (none, P.unread buffer)

/- The buffer is left alone before a header is read. -/
def reader (P : JsonParser) : Reader Json where
  limit := maxPacketSize
  reset := id
  accept := fun _ buffer => parseBody P buffer

/-
  The frames of all connections are dispatched exactly when
  no malformed or cut one leaves bytes before a later header.
-/
theorem exact_iff_clean
    (P : JsonParser)
    (connections : List Connection) :
    Exact (reader P) connections ↔
      Clean (reader P) connections :=
  exact_iff (fun _ => rfl)

/- A parser of `{}` that stops at the first other byte. -/
def sampleParser : JsonParser where
  parse := fun bytes =>
    if bytes = [123, 125] then some (.obj []) else none
  unread := fun bytes => bytes.drop 1

/- The frame of `x1`, and then the frame of `{}`. -/
def malformedFirst : Connection where
  bodies := [[120, 49], [123, 125]]
  cut := 12
  length_lt := by decide

theorem not_exact_malformedFirst :
    expected (reader sampleParser) malformedFirst.bodies
        malformedFirst.cut = [.obj []] ∧
      (readAll (reader sampleParser) []
        [malformedFirst.stream]).1.filterMap Seen.message =
          [] ∧
      ¬ Exact (reader sampleParser) [malformedFirst] := by
  refine ⟨rfl, rfl, ?_⟩
  intro hExact
  cases hExact.messages

end TrackerClient

namespace Session

/- The buffer is emptied before each header. -/
def reader
    (P : JsonParser)
    (maxMessageLength : ℕ) : Reader Json where
  limit := maxMessageLength
  reset := fun _ => []
  accept := fun length buffer =>
    (P.parse (buffer.take length), buffer.drop length)

/- What is malformed or cut harms no other frame. -/
theorem exact_frames
    (P : JsonParser)
    (maxMessageLength : ℕ)
    (connections : List Connection) :
    Exact (reader P maxMessageLength) connections :=
  exact_of_reset (fun _ => rfl)

end Session

end VeritasSync
