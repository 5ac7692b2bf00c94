import Mathlib.Algebra.Group.Nat.Defs
import Mathlib.Data.List.Basic
import Mathlib.Data.List.Pairwise

/-
  Messages behind a length of four bytes, read from a stream
  into a buffer that outlives messages and streams.

  Main declarations:
    * `Framing.frame`, `Framing.Connection`
    * `Framing.Reader`, `Framing.readAll`
    * `Framing.exact_iff`, `Framing.exact_of_reset`
-/

namespace Framing

variable {μ : Type}

------------------------------------------------------------
-- Frames
------------------------------------------------------------

/- A length as four bytes, the highest one first. -/
def header (length : ℕ) : List UInt8 :=
  [UInt8.ofNat (length / 2 ^ 24), UInt8.ofNat (length / 2 ^ 16),
    UInt8.ofNat (length / 2 ^ 8), UInt8.ofNat length]

def headerLength (bytes : List UInt8) : ℕ :=
  bytes.foldl (fun length byte => length * 256 + byte.toNat) 0

theorem length_header (length : ℕ) :
    (header length).length = 4 := rfl

theorem headerLength_header
    {length : ℕ}
    (hLength : length < 2 ^ 32) :
    headerLength (header length) = length := by
  simp only [header, headerLength, List.foldl_cons,
    List.foldl_nil, UInt8.toNat_ofNat']
  omega

def frame (body : List UInt8) : List UInt8 :=
  header body.length ++ body

theorem length_frame (body : List UInt8) :
    (frame body).length = 4 + body.length := by
  rw [frame, List.length_append, length_header]

/-
  The frames that the other side sends on one connection,
  of which only the first `cut` bytes arrive.
-/
structure Connection where
  bodies : List (List UInt8)
  cut : ℕ
  length_lt : ∀ body ∈ bodies, body.length < 2 ^ 32

def received
    (bodies : List (List UInt8))
    (cut : ℕ) : List UInt8 :=
  (bodies.flatMap frame).take cut

def Connection.stream (c : Connection) : List UInt8 :=
  received c.bodies c.cut

------------------------------------------------------------
-- Readers
------------------------------------------------------------

/-
  A longer body than `limit` ends the connection.  `reset` is
  done to the buffer before a header is read into it.  Once a
  body of some length is in the buffer, `accept` gives the
  message and what stays in the buffer.
-/
structure Reader (μ : Type) where
  limit : ℕ
  reset : List UInt8 → List UInt8
  accept : ℕ → List UInt8 → Option μ × List UInt8

/- A header that was read: what was in the buffer before. -/
structure Seen (μ : Type) where
  stale : List UInt8
  message : Option μ

section Reading

variable
  (R : Reader μ)

/-
  Read one stream, with as much fuel as frames can begin in
  it.  The bytes of a part that is cut stay in the buffer.
-/
def readFrames :
    ℕ → List UInt8 → List UInt8 →
      List (Seen μ) × List UInt8
| 0, buffer, _ => ([], buffer)
| fuel + 1, buffer, stream =>
    let kept := R.reset buffer
    if stream.length < 4 then
      ([], kept ++ stream)
    else
      let filled := kept ++ stream.take 4
      let length := headerLength (filled.take 4)
      let rest := filled.drop 4
      let body := stream.drop 4
      if R.limit < length then
        ([⟨kept, none⟩], rest)
      else if body.length < length then
        ([⟨kept, none⟩], rest ++ body)
      else
        let got := R.accept length
          (rest ++ body.take length)
        let later := readFrames fuel got.2
          (body.drop length)
        (⟨kept, got.1⟩ :: later.1, later.2)

def readStream
    (buffer stream : List UInt8) :
    List (Seen μ) × List UInt8 :=
  readFrames R (stream.length + 1) buffer stream

/- Read one connection after the other. -/
def readAll :
    List UInt8 → List (List UInt8) →
      List (Seen μ) × List UInt8
| buffer, [] => ([], buffer)
| buffer, stream :: streams =>
    let first := readStream R buffer stream
    let later := readAll first.2 streams
    (first.1 ++ later.1, later.2)

/- The messages of the complete frames. -/
def expected :
    List (List UInt8) → ℕ → List μ
| [], _ => []
| body :: bodies, cut =>
    if 4 + body.length ≤ cut ∧ body.length ≤ R.limit then
      (R.accept body.length body).1.toList ++
        expected bodies (cut - (4 + body.length))
    else
      []

/-
  The complete frames give their messages, and no header is
  read behind bytes of something else.
-/
structure Exact (connections : List Connection) : Prop where
  messages :
    (readAll R [] (connections.map
      Connection.stream)).1.filterMap Seen.message =
      connections.flatMap
        (fun c => expected R c.bodies c.cut)
  fresh : ∀ seen ∈ (readAll R [] (connections.map
      Connection.stream)).1, seen.stale = []

end Reading

------------------------------------------------------------
-- What Stays In The Buffer
------------------------------------------------------------

section Leaving

variable
  (R : Reader μ)

/-
  What a connection leaves in an empty buffer.  The first
  body that leaves something is taken as the last frame.
-/
def leaves :
    List (List UInt8) → ℕ → List UInt8
| [], _ => []
| body :: bodies, cut =>
    if cut < 4 then
      (header body.length).take cut
    else if R.limit < body.length then
      []
    else if cut < 4 + body.length then
      body.take (cut - 4)
    else
      let left := (R.accept body.length body).2
      let cut := cut - (4 + body.length)
      if left = [] then
        leaves bodies cut
      else
        left ++ received bodies cut

/-
  A complete body leaves something in the buffer, and a
  header is read behind it.
-/
def Spoiled :
    List (List UInt8) → ℕ → Prop
| [], _ => False
| body :: bodies, cut =>
    4 + body.length ≤ cut ∧ body.length ≤ R.limit ∧
      let cut := cut - (4 + body.length)
      if (R.accept body.length body).2 = [] then
        Spoiled bodies cut
      else
        4 ≤ (received bodies cut).length

/-
  Nothing is left in the buffer where a header follows, on
  the same connection or on a later one.
-/
def Clean (connections : List Connection) : Prop :=
  (∀ c ∈ connections, ¬ Spoiled R c.bodies c.cut) ∧
    connections.Pairwise (fun c c' =>
      4 ≤ c'.stream.length → leaves R c.bodies c.cut = [])

end Leaving

------------------------------------------------------------
-- Reading One Stream
------------------------------------------------------------

section Streams

variable
  {R : Reader μ}
  {buffer stream body : List UInt8}
  {bodies : List (List UInt8)}
  {cut : ℕ}

/- More fuel than bytes is enough fuel. -/
theorem readFrames_of_lt
    {fuel fuel' : ℕ}
    (hFuel : stream.length < fuel)
    (hFuel' : stream.length < fuel') :
    readFrames R fuel buffer stream =
      readFrames R fuel' buffer stream := by
  induction fuel generalizing fuel' buffer stream with
  | zero => exact absurd hFuel (Nat.not_lt_zero _)
  | succ fuel ih =>
      cases fuel' with
      | zero => exact absurd hFuel' (Nat.not_lt_zero _)
      | succ fuel' =>
          unfold readFrames
          by_cases hShort : stream.length < 4
          · simp only [if_pos hShort]
          · have hLess : ∀ length bound,
                stream.length < bound + 1 →
                ((stream.drop 4).drop length).length <
                  bound := by
              intro length bound hBound
              rw [List.length_drop, List.length_drop]
              omega
            simp only [if_neg hShort]
            split
            · rfl
            · split
              · rfl
              · rw [ih (hLess _ _ hFuel) (hLess _ _ hFuel')]

/- Too few bytes for a header stay where they are. -/
theorem readStream_of_short
    (hShort : stream.length < 4) :
    readStream R buffer stream =
      ([], R.reset buffer ++ stream) := by
  unfold readStream readFrames
  exact if_pos hShort

/- With enough bytes a header is read, and maybe a body. -/
theorem readStream_of_long
    (hLong : 4 ≤ stream.length) :
    readStream R buffer stream =
      let kept := R.reset buffer
      let filled := kept ++ stream.take 4
      let length := headerLength (filled.take 4)
      let rest := filled.drop 4
      let body := stream.drop 4
      if R.limit < length then
        ([⟨kept, none⟩], rest)
      else if body.length < length then
        ([⟨kept, none⟩], rest ++ body)
      else
        let got := R.accept length
          (rest ++ body.take length)
        let later := readStream R got.2 (body.drop length)
        (⟨kept, got.1⟩ :: later.1, later.2) := by
  have hFuel : ∀ length,
      ((stream.drop 4).drop length).length <
        stream.length := by
    intro length
    rw [List.length_drop, List.length_drop]
    omega
  have hRead : readStream R buffer stream =
      readFrames R (stream.length + 1) buffer stream := rfl
  rw [hRead]
  unfold readFrames
  dsimp only
  rw [if_neg (Nat.not_lt.mpr hLong),
    readFrames_of_lt (hFuel _) (Nat.lt_succ_self _)]
  rfl

/- A header is read behind what is in the buffer. -/
theorem exists_stale_of_long
    (R : Reader μ)
    (buffer : List UInt8)
    (hLong : 4 ≤ stream.length) :
    ∃ seen ∈ (readStream R buffer stream).1,
      seen.stale = R.reset buffer := by
  rw [readStream_of_long hLong]
  dsimp only
  split
  · exact ⟨_, List.mem_cons_self, rfl⟩
  · split
    · exact ⟨_, List.mem_cons_self, rfl⟩
    · exact ⟨_, List.mem_cons_self, rfl⟩

theorem received_cons_of_le
    (body : List UInt8)
    (bodies : List (List UInt8))
    (hCut : 4 ≤ cut) :
    received (body :: bodies) cut =
      header body.length ++
        (body ++ bodies.flatMap frame).take (cut - 4) := by
  unfold received
  rw [List.flatMap_cons, frame, List.append_assoc,
    List.take_append, length_header]
  congr 1
  exact List.take_of_length_le hCut

/- What becomes of the first frame of a stream. -/
theorem readStream_cons
    (hFresh : R.reset buffer = [])
    (hLength : body.length < 2 ^ 32) :
    readStream R buffer (received (body :: bodies) cut) =
      if cut < 4 then
        ([], (header body.length).take cut)
      else if R.limit < body.length then
        ([⟨[], none⟩], [])
      else if cut < 4 + body.length then
        ([⟨[], none⟩], body.take (cut - 4))
      else
        let got := R.accept body.length body
        let later := readStream R got.2
          (received bodies (cut - (4 + body.length)))
        (⟨[], got.1⟩ :: later.1, later.2) := by
  by_cases hCut : cut < 4
  · have hHeader : received (body :: bodies) cut =
        (header body.length).take cut := by
      unfold received
      rw [List.flatMap_cons, frame, List.append_assoc]
      apply List.take_append_of_le_length
      rw [length_header]
      omega
    have hShort : (received (body :: bodies) cut).length <
        4 := by
      rw [hHeader, List.length_take, length_header]
      omega
    rw [readStream_of_short hShort, hFresh, if_pos hCut,
      hHeader, List.nil_append]
  · have hLong : 4 ≤ cut := Nat.not_lt.mp hCut
    have hBytes := received_cons_of_le body bodies hLong
    have hHead : (received (body :: bodies) cut).take 4 =
        header body.length := by
      rw [hBytes]
      exact List.take_left' (length_header _)
    have hTail : (received (body :: bodies) cut).drop 4 =
        (body ++ bodies.flatMap frame).take (cut - 4) := by
      rw [hBytes]
      exact List.drop_left' (length_header _)
    have hLength4 :
        4 ≤ (received (body :: bodies) cut).length := by
      rw [hBytes, List.length_append, length_header]
      omega
    rw [if_neg hCut, readStream_of_long hLength4]
    dsimp only
    rw [hFresh, hHead, hTail,
      List.nil_append, List.take_of_length_le
        (Nat.le_of_eq (length_header _)),
      List.drop_of_length_le
        (Nat.le_of_eq (length_header _)),
      headerLength_header hLength,
      List.nil_append]
    split
    · rfl
    · have hCutBody : ((body ++ bodies.flatMap frame).take
          (cut - 4)).length < body.length ↔
          cut < 4 + body.length := by
        rw [List.length_take, List.length_append]
        omega
      by_cases hPart : cut < 4 + body.length
      · rw [if_pos (hCutBody.mpr hPart), if_pos hPart,
          List.take_append_of_le_length (by omega)]
      · have hWhole : body.length ≤ cut - 4 := by omega
        have hRest : cut - 4 - body.length =
            cut - (4 + body.length) := by omega
        rw [if_neg (mt hCutBody.mp hPart), if_neg hPart,
          List.take_append, List.take_of_length_le hWhole,
          List.take_left, List.drop_left, hRest]
        rfl

theorem le_length_received
    (bodies : List (List UInt8))
    (hCut : 4 + body.length ≤ cut) :
    4 ≤ (received (body :: bodies) cut).length := by
  unfold received
  rw [List.flatMap_cons, List.length_take,
    List.length_append, length_frame]
  omega

/- Too few bytes for a header are no message. -/
theorem expected_of_short
    (hShort : (received bodies cut).length < 4) :
    expected R bodies cut = [] := by
  cases bodies with
  | nil => rfl
  | cons body bodies =>
      unfold expected
      rw [if_neg]
      rintro ⟨hCut, -⟩
      have hLong := le_length_received bodies hCut
      omega

theorem not_spoiled_of_short
    (hShort : (received bodies cut).length < 4) :
    ¬ Spoiled R bodies cut := by
  cases bodies with
  | nil => exact id
  | cons body bodies =>
      rintro ⟨hCut, -⟩
      have hLong := le_length_received bodies hCut
      omega

theorem filterMap_message_cons
    (seen : Seen μ)
    (later : List (Seen μ)) :
    (seen :: later).filterMap Seen.message =
      seen.message.toList ++
        later.filterMap Seen.message := by
  cases seen with
  | mk stale message => cases message <;> rfl

/- What a stream that is not spoiled is read as. -/
structure ReadWhole
    (R : Reader μ)
    (bodies : List (List UInt8))
    (cut : ℕ)
    (read : List (Seen μ) × List UInt8) : Prop where
  messages : read.1.filterMap Seen.message =
    expected R bodies cut
  fresh : ∀ seen ∈ read.1, seen.stale = []
  left : read.2 = leaves R bodies cut

theorem readWhole_of_not_spoiled
    (hKeep : ∀ buffer, R.reset buffer = buffer)
    (hLengths : ∀ body ∈ bodies, body.length < 2 ^ 32)
    (hNot : ¬ Spoiled R bodies cut) :
    ReadWhole R bodies cut
      (readStream R [] (received bodies cut)) := by
  induction bodies generalizing cut with
  | nil =>
      have hEmpty : received [] cut = [] := List.take_nil
      rw [hEmpty, readStream_of_short (by decide), hKeep]
      exact ⟨rfl, by simp, rfl⟩
  | cons body bodies ih =>
      rw [readStream_cons (hKeep [])
        (hLengths body List.mem_cons_self)]
      by_cases hCut : cut < 4
      · rw [if_pos hCut]
        refine ⟨?_, by simp, ?_⟩
        · unfold expected
          rw [if_neg (by omega)]
          rfl
        · unfold leaves
          rw [if_pos hCut]
      · rw [if_neg hCut]
        by_cases hLimit : R.limit < body.length
        · rw [if_pos hLimit]
          refine ⟨?_, by simp, ?_⟩
          · unfold expected
            rw [if_neg (by omega)]
            rfl
          · unfold leaves
            rw [if_neg hCut, if_pos hLimit]
        · rw [if_neg hLimit]
          by_cases hPart : cut < 4 + body.length
          · rw [if_pos hPart]
            refine ⟨?_, by simp, ?_⟩
            · unfold expected
              rw [if_neg (by omega)]
              rfl
            · unfold leaves
              rw [if_neg hCut, if_neg hLimit, if_pos hPart]
          · rw [if_neg hPart]
            dsimp only
            have hCutBody : 4 + body.length ≤ cut :=
              Nat.not_lt.mp hPart
            have hBody : body.length ≤ R.limit :=
              Nat.not_lt.mp hLimit
            by_cases hLeft :
                (R.accept body.length body).2 = []
            · have hRest := ih
                (fun body hIn => hLengths body
                  (List.mem_cons_of_mem _ hIn))
                (fun hSpoiled => hNot ⟨hCutBody, hBody, by
                  rw [if_pos hLeft]
                  exact hSpoiled⟩)
              rw [hLeft]
              refine ⟨?_, ?_, ?_⟩
              · unfold expected
                rw [if_pos ⟨hCutBody, hBody⟩,
                  ← hRest.messages, filterMap_message_cons]
              · intro seen hSeen
                rcases List.mem_cons.mp hSeen with
                  rfl | hLater
                · rfl
                · exact hRest.fresh seen hLater
              · unfold leaves
                rw [if_neg hCut, if_neg hLimit,
                  if_neg hPart, if_pos hLeft]
                exact hRest.left
            · have hShort : (received bodies
                  (cut - (4 + body.length))).length < 4 := by
                by_contra hLong
                exact hNot ⟨hCutBody, hBody, by
                  rw [if_neg hLeft]
                  exact Nat.not_lt.mp hLong⟩
              rw [readStream_of_short hShort, hKeep]
              refine ⟨?_, by simp, ?_⟩
              · unfold expected
                rw [if_pos ⟨hCutBody, hBody⟩,
                  expected_of_short hShort,
                  filterMap_message_cons, List.filterMap_nil]
              · unfold leaves
                rw [if_neg hCut, if_neg hLimit,
                  if_neg hPart, if_neg hLeft]

/- In a spoiled stream a header is read behind something. -/
theorem exists_stale_of_spoiled
    (hKeep : ∀ buffer, R.reset buffer = buffer)
    (hLengths : ∀ body ∈ bodies, body.length < 2 ^ 32)
    (hSpoiled : Spoiled R bodies cut) :
    ∃ seen ∈ (readStream R [] (received bodies cut)).1,
      seen.stale ≠ [] := by
  induction bodies generalizing cut with
  | nil => exact absurd hSpoiled id
  | cons body bodies ih =>
      rcases hSpoiled with ⟨hCut, hLimit, hRest⟩
      rw [readStream_cons (hKeep [])
        (hLengths body List.mem_cons_self),
        if_neg (by omega), if_neg (by omega),
        if_neg (by omega)]
      dsimp only at hRest ⊢
      by_cases hLeft : (R.accept body.length body).2 = []
      · rw [if_pos hLeft] at hRest
        rcases ih (fun body hIn => hLengths body
          (List.mem_cons_of_mem _ hIn)) hRest with
          ⟨seen, hSeen, hStale⟩
        rw [hLeft]
        exact ⟨seen, List.mem_cons_of_mem _ hSeen, hStale⟩
      · rw [if_neg hLeft] at hRest
        rcases exists_stale_of_long R
          (R.accept body.length body).2 hRest with
          ⟨seen, hSeen, hStale⟩
        refine ⟨seen, List.mem_cons_of_mem _ hSeen, ?_⟩
        rw [hStale, hKeep]
        exact hLeft

end Streams

------------------------------------------------------------
-- Reading All Streams
------------------------------------------------------------

section Connections

variable
  {R : Reader μ}
  {buffer : List UInt8}
  {streams : List (List UInt8)}
  {connections : List Connection}

/- Bytes that stay only do no harm before short streams. -/
theorem readAll_of_short
    (hShort : ∀ stream ∈ streams, stream.length < 4) :
    (readAll R buffer streams).1 = [] := by
  induction streams generalizing buffer with
  | nil => rfl
  | cons stream streams ih =>
      unfold readAll
      rw [readStream_of_short
        (hShort stream List.mem_cons_self)]
      exact ih (fun stream hIn =>
        hShort stream (List.mem_cons_of_mem _ hIn))

theorem short_of_fresh
    (hKeep : ∀ buffer, R.reset buffer = buffer)
    (hBuffer : buffer ≠ [])
    (hFresh : ∀ seen ∈ (readAll R buffer streams).1,
      seen.stale = []) :
    ∀ stream ∈ streams, stream.length < 4 := by
  induction streams generalizing buffer with
  | nil => simp
  | cons stream streams ih =>
      unfold readAll at hFresh
      dsimp only at hFresh
      have hShort : stream.length < 4 := by
        by_contra hLong
        rcases exists_stale_of_long R buffer
          (Nat.not_lt.mp hLong) with
          ⟨seen, hSeen, hStale⟩
        have hNone := hFresh seen
          (List.mem_append_left _ hSeen)
        rw [hStale, hKeep] at hNone
        exact hBuffer hNone
      rw [readStream_of_short hShort, List.nil_append,
        hKeep] at hFresh
      intro other hOther
      rcases List.mem_cons.mp hOther with rfl | hLater
      · exact hShort
      · exact ih (by simp [hBuffer]) hFresh other hLater

/- Short streams neither spoil anything nor are spoiled. -/
theorem clean_of_short
    (hShort : ∀ c ∈ connections, c.stream.length < 4) :
    Clean R connections := by
  constructor
  · exact fun c hIn => not_spoiled_of_short (hShort c hIn)
  · rw [List.pairwise_iff_forall_sublist]
    intro c c' hPair hLong
    have hIn := hPair.subset (List.mem_cons_of_mem _
      (List.mem_singleton_self c'))
    exact absurd (hShort c' hIn) (Nat.not_lt.mpr hLong)

/- The rest of the connections after a clean first one. -/
theorem clean_cons_iff
    {c : Connection}
    (hNot : ¬ Spoiled R c.bodies c.cut) :
    Clean R (c :: connections) ↔
      Clean R connections ∧
        (leaves R c.bodies c.cut ≠ [] →
          ∀ c' ∈ connections, c'.stream.length < 4) := by
  unfold Clean
  rw [List.forall_mem_cons, List.pairwise_cons,
    and_iff_right hNot]
  constructor
  · rintro ⟨hAll, hFirst, hPairs⟩
    refine ⟨⟨hAll, hPairs⟩, ?_⟩
    intro hLeaves c' hIn
    by_contra hLong
    exact hLeaves (hFirst c' hIn (Nat.not_lt.mp hLong))
  · rintro ⟨⟨hAll, hPairs⟩, hShort⟩
    refine ⟨hAll, ?_, hPairs⟩
    intro c' hIn hLong
    by_contra hLeaves
    exact absurd (hShort hLeaves c' hIn)
      (Nat.not_lt.mpr hLong)

/- What reading all of the connections comes to. -/
theorem readAll_cons
    (stream : List UInt8) :
    (readAll R buffer (stream :: streams)).1 =
      (readStream R buffer stream).1 ++
        (readAll R (readStream R buffer stream).2
          streams).1 := rfl

theorem fresh_iff_clean
    (hKeep : ∀ buffer, R.reset buffer = buffer) :
    (∀ seen ∈ (readAll R [] (connections.map
        Connection.stream)).1, seen.stale = []) ↔
      Clean R connections := by
  induction connections with
  | nil => simp [readAll, Clean]
  | cons c connections ih =>
      rw [List.map_cons, readAll_cons]
      by_cases hSpoiled : Spoiled R c.bodies c.cut
      · constructor
        · intro hFresh
          rcases exists_stale_of_spoiled hKeep c.length_lt
            hSpoiled with ⟨seen, hSeen, hStale⟩
          exact absurd (hFresh seen
            (List.mem_append_left _ hSeen)) hStale
        · intro hClean
          exact absurd hSpoiled
            (hClean.1 c List.mem_cons_self)
      · have hRead : ReadWhole R c.bodies c.cut
            (readStream R [] c.stream) :=
          readWhole_of_not_spoiled hKeep c.length_lt
            hSpoiled
        have hLeft : (readStream R [] c.stream).2 =
            leaves R c.bodies c.cut := hRead.left
        rw [clean_cons_iff hSpoiled, List.forall_mem_append,
          and_iff_right hRead.fresh, hLeft]
        by_cases hLeaves : leaves R c.bodies c.cut = []
        · rw [hLeaves, ih]
          simp
        · constructor
          · intro hFresh
            have hShort : ∀ c' ∈ connections,
                c'.stream.length < 4 := by
              intro c' hIn
              exact short_of_fresh hKeep hLeaves hFresh _
                (List.mem_map_of_mem hIn)
            exact ⟨clean_of_short hShort, fun _ => hShort⟩
          · rintro ⟨-, hShort⟩
            rw [readAll_of_short]
            · simp
            · rw [List.forall_mem_map]
              exact hShort hLeaves

theorem messages_of_clean
    (hKeep : ∀ buffer, R.reset buffer = buffer)
    (hClean : Clean R connections) :
    (readAll R [] (connections.map
        Connection.stream)).1.filterMap Seen.message =
      connections.flatMap
        (fun c => expected R c.bodies c.cut) := by
  induction connections with
  | nil => rfl
  | cons c connections ih =>
      have hNot := hClean.1 c List.mem_cons_self
      have hRead := readWhole_of_not_spoiled hKeep
        c.length_lt hNot
      have hLeft : (readStream R [] c.stream).2 =
          leaves R c.bodies c.cut := hRead.left
      have hFirst : (readStream R [] c.stream).1.filterMap
          Seen.message = expected R c.bodies c.cut :=
        hRead.messages
      rcases (clean_cons_iff hNot).mp hClean with
        ⟨hRest, hShort⟩
      rw [List.map_cons, readAll_cons, List.filterMap_append,
        List.flatMap_cons, hFirst, hLeft]
      congr 1
      by_cases hLeaves : leaves R c.bodies c.cut = []
      · rw [hLeaves]
        exact ih hRest
      · rw [readAll_of_short]
        · symm
          rw [List.filterMap_nil, List.flatMap_eq_nil_iff]
          exact fun c' hIn => expected_of_short
            (hShort hLeaves c' hIn)
        · rw [List.forall_mem_map]
          exact hShort hLeaves

/- A buffer that is kept is right as long as it is clean. -/
theorem exact_iff
    (hKeep : ∀ buffer, R.reset buffer = buffer) :
    Exact R connections ↔ Clean R connections := by
  constructor
  · exact fun hExact =>
      (fresh_iff_clean hKeep).mp hExact.fresh
  · exact fun hClean =>
      ⟨messages_of_clean hKeep hClean,
        (fresh_iff_clean hKeep).mpr hClean⟩

------------------------------------------------------------
-- A Buffer That Is Emptied
------------------------------------------------------------

theorem readStream_of_reset
    (hReset : ∀ buffer, R.reset buffer = [])
    {bodies : List (List UInt8)}
    (hLengths : ∀ body ∈ bodies, body.length < 2 ^ 32) :
    ∀ buffer cut,
      (readStream R buffer
          (received bodies cut)).1.filterMap Seen.message =
          expected R bodies cut ∧
        ∀ seen ∈ (readStream R buffer
          (received bodies cut)).1, seen.stale = [] := by
  induction bodies with
  | nil =>
      intro buffer cut
      have hEmpty : received [] cut = [] := List.take_nil
      rw [hEmpty, readStream_of_short (by decide)]
      exact ⟨rfl, by simp⟩
  | cons body bodies ih =>
      intro buffer cut
      rw [readStream_cons (hReset buffer)
        (hLengths body List.mem_cons_self)]
      by_cases hWhole : 4 + body.length ≤ cut ∧
          body.length ≤ R.limit
      · rw [if_neg (by omega), if_neg (by omega),
          if_neg (by omega)]
        have hRest := ih
          (fun body hIn => hLengths body
            (List.mem_cons_of_mem _ hIn))
          (R.accept body.length body).2
          (cut - (4 + body.length))
        unfold expected
        rw [if_pos hWhole, ← hRest.1]
        dsimp only
        refine ⟨filterMap_message_cons _ _, ?_⟩
        · intro seen hSeen
          rcases List.mem_cons.mp hSeen with rfl | hLater
          · rfl
          · exact hRest.2 seen hLater
      · unfold expected
        rw [if_neg hWhole]
        split
        · exact ⟨rfl, by simp⟩
        · split
          · exact ⟨rfl, by simp⟩
          · rw [if_pos (by omega)]
            exact ⟨rfl, by simp⟩

/- A buffer emptied before each header is always right. -/
theorem exact_of_reset
    (hReset : ∀ buffer, R.reset buffer = []) :
    Exact R connections := by
  have hAll : ∀ buffer,
      (readAll R buffer (connections.map
          Connection.stream)).1.filterMap Seen.message =
          connections.flatMap
            (fun c => expected R c.bodies c.cut) ∧
        ∀ seen ∈ (readAll R buffer (connections.map
          Connection.stream)).1, seen.stale = [] := by
    induction connections with
    | nil =>
        intro buffer
        exact ⟨rfl, by simp [readAll]⟩
    | cons c connections ih =>
        intro buffer
        have hFirst := readStream_of_reset hReset
          c.length_lt buffer c.cut
        have hRest := ih (readStream R buffer c.stream).2
        rw [List.map_cons, readAll_cons,
          List.filterMap_append, List.forall_mem_append,
          List.flatMap_cons, hRest.1]
        exact ⟨congrArg (· ++ _) hFirst.1, hFirst.2,
          hRest.2⟩
  exact ⟨(hAll []).1, (hAll []).2⟩

end Connections

end Framing
