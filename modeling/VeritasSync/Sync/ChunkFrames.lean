import VeritasSync.P2p.KcpSession

/-
  Chunks as bytes: how one is put together for the transport
  and taken apart again.

  The parser walks over its payload with an offset and the
  length that is left.  The model notes every range of bytes
  that it looks at.

  Main declarations:
    * `Snappy`, `WireHeader`
    * `TransferManager.chunkPayload`
    * `TransferManager.parseChunkPayload`
    * `TransferManager.parseChunkPayload_of_parts`,
      `TransferManager.rejected_or_parts`
    * `TransferManager.chunk_frames_safe`
-/

namespace VeritasSync

/-
  What the program relies on: a compressed block is read
  back, and it has at least the length that it begins with.
-/
structure Snappy where
  compress : Content → Content
  uncompress : Content → Option Content
  uncompress_compress : ∀ data,
    uncompress (compress data) = some data
  compress_ne_nil : ∀ data, compress data ≠ []

/- A chunk header whose path is a string of bytes. -/
structure WireHeader where
  filePath : List UInt8
  chunkIndex : ℕ
  totalChunks : ℕ
  uncompressedData : Content
  valid : Bool
deriving DecidableEq, Repr

namespace TransferManager

------------------------------------------------------------
-- Integers In Network Order
------------------------------------------------------------

/- A number of 16 bits, the high byte first. -/
def uint16Bytes (value : ℕ) : List UInt8 :=
  [UInt8.ofNat (value / 2 ^ 8), UInt8.ofNat value]

theorem headerLength_uint16Bytes
    {value : ℕ}
    (hLess : value < 2 ^ 16) :
    Framing.headerLength (uint16Bytes value) = value := by
  simp only [uint16Bytes, Framing.headerLength,
    List.foldl_cons, List.foldl_nil, UInt8.toNat_ofNat']
  omega

/- Two bytes are those of the number they make. -/
theorem uint16Bytes_headerLength
    {bytes : List UInt8}
    (hLength : bytes.length = 2) :
    uint16Bytes (Framing.headerLength bytes) = bytes := by
  rcases List.length_eq_two.mp hLength with ⟨a, b, rfl⟩
  have hA := a.toNat_lt
  have hB := b.toNat_lt
  simp only [uint16Bytes, Framing.headerLength,
    List.foldl_cons, List.foldl_nil, List.cons.injEq,
    and_true, ← UInt8.toNat_inj, UInt8.toNat_ofNat']
  omega

theorem header_headerLength
    {bytes : List UInt8}
    (hLength : bytes.length = 4) :
    Framing.header (Framing.headerLength bytes) = bytes := by
  rcases bytes with _ | ⟨a, _ | ⟨b, _ | ⟨c, _ | ⟨d, _ | _⟩⟩⟩⟩
  all_goals simp at hLength
  have hA := a.toNat_lt
  have hB := b.toNat_lt
  have hC := c.toNat_lt
  have hD := d.toNat_lt
  simp only [Framing.header, Framing.headerLength,
    List.foldl_cons, List.foldl_nil, List.cons.injEq,
    and_true, ← UInt8.toNat_inj, UInt8.toNat_ofNat']
  omega

/- Where the parser is, and the ranges it has looked at. -/
structure Cursor where
  data : ℕ
  len : ℕ
  reads : List (ℕ × ℕ)

/- The bytes at the cursor. -/
def Cursor.peek
    (payload : List UInt8)
    (count : ℕ)
    (c : Cursor) : List UInt8 :=
  (payload.drop c.data).take count

def Cursor.advance
    (count : ℕ)
    (c : Cursor) : Cursor where
  data := c.data + count
  len := c.len - count
  reads := c.reads ++ [(c.data, count)]

/-
  `read_uint16` and `read_uint32`.  Nothing is read when too
  little is left.
-/
def Cursor.readUint
    (size : ℕ)
    (payload : List UInt8)
    (c : Cursor) : ℕ × Cursor :=
  if c.len < size then
    (0, c)
  else
    (Framing.headerLength (c.peek payload size),
      c.advance size)

def Cursor.readUint16
    (payload : List UInt8)
    (c : Cursor) : ℕ × Cursor :=
  c.readUint 2 payload

def Cursor.readUint32
    (payload : List UInt8)
    (c : Cursor) : ℕ × Cursor :=
  c.readUint 4 payload

/-
  The cursor stands between what was parsed and the rest,
  and nothing outside the payload was looked at.
-/
structure Cursor.At
    (payload before rest : List UInt8)
    (c : Cursor) : Prop where
  split : payload = before ++ rest
  data : c.data = before.length
  len : c.len = rest.length
  reads : ∀ read ∈ c.reads,
    read.1 + read.2 ≤ payload.length

namespace Cursor

variable
  {payload before bytes rest : List UInt8}
  {c : Cursor}

theorem at_start (payload : List UInt8) :
    (⟨0, payload.length, []⟩ : Cursor).At payload []
      payload where
  split := rfl
  data := rfl
  len := rfl
  reads := by simp

theorem At.congr
    {rest' : List UInt8}
    (hSame : rest = rest')
    (hAt : c.At payload before rest) :
    c.At payload before rest' := by
  subst hSame
  exact hAt

theorem At.peek
    (hAt : c.At payload before (bytes ++ rest)) :
    c.peek payload bytes.length = bytes := by
  rw [Cursor.peek, hAt.data, hAt.split, List.drop_left,
    List.take_left]

theorem At.advance
    (hAt : c.At payload before (bytes ++ rest)) :
    (c.advance bytes.length).At payload (before ++ bytes)
      rest where
  split := by rw [hAt.split, List.append_assoc]
  data := by
    rw [Cursor.advance, hAt.data, List.length_append]
  len := by
    simp [Cursor.advance, hAt.len]
  reads := by
    intro read hMem
    rcases List.mem_append.mp hMem with hOld | hNew
    · exact hAt.reads read hOld
    · rw [List.mem_singleton.mp hNew, hAt.data, hAt.split]
      simp

theorem At.readUint
    {size : ℕ}
    (hSize : bytes.length = size)
    (hAt : c.At payload before (bytes ++ rest)) :
    c.readUint size payload =
      (Framing.headerLength bytes, c.advance size) := by
  have hEnough : ¬ c.len < size := by
    rw [hAt.len, List.length_append]
    omega
  rw [Cursor.readUint, if_neg hEnough, ← hSize, hAt.peek]

/- Where as much is left, the rest begins with it. -/
theorem At.take
    {count : ℕ}
    (hEnough : count ≤ c.len)
    (hAt : c.At payload before rest) :
    (rest.take count).length = count ∧
      c.At payload before
        (rest.take count ++ rest.drop count) := by
  rw [List.take_append_drop]
  refine ⟨?_, hAt⟩
  rw [hAt.len] at hEnough
  exact List.length_take_of_le hEnough

end Cursor

------------------------------------------------------------
-- Frames
------------------------------------------------------------

section Frames

variable
  (S : Snappy)

/- What `send_one_chunk` puts behind the type byte. -/
def chunkPayload (hdr : WireHeader) : List UInt8 :=
  uint16Bytes hdr.filePath.length ++ hdr.filePath ++
    Framing.header hdr.chunkIndex ++
      Framing.header hdr.totalChunks ++
        S.compress hdr.uncompressedData

def chunkPacket (hdr : WireHeader) : List UInt8 :=
  Outgoing.msgTypeBinaryChunk :: chunkPayload S hdr

/- A header with nothing read yet. -/
def noHeader : WireHeader where
  filePath := []
  chunkIndex := 0
  totalChunks := 0
  uncompressedData := []
  valid := false

/- A block that cannot be read leaves the header invalid. -/
def unpackData
    (hdr : WireHeader)
    (data : List UInt8) : WireHeader :=
  match S.uncompress data with
  | none => hdr
  | some data =>
      { hdr with uncompressedData := data, valid := true }

/- The header, and the ranges that were looked at. -/
def parseChunkPayload
    (payload : List UInt8) :
    WireHeader × List (ℕ × ℕ) :=
  let c : Cursor := ⟨0, payload.length, []⟩
  let pathLen := (c.readUint16 payload).1
  let c := (c.readUint16 payload).2
  if pathLen = 0 ∨ c.len < pathLen then
    (noHeader, c.reads)
  else
    let hdr := { noHeader with
      filePath := c.peek payload pathLen }
    let c := c.advance pathLen
    if c.len < 8 then
      (hdr, c.reads)
    else
      let hdr := { hdr with
        chunkIndex := (c.readUint32 payload).1 }
      let c := (c.readUint32 payload).2
      let hdr := { hdr with
        totalChunks := (c.readUint32 payload).1 }
      let c := (c.readUint32 payload).2
      if c.len > 0 then
        (unpackData S hdr (c.peek payload c.len),
          (c.advance c.len).reads)
      else
        ({ hdr with valid := true }, c.reads)

/- It is the packet that the transport is given. -/
theorem binaryPacket_eq_chunkPacket (hdr : ChunkHeader) :
    Outgoing.binaryPacket S.compress hdr =
      chunkPacket S
        { filePath := hdr.filePath.toUTF8.data.toList
          chunkIndex := hdr.chunkIndex
          totalChunks := hdr.totalChunks
          uncompressedData := hdr.uncompressedData
          valid := hdr.valid } := by
  simp [Outgoing.binaryPacket, chunkPacket, chunkPayload,
    uint16Bytes]

section Parsing

variable
  {payload before lengthBytes path indexBytes totalBytes
    data : List UInt8}

/-
  A payload with all its parts.  Each read moves the cursor
  from one part to the next.
-/
theorem parseChunkPayload_of_parts
    (hPayload : payload = lengthBytes ++ (path ++
      (indexBytes ++ (totalBytes ++ data))))
    (hLength : lengthBytes.length = 2)
    (hPath : path.length = Framing.headerLength lengthBytes)
    (hSome : path ≠ [])
    (hIndex : indexBytes.length = 4)
    (hTotal : totalBytes.length = 4) :
    let hdr : WireHeader :=
      { filePath := path
        chunkIndex := Framing.headerLength indexBytes
        totalChunks := Framing.headerLength totalBytes
        uncompressedData := []
        valid := false }
    (parseChunkPayload S payload).1 =
        (if data.length > 0 then
          unpackData S hdr data
        else
          { hdr with valid := true }) ∧
      ∀ read ∈ (parseChunkPayload S payload).2,
        read.1 + read.2 ≤ payload.length := by
  have hAt₀ := (Cursor.at_start payload).congr hPayload
  have hRead₀ := hAt₀.readUint hLength
  have hAt₁ := hAt₀.advance
  rw [hLength] at hAt₁
  have hPeek₁ := hAt₁.peek
  have hAt₂ := hAt₁.advance
  have hRead₂ := hAt₂.readUint hIndex
  have hAt₃ := hAt₂.advance
  rw [hIndex] at hAt₃
  have hRead₃ := hAt₃.readUint hTotal
  have hAt₄ := hAt₃.advance
  rw [hTotal] at hAt₄
  have hGo₁ : ¬ (path.length = 0 ∨
      (Cursor.advance 2 ⟨0, payload.length, []⟩).len <
        path.length) := by
    rw [hAt₁.len, List.length_append, List.length_eq_zero_iff]
    rintro (hNone | hShort)
    · exact hSome hNone
    · omega
  have hGo₂ : ¬ (Cursor.advance path.length
      (Cursor.advance 2 ⟨0, payload.length, []⟩)).len <
        8 := by
    rw [hAt₂.len]
    simp only [List.length_append]
    omega
  unfold parseChunkPayload
  simp only [Cursor.readUint16, Cursor.readUint32, hRead₀,
    ← hPath, hPeek₁, hRead₂, hRead₃, if_neg hGo₁,
    if_neg hGo₂, hAt₄.len]
  have hData := hAt₄.congr (List.append_nil data).symm
  have hPeek₄ := hData.peek
  by_cases hMore : data.length > 0
  · rw [if_pos hMore, if_pos hMore, hPeek₄]
    exact ⟨rfl, hData.advance.reads⟩
  · rw [if_neg hMore, if_neg hMore]
    exact ⟨rfl, hAt₄.reads⟩

/- A payload that lacks a part is rejected. -/
theorem rejected_or_parts (payload : List UInt8) :
    ((parseChunkPayload S payload).1.valid = false ∧
        ∀ read ∈ (parseChunkPayload S payload).2,
          read.1 + read.2 ≤ payload.length) ∨
      ∃ lengthBytes path indexBytes totalBytes data,
        payload = lengthBytes ++ (path ++ (indexBytes ++
            (totalBytes ++ data))) ∧
          lengthBytes.length = 2 ∧
          path.length = Framing.headerLength lengthBytes ∧
          path ≠ [] ∧ indexBytes.length = 4 ∧
          totalBytes.length = 4 := by
  have hAt₀ := Cursor.at_start payload
  by_cases hShort : payload.length < 2
  · refine Or.inl ?_
    unfold parseChunkPayload
    simp [Cursor.readUint16, Cursor.readUint, hShort,
      noHeader]
  have hEnough : 2 ≤ (⟨0, payload.length, []⟩ :
      Cursor).len := Nat.not_lt.mp hShort
  rcases hAt₀.take hEnough with ⟨hLength, hAt₀⟩
  generalize payload.take 2 = lengthBytes at hLength hAt₀
  generalize payload.drop 2 = rest at hAt₀
  have hRead₀ := hAt₀.readUint hLength
  have hAt₁ := hAt₀.advance
  rw [hLength] at hAt₁
  by_cases hStop₁ : Framing.headerLength lengthBytes = 0 ∨
      (Cursor.advance 2 ⟨0, payload.length, []⟩).len <
        Framing.headerLength lengthBytes
  · refine Or.inl ?_
    unfold parseChunkPayload
    simp only [Cursor.readUint16, hRead₀, if_pos hStop₁]
    exact ⟨rfl, hAt₁.reads⟩
  rw [not_or, Nat.not_lt] at hStop₁
  rcases hAt₁.take hStop₁.2 with ⟨hPath, hAt₁⟩
  generalize rest.take (Framing.headerLength lengthBytes) =
    path at hPath hAt₁
  generalize rest.drop (Framing.headerLength lengthBytes) =
    rest at hAt₁
  have hAt₂ := hAt₁.advance
  rw [hPath] at hAt₂
  by_cases hStop₂ : (Cursor.advance
      (Framing.headerLength lengthBytes)
      (Cursor.advance 2 ⟨0, payload.length, []⟩)).len < 8
  · refine Or.inl ?_
    have hGo₁ : ¬ (Framing.headerLength lengthBytes = 0 ∨
        (Cursor.advance 2 ⟨0, payload.length, []⟩).len <
          Framing.headerLength lengthBytes) := by
      rw [not_or, Nat.not_lt]
      exact hStop₁
    unfold parseChunkPayload
    simp only [Cursor.readUint16, hRead₀, if_neg hGo₁,
      if_pos hStop₂]
    exact ⟨rfl, hAt₂.reads⟩
  · refine Or.inr ⟨lengthBytes, path, rest.take 4,
      (rest.drop 4).take 4, (rest.drop 4).drop 4, ?_,
      hLength, hPath, ?_, ?_, ?_⟩
    · rw [List.take_append_drop, List.take_append_drop]
      have hSplit := hAt₂.split
      simpa using hSplit
    · rintro rfl
      exact hStop₁.1 hPath.symm
    · rw [hAt₂.len] at hStop₂
      rw [List.length_take]
      omega
    · rw [hAt₂.len] at hStop₂
      rw [List.length_take, List.length_drop]
      omega

end Parsing

/- A frame is taken apart as it was put together. -/
theorem parseChunkPayload_chunkPayload
    {hdr : WireHeader}
    (hPath : 1 ≤ hdr.filePath.length ∧
      hdr.filePath.length ≤ 65535)
    (hIndex : hdr.chunkIndex < 2 ^ 32)
    (hTotal : hdr.totalChunks < 2 ^ 32) :
    (parseChunkPayload S (chunkPayload S hdr)).1 =
      { hdr with valid := true } := by
  have hLength := headerLength_uint16Bytes
    (show hdr.filePath.length < 2 ^ 16 by omega)
  have hSome : hdr.filePath ≠ [] := by
    intro hNone
    rw [hNone] at hPath
    exact absurd hPath.1 (by decide)
  have hParts := (parseChunkPayload_of_parts S
    (show chunkPayload S hdr =
      uint16Bytes hdr.filePath.length ++ (hdr.filePath ++
        (Framing.header hdr.chunkIndex ++
          (Framing.header hdr.totalChunks ++
            S.compress hdr.uncompressedData))) by
      simp [chunkPayload])
    rfl hLength.symm hSome rfl rfl).1
  have hData : (S.compress hdr.uncompressedData).length >
      0 :=
    List.length_pos_of_ne_nil (S.compress_ne_nil _)
  rw [hParts, if_pos hData, unpackData,
    S.uncompress_compress, Framing.headerLength_header hIndex,
    Framing.headerLength_header hTotal]

/- What an accepted payload consists of. -/
theorem payload_of_valid
    {payload : List UInt8}
    (hValid : (parseChunkPayload S payload).1.valid =
      true) :
    let hdr := (parseChunkPayload S payload).1
    ∃ data,
      payload = uint16Bytes hdr.filePath.length ++
          (hdr.filePath ++ (Framing.header hdr.chunkIndex ++
            (Framing.header hdr.totalChunks ++ data))) ∧
        hdr.filePath ≠ [] ∧
        (data = [] ∧ hdr.uncompressedData = [] ∨
          S.uncompress data =
            some hdr.uncompressedData) := by
  rcases rejected_or_parts S payload with
    ⟨hInvalid, -⟩ |
    ⟨lengthBytes, path, indexBytes, totalBytes, data,
      hPayload, hLength, hPath, hSome, hIndex, hTotal⟩
  · rw [hInvalid] at hValid
    cases hValid
  · have hParts := (parseChunkPayload_of_parts S hPayload
      hLength hPath hSome hIndex hTotal).1
    refine ⟨data, ?_⟩
    by_cases hMore : data.length > 0
    · rw [if_pos hMore] at hParts
      unfold unpackData at hParts
      cases hData : S.uncompress data with
      | none =>
          rw [hData] at hParts
          rw [hParts] at hValid
          cases hValid
      | some plain =>
          rw [hData] at hParts
          rw [hParts]
          refine ⟨?_, hSome, Or.inr rfl⟩
          simp only
          rw [hPath, uint16Bytes_headerLength hLength,
            header_headerLength hIndex,
            header_headerLength hTotal]
          exact hPayload
    · rw [if_neg hMore] at hParts
      have hNone : data = [] := by
        rw [← List.length_eq_zero_iff]
        omega
      rw [hParts]
      refine ⟨?_, hSome, Or.inl ⟨hNone, rfl⟩⟩
      simp only
      rw [hPath, uint16Bytes_headerLength hLength,
        header_headerLength hIndex,
        header_headerLength hTotal]
      exact hPayload

/-
  What is sent is read back, and nothing outside a payload
  is looked at, whatever its bytes are.
-/
theorem chunk_frames_safe :
    (∀ hdr : WireHeader,
      1 ≤ hdr.filePath.length →
        hdr.filePath.length ≤ 65535 →
          hdr.chunkIndex < 2 ^ 32 →
            hdr.totalChunks < 2 ^ 32 →
              (parseChunkPayload S
                (chunkPacket S hdr).tail).1 =
                  { hdr with valid := true }) ∧
      ∀ payload,
        let parsed := parseChunkPayload S payload
        (∀ read ∈ parsed.2,
            read.1 + read.2 ≤ payload.length) ∧
          (parsed.1.valid = false ∨
            ∃ data,
              payload =
                  uint16Bytes parsed.1.filePath.length ++
                    (parsed.1.filePath ++
                      (Framing.header parsed.1.chunkIndex ++
                        (Framing.header
                          parsed.1.totalChunks ++ data))) ∧
                parsed.1.filePath ≠ [] ∧
                (data = [] ∧
                    parsed.1.uncompressedData = [] ∨
                  S.uncompress data =
                    some parsed.1.uncompressedData)) := by
  constructor
  · intro hdr hSome hLong hIndex hTotal
    exact parseChunkPayload_chunkPayload S ⟨hSome, hLong⟩
      hIndex hTotal
  · intro payload
    refine ⟨?_, ?_⟩
    · rcases rejected_or_parts S payload with
        ⟨-, hReads⟩ |
        ⟨lengthBytes, path, indexBytes, totalBytes, data,
          hPayload, hLength, hPath, hSome, hIndex, hTotal⟩
      · exact hReads
      · exact (parseChunkPayload_of_parts S hPayload hLength
          hPath hSome hIndex hTotal).2
    · cases hValid :
        (parseChunkPayload S payload).1.valid with
      | false => exact Or.inl rfl
      | true => exact Or.inr (payload_of_valid S hValid)

end Frames

/- Short blocks as Snappy writes them: one literal. -/
def sampleSnappy : Snappy where
  compress
  | [] => [0]
  | data =>
      UInt8.ofNat data.length ::
        UInt8.ofNat ((data.length - 1) * 4) :: data
  uncompress
  | _ :: _ :: data => some data
  | [0] => some []
  | _ => none
  uncompress_compress := by
    intro data
    cases data <;> rfl
  compress_ne_nil := by
    intro data
    cases data <;> simp

theorem chunk_frames_safe_one_byte :
    (parseChunkPayload sampleSnappy
        (chunkPacket sampleSnappy
          ⟨[97, 46, 116], 1, 2, [98], true⟩).tail).1 =
      ⟨[97, 46, 116], 1, 2, [98], true⟩ :=
  (chunk_frames_safe sampleSnappy).1
    ⟨[97, 46, 116], 1, 2, [98], true⟩ (by decide)
    (by decide) (by decide) (by decide)

end TransferManager

end VeritasSync
