import Mathlib.Data.List.Basic
import Mathlib.Data.Nat.Notation
import Mathlib.Data.Set.Insert

/-
  A sequence that is cut into pieces of one size and put
  together again by writing each piece at an offset, in any
  order and any number of times.

  Main declarations:
    * `Reassembly.writeAt`, `Reassembly.piece`
    * `Reassembly.Holds`, `Reassembly.Holds.writeAt`,
      `Reassembly.Holds.overwrite`
    * `Reassembly.eq_of_holds`
    * `Reassembly.KeepsTail`,
      `Reassembly.eq_append_drop_of_holds`
    * `Reassembly.Spans`, `Reassembly.length_ne_of_spans`
-/

namespace Reassembly

variable {α : Type}

------------------------------------------------------------
-- Writing At An Offset
------------------------------------------------------------

/-
  Overwrite from an offset on.  A gap before the offset is
  filled, and writing nothing changes nothing.
-/
def writeAt
    (fill : α)
    (content : List α)
    (offset : ℕ)
    (bytes : List α) : List α :=
  if bytes.isEmpty then
    content
  else
    content.take offset ++
      List.replicate (offset - content.length) fill ++
      bytes ++ content.drop (offset + bytes.length)

@[simp] theorem writeAt_nil
    (fill : α)
    (content : List α)
    (offset : ℕ) :
    writeAt fill content offset [] = content := by
  simp [writeAt]

section Write

variable
  {fill : α}
  {content bytes : List α}
  {offset : ℕ}

theorem writeAt_of_ne_nil (hBytes : bytes ≠ []) :
    writeAt fill content offset bytes =
      content.take offset ++
        List.replicate (offset - content.length) fill ++
        bytes ++ content.drop (offset + bytes.length) := by
  rw [writeAt, if_neg (by simpa using hBytes)]

theorem length_writeAt (hBytes : bytes ≠ []) :
    (writeAt fill content offset bytes).length =
      max content.length (offset + bytes.length) := by
  rw [writeAt_of_ne_nil hBytes]
  simp only [List.length_append, List.length_take,
    List.length_replicate, List.length_drop]
  omega

/- The written bytes stand at the offset. -/
theorem getElem?_writeAt_inside
    {j : ℕ}
    (hInside : j < bytes.length) :
    (writeAt fill content offset bytes)[offset + j]? =
      bytes[j]? := by
  have hBytes : bytes ≠ [] := by
    rintro rfl
    simp at hInside
  rw [writeAt_of_ne_nil hBytes]
  have hBefore : (content.take offset ++
      List.replicate (offset - content.length) fill).length =
        offset := by
    simp only [List.length_append, List.length_take,
      List.length_replicate]
    omega
  rw [List.append_assoc, List.getElem?_append_right
    (by omega), hBefore, Nat.add_sub_cancel_left,
    List.getElem?_append_left hInside]

/- What was there outside the written range stays. -/
theorem getElem?_writeAt_outside
    {k : ℕ}
    (hOld : k < content.length)
    (hOutside : k < offset ∨ offset + bytes.length ≤ k) :
    (writeAt fill content offset bytes)[k]? =
      content[k]? := by
  by_cases hBytes : bytes = []
  · subst hBytes
    rw [writeAt_nil]
  rw [writeAt_of_ne_nil hBytes]
  rcases hOutside with hBefore | hAfter
  · rw [List.append_assoc, List.append_assoc,
      List.getElem?_append_left (by
        rw [List.length_take]
        omega),
      List.getElem?_take_of_lt hBefore]
  · have hLength : (content.take offset ++
        List.replicate (offset - content.length) fill ++
        bytes).length = offset + bytes.length := by
      simp only [List.length_append, List.length_take,
        List.length_replicate]
      omega
    rw [List.getElem?_append_right (by omega), hLength,
      List.getElem?_drop]
    congr 1
    omega

end Write

------------------------------------------------------------
-- Pieces
------------------------------------------------------------

/- The piece with the given number. -/
def piece
    (size : ℕ)
    (whole : List α)
    (i : ℕ) : List α :=
  (whole.drop (i * size)).take size

/- An empty sequence still has one piece. -/
def pieceCount (size length : ℕ) : ℕ :=
  if length > 0 then
    (length + size - 1) / size
  else
    1

section Pieces

variable
  {size : ℕ}
  {whole : List α}

theorem length_piece
    (size : ℕ)
    (whole : List α)
    (i : ℕ) :
    (piece size whole i).length =
      min size (whole.length - i * size) := by
  simp [piece]

theorem getElem?_piece
    {i j : ℕ}
    (hInside : j < size) :
    (piece size whole i)[j]? = whole[i * size + j]? := by
  rw [piece, List.getElem?_take_of_lt hInside,
    List.getElem?_drop]

/- A position is in the piece that its quotient numbers. -/
theorem div_lt_pieceCount
    (hSize : 0 < size)
    {k : ℕ}
    (hInside : k < whole.length) :
    k / size < pieceCount size whole.length := by
  rw [pieceCount, if_pos (by omega),
    Nat.div_lt_iff_lt_mul hSize]
  have hCeil := Nat.div_add_mod
    (whole.length + size - 1) size
  have hMod := Nat.mod_lt (whole.length + size - 1) hSize
  rw [Nat.mul_comm]
  omega

theorem pieceCount_pos
    (hSize : 0 < size)
    (length : ℕ) :
    0 < pieceCount size length := by
  unfold pieceCount
  split
  · apply Nat.div_pos _ hSize
    omega
  · exact Nat.one_pos

/- Every piece but the last is full. -/
theorem mul_lt_of_lt_pieceCount
    (hSize : 0 < size)
    (hWhole : 0 < whole.length)
    {i : ℕ}
    (hInside : i < pieceCount size whole.length) :
    i * size < whole.length := by
  rw [pieceCount, if_pos hWhole] at hInside
  have hCeil := Nat.div_mul_le_self
    (whole.length + size - 1) size
  have hNext := Nat.mul_le_mul_right size
    (Nat.succ_le_of_lt hInside)
  rw [Nat.succ_mul] at hNext
  omega

end Pieces

------------------------------------------------------------
-- Putting Pieces Together
------------------------------------------------------------

/- The content has the bytes of every block that arrived. -/
def Holds
    (size : ℕ)
    (blocks : ℕ → List α)
    (arrived : Set ℕ)
    (content : List α) : Prop :=
  ∀ i ∈ arrived, ∀ j < (blocks i).length,
    content[i * size + j]? = (blocks i)[j]?

section Assembly

variable
  {size : ℕ}
  {blocks : ℕ → List α}
  {whole content : List α}
  {arrived : Set ℕ}

theorem holds_empty
    (size : ℕ)
    (blocks : ℕ → List α)
    (content : List α) :
    Holds size blocks ∅ content := by
  intro i hArrived
  exact absurd hArrived (Set.notMem_empty i)

theorem Holds.mono
    {fewer : Set ℕ}
    (hHolds : Holds size blocks arrived content)
    (hFewer : fewer ⊆ arrived) :
    Holds size blocks fewer content := by
  intro i hArrived
  exact hHolds i (hFewer hArrived)

/- Only the blocks that arrived matter. -/
theorem Holds.congr
    {blocks' : ℕ → List α}
    (hHolds : Holds size blocks arrived content)
    (hSame : ∀ i ∈ arrived, blocks' i = blocks i) :
    Holds size blocks' arrived content := by
  intro i hArrived
  rw [hSame i hArrived]
  exact hHolds i hArrived

/-
  Writing at one place leaves the other places alone, when
  nothing is longer than the distance between two offsets.
-/
theorem getElem?_writeAt_apart
    {fill : α}
    {i k j : ℕ}
    {bytes : List α}
    (hOld : k * size + j < content.length)
    (hApart : k ≠ i)
    (hJ : j < size)
    (hBytes : bytes.length ≤ size) :
    (writeAt fill content (i * size) bytes)[k * size + j]? =
      content[k * size + j]? := by
  apply getElem?_writeAt_outside hOld
  rcases Nat.lt_or_gt_of_ne hApart with hLess | hMore
  · have hNext := Nat.mul_le_mul_right size
      (Nat.succ_le_of_lt hLess)
    rw [Nat.succ_mul] at hNext
    omega
  · have hNext := Nat.mul_le_mul_right size
      (Nat.succ_le_of_lt hMore)
    rw [Nat.succ_mul] at hNext
    omega

theorem Holds.lt_length
    (hHolds : Holds size blocks arrived content)
    {k j : ℕ}
    (hArrived : k ∈ arrived)
    (hJ : j < (blocks k).length) :
    k * size + j < content.length := by
  have hOld := hHolds k hArrived j hJ
  by_contra hMissing
  rw [List.getElem?_eq_none (by omega),
    List.getElem?_eq_getElem hJ] at hOld
  cases hOld

/- A new block joins the others. -/
theorem Holds.writeAt
    (hShort : ∀ i ∈ arrived, (blocks i).length ≤ size)
    (hHolds : Holds size blocks arrived content)
    (fill : α)
    {i : ℕ}
    (hBlock : (blocks i).length ≤ size) :
    Holds size blocks (insert i arrived)
      (writeAt fill content (i * size) (blocks i)) := by
  intro k hArrived j hJ
  by_cases hSame : k = i
  · subst hSame
    exact getElem?_writeAt_inside hJ
  · have hBefore : k ∈ arrived :=
      Set.mem_of_mem_insert_of_ne hArrived hSame
    have hLength := hShort k hBefore
    rw [← hHolds k hBefore j hJ]
    exact getElem?_writeAt_apart
      (hHolds.lt_length hBefore hJ) hSame (by omega) hBlock

/-
  Writing bytes over a block that arrived changes nothing
  that matters, when they are the first bytes of it.
-/
theorem Holds.overwrite
    (hShort : ∀ i ∈ arrived, (blocks i).length ≤ size)
    (hHolds : Holds size blocks arrived content)
    (fill : α)
    {i : ℕ}
    {bytes : List α}
    (hBytes : bytes.length ≤ size)
    (hSame : i ∈ arrived → bytes <+: blocks i) :
    Holds size blocks arrived
      (Reassembly.writeAt fill content (i * size) bytes) := by
  intro k hArrived j hJ
  have hLength := hShort k hArrived
  have hOld := hHolds.lt_length hArrived hJ
  by_cases hK : k = i
  · subst hK
    by_cases hInside : j < bytes.length
    · rw [getElem?_writeAt_inside hInside]
      rcases hSame hArrived with ⟨rest, hRest⟩
      rw [← hRest, List.getElem?_append_left hInside]
    · rw [← hHolds k hArrived j hJ]
      apply getElem?_writeAt_outside hOld
      omega
  · rw [← hHolds k hArrived j hJ]
    exact getElem?_writeAt_apart hOld hK (by omega) hBytes

/- Writing a piece in its place never writes past the end. -/
theorem length_writeAt_piece_le
    (hLength : content.length ≤ whole.length)
    (fill : α)
    (i : ℕ) :
    (writeAt fill content (i * size)
      (piece size whole i)).length ≤ whole.length := by
  by_cases hEmpty : piece size whole i = []
  · rw [hEmpty, writeAt_nil]
    exact hLength
  · have hPiece := length_piece size whole i
    have hPos := List.length_pos_iff.mpr hEmpty
    rw [length_writeAt hEmpty, hPiece]
    omega

/- Every byte of the whole is in some piece. -/
theorem getElem?_of_holds
    (hSize : 0 < size)
    (hHolds : Holds size (piece size whole) arrived content)
    (hAll : ∀ i < pieceCount size whole.length,
      i ∈ arrived)
    {k : ℕ}
    (hK : k < whole.length) :
    content[k]? = whole[k]? := by
  have hSplit := Nat.div_add_mod k size
  rw [Nat.mul_comm] at hSplit
  have hRest := Nat.mod_lt k hSize
  have hPiece := length_piece size whole (k / size)
  have hHere := hHolds (k / size)
    (hAll _ (div_lt_pieceCount hSize hK)) (k % size)
    (by omega)
  rwa [getElem?_piece hRest, hSplit] at hHere

/-
  Once every piece arrived, a content that is not too long
  is the whole.
-/
theorem eq_of_holds
    (hSize : 0 < size)
    (hLength : content.length ≤ whole.length)
    (hHolds : Holds size (piece size whole) arrived content)
    (hAll : ∀ i < pieceCount size whole.length,
      i ∈ arrived) :
    content = whole := by
  apply List.ext_getElem?
  intro k
  by_cases hK : k < whole.length
  · exact getElem?_of_holds hSize hHolds hAll hK
  · rw [List.getElem?_eq_none (by omega),
      List.getElem?_eq_none (by omega)]

------------------------------------------------------------
-- Pieces Written Over Something Else
------------------------------------------------------------

/- Past the end of the whole there is what was there. -/
def KeepsTail (whole old content : List α) : Prop :=
  ∀ k, whole.length ≤ k → content[k]? = old[k]?

/- No piece reaches past the end. -/
theorem KeepsTail.writeAt_piece
    {old : List α}
    (hTail : KeepsTail whole old content)
    (fill : α)
    (i : ℕ) :
    KeepsTail whole old
      (Reassembly.writeAt fill content (i * size)
        (piece size whole i)) := by
  intro k hPast
  by_cases hEmpty : piece size whole i = []
  · rw [hEmpty, writeAt_nil]
    exact hTail k hPast
  · have hPiece := length_piece size whole i
    have hPos := List.length_pos_iff.mpr hEmpty
    rw [← hTail k hPast]
    by_cases hOld : k < content.length
    · apply getElem?_writeAt_outside hOld
      omega
    · have hLength :=
        @length_writeAt _ fill content _ (i * size) hEmpty
      rw [List.getElem?_eq_none (by omega),
        List.getElem?_eq_none (by omega)]

/- The pieces cover what was there as far as they reach. -/
theorem eq_append_drop_of_holds
    {old : List α}
    (hSize : 0 < size)
    (hTail : KeepsTail whole old content)
    (hHolds : Holds size (piece size whole) arrived content)
    (hAll : ∀ i < pieceCount size whole.length,
      i ∈ arrived) :
    content = whole ++ old.drop whole.length := by
  apply List.ext_getElem?
  intro k
  by_cases hK : k < whole.length
  · rw [List.getElem?_append_left hK]
    exact getElem?_of_holds hSize hHolds hAll hK
  · rw [hTail k (by omega),
      List.getElem?_append_right (by omega),
      List.getElem?_drop, Nat.add_sub_of_le (by omega)]

end Assembly

------------------------------------------------------------
-- Pieces Written With Another Stride
------------------------------------------------------------

/-
  The content reaches exactly as far as the pieces that
  arrived, when piece `i` is written at `i * stride`.
-/
structure Spans
    (stride size : ℕ)
    (whole : List α)
    (arrived : Set ℕ)
    (content : List α) : Prop where
  covers : ∀ i ∈ arrived, piece size whole i ≠ [] →
    i * stride + (piece size whole i).length ≤
      content.length
  reaches : content.length = 0 ∨
    ∃ i ∈ arrived, content.length =
      i * stride + (piece size whole i).length

section Stride

variable
  {stride size : ℕ}
  {whole content : List α}
  {arrived : Set ℕ}

theorem spans_empty :
    Spans stride size whole ∅ [] where
  covers i hArrived := absurd hArrived (Set.notMem_empty i)
  reaches := Or.inl rfl

theorem Spans.writeAt
    (hSpans : Spans stride size whole arrived content)
    (fill : α)
    (i : ℕ) :
    Spans stride size whole (insert i arrived)
      (writeAt fill content (i * stride)
        (piece size whole i)) := by
  by_cases hEmpty : piece size whole i = []
  · rw [hEmpty, writeAt_nil]
    constructor
    · intro k hArrived hPiece
      rcases Set.mem_insert_iff.mp hArrived with rfl | hBefore
      · exact absurd hEmpty hPiece
      · exact hSpans.covers k hBefore hPiece
    · rcases hSpans.reaches with hZero | ⟨k, hBefore, hEnd⟩
      · exact Or.inl hZero
      · exact Or.inr
          ⟨k, Set.mem_insert_of_mem _ hBefore, hEnd⟩
  · constructor
    · intro k hArrived hPiece
      rw [length_writeAt hEmpty]
      rcases Set.mem_insert_iff.mp hArrived with rfl | hBefore
      · exact Nat.le_max_right _ _
      · exact Nat.le_trans (hSpans.covers k hBefore hPiece)
          (Nat.le_max_left _ _)
    · right
      rw [length_writeAt hEmpty]
      rcases Nat.le_total content.length
          (i * stride + (piece size whole i).length)
        with hShort | hLong
      · exact ⟨i, Set.mem_insert _ _,
          Nat.max_eq_right hShort⟩
      · rcases hSpans.reaches with hZero | ⟨k, hBefore, hEnd⟩
        · have hPos := List.length_pos_iff.mpr hEmpty
          omega
        · exact ⟨k, Set.mem_insert_of_mem _ hBefore,
            (Nat.max_eq_left hLong).trans hEnd⟩

/- A short whole is one piece. -/
theorem pieceCount_eq_one
    (hSize : 0 < size)
    (hShort : whole.length ≤ size) :
    pieceCount size whole.length = 1 := by
  unfold pieceCount
  split
  · rw [Nat.div_eq_iff hSize]
    omega
  · rfl

/-
  With another stride, more than one piece never makes a
  content of the right length.
-/
theorem length_ne_of_spans
    (hSize : 0 < size)
    (hStride : stride ≠ size)
    (hLong : size < whole.length)
    (hSpans : Spans stride size whole arrived content)
    (hAll : ∀ i < pieceCount size whole.length,
      i ∈ arrived)
    (hOnly : ∀ i ∈ arrived,
      i < pieceCount size whole.length) :
    content.length ≠ whole.length := by
  obtain ⟨last, hLast⟩ : ∃ last,
      last = (whole.length - 1) / size := ⟨_, rfl⟩
  have hLastBelow : last < pieceCount size whole.length := by
    rw [hLast]
    exact div_lt_pieceCount hSize (by omega)
  have hLastPos : 0 < last := by
    rw [hLast]
    exact Nat.div_pos (by omega) hSize
  have hStart := mul_lt_of_lt_pieceCount hSize (by omega)
    hLastBelow
  have hEnd : whole.length ≤ last * size + size := by
    have hDiv := Nat.div_add_mod (whole.length - 1) size
    have hMod := Nat.mod_lt (whole.length - 1) hSize
    rw [← hLast, Nat.mul_comm] at hDiv
    omega
  have hLastLength := length_piece size whole last
  rcases Nat.lt_or_gt_of_ne hStride with hLess | hMore
  · have hShift := Nat.mul_lt_mul_of_pos_left hLess hLastPos
    rcases hSpans.reaches with hZero | ⟨i, hArrived, hReach⟩
    · omega
    · have hPiece := length_piece size whole i
      have hSlower := Nat.mul_le_mul_left i
        (Nat.le_of_lt hLess)
      by_cases hSame : i = last
      · subst hSame
        omega
      · have hBelow : i < last := by
          have hCount := hOnly i hArrived
          by_contra hNot
          have hAfter : last + 1 ≤ i := by omega
          have hStartI := mul_lt_of_lt_pieceCount hSize
            (by omega) hCount
          have hNext := Nat.mul_le_mul_right size hAfter
          rw [Nat.succ_mul] at hNext
          omega
        have hNext := Nat.mul_le_mul_right size
          (Nat.succ_le_of_lt hBelow)
        rw [Nat.succ_mul] at hNext
        omega
  · have hShift := Nat.mul_lt_mul_of_pos_left hMore hLastPos
    have hPiece : piece size whole last ≠ [] := by
      rw [← List.length_pos_iff]
      omega
    have hCovers := hSpans.covers last
      (hAll last hLastBelow) hPiece
    omega

end Stride

end Reassembly
