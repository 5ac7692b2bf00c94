import Mathlib.Data.Nat.Notation
import Mathlib.Data.List.Count
import Mathlib.Data.Set.Insert

/-
  Lists of bits that mark which of finitely many things have
  happened, with the count of the marks.

  Main declarations:
    * `Bitmap.marked`
    * `Bitmap.marked_set`, `Bitmap.count_set`
    * `Bitmap.forall_marked_iff`
    * `Bitmap.pack`, `Bitmap.unpack`, `Bitmap.unpack_pack`
    * `Bitmap.unpack?`, `Bitmap.unpack?_pack`
-/

namespace Bitmap

/- The positions whose bit is set. -/
def marked (bits : List Bool) : Set ℕ :=
  {i | bits.getD i false = true}

section Marks

variable
  {bits : List Bool}
  {i : ℕ}

theorem mem_marked_iff :
    i ∈ marked bits ↔ bits[i]? = some true := by
  change bits.getD i false = true ↔ _
  rw [List.getD_eq_getElem?_getD]
  cases bits[i]? with
  | none => simp
  | some bit => simp

theorem lt_length_of_mem_marked (hMark : i ∈ marked bits) :
    i < bits.length :=
  (List.getElem?_eq_some_iff.mp
    (mem_marked_iff.mp hMark)).choose

theorem notMem_marked_iff (hInside : i < bits.length) :
    i ∉ marked bits ↔ bits[i]? = some false := by
  rw [mem_marked_iff, List.getElem?_eq_getElem hInside]
  simp

@[simp] theorem marked_replicate (size : ℕ) :
    marked (List.replicate size false) = ∅ := by
  ext i
  rw [mem_marked_iff, List.getElem?_replicate]
  simp

theorem marked_set (hInside : i < bits.length) :
    marked (bits.set i true) = insert i (marked bits) := by
  ext k
  rw [mem_marked_iff, Set.mem_insert_iff, mem_marked_iff,
    List.getElem?_set]
  by_cases hSame : i = k
  · subst hSame
    simp [hInside]
  · simp [hSame, Ne.symm hSame]

/- Setting a fresh mark counts one more. -/
theorem count_set
    (hInside : i < bits.length)
    (hFresh : i ∉ marked bits) :
    (bits.set i true).count true = bits.count true + 1 := by
  have hBit : bits[i] = false := by
    have hGet := (notMem_marked_iff hInside).mp hFresh
    rw [List.getElem?_eq_getElem hInside] at hGet
    exact Option.some.inj hGet
  rw [List.count_set hInside, hBit]
  simp

/- Everything is marked once the marks are as many. -/
theorem forall_marked_iff :
    (∀ i < bits.length, i ∈ marked bits) ↔
      bits.length ≤ bits.count true := by
  constructor
  · intro hAll
    apply Nat.le_of_eq
    symm
    rw [List.count_eq_length]
    intro bit hBit
    rcases List.getElem?_of_mem hBit with ⟨k, hK⟩
    have hInside := (List.getElem?_eq_some_iff.mp hK).choose
    have hMark := mem_marked_iff.mp (hAll k hInside)
    rw [hK] at hMark
    exact (Option.some.inj hMark).symm
  · intro hCount k hInside
    have hAll : bits.count true = bits.length :=
      Nat.le_antisymm List.count_le_length hCount
    rw [List.count_eq_length] at hAll
    rw [mem_marked_iff, List.getElem?_eq_getElem hInside,
      ← hAll _ (List.getElem_mem hInside)]

end Marks

------------------------------------------------------------
-- Bits In Bytes
------------------------------------------------------------

/- Bit `i` of a sequence of bytes. -/
def bitAt
    (data : List (BitVec 8))
    (i : ℕ) : Bool :=
  data.getD (i / 8) 0#8 &&& 1#8 <<< (i % 8) != 0#8

def setBit
    (data : List (BitVec 8))
    (i : ℕ) : List (BitVec 8) :=
  data.modify (i / 8) (· ||| 1#8 <<< (i % 8))

/- Eight bits a byte, the lowest bit first. -/
def pack (bits : List Bool) : List (BitVec 8) :=
  (List.range bits.length).foldl
    (fun data i =>
      if bits.getD i false then setBit data i else data)
    (List.replicate ((bits.length + 7) / 8) 0#8)

def unpack
    (data : List (BitVec 8))
    (count : ℕ) : List Bool :=
  (List.range count).map (bitAt data)

/- The same where no byte is read that is not there. -/
def unpack?
    (data : List (BitVec 8))
    (count : ℕ) : Option (List Bool) :=
  (List.range count).mapM (fun i =>
    data[i / 8]?.map (fun byte =>
      byte &&& 1#8 <<< (i % 8) != 0#8))

section Packing

variable
  {data : List (BitVec 8)}
  {i k : ℕ}

theorem bitAt_eq_getLsbD :
    bitAt data i = (data.getD (i / 8) 0#8).getLsbD
      (i % 8) := by
  have hInside : i % 8 < 8 := Nat.mod_lt i (by decide)
  have hBit := BitVec.and_twoPow (data.getD (i / 8) 0#8)
    (i % 8)
  rw [BitVec.twoPow] at hBit
  unfold bitAt
  rw [hBit]
  have hPow : (1#8 <<< (i % 8) : BitVec 8) ≠ 0#8 := by
    intro hZero
    have hOne := congrArg
      (fun byte => BitVec.getLsbD byte (i % 8)) hZero
    simp [hInside] at hOne
  cases (data.getD (i / 8) 0#8).getLsbD (i % 8) with
  | false => simp
  | true => simpa using hPow

@[simp] theorem length_setBit :
    (setBit data i).length = data.length :=
  List.length_modify _ _ _

/- Setting one bit changes no other. -/
theorem bitAt_setBit (hInside : i / 8 < data.length) :
    bitAt (setBit data i) k =
      (bitAt data k || decide (k = i)) := by
  have hLow : k % 8 < 8 := Nat.mod_lt k (by decide)
  rw [bitAt_eq_getLsbD, bitAt_eq_getLsbD, setBit,
    List.getD_eq_getElem?_getD, List.getD_eq_getElem?_getD,
    List.getElem?_modify]
  by_cases hByte : i / 8 = k / 8
  · rw [← hByte, List.getElem?_eq_getElem hInside]
    simp only [if_true, Option.map_eq_map, Option.map_some,
      Option.getD_some, BitVec.getLsbD_or]
    congr 1
    rw [BitVec.getLsbD_shiftLeft, BitVec.getLsbD_one]
    by_cases hBit : k = i
    · simp [hBit, Nat.mod_lt]
    · simp only [hBit, decide_false, Bool.and_eq_false_iff]
      by_cases hLess : k % 8 < i % 8
      · simp [hLess]
      · have hMore : k % 8 - i % 8 ≠ 0 := by omega
        simp [hMore]
  · have hBit : k ≠ i := by
      rintro rfl
      exact hByte rfl
    simp [hByte, hBit]

/- The bytes once the first `n` bits are packed. -/
theorem bitAt_foldl
    (bits : List Bool)
    {n : ℕ}
    (hInside : n ≤ bits.length) :
    let packed := (List.range n).foldl
      (fun data i =>
        if bits.getD i false then setBit data i else data)
      (List.replicate ((bits.length + 7) / 8) 0#8)
    packed.length = (bits.length + 7) / 8 ∧
      ∀ k, bitAt packed k =
        (decide (k < n) && bits.getD k false) := by
  induction n with
  | zero =>
      refine ⟨List.length_replicate, ?_⟩
      intro k
      rw [bitAt_eq_getLsbD]
      simp [List.getD_eq_getElem?_getD,
        List.getElem?_replicate]
      split <;> simp
  | succ n ih =>
      rcases ih (Nat.le_of_succ_le hInside) with
        ⟨hLength, hBits⟩
      simp only [List.range_succ, List.foldl_append,
        List.foldl_cons, List.foldl_nil]
      cases hBit : bits.getD n false with
      | true =>
          rw [if_pos rfl]
          refine ⟨by rw [length_setBit, hLength], ?_⟩
          intro k
          rw [bitAt_setBit (by rw [hLength]; omega), hBits]
          by_cases hSame : k = n
          · subst hSame
            simp only [hBit]
            simp
          · have hBelow : k < n + 1 ↔ k < n := by omega
            simp [hSame, hBelow]
      | false =>
          rw [if_neg Bool.false_ne_true]
          refine ⟨hLength, ?_⟩
          intro k
          rw [hBits]
          by_cases hSame : k = n
          · subst hSame
            simp only [hBit]
            simp
          · have hBelow : k < n + 1 ↔ k < n := by omega
            simp [hBelow]

/- Unpacking gives the packed bits back. -/
theorem unpack_pack (bits : List Bool) :
    unpack (pack bits) bits.length = bits := by
  have hBits := (bitAt_foldl bits (Nat.le_refl _)).2
  apply List.ext_getElem?
  intro k
  rw [unpack, List.getElem?_map]
  by_cases hInside : k < bits.length
  · rw [List.getElem?_range hInside, Option.map_some, pack,
      hBits, List.getD_eq_getElem?_getD,
      List.getElem?_eq_getElem hInside]
    simp [hInside]
  · rw [List.getElem?_eq_none (by simpa using hInside),
      List.getElem?_eq_none (by omega), Option.map_none]

theorem length_pack (bits : List Bool) :
    (pack bits).length = (bits.length + 7) / 8 :=
  (bitAt_foldl bits (Nat.le_refl _)).1

/- Every byte that is read is there. -/
theorem unpack?_eq_some
    {count : ℕ}
    (hInside : ∀ i < count, i / 8 < data.length) :
    unpack? data count = some (unpack data count) := by
  have hRead : ∀ is : List ℕ, (∀ i ∈ is, i / 8 < data.length) →
      is.mapM (fun i => data[i / 8]?.map (fun byte =>
        byte &&& 1#8 <<< (i % 8) != 0#8)) =
        some (is.map (bitAt data)) := by
    intro is hIs
    induction is with
    | nil => rfl
    | cons i is ih =>
        have hByte := hIs i List.mem_cons_self
        rw [List.mapM_cons, List.getElem?_eq_getElem hByte,
          ih (fun j hJ => hIs j (List.mem_cons_of_mem i hJ))]
        simp [bitAt, List.getD_eq_getElem?_getD,
          List.getElem?_eq_getElem hByte]
  apply hRead
  intro i hI
  exact hInside i (List.mem_range.mp hI)

/- No more bits are read than were packed. -/
theorem unpack?_pack
    {bits : List Bool}
    {count : ℕ}
    (hCount : count ≤ bits.length) :
    unpack? (pack bits) count =
      some (unpack (pack bits) count) := by
  apply unpack?_eq_some
  intro i hI
  rw [length_pack]
  omega

end Packing

end Bitmap
