import VeritasSync.Host

/-
  Digests of files: from a buffer, from a stream that is read
  piece by piece, and from windows that are mapped into
  memory.

  Main declarations:
    * `Evp`, `Sha256Context`, `FileCalls`
    * `Hashing.calculateSHA256Buffer`
    * `Hashing.calculateSHA256`, `Hashing.hashedLength`
    * `Hashing.calculateSHA256Mmio`
    * `Hashing.strategies_agree`
    * `Hashing.onlyWhole_iff`
-/

namespace VeritasSync

------------------------------------------------------------
-- Digest Contexts
------------------------------------------------------------

/-
  What the program relies on: pieces that are fed in order
  count as their concatenation.  Each call may fail.
-/
structure Evp (κ : Type) where
  init : Option κ
  update : κ → Content → Option κ
  final : κ → Option (List UInt8)
  update_append : ∀ ctx a b,
    update ctx (a ++ b) =
      (update ctx a).bind (fun ctx => update ctx b)

namespace Hashing

/- A digit of a hexadecimal number. -/
def hexDigit (value : ℕ) : Char :=
  "0123456789abcdef".toList.getD value '0'

/- Two digits a byte, as `{:02x}` writes them. -/
def toHex (bytes : List UInt8) : String :=
  String.ofList (bytes.flatMap (fun byte =>
    [hexDigit (byte.toNat / 16), hexDigit (byte.toNat % 16)]))

section Digests

variable {κ : Type}
variable
  (E : Evp κ)

/- The digest as a string, empty when it fails. -/
def finalize (ctx : κ) : String :=
  match E.final ctx with
  | none => ""
  | some bytes => toHex bytes

/- Nothing is fed for an empty piece. -/
def updateSome
    (ctx : κ)
    (data : Content) : Option κ :=
  if data.length > 0 then
    E.update ctx data
  else
    some ctx

def calculateSHA256Buffer (data : Content) : String :=
  match E.init with
  | none => ""
  | some ctx =>
      match updateSome E ctx data with
      | none => ""
      | some ctx => finalize E ctx

@[simp] theorem updateSome_nil (ctx : κ) :
    updateSome E ctx [] = some ctx := rfl

theorem updateSome_append
    (ctx : κ)
    (a b : Content) :
    updateSome E ctx (a ++ b) =
      (updateSome E ctx a).bind
        (fun ctx => updateSome E ctx b) := by
  by_cases hLeft : a = []
  · subst hLeft
    rfl
  by_cases hRight : b = []
  · subst hRight
    rw [List.append_nil]
    cases updateSome E ctx a <;> rfl
  have hA : a.length > 0 := List.length_pos_of_ne_nil hLeft
  have hB : b.length > 0 := List.length_pos_of_ne_nil hRight
  have hBoth : (a ++ b).length > 0 := by
    rw [List.length_append]
    omega
  unfold updateSome
  simp only [if_pos hA, if_pos hB, if_pos hBoth]
  exact E.update_append ctx a b

end Digests

------------------------------------------------------------
-- Files
------------------------------------------------------------

/-
  A read that needs the byte at `offset`, or finds the end
  there, fails; it still delivers `kept` of the bytes before.
-/
structure ReadError where
  offset : ℕ
  kept : ℕ
deriving DecidableEq, Repr

/-
  What the calls on one path find.  The file may be opened
  at the second attempt; `mapFails` is for the mapping and
  `regionFails` for a window at an offset of it.
-/
structure FileCalls where
  present : Bool
  isRegular : Bool
  sizeFails : Bool
  opens : Bool
  reopens : Bool
  content : Content
  readError : Option ReadError
  mapFails : Bool
  regionFails : ℕ → Bool

namespace FileCalls

/- The error can be met when the file is read. -/
def errorAt
    (file : FileCalls)
    (offset : ℕ) : Option ReadError :=
  match file.readError with
  | none => none
  | some error =>
      if error.offset ≤ file.content.length ∧
          error.offset < offset then
        some error
      else
        none

/-
  One call of `read` at a position: the bytes it delivers,
  and whether the stream is still good.
-/
def read
    (file : FileCalls)
    (position count : ℕ) : Content × Bool :=
  let rest := file.content.drop position
  match file.errorAt (position + count) with
  | some error =>
      (rest.take (min error.kept (error.offset - position)),
        false)
  | none =>
      (rest.take count, (rest.take count).length = count)

end FileCalls

------------------------------------------------------------
-- The Two Strategies For Files
------------------------------------------------------------

section Strategies

variable {κ : Type}
variable
  (E : Evp κ)

/-
  Read and feed while the stream is good.  A read that fails
  ends the loop as the end of the file does.
-/
def readLoop
    (bufferSize : ℕ)
    (file : FileCalls) :
    ℕ → ℕ → κ → Option κ
| 0, _, _ => none
| fuel + 1, position, ctx =>
    let got := file.read position bufferSize
    match updateSome E ctx got.1 with
    | none => none
    | some ctx =>
        if got.2 then
          readLoop bufferSize file fuel
            (position + got.1.length) ctx
        else
          some ctx

/- No more reads are made than there are bytes, and one. -/
def calculateSHA256
    (bufferSize : ℕ)
    (file : FileCalls) : String :=
  if !file.present || !file.isRegular then
    ""
  else if !file.opens && !file.reopens then
    ""
  else
    match E.init with
    | none => ""
    | some ctx =>
        match readLoop E bufferSize file
            (file.content.length + 1) 0 ctx with
        | none => ""
        | some ctx => finalize E ctx

/- A window that cannot be mapped throws. -/
inductive Mapped (κ : Type) where
| threw : Mapped κ
| refused : Mapped κ
| fed : κ → Mapped κ

def mmioThreshold : ℕ := 64 * 1024

def viewSize : ℕ := 256 * 1024 * 1024

/- Map and feed one window after the other. -/
def mapLoop
    (file : FileCalls) :
    ℕ → ℕ → ℕ → κ → Mapped κ
| 0, _, _, _ => .threw
| fuel + 1, offset, remaining, ctx =>
    if remaining > 0 then
      let view :=
        if remaining > viewSize then viewSize else remaining
      if file.regionFails offset then
        .threw
      else
        match E.update ctx
            ((file.content.drop offset).take view) with
        | none => .refused
        | some ctx =>
            mapLoop file fuel (offset + view)
              (remaining - view) ctx
    else
      .fed ctx

/- The mapping and its windows, for a file of some size. -/
def mapFile (file : FileCalls) : Mapped κ :=
  if file.mapFails then
    .threw
  else
    match E.init with
    | none => .refused
    | some ctx =>
        mapLoop E file (file.content.length + 1) 0
          file.content.length ctx

def calculateSHA256Mmio
    (bufferSize : ℕ)
    (file : FileCalls) : String :=
  if !file.present || !file.isRegular then
    ""
  else if file.sizeFails then
    ""
  else if file.content.length = 0 then
    calculateSHA256Buffer E []
  else if file.content.length < mmioThreshold then
    calculateSHA256 E bufferSize file
  else
    match mapFile E file with
    | .threw => calculateSHA256 E bufferSize file
    | .refused => ""
    | .fed ctx => finalize E ctx

end Strategies

------------------------------------------------------------
-- A Sample
------------------------------------------------------------

/- Two hexadecimal digits a byte. -/
def ofHex : List Char → List UInt8
| high :: low :: rest =>
    UInt8.ofNat
        ("0123456789abcdef".toList.idxOf high * 16 +
          "0123456789abcdef".toList.idxOf low) ::
      ofHex rest
| _ => []

/- The context keeps what it was fed. -/
def sampleEvp : Evp Content where
  init := some []
  update := fun ctx data => some (ctx ++ data)
  final := fun ctx =>
    some (ofHex (Digest.sampleHash ctx).toList)
  update_append := by
    intro ctx a b
    simp

/- A file with the one byte `a`, which can be read. -/
def plainFile : FileCalls where
  present := true
  isRegular := true
  sizeFails := false
  opens := true
  reopens := true
  content := [97]
  readError := none
  mapFails := false
  regionFails := fun _ => false

------------------------------------------------------------
-- What Is Hashed
------------------------------------------------------------

/-
  How many bytes the loop feeds.  The call that fails began
  at a multiple of the size of the buffer.
-/
def hashedLength
    (bufferSize : ℕ)
    (file : FileCalls) : ℕ :=
  match file.errorAt (file.content.length + 1) with
  | none => file.content.length
  | some error =>
      min (error.offset / bufferSize * bufferSize + error.kept)
        error.offset

section Reading

variable {κ : Type}
variable
  (E : Evp κ)
variable
  {bufferSize : ℕ}
  {file : FileCalls}

theorem errorAt_eq_some_iff
    {offset : ℕ}
    {error : ReadError} :
    file.errorAt offset = some error ↔
      file.readError = some error ∧
        error.offset ≤ file.content.length ∧
        error.offset < offset := by
  unfold FileCalls.errorAt
  cases file.readError with
  | none => simp
  | some other =>
      simp only [Option.ite_none_right_eq_some,
        Option.some.injEq]
      constructor
      · rintro ⟨hMet, rfl⟩
        exact ⟨rfl, hMet⟩
      · rintro ⟨rfl, hMet⟩
        exact ⟨hMet, rfl⟩

/- An error that is not met at once is met later or never. -/
theorem errorAt_of_later
    {offset : ℕ}
    (hNone : file.errorAt offset = none)
    {error : ReadError}
    (hLater : file.errorAt (file.content.length + 1) =
      some error) :
    offset ≤ error.offset := by
  by_contra hBefore
  rw [errorAt_eq_some_iff] at hLater
  have hMet : file.errorAt offset = some error :=
    errorAt_eq_some_iff.mpr
      ⟨hLater.1, hLater.2.1, Nat.not_le.mp hBefore⟩
  rw [hNone] at hMet
  cases hMet

theorem hashedLength_of_none
    (hNone : file.errorAt (file.content.length + 1) =
      none) :
    hashedLength bufferSize file = file.content.length := by
  rw [hashedLength, hNone]

theorem hashedLength_of_some
    {error : ReadError}
    (hSome : file.errorAt (file.content.length + 1) =
      some error) :
    hashedLength bufferSize file =
      min (error.offset / bufferSize * bufferSize +
        error.kept) error.offset := by
  rw [hashedLength, hSome]

/- All full buffers before the error are fed. -/
theorem le_hashedLength
    {position : ℕ}
    (hMultiple : bufferSize ∣ position)
    (hInside : position ≤ file.content.length)
    (hBefore : ∀ error,
      file.errorAt (file.content.length + 1) = some error →
        position ≤ error.offset) :
    position ≤ hashedLength bufferSize file := by
  cases hError :
    file.errorAt (file.content.length + 1) with
  | none =>
      rw [hashedLength_of_none hError]
      exact hInside
  | some error =>
      rw [hashedLength_of_some hError]
      have hOffset := hBefore error hError
      have hStart : position ≤
          error.offset / bufferSize * bufferSize := by
        calc
          position = position / bufferSize * bufferSize :=
            (Nat.div_mul_cancel hMultiple).symm
          _ ≤ error.offset / bufferSize * bufferSize :=
            Nat.mul_le_mul_right _
              (Nat.div_le_div_right hOffset)
      omega

/- The call that fails keeps what it had read by then. -/
theorem hashedLength_of_failing
    {position : ℕ}
    (hMultiple : bufferSize ∣ position)
    {error : ReadError}
    (hError : file.errorAt (position + bufferSize) =
      some error)
    (hLater : file.errorAt (file.content.length + 1) =
      some error)
    (hAfter : position ≤ error.offset) :
    hashedLength bufferSize file - position =
      min error.kept (error.offset - position) := by
  have hMet := (errorAt_eq_some_iff.mp hError).2.2
  have hStart : error.offset / bufferSize * bufferSize =
      position := by
    rcases hMultiple with ⟨k, rfl⟩
    have hQuotient : error.offset / bufferSize = k :=
      Nat.div_eq_of_lt_le
        (by rw [Nat.mul_comm]; exact hAfter)
        (by
          rw [Nat.succ_mul, Nat.mul_comm]
          exact hMet)
    rw [hQuotient, Nat.mul_comm]
  rw [hashedLength_of_some hLater, hStart]
  omega

/- A full buffer, and what the calls after it feed. -/
theorem take_hashedLength
    {position : ℕ}
    (hReach : position + bufferSize ≤
      hashedLength bufferSize file) :
    (file.content.drop position).take
        (hashedLength bufferSize file - position) =
      (file.content.drop position).take bufferSize ++
        (file.content.drop (position + bufferSize)).take
          (hashedLength bufferSize file -
            (position + bufferSize)) := by
  have hLength : hashedLength bufferSize file - position =
      bufferSize + (hashedLength bufferSize file -
        (position + bufferSize)) := by
    omega
  rw [hLength, List.take_add, List.drop_drop]

/- A call that reaches the end has met every error. -/
theorem hashedLength_of_short
    {position : ℕ}
    (hInside : position ≤ file.content.length)
    (hNone : file.errorAt (position + bufferSize) = none)
    (hShort : (file.content.drop position).length <
      bufferSize) :
    hashedLength bufferSize file = file.content.length := by
  apply hashedLength_of_none
  cases hLater : file.errorAt (file.content.length + 1) with
  | none => rfl
  | some error =>
      have hAfter := errorAt_of_later hNone hLater
      have hMet := errorAt_eq_some_iff.mp hLater
      rw [List.length_drop] at hShort
      omega

/- The loop feeds what `hashedLength` says, and no more. -/
theorem readLoop_eq
    (hBuffer : 0 < bufferSize)
    {fuel position : ℕ}
    (ctx : κ)
    (hFuel : file.content.length - position < fuel)
    (hInside : position ≤ file.content.length)
    (hMultiple : bufferSize ∣ position)
    (hBefore : ∀ error,
      file.errorAt (file.content.length + 1) = some error →
        position ≤ error.offset) :
    readLoop E bufferSize file fuel position ctx =
      updateSome E ctx ((file.content.drop position).take
        (hashedLength bufferSize file - position)) := by
  induction fuel generalizing position ctx with
  | zero => exact absurd hFuel (Nat.not_lt_zero _)
  | succ fuel ih =>
      cases hError : file.errorAt (position + bufferSize) with
      | some error =>
          -- the stream is bad after this call
          have hMet := errorAt_eq_some_iff.mp hError
          have hLater : file.errorAt
              (file.content.length + 1) = some error :=
            errorAt_eq_some_iff.mpr
              ⟨hMet.1, hMet.2.1, by omega⟩
          rw [hashedLength_of_failing hMultiple hError hLater
            (hBefore error hLater), readLoop]
          simp only [FileCalls.read, hError]
          cases updateSome E ctx _ <;> rfl
      | none =>
          by_cases hFull : ((file.content.drop position).take
              bufferSize).length = bufferSize
          · have hNext : position + bufferSize ≤
                file.content.length := by
              rw [List.length_take, List.length_drop]
                at hFull
              omega
            have hMultiple' : bufferSize ∣
                position + bufferSize :=
              Nat.dvd_add hMultiple (Nat.dvd_refl _)
            have hBefore' : ∀ error,
                file.errorAt (file.content.length + 1) =
                  some error →
                    position + bufferSize ≤ error.offset :=
              fun error hLater =>
                errorAt_of_later hError hLater
            rw [take_hashedLength (le_hashedLength hMultiple'
                hNext hBefore'),
              updateSome_append, readLoop]
            simp only [FileCalls.read, hError, hFull,
              decide_true, if_true]
            cases updateSome E ctx ((file.content.drop
                position).take bufferSize) with
            | none => rfl
            | some ctx' =>
                exact ih ctx' (by omega) hNext hMultiple'
                  hBefore'
          · -- the end of the file, and no error before it
            have hShort : (file.content.drop position).length <
                bufferSize := by
              rw [List.length_take] at hFull
              omega
            have hAll : (file.content.drop position).take
                (hashedLength bufferSize file - position) =
                  (file.content.drop position).take
                    bufferSize := by
              rw [hashedLength_of_short hInside hError hShort,
                List.take_of_length_le (by
                  rw [List.length_drop]),
                List.take_of_length_le (Nat.le_of_lt hShort)]
            rw [hAll, readLoop]
            simp only [FileCalls.read, hError, hFull,
              decide_false, Bool.false_eq_true, if_false]
            cases updateSome E ctx ((file.content.drop
                position).take bufferSize) <;> rfl

/- The file is there and can be opened, at the latest then. -/
def CanOpen (file : FileCalls) : Prop :=
  file.present = true ∧ file.isRegular = true ∧
    (file.opens = true ∨ file.reopens = true)

theorem calculateSHA256_of_not_canOpen
    (hClosed : ¬ CanOpen file) :
    calculateSHA256 E bufferSize file = "" := by
  unfold calculateSHA256
  split
  · rfl
  next hThere =>
    rw [if_pos]
    simp only [Bool.or_eq_true, Bool.not_eq_true', not_or,
      Bool.not_eq_false] at hThere
    simp only [CanOpen, hThere.1, hThere.2, true_and, not_or,
      Bool.not_eq_true] at hClosed
    simp [hClosed.1, hClosed.2]

/- The digest of the bytes that were fed. -/
theorem calculateSHA256_eq
    (hBuffer : 0 < bufferSize)
    (hOpen : CanOpen file) :
    calculateSHA256 E bufferSize file =
      calculateSHA256Buffer E
        (file.content.take (hashedLength bufferSize file)) := by
  rcases hOpen with ⟨hPresent, hRegular, hOpens⟩
  have hOpens' : (!file.opens && !file.reopens) = false := by
    rcases hOpens with hFirst | hSecond
    · simp [hFirst]
    · simp [hSecond]
  unfold calculateSHA256 calculateSHA256Buffer
  simp only [hPresent, hRegular, hOpens', Bool.not_true,
    Bool.or_self, Bool.false_eq_true, if_false]
  cases E.init with
  | none => rfl
  | some ctx =>
      have hLoop := readLoop_eq E hBuffer ctx
        (Nat.lt_succ_self
          (file.content.length - 0)) (Nat.zero_le _)
        (Nat.dvd_zero bufferSize)
        (fun error _ => Nat.zero_le error.offset)
      rw [List.drop_zero, Nat.sub_zero, Nat.sub_zero] at hLoop
      simp only [hLoop]

def Mapped.of : Option κ → Mapped κ
| none => .refused
| some ctx => .fed ctx

/- The windows are fed as a whole, unless one throws. -/
theorem mapLoop_cases
    {fuel offset remaining : ℕ}
    (ctx : κ)
    (hFuel : remaining < fuel)
    (hRemaining : offset + remaining =
      file.content.length) :
    (mapLoop E file fuel offset remaining ctx = .threw ∧
        ∃ window, file.regionFails window = true) ∨
      mapLoop E file fuel offset remaining ctx =
        .of (updateSome E ctx (file.content.drop offset)) := by
  induction fuel generalizing offset remaining ctx with
  | zero => exact absurd hFuel (Nat.not_lt_zero _)
  | succ fuel ih =>
      rw [mapLoop]
      by_cases hMore : remaining > 0
      · rw [if_pos hMore]
        generalize hView :
          (if remaining > viewSize then viewSize
            else remaining) = view
        have hWindow : 0 < view ∧ view ≤ remaining := by
          rw [← hView]
          have hPositive : 0 < viewSize := by decide
          split <;> omega
        cases hThrows : file.regionFails offset with
        | true =>
            exact Or.inl ⟨by simp, offset, hThrows⟩
        | false =>
            have hSplit : updateSome E ctx
                (file.content.drop offset) =
                  (E.update ctx ((file.content.drop
                    offset).take view)).bind
                      (fun ctx => updateSome E ctx
                        (file.content.drop
                          (offset + view))) := by
              have hPiece : ((file.content.drop
                  offset).take view).length > 0 := by
                rw [List.length_take, List.length_drop]
                omega
              have hParts := updateSome_append E ctx
                ((file.content.drop offset).take view)
                ((file.content.drop offset).drop view)
              rw [List.take_append_drop, List.drop_drop]
                at hParts
              rw [hParts, updateSome, if_pos hPiece]
            rw [hSplit]
            dsimp only
            cases E.update ctx ((file.content.drop
                offset).take view) with
            | none => exact Or.inr (by simp [Mapped.of])
            | some ctx' =>
                have hRest := ih ctx'
                  (show remaining - view < fuel by omega)
                  (show offset + view + (remaining - view) =
                    file.content.length by omega)
                simpa using hRest
      · rw [if_neg hMore]
        have hEnd : file.content.drop offset = [] :=
          List.drop_eq_nil_of_le (by omega)
        rw [hEnd]
        exact Or.inr rfl

theorem mapFile_cases :
    (mapFile E file = .threw ∧ (file.mapFails = true ∨
        ∃ window, file.regionFails window = true)) ∨
      mapFile E file = .of (E.init.bind
        (fun ctx => updateSome E ctx file.content)) := by
  unfold mapFile
  cases hMap : file.mapFails with
  | true => exact Or.inl ⟨by simp, Or.inl rfl⟩
  | false =>
      cases E.init with
      | none => exact Or.inr (by simp [Mapped.of])
      | some ctx =>
          rcases mapLoop_cases E ctx
            (Nat.lt_succ_self file.content.length)
            (Nat.zero_add file.content.length) with
            ⟨hThrew, hWindow⟩ | hFed
          · exact Or.inl ⟨by simpa using hThrew,
              Or.inr hWindow⟩
          · exact Or.inr (by simpa using hFed)

/- The mapped digest is left for that of the stream. -/
def FallsBack (file : FileCalls) : Prop :=
  0 < file.content.length ∧
    (file.content.length < mmioThreshold ∨
      mapFile E file = .threw)

theorem calculateSHA256Mmio_of_fallsBack
    (hFile : file.present = true ∧ file.isRegular = true ∧
      file.sizeFails = false)
    (hBack : FallsBack E file) :
    calculateSHA256Mmio E bufferSize file =
      calculateSHA256 E bufferSize file := by
  rcases hBack with ⟨hSome, hBack⟩
  have hNot : file.content.length ≠ 0 := by omega
  unfold calculateSHA256Mmio
  simp only [hFile, Bool.not_true, Bool.or_self,
    Bool.false_eq_true, if_false, if_neg hNot]
  rcases hBack with hSmall | hThrew
  · rw [if_pos hSmall]
  · split
    · rfl
    · rw [hThrew]

theorem calculateSHA256Mmio_of_mapped
    (hFile : file.present = true ∧ file.isRegular = true ∧
      file.sizeFails = false)
    (hMapped : ¬ FallsBack E file) :
    calculateSHA256Mmio E bufferSize file =
      calculateSHA256Buffer E file.content := by
  unfold calculateSHA256Mmio
  simp only [hFile, Bool.not_true, Bool.or_self,
    Bool.false_eq_true, if_false]
  by_cases hEmpty : file.content.length = 0
  · rw [if_pos hEmpty, List.length_eq_zero_iff.mp hEmpty]
  · rw [if_neg hEmpty]
    simp only [FallsBack, not_and, not_or] at hMapped
    rcases hMapped (by omega) with ⟨hLarge, hNoThrow⟩
    rw [if_neg hLarge]
    rcases @mapFile_cases κ E file with
      ⟨hThrew, -⟩ | hFed
    · exact absurd hThrew hNoThrow
    · rw [hFed, calculateSHA256Buffer]
      cases E.init with
      | none => rfl
      | some ctx =>
          simp only [Option.bind_some]
          cases updateSome E ctx file.content <;> rfl

theorem calculateSHA256_of_no_error
    (hBuffer : 0 < bufferSize)
    (hOpen : CanOpen file)
    (hNoError : file.readError = none) :
    calculateSHA256 E bufferSize file =
      calculateSHA256Buffer E file.content := by
  have hNone : file.errorAt (file.content.length + 1) =
      none := by
    rw [FileCalls.errorAt, hNoError]
  rw [calculateSHA256_eq E hBuffer hOpen,
    hashedLength_of_none hNone, List.take_length]

/-
  Where nothing goes wrong with reading, the strategies give
  one digest, for buffers of any size and whatever cannot be
  mapped.
-/
theorem strategies_agree
    (hBuffer : 0 < bufferSize)
    (hOpen : CanOpen file)
    (hSize : file.sizeFails = false)
    (hNoError : file.readError = none) :
    calculateSHA256 E bufferSize file =
        calculateSHA256Buffer E file.content ∧
      calculateSHA256Mmio E bufferSize file =
        calculateSHA256Buffer E file.content := by
  have hStream := calculateSHA256_of_no_error E hBuffer
    hOpen hNoError
  refine ⟨hStream, ?_⟩
  by_cases hBack : FallsBack E file
  · rw [calculateSHA256Mmio_of_fallsBack E
      ⟨hOpen.1, hOpen.2.1, hSize⟩ hBack, hStream]
  · exact calculateSHA256Mmio_of_mapped E
      ⟨hOpen.1, hOpen.2.1, hSize⟩ hBack

/- A file that is large enough, with no window to map. -/
def unmappedFile : FileCalls :=
  { plainFile with
    content := List.replicate mmioThreshold 97
    regionFails := fun _ => true }

/- Its mapping throws, and the stream is read after all. -/
theorem strategies_agree_unmapped :
    mmioThreshold ≤ unmappedFile.content.length ∧
      mapFile sampleEvp unmappedFile = .threw ∧
      calculateSHA256 sampleEvp 65536 unmappedFile =
        calculateSHA256Buffer sampleEvp
          unmappedFile.content ∧
      calculateSHA256Mmio sampleEvp 65536 unmappedFile =
        calculateSHA256Buffer sampleEvp
          unmappedFile.content := by
  have hLength : unmappedFile.content.length =
      mmioThreshold := List.length_replicate
  refine ⟨Nat.le_of_eq hLength.symm, ?_,
    strategies_agree sampleEvp (by decide)
      ⟨rfl, rfl, Or.inl rfl⟩ rfl rfl⟩
  have hSome : mmioThreshold > 0 := by decide
  unfold mapFile
  rw [hLength]
  change mapLoop sampleEvp unmappedFile (mmioThreshold + 1) 0
    mmioThreshold [] = .threw
  rw [mapLoop, if_pos hSome]
  rfl

/- No digest, or that of the whole content. -/
def OnlyWhole
    (content : Content)
    (result : String) : Prop :=
  result = "" ∨ result = calculateSHA256Buffer E content

/-
  The only read that may fail is the one that finds the end,
  after it delivered all that was left.
-/
def ReadsAll
    (bufferSize : ℕ)
    (file : FileCalls) : Prop :=
  ∀ error, file.readError = some error →
    error.offset ≤ file.content.length →
      error.offset = file.content.length ∧
        file.content.length ≤
          error.offset / bufferSize * bufferSize + error.kept

/-
  The reads stop short, and the bytes before happen to have
  the digest of all of them, or none.
-/
structure Collides
    (bufferSize : ℕ)
    (file : FileCalls) : Prop where
  short : hashedLength bufferSize file < file.content.length
  digest :
    calculateSHA256Buffer E
        (file.content.take
          (hashedLength bufferSize file)) = "" ∨
      calculateSHA256Buffer E
          (file.content.take
            (hashedLength bufferSize file)) =
        calculateSHA256Buffer E file.content

/- Everything is read, or what is lost does not show. -/
def NothingLost
    (bufferSize : ℕ)
    (file : FileCalls) : Prop :=
  ReadsAll bufferSize file ∨ Collides E bufferSize file

/- The loop feeds everything just if the reads get it all. -/
theorem readsAll_iff :
    ReadsAll bufferSize file ↔
      hashedLength bufferSize file =
        file.content.length := by
  cases hError :
    file.errorAt (file.content.length + 1) with
  | none =>
      refine iff_of_true ?_ (hashedLength_of_none hError)
      intro error hSome hInside
      have hMet : file.errorAt (file.content.length + 1) =
          some error := errorAt_eq_some_iff.mpr
        ⟨hSome, hInside, Nat.lt_succ_of_le hInside⟩
      rw [hError] at hMet
      cases hMet
  | some error =>
      rcases errorAt_eq_some_iff.mp hError with
        ⟨hSome, hInside, -⟩
      rw [hashedLength_of_some hError]
      constructor
      · intro hAll
        rcases hAll error hSome hInside with ⟨hEnd, hKept⟩
        omega
      · intro hLength other hOther hOtherIn
        rw [hSome] at hOther
        cases hOther
        omega

theorem hashedLength_le :
    hashedLength bufferSize file ≤ file.content.length := by
  cases hError :
    file.errorAt (file.content.length + 1) with
  | none => exact (hashedLength_of_none hError).le
  | some error =>
      have hMet := errorAt_eq_some_iff.mp hError
      rw [hashedLength_of_some hError]
      omega

/-
  The digest is that of the whole content exactly when the
  file cannot be opened or nothing is lost; through the
  mapping, also when it does not fall back.
-/
theorem onlyWhole_iff (hBuffer : 0 < bufferSize) :
    (OnlyWhole E file.content
        (calculateSHA256 E bufferSize file) ↔
      (CanOpen file → NothingLost E bufferSize file)) ∧
      (OnlyWhole E file.content
          (calculateSHA256Mmio E bufferSize file) ↔
        (CanOpen file → file.sizeFails = false →
          FallsBack E file →
            NothingLost E bufferSize file)) := by
  have hStream : OnlyWhole E file.content
      (calculateSHA256 E bufferSize file) ↔
        (CanOpen file → NothingLost E bufferSize file) := by
    by_cases hOpen : CanOpen file
    · rw [calculateSHA256_eq E hBuffer hOpen]
      constructor
      · intro hWhole _
        by_cases hAll : hashedLength bufferSize file =
            file.content.length
        · exact Or.inl (readsAll_iff.mpr hAll)
        · exact Or.inr
            ⟨Nat.lt_of_le_of_ne hashedLength_le hAll, hWhole⟩
      · intro hLost
        rcases hLost hOpen with hAll | hCollides
        · refine Or.inr ?_
          rw [readsAll_iff.mp hAll, List.take_length]
        · exact hCollides.digest
    · rw [calculateSHA256_of_not_canOpen E hOpen]
      exact iff_of_true (Or.inl rfl)
        (fun hYes => absurd hYes hOpen)
  refine ⟨hStream, ?_⟩
  by_cases hFile : file.present = true ∧
      file.isRegular = true ∧ file.sizeFails = false
  · by_cases hBack : FallsBack E file
    · rw [calculateSHA256Mmio_of_fallsBack E hFile hBack,
        hStream]
      exact ⟨fun hLost hOpen _ _ => hLost hOpen,
        fun hLost hOpen => hLost hOpen hFile.2.2 hBack⟩
    · rw [calculateSHA256Mmio_of_mapped E hFile hBack]
      exact iff_of_true (Or.inr rfl)
        (fun _ _ hYes => absurd hYes hBack)
  · have hRefused : calculateSHA256Mmio E bufferSize file =
        "" := by
      unfold calculateSHA256Mmio
      split
      · rfl
      next hThere =>
        rw [if_pos]
        simp only [Bool.or_eq_true, Bool.not_eq_true', not_or,
          Bool.not_eq_false] at hThere
        simpa [hThere] using hFile
    rw [hRefused]
    refine iff_of_true (Or.inl rfl) ?_
    intro hOpen hSize
    exact absurd ⟨hOpen.1, hOpen.2.1, hSize⟩ hFile

/- The first read fails, and the empty file is hashed. -/
theorem prefix_hashed :
    ¬ OnlyWhole sampleEvp [97]
      (calculateSHA256 sampleEvp 65536
        { plainFile with readError := some ⟨0, 0⟩ }) := by
  unfold OnlyWhole
  decide +kernel

theorem onlyWhole_plainFile :
    OnlyWhole sampleEvp [97]
      (calculateSHA256 sampleEvp 65536 plainFile) := by
  refine ((@onlyWhole_iff _ sampleEvp 65536 plainFile
    (by decide)).1).mpr (fun _ => Or.inl ?_)
  intro error hError
  cases hError

end Reading

------------------------------------------------------------
-- The Host
------------------------------------------------------------

/- What the calls on a place of the disk find. -/
def callsOn
    (H : Host)
    (disk : Disk)
    (loc : Loc) : FileCalls where
  present := (disk.payload? loc).isSome
  isRegular := (disk.payload? loc).isSome
  sizeFails := false
  opens := !H.openFails loc
  reopens := !H.openFails loc
  content := ((disk.payload? loc).map File.content).getD []
  readError := none
  mapFails := false
  regionFails := fun _ => false

/- The digest of the host is what the loop computes. -/
theorem calculateSHA256_callsOn
    {κ : Type}
    {E : Evp κ}
    {H : Host}
    (hDigest : ∀ content,
      calculateSHA256Buffer E content = H.digest.hash content)
    {bufferSize : ℕ}
    (hBuffer : 0 < bufferSize)
    (disk : Disk)
    (loc : Loc) :
    calculateSHA256 E bufferSize (callsOn H disk loc) =
      VeritasSync.calculateSHA256 H disk loc := by
  unfold VeritasSync.calculateSHA256
  by_cases hOpen : CanOpen (callsOn H disk loc)
  · rw [calculateSHA256_of_no_error E hBuffer hOpen rfl,
      hDigest]
    rcases hOpen with ⟨hPresent, -, hOpens⟩
    cases hFile : disk.payload? loc with
    | none => simp [callsOn, hFile] at hPresent
    | some file =>
        have hOpens' : H.openFails loc = false := by
          simpa [callsOn] using hOpens
        simp [callsOn, hFile, hOpens']
  · rw [calculateSHA256_of_not_canOpen E hOpen]
    cases hFile : disk.payload? loc with
    | none => rfl
    | some file =>
        simp only [CanOpen, callsOn, hFile, Option.isSome_some,
          true_and, or_self, Bool.not_eq_true',
          Bool.not_eq_false] at hOpen
        simp [hOpen]

end Hashing

end VeritasSync
