import Mathlib.Data.List.Infix
import Mathlib.Data.Nat.Notation

/-
  The rule for sync keys, which name the groups of peers,
  and the one for the size of chunks.

  Main declarations:
    * `Config.getSyncKeyValidationError`
    * `Config.validateChunkSize`
-/

namespace VeritasSync

namespace Config

/- Letters and digits are those of ASCII. -/
def isOkInSyncKey (ch : Char) : Bool :=
  ch.isAlphanum || ch == '_' || ch == '-'

/- The empty text means that the key is valid. -/
def getSyncKeyValidationError (syncKey : String) : String :=
  let chars := syncKey.toList
  if syncKey = "" then
    "sync_key 不能为空"
  else if 64 < syncKey.utf8ByteSize then
    "sync_key 长度不能超过 64"
  else if ['.', '.'] <:+: chars then
    "sync_key 不能包含连续的点号 '..'"
  else if '/' ∈ chars ∨ '\\' ∈ chars then
    "sync_key 不能包含路径分隔符 '/' 或 '\\'"
  else if chars.any (fun ch => !isOkInSyncKey ch) then
    "sync_key 仅允许字母、数字、下划线和中划线"
  else
    ""

def isValidSyncKey (syncKey : String) : Bool :=
  getSyncKeyValidationError syncKey == ""

theorem ne_empty_of_isValidSyncKey
    {syncKey : String}
    (hValid : isValidSyncKey syncKey = true) :
    syncKey ≠ "" := by
  rintro rfl
  exact absurd hValid (by decide)

/- What the validation reports about a chunk size. -/
def validateChunkSize (chunkSize : ℕ) : List String :=
  if chunkSize < 1024 ∨ 1048576 < chunkSize then
    ["chunk_size 应在 1024-1048576 (1KB-1MB) 之间 (当前: " ++
      toString chunkSize ++ ")"]
  else
    []

theorem pos_of_validateChunkSize
    {chunkSize : ℕ}
    (hValid : validateChunkSize chunkSize = []) :
    0 < chunkSize := by
  unfold validateChunkSize at hValid
  split at hValid
  · cases hValid
  · omega

end Config

end VeritasSync
