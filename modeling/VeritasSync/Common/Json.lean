import Mathlib.Algebra.Group.Int.Defs
import Mathlib.Algebra.Group.Nat.Defs
import Mathlib.Data.List.Basic

/-
  Parsed JSON, and how a member of it is read.

  Main declarations:
    * `Json`
    * `Json.strD`, `Json.strAt?`
-/

namespace VeritasSync

inductive Json where
| null : Json
| bool : Bool → Json
| num : Int → Json
| real : Float → Json
| str : String → Json
| arr : List Json → Json
| obj : List (String × Json) → Json

namespace Json

/- The member of an object. -/
def find? : Json → String → Option Json
| .obj fields, name =>
    (fields.find? (fun field => field.1 == name)).map
      Prod.snd
| _, _ => none

/- What a range loop over a value visits. -/
def items : Json → List Json
| .null => []
| .arr values => values
| .obj fields => fields.map Prod.snd
| value => [value]

def str? : Json → Option String
| .str text => some text
| _ => none

/- The whole part, as a conversion to an integer takes it. -/
def truncate (value : Float) : Int :=
  if value < 0 then
    -(-value).toUInt64.toNat
  else
    value.toUInt64.toNat

/- A number read as an unsigned 64-bit one. -/
def uint64? : Json → Option ℕ
| .num value => some (value % 2 ^ 64).toNat
| .real value => some (truncate value % 2 ^ 64).toNat
| _ => none

/- A number read as an `int` and cut to 16 bits. -/
def uint16? : Json → Option UInt16
| .num value => some (UInt16.ofInt value)
| .real value => some (UInt16.ofInt (truncate value))
| .bool value => some (if value then 1 else 0)
| _ => none

@[simp]
theorem uint16?_num_toNat
    (value : UInt16) :
    (Json.num value.toNat).uint16? = some value := by
  apply congrArg some
  apply UInt16.toNat_inj.mp
  have hLt := value.toNat_lt
  rw [UInt16.ofInt, UInt16.toNat_ofNat']
  omega

def isObj : Json → Bool
| .obj _ => true
| _ => false

/- `value(name, "")`. -/
def strD
    (json : Json)
    (name : String) : Option String :=
  if json.isObj then
    match json.find? name with
    | none => some ""
    | some member => member.str?
  else
    none

/- `value(name, 0)`. -/
def uint64D
    (json : Json)
    (name : String) : Option ℕ :=
  if json.isObj then
    match json.find? name with
    | none => some 0
    | some member => member.uint64?
  else
    none

/- The strings of a member, when the member is there. -/
def strings
    (json : Json)
    (name : String) : Option (List String) :=
  match json.find? name with
  | none => some []
  | some member => member.items.mapM str?

/- `at(name).get<std::string>()`. -/
def strAt?
    (json : Json)
    (name : String) : Option String :=
  (json.find? name).bind str?

end Json

end VeritasSync
