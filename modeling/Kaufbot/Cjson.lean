import Kaufbot.Library.CString
import Mathlib.Algebra.Ring.Int.Defs
import Mathlib.Algebra.Ring.Nat
import Mathlib.Data.Rat.Defs

/-!
The parsed JSON trees of the vendored cJSON library and the accessors the bot
applies to them. A `cJSON *` is an `Option CJson`: every accessor accepts NULL
and answers NULL or false. Number nodes hold the exact value of a double that is
finite; the sign of a zero is not kept, and there is no infinity.
Parsing and printing stay parameters of the programs that use them.
-/

namespace Kaufbot

inductive CJson where
  | null
  | bool (value : Bool)
  | number (valuedouble : Rat)
  | string (valuestring : CString)
  | array (items : List CJson)
  | object (members : List (CString × CJson))

/-- `tolower` in the C locale. -/
def toLower (b : UInt8) : UInt8 := if 65 ≤ b ∧ b ≤ 90 then b + 32 else b

/-- `case_insensitive_strcmp(a, b) == 0`. -/
def caseInsensitiveEq (a b : CString) : Bool := a.bytes.map toLower == b.bytes.map toLower

/-- The conversion of an unbounded count to `int`. -/
def wrapInt32 (n : Int) : Int := (n + 2 ^ 31) % 2 ^ 32 - 2 ^ 31

/-- `(int64_t)d`: towards zero; a value out of range gives what x86-64 leaves there. -/
def doubleToInt64 (d : Rat) : Int :=
  let n := Int.tdiv d.num d.den
  if -(2 ^ 63) ≤ n ∧ n < 2 ^ 63 then n else -(2 ^ 63)

/-- `(double)n`: the nearest of the doubles, ties to the even one. -/
def int64ToDouble (n : Int) : Rat :=
  let magnitude := n.natAbs
  if magnitude < 2 ^ 53 then n
  else
    let unit := 2 ^ (magnitude.log2 - 52)
    let rest := 2 * (magnitude % unit)
    let floor := magnitude / unit
    let nearest := if rest > unit ∨ (rest = unit ∧ floor % 2 = 1) then floor + 1 else floor
    n.sign * (nearest * unit : Nat)

/-- The `valueint` of a number node: towards zero, saturated to an `int`. -/
def doubleToIntSat (d : Rat) : Int :=
  max (-(2 ^ 31)) (min (Int.tdiv d.num d.den) (2 ^ 31 - 1))

theorem doubleToInt64_intCast {id : Int} (hl : -(2 ^ 53) < id) (hu : id < 2 ^ 53) :
    doubleToInt64 (id : Rat) = id := by
  have trunc : (id : Rat).num.tdiv (id : Rat).den = id := by
    rw [Rat.num_intCast, Rat.den_intCast]
    exact Int.tdiv_one id
  simp only [doubleToInt64, trunc]
  rw [if_pos]
  omega

namespace CJson

/-- `cJSON_GetObjectItem`: the first member with this key, letter case ignored. Array
elements have no key and never match. -/
def getObjectItem (node : Option CJson) (name : CString) : Option CJson :=
  match node with
  | some (.object members) =>
      (members.find? (fun member => caseInsensitiveEq name member.1)).map Prod.snd
  | _ => none

def children (node : Option CJson) : List CJson :=
  match node with
  | some (.array items) => items
  | some (.object members) => members.map Prod.snd
  | _ => []

/-- `cJSON_GetArraySize`, with its overflow to `int`. -/
def getArraySize (node : Option CJson) : Int := wrapInt32 (children node).length

def getArrayItem (node : Option CJson) (index : Int) : Option CJson :=
  if index < 0 then none else (children node)[index.toNat]?

/-- The number of a node that passes `cJSON_IsNumber`. -/
def numberValue? : Option CJson → Option Rat
  | some (.number d) => some d
  | _ => none

/-- The string of a node that passes `cJSON_IsString`. -/
def stringValue? : Option CJson → Option CString
  | some (.string s) => some s
  | _ => none

def isTrue : Option CJson → Bool
  | some (.bool b) => b
  | _ => false

def isFalse : Option CJson → Bool
  | some (.bool b) => !b
  | _ => false

def isArray : Option CJson → Bool
  | some (.array _) => true
  | _ => false

/-- The first `count` elements, which a loop `for (i = 0; i < count; i++)` visits. -/
def firstItems (node : Option CJson) (count : Int) : List CJson :=
  (children node).take count.toNat

end CJson

def member (json : Option CJson) (name : String) : Option CJson :=
  CJson.getObjectItem json (CString.lit name)

end Kaufbot
