import Microcomputer.Json.Reader
import Microcomputer.Json.Value

/-!
# Memory maps

Where the two devices of a machine sit, which must have different bases, and the JSON form of that
choice.  A field that is left out has its standard value.
-/

namespace Microcomputer

structure MemoryMap where
  ramBase : UInt16 := 0x0000
  charOutBase : UInt16 := 0xF000
  deriving DecidableEq

namespace MemoryMap

inductive Error
  | unreadable (reason : String)
  | malformed
  | overlap (base : UInt16)
  deriving DecidableEq

/-- The wording of the errors; what is wrong with a malformed text is not told. -/
def Error.message : Error → String
  | .unreadable reason => "I/O error: " ++ reason
  | .malformed => "invalid configuration"
  | .overlap base =>
      "RAM and character output both mapped at " ++ Text.hexLiteral 4 base.toNat

/-- The base that both devices have, if they have the same one. -/
def overlap? (map : MemoryMap) : Option UInt16 :=
  if map.ramBase = map.charOutBase then some map.ramBase else none

section Form

def fieldNames : List String :=
  ["ram_base", "char_out_base"]

def toJson (map : MemoryMap) : Json :=
  .object
    [("ram_base", .ofNat map.ramBase.toNat), ("char_out_base", .ofNat map.charOutBase.toNat)]

/-- A base, or the standard one if the field is missing. -/
def baseOr
    (standard : UInt16)
    (field : Option Json) :
    Option UInt16 :=
  match field with
  | none => some standard
  | some value => (value.naturalBelow? UInt16.size).map UInt16.ofNat

/-- The map that a JSON value stands for; the two bases may be equal. -/
def ofJson? (value : Json) : Option MemoryMap :=
  match value.fields? fieldNames with
  | some [ramBase, charOutBase] =>
      match baseOr ({} : MemoryMap).ramBase ramBase,
          baseOr ({} : MemoryMap).charOutBase charOutBase with
      | some ramBase, some charOutBase => some ⟨ramBase, charOutBase⟩
      | _, _ => none
  | _ => none

def text (map : MemoryMap) : String :=
  map.toJson.pretty

def ofText (text : String) : Except Error MemoryMap :=
  match (Json.ofText? text).bind ofJson? with
  | none => .error .malformed
  | some map =>
      match map.overlap? with
      | some base => .error (.overlap base)
      | none => .ok map

end Form

def summary (map : MemoryMap) : String :=
  "SystemConfig \x7b ram_base: " ++ Text.decimal map.ramBase.toNat
    ++ ", char_out_base: " ++ Text.decimal map.charOutBase.toNat ++ " \x7d"

end MemoryMap
end Microcomputer
