import Runtrue.Base.Double
import Runtrue.Base.Fixed

/-!
# JSON values

An object is the list of its members in key order, as the ordered map of the source iterates them.
-/

inductive JsonNumber
  | posInt (value : U64)
  | negInt (value : Int64)
  | float (value : F64)
deriving DecidableEq

inductive Json
  | null
  | bool (value : Bool)
  | number (value : JsonNumber)
  | string (value : String)
  | array (values : List Json)
  | object (members : List (String × Json))

namespace Json

def asObject : Json → Option (List (String × Json))
  | object members => some members
  | _ => none

def asStr : Json → Option String
  | string value => some value
  | _ => none

/-- The member of an object. -/
def get (value : Json) (key : String) : Option Json := value.asObject.bind (List.lookup key)

/-- The value at the end of a path of members. -/
def pointer (value : Json) (path : List String) : Option Json := path.foldlM get value

end Json

/-- The signed 64-bit integer that a number is, if it is one. -/
def JsonNumber.asI64 : JsonNumber → Option Int64
  | posInt value => if value.msb then none else some (Int64.ofBitVec value)
  | negInt value => some value
  | float _ => none
