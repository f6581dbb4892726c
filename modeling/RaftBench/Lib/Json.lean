import Mathlib.Data.Option.Basic

/-!
# JSON values

The values a JSON parser produces, with the few accessors a client uses on them.  An object is an
association list; `get` answers only on objects, as accessors on dynamically typed values do.
-/

/-- A number, by the machine type a parser stores it in.  The value of a float is never read. -/
inductive JsonNumber where
  | posInt (n : UInt64)
  | negInt (n : Int64)
  | float
  deriving DecidableEq, Repr

inductive Json where
  | null
  | bool (b : Bool)
  | number (n : JsonNumber)
  | string (s : String)
  | array (items : List Json)
  | object (fields : List (String × Json))

namespace Json

/-- The field of an object. -/
def get (key : String) : Json → Option Json
  | object fields => fields.lookup key
  | _ => none

def asStr : Json → Option String
  | string s => some s
  | _ => none

def isNull : Json → Bool
  | null => true
  | _ => false

def asU64 : Json → Option UInt64
  | number (.posInt n) => some n
  | _ => none

end Json
