import StaticSite.Number.Double
/-!
# JSON values

A JSON value as a tree. Numbers are kept in three kinds: integers that are not
negative, negative integers, each in 64 bits, and all others as doubles.
-/

namespace StaticSite

inductive Json.Number where
  | natural (n : UInt64)
  | negative (n : Int64)
  | float (x : Double)
deriving DecidableEq, Repr

/-- A JSON value. The members of an object keep the order in which they were
written. -/
inductive Json where
  | null
  | bool (b : Bool)
  | number (n : Json.Number)
  | string (text : String)
  | array (items : List Json)
  | object (members : List (String × Json))
deriving Inhabited

end StaticSite
