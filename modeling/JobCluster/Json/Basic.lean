/-!
# JSON values

The values that a JSON document writes, as far as the formats of this library can tell them apart.

A string holds no text when one of its escapes is half of a surrogate pair: such a string is well
formed and may stand where it is ignored, but no field takes it. Numbers that are not written as
natural numbers are likewise all the same, because no field takes one.
-/

namespace JobCluster

/-- A JSON number. -/
inductive JsonNumber
  /-- A natural number, written without sign, fraction and exponent. -/
  | natural (n : Nat)
  /-- Any number with a sign, a fraction or an exponent. -/
  | other
  deriving DecidableEq, Repr

/-- A JSON value; the members of an object keep their order and may repeat a key. -/
inductive Json
  | null
  | bool (b : Bool)
  | num (n : JsonNumber)
  | str (text : Option String)
  | arr (items : List Json)
  | obj (members : List (Option String × Json))
  deriving Repr, Inhabited

namespace Json

/-- The string of a text. -/
def text (s : String) : Json := .str (some s)

/-- The number of a natural number. -/
def nat (n : Nat) : Json := .num (.natural n)

/-- The object of a list of fields. -/
def fields (pairs : List (String × Json)) : Json := .obj (pairs.map fun x => (some x.1, x.2))

/-- The value of an optional field, null when absent. -/
def optional {α : Type} (encode : α → Json) : Option α → Json
  | some a => encode a
  | none => .null

mutual

/-- Changes every text of a value, keys apart. -/
def mapTexts (f : String → String) : Json → Json
  | .str s => .str (s.map f)
  | .arr items => .arr (mapTextsItems f items)
  | .obj members => .obj (mapTextsMembers f members)
  | .null => .null
  | .bool b => .bool b
  | .num n => .num n

/-- Changes every text of the items of an array. -/
def mapTextsItems (f : String → String) : List Json → List Json
  | [] => []
  | item :: rest => mapTexts f item :: mapTextsItems f rest

/-- Changes every text of the values of an object. -/
def mapTextsMembers (f : String → String) :
    List (Option String × Json) → List (Option String × Json)
  | [] => []
  | (key, value) :: rest => (key, mapTexts f value) :: mapTextsMembers f rest

end

end Json

end JobCluster
