import JobCluster.Json.Basic
import JobCluster.Table
import JobCluster.Text.Natural
/-!
# Shapes of encoded values

How texts, numbers, tables, records and variants stand in JSON.

- A record is an object of its fields, in which unknown members are ignored and no known member
  stands twice, or the array of all its fields in order.
- A variant is its name; with a payload, or with null in the place of one, it is an object whose
  one member has the name of the variant.
-/

namespace JobCluster.Codec

open Json

/-! ## Simple values -/

/-- A text. -/
def text? : Json → Option String
  | .str s => s
  | _ => none

/-- A natural number of 64 bits. -/
def word? : Json → Option Nat
  | .num (.natural n) => if n < Text.wordLimit then some n else none
  | _ => none

/-- A truth value. -/
def bool? : Json → Option Bool
  | .bool b => some b
  | _ => none

/-- The text pairs of an object. -/
def textPairs? : List (Option String × Json) → Option (List (String × String))
  | [] => some []
  | (some key, .str (some value)) :: rest => (textPairs? rest).map ((key, value) :: ·)
  | _ => none

/-- A table of texts; the last of several members with one key counts. -/
def textTable? : Json → Option (Table String String)
  | .obj members => (textPairs? members).map Table.ofList
  | _ => none

/-- The object of a table of texts, in the order of its keys. -/
def ofTextTable (t : Table String String) : Json :=
  .fields (t.entries.map fun x => (x.1, .text x.2))

/-! ## Records -/

/-- Whether a field has to be there. -/
inductive Presence
  | required
  /-- The field may be missing from an object. -/
  | optional
  /-- The field may be missing from an object and from the end of an array. -/
  | defaulted
  deriving DecidableEq, Repr

/-- The names of the fields of a record, in order. -/
abbrev Layout := List (String × Presence)

/-- The value of a field among the members of an object; none if it is missing, and nothing at all
if it must not be missing or stands twice. -/
def member? (members : List (Option String × Json)) (name : String) (presence : Presence) :
    Option (Option Json) :=
  match members.filter fun member => member.1 == some name with
  | [] => if presence = .required then none else some none
  | [(_, value)] => some (some value)
  | _ => none

/-- The values of the fields in an array. -/
def items? : Layout → List Json → Option (List (Option Json))
  | [], [] => some []
  | [], _ :: _ => none
  | (_, presence) :: rest, [] =>
    if presence = .defaulted then (items? rest []).map (none :: ·) else none
  | _ :: rest, item :: items => (items? rest items).map (some item :: ·)

/-- The values of the fields of a record, in the order of the layout. -/
def Layout.read? (layout : Layout) : Json → Option (List (Option Json))
  | .obj members =>
    if members.all fun member => member.1.isSome then
      layout.mapM fun field => member? members field.1 field.2
    else none
  | .arr items => items? layout items
  | _ => none

/-- A field that must have a value. -/
def required {α : Type} (decode : Json → Option α) : Option Json → Option α
  | some j => decode j
  | none => none

/-- A field that may be missing or null. -/
def optional? {α : Type} (decode : Json → Option α) : Option Json → Option (Option α)
  | none => some none
  | some .null => some none
  | some j => (decode j).map some

/-- A field that has a default value when it is missing. -/
def orElse {α : Type} (default : α) (decode : Json → Option α) : Option Json → Option α
  | none => some default
  | some j => decode j

/-! ## Variants -/

/-- The name of a variant, and its payload if it has one. -/
def variant? : Json → Option (String × Option Json)
  | .str (some name) => some (name, none)
  | .obj [(some name, payload)] => some (name, some payload)
  | _ => none

/-- The variant with the name, out of variants without payload. -/
def named? {α : Type} (values : List α) (name : α → String) (text : String) : Option α :=
  values.find? fun a => name a == text

/-- A variant without payload, out of the given ones. -/
def plain? {α : Type} (values : List α) (name : α → String) (j : Json) : Option α :=
  match variant? j with
  | some (text, none) => named? values name text
  | some (text, some .null) => named? values name text
  | _ => none

/-- The object of a variant with a payload. -/
def withPayload (name : String) (payload : Json) : Json := .fields [(name, payload)]

end JobCluster.Codec
