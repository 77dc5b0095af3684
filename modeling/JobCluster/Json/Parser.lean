import JobCluster.Json.Basic
/-!
# Reading JSON

A reader of standard JSON. Between the parts of a value stand blanks, tabs and line ends; inside a
string no raw control character stands.
-/

namespace JobCluster.Json

/-- The blanks that may stand between the parts of a document. -/
def isSpace (c : Char) : Bool := c = ' ' || c = '\t' || c = '\n' || c = '\r'

/-- Takes off the blanks in front. -/
def skipSpace (cs : List Char) : List Char := cs.dropWhile isSpace

/-! ## Strings -/

/-- The value of a hexadecimal digit. -/
def hexDigit? (c : Char) : Option Nat :=
  if '0' ≤ c ∧ c ≤ '9' then some (c.toNat - '0'.toNat)
  else if 'a' ≤ c ∧ c ≤ 'f' then some (c.toNat - 'a'.toNat + 10)
  else if 'A' ≤ c ∧ c ≤ 'F' then some (c.toNat - 'A'.toNat + 10)
  else none

/-- The number that four hexadecimal digits write. -/
def hexQuad? (a b c d : Char) : Option Nat := do
  let a ← hexDigit? a
  let b ← hexDigit? b
  let c ← hexDigit? c
  let d ← hexDigit? d
  return ((a * 16 + b) * 16 + c) * 16 + d

/-- The first half of a surrogate pair. -/
def isHighHalf (unit : Nat) : Bool := 0xD800 ≤ unit && unit < 0xDC00

/-- The second half of a surrogate pair. -/
def isLowHalf (unit : Nat) : Bool := 0xDC00 ≤ unit && unit < 0xE000

/-- The second half of a surrogate pair, if an escape of one stands in front. -/
def lowHalf? : List Char → Option (Nat × List Char)
  | '\\' :: 'u' :: a :: b :: c :: d :: rest =>
    match hexQuad? a b c d with
    | some unit => if isLowHalf unit then some (unit, rest) else none
    | none => none
  | _ => none

/-- The character of a numeric escape and of the second half of the pair behind it; a half that
has no partner is no character. -/
def unitChar (unit : Nat) (rest : List Char) : Option Char × List Char :=
  if isHighHalf unit then
    match lowHalf? rest with
    | some (low, rest) => (some (Char.ofNat (0x10000 + (unit - 0xD800) * 0x400 + (low - 0xDC00))), rest)
    | none => (none, rest)
  else if isLowHalf unit then (none, rest)
  else (some (Char.ofNat unit), rest)

/-- Reads an escape behind its backslash. -/
def escape? : List Char → Option (Option Char × List Char)
  | '"' :: rest => some (some '"', rest)
  | '\\' :: rest => some (some '\\', rest)
  | '/' :: rest => some (some '/', rest)
  | 'b' :: rest => some (some '\x08', rest)
  | 'f' :: rest => some (some '\x0c', rest)
  | 'n' :: rest => some (some '\n', rest)
  | 'r' :: rest => some (some '\r', rest)
  | 't' :: rest => some (some '\t', rest)
  | 'u' :: a :: b :: c :: d :: rest => (hexQuad? a b c d).map fun unit => unitChar unit rest
  | _ => none

/-- The second half of a pair of escapes uses characters up. -/
theorem length_lowHalf? {cs rest : List Char} {unit : Nat} (h : lowHalf? cs = some (unit, rest)) :
    rest.length ≤ cs.length := by
  unfold lowHalf? at h
  split at h
  · split at h
    · split at h
      · simp only [Option.some.injEq, Prod.mk.injEq] at h
        simp [← h.2]
        omega
      · simp at h
    · simp at h
  · simp at h

/-- The characters after an escaped unit are no more than before. -/
theorem length_unitChar (unit : Nat) (rest : List Char) :
    (unitChar unit rest).2.length ≤ rest.length := by
  unfold unitChar
  split
  · split
    · next h => exact length_lowHalf? h
    · simp
  · split <;> simp

/-- An escape uses at least one character up. -/
theorem length_escape? {cs rest : List Char} {c : Option Char} (h : escape? cs = some (c, rest)) :
    rest.length < cs.length := by
  unfold escape? at h
  split at h
  case h_9 a b c d r =>
    obtain ⟨unit, _, hu⟩ := Option.map_eq_some_iff.mp h
    have hr : rest.length ≤ r.length := by simpa [hu] using length_unitChar unit r
    simp only [List.length_cons]
    omega
  all_goals simp_all

/-- Reads a string behind its opening quote. The characters already read stand in `done`, last one
first; there are none when half a pair was among them. -/
def stringTail? (done : Option (List Char)) : List Char → Option (Option String × List Char)
  | [] => none
  | c :: rest =>
    if c = '"' then some (done.map fun cs => String.ofList cs.reverse, rest)
    else if c = '\\' then
      match _h : escape? rest with
      | some (c, after) => stringTail? (done.bind fun cs => c.map (· :: cs)) after
      | none => none
    else if c.toNat < 0x20 then none
    else stringTail? (done.map (c :: ·)) rest
  termination_by cs => cs.length
  decreasing_by
    · have := length_escape? _h
      simp only [List.length_cons]
      omega
    · simp

/-! ## Numbers -/

/-- Takes a run of digits off, which must not be empty. -/
def digits? (cs : List Char) : Option (List Char × List Char) :=
  match cs.takeWhile Char.isDigit with
  | [] => none
  | ds => some (ds, cs.dropWhile Char.isDigit)

/-- Reads the integral part of a number: one nought, or a run of digits that does not start with
one. -/
def integral? (cs : List Char) : Option (Nat × List Char) :=
  match digits? cs with
  | some (['0'], rest) => some (0, rest)
  | some ('0' :: _ :: _, _) => none
  | some (ds, rest) => some (Nat.ofDigitChars 10 ds 0, rest)
  | none => none

/-- Takes a fraction off; tells whether there was one. -/
def fraction? : List Char → Option (Bool × List Char)
  | '.' :: rest => (digits? rest).map fun x => (true, x.2)
  | cs => some (false, cs)

/-- Takes an exponent off; tells whether there was one. -/
def exponent? : List Char → Option (Bool × List Char)
  | c :: rest =>
    if c = 'e' ∨ c = 'E' then
      match rest with
      | '+' :: rest => (digits? rest).map fun x => (true, x.2)
      | '-' :: rest => (digits? rest).map fun x => (true, x.2)
      | rest => (digits? rest).map fun x => (true, x.2)
    else some (false, c :: rest)
  | [] => some (false, [])

/-- Reads a number without its sign. -/
def unsigned? (cs : List Char) : Option (JsonNumber × List Char) := do
  let (n, rest) ← integral? cs
  let (fractional, rest) ← fraction? rest
  let (scaled, rest) ← exponent? rest
  return (if fractional || scaled then .other else .natural n, rest)

/-- Reads a number. -/
def number? : List Char → Option (JsonNumber × List Char)
  | '-' :: rest => (unsigned? rest).map fun x => (.other, x.2)
  | cs => unsigned? cs

/-! ## Values -/

mutual

/-- Reads a value; the first argument bounds the depth of nesting. -/
def value? : Nat → List Char → Option (Json × List Char)
  | 0, _ => none
  | depth + 1, cs =>
    match skipSpace cs with
    | 'n' :: 'u' :: 'l' :: 'l' :: rest => some (.null, rest)
    | 't' :: 'r' :: 'u' :: 'e' :: rest => some (.bool true, rest)
    | 'f' :: 'a' :: 'l' :: 's' :: 'e' :: rest => some (.bool false, rest)
    | '"' :: rest => (stringTail? (some []) rest).map fun x => (.str x.1, x.2)
    | '[' :: rest =>
      match skipSpace rest with
      | ']' :: rest => some (.arr [], rest)
      | rest => (items? depth rest).map fun x => (.arr x.1, x.2)
    | '{' :: rest =>
      match skipSpace rest with
      | '}' :: rest => some (.obj [], rest)
      | rest => (members? depth rest).map fun x => (.obj x.1, x.2)
    | rest => (number? rest).map fun x => (.num x.1, x.2)

/-- Reads the items of an array, of which there is at least one, up to the closing bracket. -/
def items? : Nat → List Char → Option (List Json × List Char)
  | 0, _ => none
  | depth + 1, cs => do
    let (item, rest) ← value? depth cs
    match skipSpace rest with
    | ']' :: rest => some ([item], rest)
    | ',' :: rest => (items? depth rest).map fun x => (item :: x.1, x.2)
    | _ => none

/-- Reads the members of an object, of which there is at least one, up to the closing brace. -/
def members? : Nat → List Char → Option (List (Option String × Json) × List Char)
  | 0, _ => none
  | depth + 1, cs =>
    match skipSpace cs with
    | '"' :: rest => do
      let (key, rest) ← stringTail? (some []) rest
      match skipSpace rest with
      | ':' :: rest =>
        let (value, rest) ← value? depth rest
        match skipSpace rest with
        | '}' :: rest => some ([(key, value)], rest)
        | ',' :: rest => (members? depth rest).map fun x => ((key, value) :: x.1, x.2)
        | _ => none
      | _ => none
    | _ => none

end

/-- Reads a document: one value with blanks around it. Every step of the reader into a value, an
item or a member takes off a character or two, so twice the length bounds the depth. -/
def ofChars? (cs : List Char) : Option Json :=
  match value? (2 * cs.length + 1) cs with
  | some (j, rest) => if skipSpace rest = [] then some j else none
  | none => none

/-- Reads a document. -/
def parse (s : String) : Option Json := ofChars? s.toList

end JobCluster.Json
