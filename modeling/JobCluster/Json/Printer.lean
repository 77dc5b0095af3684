import JobCluster.Json.Basic
/-!
# Writing JSON

The compact text of a value: no blanks, the members of an object in their order, and in strings
only the quote, the backslash and the control characters escaped.
-/

namespace JobCluster.Json

/-- The hexadecimal digits of a number below 65536, four of them. -/
def hexQuad (n : Nat) : List Char :=
  [Nat.digitChar (n / 4096 % 16), Nat.digitChar (n / 256 % 16), Nat.digitChar (n / 16 % 16),
   Nat.digitChar (n % 16)]

/-- A character as it stands inside a string. -/
def escapedChar (c : Char) : List Char :=
  if c = '"' then ['\\', '"']
  else if c = '\\' then ['\\', '\\']
  else if c = '\x08' then ['\\', 'b']
  else if c = '\x0c' then ['\\', 'f']
  else if c = '\n' then ['\\', 'n']
  else if c = '\r' then ['\\', 'r']
  else if c = '\t' then ['\\', 't']
  else if c.toNat < 0x20 then '\\' :: 'u' :: hexQuad c.toNat
  else [c]

/-- A string in quotes; one without a text is written as a lone half of a surrogate pair. -/
def stringChars : Option String → List Char
  | some s => '"' :: (s.toList.flatMap escapedChar ++ ['"'])
  | none => ['"', '\\', 'u', 'd', '8', '0', '0', '"']

/-- The characters of a number. -/
def numberChars : JsonNumber → List Char
  | .natural n => Nat.toDigits 10 n
  | .other => ['-', '0']

mutual

/-- The compact text of a value, as a list of characters. -/
def chars : Json → List Char
  | .null => ['n', 'u', 'l', 'l']
  | .bool true => ['t', 'r', 'u', 'e']
  | .bool false => ['f', 'a', 'l', 's', 'e']
  | .num n => numberChars n
  | .str s => stringChars s
  | .arr items => '[' :: itemsChars items
  | .obj members => '{' :: membersChars members

/-- The items of an array up to its closing bracket. -/
def itemsChars : List Json → List Char
  | [] => [']']
  | [item] => chars item ++ [']']
  | item :: rest => chars item ++ ',' :: itemsChars rest

/-- The members of an object up to its closing brace. -/
def membersChars : List (Option String × Json) → List Char
  | [] => ['}']
  | [(key, value)] => stringChars key ++ ':' :: (chars value ++ ['}'])
  | (key, value) :: rest => stringChars key ++ ':' :: (chars value ++ ',' :: membersChars rest)

end

/-- The compact text of a value. -/
def print (j : Json) : String := String.ofList (chars j)

end JobCluster.Json
