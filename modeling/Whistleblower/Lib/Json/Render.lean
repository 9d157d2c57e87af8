import Whistleblower.Lib.Json.Syntax

namespace json

def hex_digit (n : Nat) : UInt8 := UInt8.ofNat (Nat.digitChar n).toNat

/-- The escape of one scalar value: quotes, backslashes and the control
    characters below the space are escaped, and nothing else is. -/
def escape_char (c : Char) : List UInt8 :=
  let n := c.toNat
  if n = 0x22 then [0x5c, 0x22]
  else if n = 0x5c then [0x5c, 0x5c]
  else if n = 0x08 then [0x5c, 0x62]
  else if n = 0x09 then [0x5c, 0x74]
  else if n = 0x0a then [0x5c, 0x6e]
  else if n = 0x0c then [0x5c, 0x66]
  else if n = 0x0d then [0x5c, 0x72]
  else if n < 0x20 then [0x5c, 0x75, 0x30, 0x30, hex_digit (n / 16), hex_digit (n % 16)]
  else String.utf8EncodeChar c

def escape (s : String) : List UInt8 := s.toList.flatMap escape_char

/-- The decimal digits of a number, without a leading zero. -/
def decimal (n : Nat) : List UInt8 := (Nat.toDigits 10 n).map fun c => UInt8.ofNat c.toNat

namespace Value

def of_string (s : String) : Value := .string (escape s)

def of_nat (n : Nat) : Value := .number (decimal n)

mutual

/-- The compact text of a tree. -/
def render : Value → List UInt8
  | .null => text.bytes "null"
  | .bool true => text.bytes "true"
  | .bool false => text.bytes "false"
  | .number token => token
  | .string raw => 0x22 :: raw ++ [0x22]
  | .array [] => [0x5b, 0x5d]
  | .array (first :: rest) => 0x5b :: first.render ++ render_elements rest
  | .object [] => [0x7b, 0x7d]
  | .object ((name, value) :: rest) =>
    0x7b :: 0x22 :: name ++ 0x22 :: 0x3a :: value.render ++ render_members rest

/-- The elements after the first, each after its comma, and the closing bracket. -/
def render_elements : List Value → List UInt8
  | [] => [0x5d]
  | value :: rest => 0x2c :: value.render ++ render_elements rest

/-- The members after the first, each after its comma, and the closing brace. -/
def render_members : List (List UInt8 × Value) → List UInt8
  | [] => [0x7d]
  | (name, value) :: rest =>
    0x2c :: 0x22 :: name ++ 0x22 :: 0x3a :: value.render ++ render_members rest

end

/-- Raw string contents that a closing quote ends where they end. -/
def StringToken (raw : List UInt8) : Prop :=
  ∀ rest, string_token (raw ++ 0x22 :: rest) = some (raw, rest)

mutual

/-- A tree whose tokens are those a writer of strings and natural numbers makes. -/
def Written : Value → Prop
  | .null => True
  | .bool _ => True
  | .number token => ∃ n, token = decimal n
  | .string raw => StringToken raw
  | .array elements => WrittenElements elements
  | .object members => WrittenMembers members

def WrittenElements : List Value → Prop
  | [] => True
  | value :: rest => value.Written ∧ WrittenElements rest

def WrittenMembers : List (List UInt8 × Value) → Prop
  | [] => True
  | (name, value) :: rest => StringToken name ∧ value.Written ∧ WrittenMembers rest

end

mutual

/-- Fuel that reading the rendered tree takes. -/
def weight : Value → Nat
  | .array elements => 1 + weight_elements elements
  | .object members => 1 + weight_members members
  | _ => 1

def weight_elements : List Value → Nat
  | [] => 0
  | value :: rest => 1 + value.weight + weight_elements rest

def weight_members : List (List UInt8 × Value) → Nat
  | [] => 0
  | (_, value) :: rest => 1 + value.weight + weight_members rest

end

end Value

end json
