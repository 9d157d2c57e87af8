import Whistleblower.Lib.Text

namespace json

/-- A JSON text as a tree. Numbers keep their token, and strings and member
    names keep the raw bytes between their quotes, so that a reader which skips a
    value need not interpret it. -/
inductive Value where
  | null
  | bool (value : Bool)
  | number (token : List UInt8)
  | string (raw : List UInt8)
  | array (elements : List Value)
  | object (members : List (List UInt8 × Value))

def is_space (b : UInt8) : Bool := b == 0x20 || b == 0x09 || b == 0x0a || b == 0x0d

def is_digit (b : UInt8) : Bool := 0x30 ≤ b && b ≤ 0x39

def skip_whitespace (input : List UInt8) : List UInt8 := input.dropWhile is_space

def hex_value (b : UInt8) : Option Nat :=
  if 0x30 ≤ b && b ≤ 0x39 then some (b.toNat - 0x30)
  else if 0x41 ≤ b && b ≤ 0x46 then some (b.toNat - 0x37)
  else if 0x61 ≤ b && b ≤ 0x66 then some (b.toNat - 0x57)
  else none

/-- The value of a four-digit hexadecimal escape. -/
def hex4 (h1 h2 h3 h4 : UInt8) : Option Nat := do
  let a ← hex_value h1
  let b ← hex_value h2
  let c ← hex_value h3
  let d ← hex_value h4
  some (4096 * a + 256 * b + 16 * c + d)

/-- The byte a two-character escape stands for. -/
def short_escape (b : UInt8) : Option UInt8 :=
  if b = 0x22 then some 0x22
  else if b = 0x5c then some 0x5c
  else if b = 0x2f then some 0x2f
  else if b = 0x62 then some 0x08
  else if b = 0x66 then some 0x0c
  else if b = 0x6e then some 0x0a
  else if b = 0x72 then some 0x0d
  else if b = 0x74 then some 0x09
  else none

/-- Put bytes in front of the token half of a token and the input after it. -/
def prepend (front : List UInt8) (split : List UInt8 × List UInt8) : List UInt8 × List UInt8 :=
  (front ++ split.1, split.2)

/-- The raw contents of a string whose opening quote has been read, and the
    input after its closing quote. Escapes are checked for their form only. -/
def string_token : List UInt8 → Option (List UInt8 × List UInt8)
  | [] => none
  | b :: rest =>
    if b = 0x22 then some ([], rest)
    else if b = 0x5c then
      match rest with
      | [] => none
      | e :: after =>
        if e = 0x75 then
          match after with
          | h1 :: h2 :: h3 :: h4 :: tail =>
            if (hex4 h1 h2 h3 h4).isSome then
              (string_token tail).map (prepend [b, e, h1, h2, h3, h4])
            else none
          | _ => none
        else if (short_escape e).isSome then (string_token after).map (prepend [b, e])
        else none
    else if b < 0x20 then none
    else (string_token rest).map (prepend [b])

/-- The UTF-8 bytes of the scalar value with this number. -/
def scalar_bytes (n : Nat) : List UInt8 := String.utf8EncodeChar (Char.ofNat n)

/-- Replace the escapes of raw string contents. A surrogate must be paired. -/
def unescape : List UInt8 → Option (List UInt8)
  | [] => some []
  | b :: rest =>
    if b = 0x5c then
      match rest with
      | [] => none
      | e :: after =>
        if e = 0x75 then
          match after with
          | h1 :: h2 :: h3 :: h4 :: tail =>
            match hex4 h1 h2 h3 h4 with
            | none => none
            | some n =>
              if 0xdc00 ≤ n && n ≤ 0xdfff then none
              else if 0xd800 ≤ n && n ≤ 0xdbff then
                match tail with
                | s :: u :: l1 :: l2 :: l3 :: l4 :: last =>
                  match hex4 l1 l2 l3 l4 with
                  | none => none
                  | some low =>
                    if s = 0x5c && u = 0x75 && 0xdc00 ≤ low && low ≤ 0xdfff then
                      (unescape last).map
                        (scalar_bytes (0x10000 + 0x400 * (n - 0xd800) + (low - 0xdc00)) ++ ·)
                    else none
                | _ => none
              else (unescape tail).map (scalar_bytes n ++ ·)
          | _ => none
        else
          match short_escape e with
          | none => none
          | some plain => (unescape after).map (plain :: ·)
    else (unescape rest).map (b :: ·)

/-- One or more digits, and the input after them. -/
def digits (input : List UInt8) : Option (List UInt8 × List UInt8) :=
  match input.span is_digit with
  | ([], _) => none
  | split => some split

/-- An integer part has no superfluous leading zero. -/
def integer_part (input : List UInt8) : Option (List UInt8 × List UInt8) := do
  let (whole, rest) ← digits input
  if whole.head? = some 0x30 ∧ whole.length ≠ 1 then none else some (whole, rest)

def fraction (input : List UInt8) : Option (List UInt8 × List UInt8) :=
  match input with
  | b :: rest => if b = 0x2e then (digits rest).map (prepend [b]) else some ([], input)
  | [] => some ([], [])

def exponent (input : List UInt8) : Option (List UInt8 × List UInt8) :=
  match input with
  | b :: rest =>
    if b = 0x65 ∨ b = 0x45 then
      match rest with
      | s :: after =>
        if s = 0x2b ∨ s = 0x2d then (digits after).map (prepend [b, s])
        else (digits rest).map (prepend [b])
      | [] => none
    else some ([], input)
  | [] => some ([], [])

def unsigned_token (input : List UInt8) : Option (List UInt8 × List UInt8) := do
  let (whole, afterWhole) ← integer_part input
  let (part, afterPart) ← fraction afterWhole
  let (power, rest) ← exponent afterPart
  some (whole ++ part ++ power, rest)

/-- A number token, and the input after it. -/
def number_token (input : List UInt8) : Option (List UInt8 × List UInt8) :=
  match input with
  | b :: rest => if b = 0x2d then (unsigned_token rest).map (prepend [b]) else unsigned_token input
  | [] => none

/-- A literal name, given the value it stands for. -/
def literal (name : String) (value : Value) (input : List UInt8) : Option (Value × List UInt8) :=
  if (text.bytes name).isPrefixOf input then some (value, input.drop (text.bytes name).length)
  else none

mutual

/-- Read one value, after any white space, and return the input after it. -/
def parse_value : Nat → List UInt8 → Option (Value × List UInt8)
  | 0, _ => none
  | fuel + 1, input =>
    match skip_whitespace input with
    | [] => none
    | b :: rest =>
      if b = 0x22 then (string_token rest).map fun split => (.string split.1, split.2)
      else if b = 0x5b then
        match skip_whitespace rest with
        | [] => none
        | c :: after =>
          if c = 0x5d then some (.array [], after)
          else (parse_elements fuel (c :: after)).map fun split => (.array split.1, split.2)
      else if b = 0x7b then
        match skip_whitespace rest with
        | [] => none
        | c :: after =>
          if c = 0x7d then some (.object [], after)
          else (parse_members fuel (c :: after)).map fun split => (.object split.1, split.2)
      else if b = 0x6e then literal "null" .null (b :: rest)
      else if b = 0x74 then literal "true" (.bool true) (b :: rest)
      else if b = 0x66 then literal "false" (.bool false) (b :: rest)
      else (number_token (b :: rest)).map fun split => (.number split.1, split.2)

/-- Read one or more array elements up to the closing bracket. -/
def parse_elements : Nat → List UInt8 → Option (List Value × List UInt8)
  | 0, _ => none
  | fuel + 1, input =>
    match parse_value fuel input with
    | none => none
    | some (value, rest) =>
      match skip_whitespace rest with
      | [] => none
      | c :: after =>
        if c = 0x2c then (parse_elements fuel after).map fun split => (value :: split.1, split.2)
        else if c = 0x5d then some ([value], after)
        else none

/-- Read one or more object members up to the closing brace. -/
def parse_members : Nat → List UInt8 → Option (List (List UInt8 × Value) × List UInt8)
  | 0, _ => none
  | fuel + 1, input =>
    match skip_whitespace input with
    | [] => none
    | quote :: rest =>
      if quote = 0x22 then
        match string_token rest with
        | none => none
        | some (name, afterName) =>
          match skip_whitespace afterName with
          | [] => none
          | colon :: afterColon =>
            if colon = 0x3a then
              match parse_value fuel afterColon with
              | none => none
              | some (value, afterValue) =>
                match skip_whitespace afterValue with
                | [] => none
                | c :: after =>
                  if c = 0x2c then
                    (parse_members fuel after).map fun split => ((name, value) :: split.1, split.2)
                  else if c = 0x7d then some ([(name, value)], after)
                  else none
            else none
      else none

end

/-- Read a whole text: one value with nothing but white space around it. Every
    bracket takes a byte, so the fuel cannot run out before the input does. -/
def parse (input : List UInt8) : Option Value :=
  match parse_value (2 * input.length + 2) input with
  | some (value, rest) => if skip_whitespace rest = [] then some value else none
  | none => none

end json
