import Mathlib.Tactic.Common

namespace base64

/-- The characters that stand for 0 to 63, in order. -/
def alphabet : List Char := "ABCDEFGHIJKLMNOPQRSTUVWXYZabcdefghijklmnopqrstuvwxyz0123456789+/".toList

/-- The six bits a character stands for. -/
def value (c : Char) : Option Nat := alphabet.idxOf? c

/-- The bytes of a group of four characters. Padding leaves bits over, which must be
    zero. -/
def group (c0 c1 c2 c3 : Char) : Option (List UInt8) := do
  let v0 ← value c0
  let v1 ← value c1
  if c3 = '=' then
    if c2 = '=' then
      if v1 % 16 = 0 then some [UInt8.ofNat (4 * v0 + v1 / 16)] else none
    else do
      let v2 ← value c2
      if v2 % 4 = 0 then some [UInt8.ofNat (4 * v0 + v1 / 16), UInt8.ofNat (16 * (v1 % 16) + v2 / 4)] else none
  else do
    let v2 ← value c2
    let v3 ← value c3
    some [UInt8.ofNat (4 * v0 + v1 / 16), UInt8.ofNat (16 * (v1 % 16) + v2 / 4),
      UInt8.ofNat (64 * (v2 % 4) + v3)]

/-- Decode a whole text. Only its last group may be padded. -/
def decode : List Char → Option (List UInt8)
  | [] => some []
  | c0 :: c1 :: c2 :: c3 :: rest =>
    if c3 = '=' ∧ rest ≠ [] then none
    else do
      let front ← group c0 c1 c2 c3
      let back ← decode rest
      some (front ++ back)
  | _ => none

/-- The character of a number below 64. -/
def letter (n : Nat) : Char := alphabet.getD n '='

/-- The padded text of bytes. -/
def encode : List UInt8 → List Char
  | [] => []
  | [b0] => [letter (b0.toNat / 4), letter (b0.toNat % 4 * 16), '=', '=']
  | [b0, b1] =>
    [letter (b0.toNat / 4), letter (b0.toNat % 4 * 16 + b1.toNat / 16), letter (b1.toNat % 16 * 4), '=']
  | b0 :: b1 :: b2 :: rest =>
    letter (b0.toNat / 4) :: letter (b0.toNat % 4 * 16 + b1.toNat / 16) ::
      letter (b1.toNat % 16 * 4 + b2.toNat / 64) :: letter (b2.toNat % 64) :: encode rest

theorem value_letter {n : Nat} (hn : n < 64) : value (letter n) = some n := by
  have hall : ∀ m < 64, value (letter m) = some m := by decide +kernel
  exact hall n hn

theorem letter_ne_pad {n : Nat} (hn : n < 64) : letter n ≠ '=' := by
  have hall : ∀ m < 64, letter m ≠ '=' := by decide +kernel
  exact hall n hn

theorem letter_ascii (n : Nat) : (letter n).toNat < 128 := by
  have hall : ∀ m < 64, (letter m).toNat < 128 := by decide +kernel
  by_cases hn : n < 64
  · exact hall n hn
  · have hlength : alphabet.length = 64 := by decide +kernel
    rw [letter, List.getD_eq_getElem?_getD, List.getElem?_eq_none (by omega)]
    decide

/-- A byte and padding. -/
theorem group_one (b0 : Nat) (hb0 : b0 < 256) :
    group (letter (b0 / 4)) (letter (b0 % 4 * 16)) '=' '=' = some [UInt8.ofNat b0] := by
  have hv0 := value_letter (n := b0 / 4) (by omega)
  have hv1 := value_letter (n := b0 % 4 * 16) (by omega)
  have hover : b0 % 4 * 16 % 16 = 0 := by omega
  have hfirst : 4 * (b0 / 4) + b0 % 4 * 16 / 16 = b0 := by omega
  simp only [group, hv0, hv1, Option.bind_eq_bind, Option.bind_some, ↓reduceIte, hover, hfirst]

/-- Two bytes and padding. -/
theorem group_two (b0 b1 : Nat) (hb0 : b0 < 256) (hb1 : b1 < 256) :
    group (letter (b0 / 4)) (letter (b0 % 4 * 16 + b1 / 16)) (letter (b1 % 16 * 4)) '=' =
      some [UInt8.ofNat b0, UInt8.ofNat b1] := by
  have hv0 := value_letter (n := b0 / 4) (by omega)
  have hv1 := value_letter (n := b0 % 4 * 16 + b1 / 16) (by omega)
  have hv2 := value_letter (n := b1 % 16 * 4) (by omega)
  have hpad := letter_ne_pad (n := b1 % 16 * 4) (by omega)
  have hover : b1 % 16 * 4 % 4 = 0 := by omega
  have hfirst : 4 * (b0 / 4) + (b0 % 4 * 16 + b1 / 16) / 16 = b0 := by omega
  have hsecond : 16 * ((b0 % 4 * 16 + b1 / 16) % 16) + b1 % 16 * 4 / 4 = b1 := by omega
  simp only [group, hv0, hv1, hv2, Option.bind_eq_bind, Option.bind_some, ↓reduceIte, hpad, hover, hfirst, hsecond]

/-- Three bytes. -/
theorem group_three (b0 b1 b2 : Nat) (hb0 : b0 < 256) (hb1 : b1 < 256) (hb2 : b2 < 256) :
    group (letter (b0 / 4)) (letter (b0 % 4 * 16 + b1 / 16)) (letter (b1 % 16 * 4 + b2 / 64))
      (letter (b2 % 64)) = some [UInt8.ofNat b0, UInt8.ofNat b1, UInt8.ofNat b2] := by
  have hv0 := value_letter (n := b0 / 4) (by omega)
  have hv1 := value_letter (n := b0 % 4 * 16 + b1 / 16) (by omega)
  have hv2 := value_letter (n := b1 % 16 * 4 + b2 / 64) (by omega)
  have hv3 := value_letter (n := b2 % 64) (by omega)
  have hpad := letter_ne_pad (n := b2 % 64) (by omega)
  have hfirst : 4 * (b0 / 4) + (b0 % 4 * 16 + b1 / 16) / 16 = b0 := by omega
  have hsecond : 16 * ((b0 % 4 * 16 + b1 / 16) % 16) + (b1 % 16 * 4 + b2 / 64) / 4 = b1 := by omega
  have hthird : 64 * ((b1 % 16 * 4 + b2 / 64) % 4) + b2 % 64 = b2 := by omega
  simp only [group, hv0, hv1, hv2, hv3, Option.bind_eq_bind, Option.bind_some, hpad, ↓reduceIte, hfirst, hsecond,
    hthird]

/-- A decoded last group. -/
theorem decode_last {c0 c1 c2 c3 : Char} {bytes : List UInt8} (hgroup : group c0 c1 c2 c3 = some bytes) :
    decode [c0, c1, c2, c3] = some bytes := by
  simp [decode, hgroup]

/-- A decoded group before others. -/
theorem decode_group {c0 c1 c2 c3 : Char} {front back : List UInt8} {rest : List Char}
    (hgroup : group c0 c1 c2 c3 = some front) (hpad : c3 ≠ '=') (hrest : decode rest = some back) :
    decode (c0 :: c1 :: c2 :: c3 :: rest) = some (front ++ back) := by
  simp [decode, hgroup, hpad, hrest]

/-- Decoding gives the bytes back. -/
theorem decode_encode (bytes : List UInt8) : decode (encode bytes) = some bytes := by
  induction bytes using encode.induct with
  | case1 => rfl
  | case2 b0 =>
    have hgroup := group_one b0.toNat b0.toNat_lt
    rw [UInt8.ofNat_toNat] at hgroup
    exact decode_last hgroup
  | case3 b0 b1 =>
    have hgroup := group_two b0.toNat b1.toNat b0.toNat_lt b1.toNat_lt
    rw [UInt8.ofNat_toNat, UInt8.ofNat_toNat] at hgroup
    exact decode_last hgroup
  | case4 b0 b1 b2 rest ih =>
    have hgroup := group_three b0.toNat b1.toNat b2.toNat b0.toNat_lt b1.toNat_lt b2.toNat_lt
    simp only [UInt8.ofNat_toNat] at hgroup
    exact decode_group hgroup (letter_ne_pad (Nat.mod_lt _ (by decide))) ih

theorem encode_ascii (bytes : List UInt8) : ∀ c ∈ encode bytes, c.toNat < 128 := by
  induction bytes using encode.induct with
  | case1 => simp [encode]
  | case2 b0 => simp [encode, letter_ascii]
  | case3 b0 b1 => simp [encode, letter_ascii]
  | case4 b0 b1 b2 rest ih => simpa [encode, letter_ascii] using ih

/-- How many pad characters end the text of so many bytes. -/
def padding (length : Nat) : Nat := (3 - length % 3) % 3

/-- The text of so many bytes is made of whole groups of four, and nothing but letters stands
    before its padding. -/
structure Padded (length : Nat) (chars : List Char) : Prop where
  groups : chars.length = 4 * ((length + 2) / 3)
  letters : ∃ letters, chars = letters ++ List.replicate (padding length) '=' ∧
    ∀ c ∈ letters, c ∈ alphabet ∧ c ≠ '='

theorem letter_mem {n : Nat} (hn : n < 64) : letter n ∈ alphabet ∧ letter n ≠ '=' := by
  refine ⟨?_, letter_ne_pad hn⟩
  have hlength : alphabet.length = 64 := by decide +kernel
  have hbound : n < alphabet.length := by omega
  rw [letter, List.getD_eq_getElem?_getD, List.getElem?_eq_getElem hbound]
  exact List.getElem_mem hbound

theorem padded_encode (bytes : List UInt8) : Padded bytes.length (encode bytes) := by
  induction bytes using encode.induct with
  | case1 => exact ⟨rfl, [], rfl, by simp⟩
  | case2 b0 =>
    have hb0 := b0.toNat_lt
    refine ⟨by simp [encode], [letter (b0.toNat / 4), letter (b0.toNat % 4 * 16)], rfl, ?_⟩
    simp only [List.forall_mem_cons, List.not_mem_nil, false_imp_iff, implies_true, and_true]
    exact ⟨letter_mem (by omega), letter_mem (by omega)⟩
  | case3 b0 b1 =>
    have hb0 := b0.toNat_lt
    have hb1 := b1.toNat_lt
    refine ⟨by simp [encode], [letter (b0.toNat / 4), letter (b0.toNat % 4 * 16 + b1.toNat / 16),
      letter (b1.toNat % 16 * 4)], rfl, ?_⟩
    simp only [List.forall_mem_cons, List.not_mem_nil, false_imp_iff, implies_true, and_true]
    exact ⟨letter_mem (by omega), letter_mem (by omega), letter_mem (by omega)⟩
  | case4 b0 b1 b2 rest ih =>
    have hb0 := b0.toNat_lt
    have hb1 := b1.toNat_lt
    have hb2 := b2.toNat_lt
    obtain ⟨hgroups, letters, hencode, hletters⟩ := ih
    have hpadding : padding (rest.length + 3) = padding rest.length := by
      rw [padding, Nat.add_mod_right, padding]
    refine ⟨?_, letter (b0.toNat / 4) :: letter (b0.toNat % 4 * 16 + b1.toNat / 16) ::
      letter (b1.toNat % 16 * 4 + b2.toNat / 64) :: letter (b2.toNat % 64) :: letters, ?_, ?_⟩
    · simp only [encode, List.length_cons, hgroups]
      omega
    · rw [encode, hencode, List.length_cons, List.length_cons, List.length_cons, hpadding]
      rfl
    · simp only [List.forall_mem_cons]
      exact ⟨letter_mem (by omega), letter_mem (by omega), letter_mem (by omega), letter_mem (by omega), hletters⟩

/-- The first six bits make the first character. -/
theorem encode_cons (b0 : UInt8) (rest : List UInt8) :
    ∃ after, encode (b0 :: rest) = letter (b0.toNat / 4) :: after := by
  match rest with
  | [] => exact ⟨_, rfl⟩
  | [_] => exact ⟨_, rfl⟩
  | _ :: _ :: _ => exact ⟨_, rfl⟩

end base64
