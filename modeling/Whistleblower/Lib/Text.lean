import Mathlib.Algebra.Group.Nat.Defs
import Mathlib.Tactic.Common
import Mathlib.Data.List.DropRight

namespace text

/-- The UTF-8 bytes of a string. -/
def bytes (s : String) : List UInt8 := s.toList.flatMap String.utf8EncodeChar

/-- Decode UTF-8 one scalar value at a time. A scalar value takes at least one
    byte, so as many rounds as there are bytes are enough. -/
def decodeChars : Nat → List UInt8 → Option (List Char)
  | _, [] => some []
  | 0, _ :: _ => none
  | fuel + 1, first :: tail => do
    let c ← ((first :: tail).take 4).toByteArray.utf8DecodeChar? 0
    let rest ← decodeChars fuel ((first :: tail).drop c.utf8Size)
    some (c :: rest)

/-- Strict UTF-8 decoding: overlong forms, surrogates and truncated sequences
    are refused. -/
def from_utf8 (input : List UInt8) : Option String :=
  (decodeChars input.length input).map String.ofList

theorem decodeChar_encodeChar (c : Char) (rest : List UInt8) :
    ((String.utf8EncodeChar c ++ rest).take 4).toByteArray.utf8DecodeChar? 0 = some c := by
  have hlen : (String.utf8EncodeChar c).length ≤ 4 := by
    rw [String.length_utf8EncodeChar]
    exact c.utf8Size_le_four
  rw [List.take_append, List.take_of_length_le hlen, List.toByteArray_append]
  exact ByteArray.utf8DecodeChar?_utf8EncodeChar_append

theorem encodeChar_of_decodeChar {c : Char} {input : List UInt8}
    (hdecode : (input.take 4).toByteArray.utf8DecodeChar? 0 = some c) :
    ∃ rest, input = String.utf8EncodeChar c ++ rest := by
  obtain ⟨tail, htail⟩ := ByteArray.exists_of_utf8DecodeChar?_eq_some hdecode
  have htake : input.take 4 = String.utf8EncodeChar c ++ tail.data.toList := by
    have h := congrArg (fun b => b.data.toList) htail
    simpa using h
  refine ⟨tail.data.toList ++ input.drop 4, ?_⟩
  rw [← List.append_assoc, ← htake, List.take_append_drop]

theorem decodeChars_encode (chars : List Char) (fuel : Nat)
    (hfuel : (chars.flatMap String.utf8EncodeChar).length ≤ fuel) :
    decodeChars fuel (chars.flatMap String.utf8EncodeChar) = some chars := by
  induction chars generalizing fuel with
  | nil => cases fuel <;> rfl
  | cons c rest ih =>
    have hpos := c.utf8Size_pos
    rw [List.flatMap_cons, List.length_append, String.length_utf8EncodeChar] at hfuel
    obtain ⟨fuel, rfl⟩ : ∃ smaller, fuel = smaller + 1 := ⟨fuel - 1, by omega⟩
    cases hinput : (c :: rest).flatMap String.utf8EncodeChar with
    | nil =>
      have h := congrArg List.length hinput
      rw [List.flatMap_cons, List.length_append, String.length_utf8EncodeChar, List.length_nil] at h
      omega
    | cons first tail =>
      rw [decodeChars, ← hinput, List.flatMap_cons, decodeChar_encodeChar]
      have hdrop : (String.utf8EncodeChar c ++ rest.flatMap String.utf8EncodeChar).drop c.utf8Size =
          rest.flatMap String.utf8EncodeChar := by
        rw [← String.length_utf8EncodeChar c, List.drop_left]
      simp only [Option.bind_eq_bind, Option.bind_some, hdrop, ih fuel (by omega)]

theorem encode_of_decodeChars {fuel : Nat} {input : List UInt8} {chars : List Char}
    (hdecode : decodeChars fuel input = some chars) :
    chars.flatMap String.utf8EncodeChar = input := by
  induction fuel generalizing input chars with
  | zero =>
    cases input with
    | nil => cases hdecode; rfl
    | cons first tail => cases hdecode
  | succ fuel ih =>
    cases input with
    | nil => cases hdecode; rfl
    | cons first tail =>
      simp only [decodeChars, Option.bind_eq_bind, Option.bind_eq_some_iff] at hdecode
      obtain ⟨c, hchar, rest, hrest, hchars⟩ := hdecode
      cases hchars
      obtain ⟨remaining, hinput⟩ := encodeChar_of_decodeChar hchar
      rw [hinput, ← String.length_utf8EncodeChar c, List.drop_left] at hrest
      rw [List.flatMap_cons, ih hrest, hinput]

@[simp] theorem from_utf8_bytes (s : String) : from_utf8 (bytes s) = some s := by
  simp [from_utf8, bytes, decodeChars_encode]

theorem bytes_of_from_utf8 {input : List UInt8} {s : String} (hdecode : from_utf8 input = some s) :
    bytes s = input := by
  obtain ⟨chars, hchars, rfl⟩ := Option.map_eq_some_iff.mp hdecode
  rw [bytes, String.toList_ofList]
  exact encode_of_decodeChars hchars

/-- Bytes that are those of some text. -/
def Valid (input : List UInt8) : Prop := ∃ s, bytes s = input

theorem Valid.append {front back : List UInt8} (hfront : Valid front) (hback : Valid back) :
    Valid (front ++ back) := by
  obtain ⟨first, rfl⟩ := hfront
  obtain ⟨second, rfl⟩ := hback
  exact ⟨first ++ second, by rw [bytes, String.toList_append, List.flatMap_append, bytes, bytes]⟩

theorem valid_nil : Valid [] := ⟨"", rfl⟩

theorem valid_encodeChar (c : Char) : Valid (String.utf8EncodeChar c) :=
  ⟨String.singleton c, by simp [bytes]⟩

theorem valid_flatMap {A : Type} {parts : List A} {f : A → List UInt8} (hparts : ∀ part ∈ parts, Valid (f part)) :
    Valid (parts.flatMap f) := by
  induction parts with
  | nil => exact valid_nil
  | cons part rest ih =>
    obtain ⟨hpart, hrest⟩ := List.forall_mem_cons.mp hparts
    exact hpart.append (ih hrest)

theorem valid_ascii {b : UInt8} (hascii : b.toNat < 0x80) : Valid [b] := by
  refine ⟨String.singleton (Char.ofNat b.toNat), ?_⟩
  have hall : ∀ n < 0x80, String.utf8EncodeChar (Char.ofNat n) = [UInt8.ofNat n] := by decide +kernel
  simp [bytes, hall _ hascii]

theorem Valid.cons {b : UInt8} {rest : List UInt8} (hrest : Valid rest) (hascii : b.toNat < 0x80) :
    Valid (b :: rest) :=
  (valid_ascii hascii).append hrest

/-- The Unicode `White_Space` property. -/
def is_whitespace (c : Char) : Bool :=
  let n := c.toNat
  (0x09 ≤ n && n ≤ 0x0d) || n == 0x20 || n == 0x85 || n == 0xa0 || n == 0x1680 ||
    (0x2000 ≤ n && n ≤ 0x200a) || n == 0x2028 || n == 0x2029 || n == 0x202f || n == 0x205f ||
    n == 0x3000

def trimChars (chars : List Char) : List Char :=
  (chars.dropWhile is_whitespace).rdropWhile is_whitespace

/-- The string without its leading and trailing white space. -/
def trim (s : String) : String := String.ofList (trimChars s.toList)

theorem dropWhile_trimChars (chars : List Char) :
    (trimChars chars).dropWhile is_whitespace = trimChars chars := by
  have hprefix := List.rdropWhile_prefix is_whitespace (chars.dropWhile is_whitespace)
  change trimChars chars <+: _ at hprefix
  cases htrim : trimChars chars with
  | nil => rfl
  | cons first rest =>
    obtain ⟨dropped, hdropped⟩ := hprefix
    rw [htrim, List.cons_append] at hdropped
    have hfirst : is_whitespace first = false := by
      have h := List.head_dropWhile_not (l := chars) is_whitespace (by simp [← hdropped])
      simpa [← hdropped] using h
    simp [hfirst]

theorem trimChars_trimChars (chars : List Char) : trimChars (trimChars chars) = trimChars chars := by
  rw [trimChars, dropWhile_trimChars, trimChars, List.rdropWhile_idempotent]

/-- Trimming is idempotent. -/
@[simp] theorem trim_trim (s : String) : trim (trim s) = trim s := by
  simp [trim, trimChars_trimChars]

def starts_with (s : String) (c : Char) : Bool := s.toList.head? == some c

/-- The lines of a text, without their line feeds and without a carriage return
    directly before one. A last line may lack its line feed, and then keeps a
    final carriage return. The accumulator holds the current line reversed. -/
def lineChars : List Char → List Char → List (List Char)
  | [], [] => []
  | current@(_ :: _), [] => [current.reverse]
  | current, c :: rest =>
    if c = '\n' then
      (match current with
        | '\r' :: before => before.reverse
        | _ => current.reverse) :: lineChars [] rest
    else lineChars (c :: current) rest

def lines (s : String) : List String := (lineChars [] s.toList).map String.ofList

/-- A byte below 128 encodes nothing but the character of that number. -/
theorem toNat_of_mem_encodeChar {c : Char} {b : UInt8} (hmem : b ∈ String.utf8EncodeChar c)
    (hascii : b.toNat < 0x80) : c.toNat = b.toNat := by
  have hbyte : ∀ n : Nat, b = UInt8.ofNat n → n % 256 = b.toNat := by
    rintro n rfl
    rfl
  change c.val.toNat = b.toNat
  unfold String.utf8EncodeChar at hmem
  dsimp only at hmem
  split at hmem
  · have hlow := hbyte _ (List.mem_singleton.mp hmem)
    omega
  · exfalso
    split at hmem
    · simp only [List.mem_cons, List.not_mem_nil, or_false] at hmem
      rcases hmem with h | h <;> have := hbyte _ h <;> omega
    · split at hmem
      · simp only [List.mem_cons, List.not_mem_nil, or_false] at hmem
        rcases hmem with h | h | h <;> have := hbyte _ h <;> omega
      · simp only [List.mem_cons, List.not_mem_nil, or_false] at hmem
        rcases hmem with h | h | h | h <;> have := hbyte _ h <;> omega

/-- A text begins with the character that its first byte encodes. -/
theorem head?_of_bytes {s : String} {b : UInt8} (hfirst : (bytes s).head? = some b) (hascii : b.toNat < 0x80) :
    ∃ c ∈ s.toList.head?, c.toNat = b.toNat := by
  rw [bytes] at hfirst
  cases hchars : s.toList with
  | nil => simp [hchars] at hfirst
  | cons c rest =>
    rw [hchars, List.flatMap_cons, List.head?_append] at hfirst
    refine ⟨c, rfl, toNat_of_mem_encodeChar (List.mem_of_mem_head? ?_) hascii⟩
    cases hencode : String.utf8EncodeChar c with
    | nil => exact absurd hencode (by simp)
    | cons first others => simpa [hencode] using hfirst

/-- A text ends with the character that its last byte encodes. -/
theorem getLast?_of_bytes {s : String} {b : UInt8} (hlast : (bytes s).getLast? = some b) (hascii : b.toNat < 0x80) :
    ∃ c ∈ s.toList.getLast?, c.toNat = b.toNat := by
  rw [bytes] at hlast
  cases hchars : s.toList.getLast? with
  | none => simp [List.getLast?_eq_none_iff.mp hchars] at hlast
  | some c =>
    obtain ⟨init, hinit⟩ := List.getLast?_eq_some_iff.mp hchars
    rw [hinit, List.flatMap_append, List.flatMap_singleton, List.getLast?_append] at hlast
    refine ⟨c, rfl, toNat_of_mem_encodeChar (List.mem_of_getLast? ?_) hascii⟩
    cases hencode : (String.utf8EncodeChar c).getLast? with
    | none => exact absurd (List.getLast?_eq_none_iff.mp hencode) (by simp)
    | some last => simpa [hencode] using hlast

/-- The byte of a line feed encodes nothing but a line feed. -/
theorem eq_newline_of_mem_encodeChar {c : Char} (hmem : 10 ∈ String.utf8EncodeChar c) : c = '\n' :=
  Char.toNat_inj.mp (toNat_of_mem_encodeChar hmem (by decide))

/-- Bytes fall apart at a line feed as their characters do. -/
theorem split_newline {chars : List Char} {front back : List UInt8}
    (hbytes : chars.flatMap String.utf8EncodeChar = front ++ 10 :: back) :
    ∃ before after, chars = before ++ '\n' :: after ∧ before.flatMap String.utf8EncodeChar = front ∧
      after.flatMap String.utf8EncodeChar = back := by
  induction chars generalizing front with
  | nil => cases front <;> cases hbytes
  | cons c rest ih =>
    rw [List.flatMap_cons] at hbytes
    by_cases hc : c = '\n'
    · subst hc
      have hnewline : String.utf8EncodeChar '\n' = [10] := by decide
      rw [hnewline, List.singleton_append] at hbytes
      cases front with
      | nil =>
        obtain ⟨_, hrest⟩ := List.cons.inj hbytes
        exact ⟨[], rest, rfl, rfl, hrest⟩
      | cons first front =>
        obtain ⟨rfl, hrest⟩ := List.cons.inj hbytes
        obtain ⟨before, after, rfl, rfl, hafter⟩ := ih hrest
        refine ⟨'\n' :: before, after, rfl, ?_, hafter⟩
        rw [List.flatMap_cons, hnewline, List.singleton_append]
    · have hnone : 10 ∉ String.utf8EncodeChar c := fun hmem => hc (eq_newline_of_mem_encodeChar hmem)
      have hfront : ∃ middle, front = String.utf8EncodeChar c ++ middle ∧
          rest.flatMap String.utf8EncodeChar = middle ++ 10 :: back := by
        obtain ⟨middle, hfront, hrest⟩ | ⟨middle, hsplit, hrest⟩ := List.append_eq_append_iff.mp hbytes
        · exact ⟨middle, hfront, hrest⟩
        · cases middle with
          | nil =>
            rw [List.append_nil] at hsplit
            exact ⟨[], by rw [hsplit, List.append_nil], hrest.symm⟩
          | cons first middle =>
            obtain ⟨rfl, _⟩ := List.cons.inj hrest
            exact absurd (hsplit ▸ List.mem_append_right front List.mem_cons_self) hnone
      obtain ⟨middle, rfl, hrest⟩ := hfront
      obtain ⟨before, after, rfl, rfl, hafter⟩ := ih hrest
      exact ⟨c :: before, after, rfl, rfl, hafter⟩

theorem flatMap_encodeChar_injective {first second : List Char}
    (hequal : first.flatMap String.utf8EncodeChar = second.flatMap String.utf8EncodeChar) : first = second := by
  have hfirst := decodeChars_encode first _ le_rfl
  have hsecond := decodeChars_encode second _ le_rfl
  rw [hequal, hsecond] at hfirst
  exact (Option.some.inj hfirst).symm

/-- A line feed ends the current line, and takes a carriage return before it along. -/
theorem lineChars_newline (current rest : List Char) :
    ∃ line, lineChars current ('\n' :: rest) = line :: lineChars [] rest ∧
      (current.reverse = line ∨ current.reverse = line ++ ['\r']) := by
  cases current with
  | nil => exact ⟨[], rfl, .inl rfl⟩
  | cons last before =>
    refine ⟨_, rfl, ?_⟩
    split
    · rename_i heq
      cases heq
      exact .inr List.reverse_cons
    · exact .inl rfl

theorem lineChars_cons {c : Char} (hc : c ≠ '\n') (current rest : List Char) :
    lineChars current (c :: rest) = lineChars (c :: current) rest := by
  cases current <;> exact if_neg hc

/-- The lines after a line feed do not depend on what is before it. -/
theorem lineChars_append_newline (current before after : List Char) :
    ∃ front, lineChars current (before ++ '\n' :: after) = front ++ lineChars [] after := by
  induction before generalizing current with
  | nil =>
    obtain ⟨line, hline, _⟩ := lineChars_newline current after
    exact ⟨[line], hline⟩
  | cons c rest ih =>
    rw [List.cons_append]
    by_cases hc : c = '\n'
    · subst hc
      obtain ⟨line, hline, _⟩ := lineChars_newline current (rest ++ '\n' :: after)
      obtain ⟨front, hfront⟩ := ih []
      exact ⟨line :: front, by rw [hline, hfront, List.cons_append]⟩
    · rw [lineChars_cons hc]
      exact ih _

/-- What stands before the first line feed is the first line, but for a carriage return at its
    end. -/
theorem lineChars_break {line : List Char} (hnewline : '\n' ∉ line) (current after : List Char) :
    ∃ kept, lineChars current (line ++ '\n' :: after) = kept :: lineChars [] after ∧
      (current.reverse ++ line = kept ∨ current.reverse ++ line = kept ++ ['\r']) := by
  induction line generalizing current with
  | nil =>
    obtain ⟨kept, hline, hkept⟩ := lineChars_newline current after
    exact ⟨kept, hline, by rwa [List.append_nil]⟩
  | cons c rest ih =>
    rw [List.mem_cons, not_or] at hnewline
    obtain ⟨kept, hline, hkept⟩ := ih hnewline.2 (c :: current)
    refine ⟨kept, by rw [List.cons_append, lineChars_cons (Ne.symm hnewline.1), hline], ?_⟩
    rwa [List.reverse_cons, List.append_assoc, List.singleton_append] at hkept

/-- A line that holds neither a line feed nor a carriage return is read as it is. -/
theorem lineChars_line {line : List Char} (hnewline : '\n' ∉ line) (hreturn : '\r' ∉ line) (after : List Char) :
    lineChars [] (line ++ '\n' :: after) = line :: lineChars [] after := by
  obtain ⟨kept, hline, hkept⟩ := lineChars_break hnewline [] after
  rw [List.reverse_nil, List.nil_append] at hkept
  obtain rfl | rfl := hkept
  · exact hline
  · exact absurd (List.mem_append_right kept List.mem_cons_self) hreturn

/-- A last line without a line feed. -/
theorem lineChars_end {line : List Char} (hnewline : '\n' ∉ line) (current : List Char)
    (hnonempty : current.reverse ++ line ≠ []) : lineChars current line = [current.reverse ++ line] := by
  induction line generalizing current with
  | nil =>
    rw [List.append_nil] at hnonempty ⊢
    cases current with
    | nil => exact absurd rfl hnonempty
    | cons last before => rfl
  | cons c rest ih =>
    rw [List.mem_cons, not_or] at hnewline
    rw [lineChars_cons (Ne.symm hnewline.1), ih hnewline.2 _ (by simp), List.reverse_cons, List.append_assoc,
      List.singleton_append]

/-- A line of its own in the bytes of a text is a line of the text. -/
theorem mem_lines {s line : String} {front back : List UInt8} (hbytes : bytes s = front ++ bytes line ++ 10 :: back)
    (hfront : ∀ last ∈ front.getLast?, last = 10) (hnewline : '\n' ∉ line.toList) (hreturn : '\r' ∉ line.toList) :
    line ∈ lines s := by
  have hlines : ∃ head after, lineChars [] s.toList = head ++ lineChars [] (line.toList ++ '\n' :: after) := by
    obtain ⟨before, after, hs, hbefore, _⟩ := split_newline hbytes
    cases hlast : front.getLast? with
    | none =>
      rw [List.getLast?_eq_none_iff.mp hlast, List.nil_append] at hbefore
      refine ⟨[], after, ?_⟩
      rw [hs, flatMap_encodeChar_injective hbefore, List.nil_append]
    | some last =>
      obtain ⟨init, hinit⟩ := List.getLast?_eq_some_iff.mp hlast
      rw [hinit, hfront last hlast, List.append_assoc, List.singleton_append] at hbefore
      obtain ⟨earlier, middle, rfl, _, hmiddle⟩ := split_newline hbefore
      obtain ⟨head, hhead⟩ := lineChars_append_newline [] earlier (middle ++ '\n' :: after)
      refine ⟨head, after, ?_⟩
      rw [hs, List.append_assoc, List.cons_append, hhead, flatMap_encodeChar_injective hmiddle]
  obtain ⟨head, after, hhead⟩ := hlines
  rw [lines, hhead, lineChars_line hnewline hreturn]
  have hmem : line.toList ∈ head ++ line.toList :: lineChars [] after := by simp
  have hline := List.mem_map_of_mem (f := String.ofList) hmem
  rwa [String.ofList_toList] at hline

/-- Trimming does not see white space before a text. -/
theorem trimChars_append_left {before : List Char} (hbefore : ∀ c ∈ before, is_whitespace c = true)
    (chars : List Char) : trimChars (before ++ chars) = trimChars chars := by
  rw [trimChars, List.dropWhile_append_of_pos hbefore, trimChars]

/-- Trimming does not see a white space after a text. -/
theorem trimChars_concat {c : Char} (hc : is_whitespace c = true) (chars : List Char) :
    trimChars (chars ++ [c]) = trimChars chars := by
  rw [trimChars, List.dropWhile_append, trimChars]
  split
  · rename_i hempty
    rw [List.isEmpty_iff.mp hempty, List.dropWhile_cons_of_pos hc, List.dropWhile_nil]
  · rw [List.rdropWhile_concat_pos _ _ _ hc]

theorem trimChars_append_right {after : List Char} (hafter : ∀ c ∈ after, is_whitespace c = true)
    (chars : List Char) : trimChars (chars ++ after) = trimChars chars := by
  induction after generalizing chars with
  | nil => rw [List.append_nil]
  | cons c rest ih =>
    obtain ⟨hc, hrest⟩ := List.forall_mem_cons.mp hafter
    rw [← List.singleton_append, ← List.append_assoc, ih hrest, trimChars_concat hc]

/-- A text with no white space at its ends is its own trimmed text. -/
theorem trimChars_of_ends {chars : List Char} (hfirst : ∀ c ∈ chars.head?, is_whitespace c = false)
    (hlast : ∀ c ∈ chars.getLast?, is_whitespace c = false) : trimChars chars = chars := by
  have hdrop : chars.dropWhile is_whitespace = chars := by
    cases chars with
    | nil => rfl
    | cons first rest => exact List.dropWhile_cons_of_neg (by simp [hfirst first rfl])
  rw [trimChars, hdrop, List.rdropWhile_eq_self_iff]
  intro hnonempty
  simp [hlast _ (List.getLast?_eq_some_getLast hnonempty)]

theorem trim_of_not_whitespace {s : String} (hs : ∀ c ∈ s.toList, is_whitespace c = false) : trim s = s := by
  have hends := trimChars_of_ends (fun c hc => hs c (List.mem_of_mem_head? hc))
    fun c hc => hs c (List.mem_of_getLast? hc)
  rw [trim, hends, String.ofList_toList]

/-- Two lower-case hexadecimal digits for each byte. -/
def hex_encode (input : List UInt8) : String :=
  String.ofList (input.flatMap fun b => [Nat.digitChar (b.toNat / 16), Nat.digitChar (b.toNat % 16)])

/-- The number of a hexadecimal digit of either case. -/
def hex_value (c : Char) : Option Nat :=
  if '0' ≤ c ∧ c ≤ '9' then some (c.toNat - '0'.toNat)
  else if 'a' ≤ c ∧ c ≤ 'f' then some (c.toNat - 'a'.toNat + 10)
  else if 'A' ≤ c ∧ c ≤ 'F' then some (c.toNat - 'A'.toNat + 10)
  else none

def hexChars : List Char → Option (List UInt8)
  | [] => some []
  | [_] => none
  | high :: low :: rest => do
    let h ← hex_value high
    let l ← hex_value low
    let back ← hexChars rest
    some (UInt8.ofNat (16 * h + l) :: back)

/-- The bytes that pairs of hexadecimal digits stand for. -/
def hex_decode (s : String) : Option (List UInt8) := hexChars s.toList

theorem hex_value_digitChar {n : Nat} (hn : n < 16) : hex_value (Nat.digitChar n) = some n := by
  have hall : ∀ m < 16, hex_value (Nat.digitChar m) = some m := by decide +kernel
  exact hall n hn

@[simp] theorem hex_decode_hex_encode (input : List UInt8) : hex_decode (hex_encode input) = some input := by
  rw [hex_decode, hex_encode, String.toList_ofList]
  induction input with
  | nil => rfl
  | cons b rest ih =>
    have hb := b.toNat_lt
    have hhigh := hex_value_digitChar (n := b.toNat / 16) (by omega)
    have hlow := hex_value_digitChar (n := b.toNat % 16) (by omega)
    have hbyte : 16 * (b.toNat / 16) + b.toNat % 16 = b.toNat := by omega
    rw [List.flatMap_cons, List.cons_append, List.cons_append, List.nil_append, hexChars, hhigh, hlow, ih]
    simp only [Option.bind_eq_bind, Option.bind_some, hbyte, UInt8.ofNat_toNat]

theorem hex_encode_injective : Function.Injective hex_encode := by
  intro first second hequal
  simpa using congrArg hex_decode hequal

theorem length_bytes_hex_encode (input : List UInt8) : (bytes (hex_encode input)).length = 2 * input.length := by
  have hdigit : ∀ n < 16, (String.utf8EncodeChar (Nat.digitChar n)).length = 1 := by decide +kernel
  rw [bytes, hex_encode, String.toList_ofList]
  induction input with
  | nil => rfl
  | cons b rest ih =>
    have hb := b.toNat_lt
    have hhigh := hdigit (b.toNat / 16) (by omega)
    have hlow := hdigit (b.toNat % 16) (by omega)
    simp only [List.flatMap_cons, List.cons_append, List.nil_append, List.length_append, List.length_cons, hhigh,
      hlow, ih]
    omega

theorem not_whitespace_hex_encode (input : List UInt8) :
    ∀ c ∈ (hex_encode input).toList, is_whitespace c = false := by
  have hdigit : ∀ n < 16, is_whitespace (Nat.digitChar n) = false := by decide +kernel
  intro c hc
  rw [hex_encode, String.toList_ofList] at hc
  obtain ⟨b, _, hb⟩ := List.mem_flatMap.mp hc
  have hlt := b.toNat_lt
  rcases List.mem_pair.mp hb with rfl | rfl
  · exact hdigit _ (by omega)
  · exact hdigit _ (by omega)

/-- The string without the copies of a two-character pattern that it starts with. -/
def trimStartChars (first second : Char) : List Char → List Char
  | c :: d :: rest => if c = first ∧ d = second then trimStartChars first second rest else c :: d :: rest
  | chars => chars

theorem trimStartChars_of_not_mem {first second : Char} {chars : List Char} (hsecond : second ∉ chars) :
    trimStartChars first second chars = chars := by
  match chars with
  | [] => rfl
  | [_] => rfl
  | c :: d :: rest =>
    have hd : d ≠ second := by
      rintro rfl
      exact hsecond (List.mem_cons_of_mem c List.mem_cons_self)
    rw [trimStartChars, if_neg fun h => hd h.2]

theorem not_mem_hex_encode (input : List UInt8) : 'x' ∉ (hex_encode input).toList := by
  have hdigit : ∀ n < 16, Nat.digitChar n ≠ 'x' := by decide +kernel
  rw [hex_encode, String.toList_ofList]
  intro hx
  obtain ⟨b, _, hb⟩ := List.mem_flatMap.mp hx
  have hlt := b.toNat_lt
  rcases List.mem_pair.mp hb with h | h
  · exact hdigit _ (by omega) h.symm
  · exact hdigit _ (by omega) h.symm

example : lines "a\r\n\nb\r" = ["a", "", "b\r"] := by decide +kernel

example : trim "\u00a0 a b\t\n" = "a b" := by decide +kernel

end text
