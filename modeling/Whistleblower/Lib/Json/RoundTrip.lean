import Whistleblower.Lib.Json.Render
import Mathlib.Data.List.TakeDrop

namespace json

/-- A byte that stands for itself inside a string. -/
def Plain (b : UInt8) : Prop := b ≠ 0x22 ∧ b ≠ 0x5c ∧ ¬ b < 0x20

@[simp] theorem string_token_quote (rest : List UInt8) : string_token (0x22 :: rest) = some ([], rest) := by
  rw [string_token.eq_def]
  rfl

theorem string_token_plain_cons {b : UInt8} (hplain : Plain b) (rest : List UInt8) :
    string_token (b :: rest) = (string_token rest).map (prepend [b]) := by
  obtain ⟨hquote, hescape, hcontrol⟩ := hplain
  rw [string_token.eq_def]
  simp only [if_neg hquote, if_neg hescape, if_neg hcontrol]

theorem string_token_short {e plain : UInt8} (hshort : short_escape e = some plain) (rest : List UInt8) :
    string_token (0x5c :: e :: rest) = (string_token rest).map (prepend [0x5c, e]) := by
  have hunicode : e ≠ 0x75 := by
    rintro rfl
    cases hshort
  rw [string_token.eq_def]
  simp [hunicode, hshort]

theorem string_token_hex {h1 h2 h3 h4 : UInt8} {n : Nat} (hhex : hex4 h1 h2 h3 h4 = some n)
    (rest : List UInt8) :
    string_token (0x5c :: 0x75 :: h1 :: h2 :: h3 :: h4 :: rest) =
      (string_token rest).map (prepend [0x5c, 0x75, h1, h2, h3, h4]) := by
  rw [string_token.eq_def]
  simp [hhex]

@[simp] theorem prepend_nil : prepend [] = id := rfl

theorem string_token_plain {front : List UInt8} (hplain : ∀ b ∈ front, Plain b) (tail : List UInt8) :
    string_token (front ++ tail) = (string_token tail).map (prepend front) := by
  induction front with
  | nil => simp
  | cons b rest ih =>
    rw [List.cons_append, string_token_plain_cons (hplain b (by simp)),
      ih fun b hb => hplain b (by simp [hb]), Option.map_map]
    rfl

theorem unescape_plain_cons {b : UInt8} (hescape : b ≠ 0x5c) (rest : List UInt8) :
    unescape (b :: rest) = (unescape rest).map (b :: ·) := by
  rw [unescape.eq_def]
  simp only [if_neg hescape]

theorem unescape_short {e plain : UInt8} (hshort : short_escape e = some plain) (rest : List UInt8) :
    unescape (0x5c :: e :: rest) = (unescape rest).map (plain :: ·) := by
  have hunicode : e ≠ 0x75 := by
    rintro rfl
    cases hshort
  rw [unescape.eq_def]
  simp [hunicode, hshort]

/-- A hexadecimal escape outside the surrogate range stands for itself. -/
theorem unescape_hex {h1 h2 h3 h4 : UInt8} {n : Nat} (hhex : hex4 h1 h2 h3 h4 = some n)
    (hsmall : n < 0xd800) (rest : List UInt8) :
    unescape (0x5c :: 0x75 :: h1 :: h2 :: h3 :: h4 :: rest) =
      (unescape rest).map (scalar_bytes n ++ ·) := by
  have hlow : ¬ 0xdc00 ≤ n := by omega
  have hhigh : ¬ 0xd800 ≤ n := by omega
  rw [unescape.eq_def]
  simp [hhex, hlow, hhigh]

theorem unescape_plain {front : List UInt8} (hplain : ∀ b ∈ front, Plain b) (tail : List UInt8) :
    unescape (front ++ tail) = (unescape tail).map (front ++ ·) := by
  induction front with
  | nil => simp
  | cons b rest ih =>
    rw [List.cons_append, unescape_plain_cons (hplain b (by simp)).2.1,
      ih fun b hb => hplain b (by simp [hb]), Option.map_map]
    rfl

/-- Every byte of an encoded scalar value is either its ASCII code or has the
    high bit set, so encoding never makes a quote, an escape or a control byte. -/
theorem plain_of_encoded {c : Char} (hquote : c.toNat ≠ 0x22) (hescape : c.toNat ≠ 0x5c)
    (hcontrol : ¬ c.toNat < 0x20) : ∀ b ∈ String.utf8EncodeChar c, Plain b := by
  have hvalue : c.val.toNat = c.toNat := rfl
  have hplain : ∀ n : Nat, n < 256 → n ≠ 0x22 → n ≠ 0x5c → ¬ n < 0x20 → Plain (UInt8.ofNat n) := by
    intro n hn hq he hc
    have hback : (UInt8.ofNat n).toNat = n := by simp [Nat.mod_eq_of_lt hn]
    refine ⟨?_, ?_, ?_⟩
    · intro heq
      rw [heq] at hback
      exact hq hback.symm
    · intro heq
      rw [heq] at hback
      exact he hback.symm
    · rw [UInt8.lt_iff_toNat_lt, hback]
      exact hc
  intro b hb
  simp only [String.utf8EncodeChar, hvalue] at hb
  split at hb
  · simp only [List.mem_singleton] at hb
    subst hb
    exact hplain _ (by omega) hquote hescape hcontrol
  split at hb
  · simp only [List.mem_cons, List.not_mem_nil, or_false] at hb
    obtain rfl | rfl := hb <;> exact hplain _ (by omega) (by omega) (by omega) (by omega)
  split at hb
  · simp only [List.mem_cons, List.not_mem_nil, or_false] at hb
    obtain rfl | rfl | rfl := hb <;> exact hplain _ (by omega) (by omega) (by omega) (by omega)
  · simp only [List.mem_cons, List.not_mem_nil, or_false] at hb
    obtain rfl | rfl | rfl | rfl := hb <;> exact hplain _ (by omega) (by omega) (by omega) (by omega)

theorem hex_value_hex_digit : ∀ n, n < 16 → hex_value (hex_digit n) = some n := by decide

/-- The control characters that have no short escape. -/
theorem hex4_control {n : Nat} (hn : n < 0x20) :
    hex4 0x30 0x30 (hex_digit (n / 16)) (hex_digit (n % 16)) = some n := by
  have hzero : hex_value 0x30 = some 0 := by decide
  simp only [hex4, hzero, hex_value_hex_digit _ (show n / 16 < 16 by omega),
    hex_value_hex_digit _ (Nat.mod_lt n (by omega)), Option.bind_eq_bind, Option.bind_some]
  congr 1
  omega

theorem scalar_bytes_toNat (c : Char) : scalar_bytes c.toNat = String.utf8EncodeChar c := by
  rw [scalar_bytes, Char.ofNat_toNat]

/-- The three ways a scalar value is written inside a string. -/
theorem escape_char_cases (c : Char) :
    (∃ e plain, escape_char c = [0x5c, e] ∧ short_escape e = some plain ∧
      String.utf8EncodeChar c = [plain]) ∨
    (c.toNat < 0x20 ∧
      escape_char c = [0x5c, 0x75, 0x30, 0x30, hex_digit (c.toNat / 16), hex_digit (c.toNat % 16)]) ∨
    (escape_char c = String.utf8EncodeChar c ∧ ∀ b ∈ String.utf8EncodeChar c, Plain b) := by
  have hascii : ∀ n : Nat, c.toNat = n → n ≤ 0x7f → String.utf8EncodeChar c = [UInt8.ofNat n] := by
    intro n hn hsmall
    have hvalue : c.val.toNat = n := hn
    simp [String.utf8EncodeChar, hvalue, hsmall]
  unfold escape_char
  simp only
  split_ifs with hquote hslash hb ht hn hf hr hcontrol
  · exact .inl ⟨0x22, 0x22, rfl, rfl, hascii _ hquote (by decide)⟩
  · exact .inl ⟨0x5c, 0x5c, rfl, rfl, hascii _ hslash (by decide)⟩
  · exact .inl ⟨0x62, 0x08, rfl, rfl, hascii _ hb (by decide)⟩
  · exact .inl ⟨0x74, 0x09, rfl, rfl, hascii _ ht (by decide)⟩
  · exact .inl ⟨0x6e, 0x0a, rfl, rfl, hascii _ hn (by decide)⟩
  · exact .inl ⟨0x66, 0x0c, rfl, rfl, hascii _ hf (by decide)⟩
  · exact .inl ⟨0x72, 0x0d, rfl, rfl, hascii _ hr (by decide)⟩
  · exact .inr (.inl ⟨hcontrol, rfl⟩)
  · exact .inr (.inr ⟨rfl, plain_of_encoded hquote hslash hcontrol⟩)

theorem string_token_escape_char (c : Char) (tail : List UInt8) :
    string_token (escape_char c ++ tail) = (string_token tail).map (prepend (escape_char c)) := by
  obtain ⟨e, plain, hescape, hshort, _⟩ | ⟨hcontrol, hescape⟩ | ⟨hescape, hplain⟩ := escape_char_cases c
  · rw [hescape]
    exact string_token_short hshort tail
  · rw [hescape]
    exact string_token_hex (hex4_control hcontrol) tail
  · rw [hescape]
    exact string_token_plain hplain tail

theorem unescape_escape_char (c : Char) (tail : List UInt8) :
    unescape (escape_char c ++ tail) = (unescape tail).map (String.utf8EncodeChar c ++ ·) := by
  obtain ⟨e, plain, hescape, hshort, hencode⟩ | ⟨hcontrol, hescape⟩ | ⟨hescape, hplain⟩ := escape_char_cases c
  · rw [hescape, hencode]
    exact unescape_short hshort tail
  · rw [hescape, ← scalar_bytes_toNat]
    exact unescape_hex (hex4_control hcontrol) (by omega) tail
  · rw [hescape]
    exact unescape_plain hplain tail

/-- The escape of a string is read back up to its closing quote. -/
theorem stringToken_escape (s : String) : Value.StringToken (escape s) := by
  intro rest
  rw [escape]
  induction s.toList with
  | nil => exact string_token_quote rest
  | cons c chars ih =>
    rw [List.flatMap_cons, List.append_assoc, string_token_escape_char, ih]
    rfl

/-- Unescaping the escape of a string gives its UTF-8 bytes. -/
theorem unescape_escape (s : String) : unescape (escape s) = some (text.bytes s) := by
  rw [escape, text.bytes]
  induction s.toList with
  | nil => rfl
  | cons c chars ih =>
    rw [List.flatMap_cons, unescape_escape_char, ih]
    rfl

/-- An input that cannot continue a natural number: no digit, point or
    exponent comes first. -/
def Ends (rest : List UInt8) : Prop :=
  ∀ b ∈ rest.head?, is_digit b = false ∧ b ≠ 0x2e ∧ b ≠ 0x65 ∧ b ≠ 0x45

theorem byte_of_digit {c : Char} (hdigit : c.isDigit = true) :
    is_digit (UInt8.ofNat c.toNat) = true ∧ (UInt8.ofNat c.toNat).toNat = c.toNat := by
  have hbounds : 48 ≤ c.toNat ∧ c.toNat ≤ 57 := by
    simpa [Char.isDigit, UInt32.le_iff_toNat_le] using hdigit
  have hback : (UInt8.ofNat c.toNat).toNat = c.toNat := by
    simp [Nat.mod_eq_of_lt (show c.toNat < 256 by omega)]
  refine ⟨?_, hback⟩
  simp only [is_digit, Bool.and_eq_true, decide_eq_true_eq, UInt8.le_iff_toNat_le, hback]
  exact hbounds

theorem isDigit_of_mem_decimal {n : Nat} {b : UInt8} (hb : b ∈ decimal n) : is_digit b = true := by
  obtain ⟨c, hc, rfl⟩ := List.mem_map.mp hb
  exact (byte_of_digit (Nat.isDigit_of_mem_toDigits (by decide) (by decide) hc)).1

theorem decimal_ne_nil (n : Nat) : decimal n ≠ [] := by
  simp [decimal, Nat.toDigits_ne_nil]

/-- Only zero is written with a leading zero. -/
theorem head?_toDigits {n : Nat} (hpos : 0 < n) : (Nat.toDigits 10 n).head? ≠ some '0' := by
  induction n using Nat.strongRecOn with
  | ind n ih =>
    by_cases hsmall : n < 10
    · have hfirst : ∀ digit, digit < 10 → 0 < digit → [Nat.digitChar digit].head? ≠ some '0' := by decide
      rw [Nat.toDigits_of_lt_base hsmall]
      exact hfirst n hsmall hpos
    · rw [Nat.toDigits_of_base_le (by decide) (by omega), List.head?_append_of_ne_nil _ Nat.toDigits_ne_nil]
      exact ih (n / 10) (by omega) (by omega)

theorem head?_decimal {n : Nat} (hpos : 0 < n) : (decimal n).head? ≠ some 0x30 := by
  intro hhead
  rw [decimal, List.head?_map, Option.map_eq_some_iff] at hhead
  obtain ⟨c, hc, hbyte⟩ := hhead
  have hdigit := Nat.isDigit_of_mem_toDigits (by decide) (by decide) (List.mem_of_mem_head? hc)
  have hback := (byte_of_digit hdigit).2
  rw [hbyte] at hback
  have hzero : c = '0' := Char.toNat_inj.mp hback.symm
  exact head?_toDigits hpos (by rw [hc, hzero])

theorem digits_decimal (n : Nat) {rest : List UInt8} (hends : Ends rest) :
    digits (decimal n ++ rest) = some (decimal n, rest) := by
  have hall : ∀ b ∈ decimal n, is_digit b = true := fun b hb => isDigit_of_mem_decimal hb
  have hstop : rest.takeWhile is_digit = [] ∧ rest.dropWhile is_digit = rest := by
    cases rest with
    | nil => exact ⟨rfl, rfl⟩
    | cons b tail => simp [(hends b rfl).1]
  have hspan : (decimal n ++ rest).span is_digit = (decimal n, rest) := by
    rw [List.span_eq_takeWhile_dropWhile, List.takeWhile_append_of_pos hall,
      List.dropWhile_append_of_pos hall, hstop.1, hstop.2, List.append_nil]
  rw [digits, hspan]
  cases hdecimal : decimal n with
  | nil => exact absurd hdecimal (decimal_ne_nil n)
  | cons b tail => rfl

theorem integer_part_decimal (n : Nat) {rest : List UInt8} (hends : Ends rest) :
    integer_part (decimal n ++ rest) = some (decimal n, rest) := by
  have hzero : ¬ ((decimal n).head? = some 0x30 ∧ (decimal n).length ≠ 1) := by
    rintro ⟨hhead, hlength⟩
    rcases Nat.eq_zero_or_pos n with rfl | hpos
    · exact hlength rfl
    · exact head?_decimal hpos hhead
  simp only [integer_part, digits_decimal n hends, Option.bind_eq_bind, Option.bind_some, if_neg hzero]

/-- A written natural number is read as one number token. -/
theorem number_token_decimal (n : Nat) {rest : List UInt8} (hends : Ends rest) :
    number_token (decimal n ++ rest) = some (decimal n, rest) := by
  have hpart : fraction rest = some ([], rest) ∧ exponent rest = some ([], rest) := by
    cases rest with
    | nil => exact ⟨rfl, rfl⟩
    | cons b tail =>
      obtain ⟨_, hpoint, hlower, hupper⟩ := hends b rfl
      exact ⟨by simp [fraction, hpoint], by simp [exponent, hlower, hupper]⟩
  have hunsigned : unsigned_token (decimal n ++ rest) = some (decimal n, rest) := by
    simp [unsigned_token, integer_part_decimal n hends, hpart.1, hpart.2]
  cases hdecimal : decimal n with
  | nil => exact absurd hdecimal (decimal_ne_nil n)
  | cons b tail =>
    have hminus : b ≠ 0x2d := by
      rintro rfl
      have h := isDigit_of_mem_decimal (n := n) (b := 0x2d) (by simp [hdecimal])
      simp [is_digit] at h
    rw [List.cons_append, number_token, if_neg hminus, ← List.cons_append, ← hdecimal, hunsigned]

/-- The byte a rendered value starts with is no white space. -/
theorem skip_whitespace_cons {b : UInt8} (hspace : is_space b = false) (rest : List UInt8) :
    skip_whitespace (b :: rest) = b :: rest := by
  simp [skip_whitespace, hspace]

theorem ends_cons {b : UInt8} (hdigit : is_digit b = false) (hpoint : b ≠ 0x2e) (hlower : b ≠ 0x65)
    (hupper : b ≠ 0x45) (rest : List UInt8) : Ends (b :: rest) := by
  intro c hc
  cases hc
  exact ⟨hdigit, hpoint, hlower, hupper⟩

namespace Value

theorem ends_render_elements (elements : List Value) (rest : List UInt8) :
    Ends (render_elements elements ++ rest) := by
  cases elements <;> simp only [render_elements, List.cons_append] <;>
    exact ends_cons (by decide) (by decide) (by decide) (by decide) _

theorem ends_render_members (members : List (List UInt8 × Value)) (rest : List UInt8) :
    Ends (render_members members ++ rest) := by
  cases members <;> simp only [render_members, List.cons_append] <;>
    exact ends_cons (by decide) (by decide) (by decide) (by decide) _

theorem parse_number (n fuel : Nat) {rest : List UInt8} (hends : Ends rest) :
    parse_value (fuel + 1) (decimal n ++ rest) = some (.number (decimal n), rest) := by
  have htoken := number_token_decimal n hends
  cases hdecimal : decimal n with
  | nil => exact absurd hdecimal (decimal_ne_nil n)
  | cons b tail =>
    have hdigit : is_digit b = true := isDigit_of_mem_decimal (n := n) (by simp [hdecimal])
    have hne : ∀ other, is_digit other = false → b ≠ other := by
      rintro other hother rfl
      rw [hdigit] at hother
      cases hother
    have hspace : is_space b = false := by
      simp [is_space, hne 0x20 rfl, hne 0x09 rfl, hne 0x0a rfl, hne 0x0d rfl]
    rw [hdecimal] at htoken
    rw [List.cons_append] at htoken ⊢
    rw [parse_value, skip_whitespace_cons hspace]
    simp [hne 0x22 rfl, hne 0x5b rfl, hne 0x7b rfl, hne 0x6e rfl, hne 0x74 rfl, hne 0x66 rfl, htoken]

theorem skip_whitespace_idem (input : List UInt8) :
    skip_whitespace (skip_whitespace input) = skip_whitespace input :=
  List.dropWhile_idempotent _ _

theorem parse_value_skip (fuel : Nat) (input : List UInt8) :
    parse_value fuel (skip_whitespace input) = parse_value fuel input := by
  cases fuel with
  | zero => rfl
  | succ fuel => rw [parse_value, parse_value, skip_whitespace_idem]

theorem parse_elements_skip (fuel : Nat) (input : List UInt8) :
    parse_elements fuel (skip_whitespace input) = parse_elements fuel input := by
  cases fuel with
  | zero => rfl
  | succ fuel => rw [parse_elements, parse_elements, parse_value_skip]

theorem number_token_not_digit {b : UInt8} (hdigit : is_digit b = false) (hminus : b ≠ 0x2d)
    (rest : List UInt8) : number_token (b :: rest) = none := by
  simp [number_token, hminus, unsigned_token, integer_part, digits, List.span_eq_takeWhile_dropWhile,
    hdigit]

/-- A byte that no value starts with. -/
def NoStart (b : UInt8) : Prop :=
  is_space b = false ∧ is_digit b = false ∧ b ∉ [0x22, 0x2d, 0x5b, 0x66, 0x6e, 0x74, 0x7b]

instance (b : UInt8) : Decidable (NoStart b) := inferInstanceAs (Decidable (_ ∧ _))

theorem parse_value_noStart {b : UInt8} (hstart : NoStart b) (fuel : Nat) (rest : List UInt8) :
    parse_value fuel (b :: rest) = none := by
  obtain ⟨hspace, hdigit, hbyte⟩ := hstart
  simp only [List.mem_cons, List.not_mem_nil, or_false, not_or] at hbyte
  cases fuel with
  | zero => rfl
  | succ fuel =>
    rw [parse_value, skip_whitespace_cons hspace]
    simp [hbyte, number_token_not_digit hdigit hbyte.2.1 rest]

/-- No value starts with a closing bracket. -/
theorem parse_value_bracket (fuel : Nat) (rest : List UInt8) :
    parse_value fuel (0x5d :: rest) = none :=
  parse_value_noStart (by decide) fuel rest

theorem parse_noStart {b : UInt8} (hstart : NoStart b) (rest : List UInt8) : parse (b :: rest) = none := by
  rw [parse, parse_value_noStart hstart]

theorem parse_value_nil (fuel : Nat) : parse_value fuel [] = none := by
  cases fuel <;> rfl

/-- An opened array continues with its elements when a first one can be read. -/
theorem parse_value_array {fuel : Nat} {input rest after : List UInt8} {first : Value}
    {elements : List Value}
    (hfirst : parse_value fuel input = some (first, after))
    (helements : parse_elements fuel input = some (elements, rest)) :
    parse_value (fuel + 1) (0x5b :: input) = some (.array elements, rest) := by
  rw [← parse_value_skip] at hfirst
  rw [← parse_elements_skip] at helements
  rw [parse_value, skip_whitespace_cons (by decide)]
  cases hskip : skip_whitespace input with
  | nil =>
    rw [hskip, parse_value_nil] at hfirst
    cases hfirst
  | cons b tail =>
    have hopen : b ≠ 0x5d := by
      rintro rfl
      rw [hskip, parse_value_bracket] at hfirst
      cases hfirst
    rw [hskip] at helements
    simp [hskip, hopen, helements]

mutual

/-- A written tree is read back from its text, and the input after it is left. -/
theorem parse_value_render : ∀ (value : Value) (fuel : Nat) (rest : List UInt8),
    value.Written → value.weight ≤ fuel → Ends rest →
      parse_value fuel (value.render ++ rest) = some (value, rest)
  | .null, fuel + 1, rest, _, _, _ => by
    have hbytes : text.bytes "null" = [0x6e, 0x75, 0x6c, 0x6c] := by decide
    simp [render, hbytes, parse_value, skip_whitespace_cons, is_space, literal]
  | .bool true, fuel + 1, rest, _, _, _ => by
    have hbytes : text.bytes "true" = [0x74, 0x72, 0x75, 0x65] := by decide
    simp [render, hbytes, parse_value, skip_whitespace_cons, is_space, literal]
  | .bool false, fuel + 1, rest, _, _, _ => by
    have hbytes : text.bytes "false" = [0x66, 0x61, 0x6c, 0x73, 0x65] := by decide
    simp [render, hbytes, parse_value, skip_whitespace_cons, is_space, literal]
  | .number token, fuel + 1, rest, hwritten, _, hends => by
    obtain ⟨n, rfl⟩ := hwritten
    exact parse_number n fuel hends
  | .string raw, fuel + 1, rest, hwritten, _, _ => by
    have htoken : string_token (raw ++ 0x22 :: rest) = some (raw, rest) := hwritten rest
    simp [render, parse_value, skip_whitespace_cons, is_space, htoken]
  | .array [], fuel + 1, rest, _, _, _ => by
    simp [render, parse_value, skip_whitespace_cons, is_space]
  | .array (first :: others), fuel + 1, rest, hwritten, hweight, _ => by
    simp only [weight, weight_elements] at hweight
    have hfirst := parse_value_render first fuel (render_elements others ++ rest) hwritten.1
      (by omega) (ends_render_elements others rest)
    have hall := parse_elements_render (first :: others) fuel rest hwritten
      (by simp only [weight_elements]; omega) (first.render ++ (render_elements others ++ rest))
      (by simp [render_elements])
    simpa [render] using parse_value_array hfirst hall
  | .object [], fuel + 1, rest, _, _, _ => by
    simp [render, parse_value, skip_whitespace_cons, is_space]
  | .object ((name, value) :: others), fuel + 1, rest, hwritten, hweight, _ => by
    simp only [weight] at hweight
    have hall := parse_members_render ((name, value) :: others) fuel rest hwritten (by omega)
      (0x22 :: (name ++ 0x22 :: 0x3a :: (value.render ++ (render_members others ++ rest))))
      (by simp [render_members])
    simp [render, parse_value, skip_whitespace_cons, is_space, hall]
  | .null, 0, _, _, hweight, _ => by simp [weight] at hweight
  | .bool _, 0, _, _, hweight, _ => by simp [weight] at hweight
  | .number _, 0, _, _, hweight, _ => by simp [weight] at hweight
  | .string _, 0, _, _, hweight, _ => by simp [weight] at hweight
  | .array _, 0, _, _, hweight, _ => by simp [weight] at hweight
  | .object _, 0, _, _, hweight, _ => by simp [weight] at hweight

theorem parse_elements_render : ∀ (elements : List Value) (fuel : Nat) (rest : List UInt8),
    WrittenElements elements → weight_elements elements ≤ fuel →
      ∀ input, render_elements elements ++ rest = 0x2c :: input →
        parse_elements fuel input = some (elements, rest)
  | [], _, _, _, _, input, hinput => by simp [render_elements] at hinput
  | value :: others, 0, _, _, hweight, _, _ => by simp [weight_elements] at hweight
  | value :: others, fuel + 1, rest, hwritten, hweight, input, hinput => by
    simp only [weight_elements] at hweight
    have hvalue := parse_value_render value fuel (render_elements others ++ rest) hwritten.1
      (by omega) (ends_render_elements others rest)
    have hsource : input = value.render ++ (render_elements others ++ rest) := by
      simpa [render_elements] using hinput.symm
    rw [parse_elements, hsource, hvalue]
    cases others with
    | nil => simp [render_elements, skip_whitespace_cons, is_space]
    | cons second tail =>
      have hothers := parse_elements_render (second :: tail) fuel rest hwritten.2 (by omega)
        (second.render ++ (render_elements tail ++ rest)) (by simp [render_elements])
      simp [render_elements, skip_whitespace_cons, is_space, hothers]

theorem parse_members_render : ∀ (members : List (List UInt8 × Value)) (fuel : Nat) (rest : List UInt8),
    WrittenMembers members → weight_members members ≤ fuel →
      ∀ input, render_members members ++ rest = 0x2c :: input →
        parse_members fuel input = some (members, rest)
  | [], _, _, _, _, input, hinput => by simp [render_members] at hinput
  | (_, value) :: others, 0, _, _, hweight, _, _ => by simp [weight_members] at hweight
  | (name, value) :: others, fuel + 1, rest, hwritten, hweight, input, hinput => by
    simp only [weight_members] at hweight
    have hname : string_token (name ++ 0x22 :: (0x3a :: (value.render ++ (render_members others ++ rest)))) =
        some (name, 0x3a :: (value.render ++ (render_members others ++ rest))) := hwritten.1 _
    have hvalue := parse_value_render value fuel (render_members others ++ rest) hwritten.2.1
      (by omega) (ends_render_members others rest)
    have hsource : input =
        0x22 :: (name ++ 0x22 :: 0x3a :: (value.render ++ (render_members others ++ rest))) := by
      simpa [render_members] using hinput.symm
    rw [parse_members, hsource, skip_whitespace_cons (by decide)]
    simp only [if_true, hname, skip_whitespace_cons (show is_space 0x3a = false by decide), hvalue]
    cases others with
    | nil => simp [render_members, skip_whitespace_cons, is_space]
    | cons second tail =>
      obtain ⟨secondName, secondValue⟩ := second
      have hothers := parse_members_render ((secondName, secondValue) :: tail) fuel rest hwritten.2.2
        (by omega)
        (0x22 :: (secondName ++ 0x22 :: 0x3a :: (secondValue.render ++ (render_members tail ++ rest))))
        (by simp [render_members])
      simp [render_members, skip_whitespace_cons, is_space, hothers]

end

mutual

theorem weight_le_length : ∀ value : Value, value.Written → value.weight ≤ 2 * value.render.length
  | .null, _ => by decide
  | .bool true, _ => by decide
  | .bool false, _ => by decide
  | .number token, hwritten => by
    obtain ⟨n, rfl⟩ := hwritten
    have hpos := List.length_pos_iff.mpr (decimal_ne_nil n)
    simp only [weight, render]
    omega
  | .string raw, _ => by
    simp only [weight, render, List.cons_append, List.length_cons]
    omega
  | .array [], _ => by decide
  | .array (first :: others), hwritten => by
    have hfirst := weight_le_length first hwritten.1
    have hothers := weight_elements_le_length others hwritten.2
    simp only [weight, weight_elements, render, List.cons_append, List.length_cons, List.length_append]
    omega
  | .object [], _ => by decide
  | .object ((name, value) :: others), hwritten => by
    have hvalue := weight_le_length value hwritten.2.1
    have hothers := weight_members_le_length others hwritten.2.2
    simp only [weight, weight_members, render, List.cons_append, List.length_cons, List.length_append]
    omega

theorem weight_elements_le_length : ∀ elements : List Value, WrittenElements elements →
    weight_elements elements ≤ 2 * (render_elements elements).length
  | [], _ => by decide
  | value :: others, hwritten => by
    have hvalue := weight_le_length value hwritten.1
    have hothers := weight_elements_le_length others hwritten.2
    simp only [weight_elements, render_elements, List.cons_append, List.length_cons, List.length_append]
    omega

theorem weight_members_le_length : ∀ members : List (List UInt8 × Value), WrittenMembers members →
    weight_members members ≤ 2 * (render_members members).length
  | [], _ => by decide
  | (name, value) :: others, hwritten => by
    have hvalue := weight_le_length value hwritten.2.1
    have hothers := weight_members_le_length others hwritten.2.2
    simp only [weight_members, render_members, List.cons_append, List.length_cons, List.length_append]
    omega

end

theorem not_control_of_hex_value {b : UInt8} {n : Nat} (hvalue : hex_value b = some n) : ¬ b < 0x20 := by
  intro hcontrol
  rw [UInt8.lt_iff_toNat_lt] at hcontrol
  have hlow : ∀ bound : UInt8, 0x20 ≤ bound.toNat → ¬ bound ≤ b := by
    intro bound hbound hle
    rw [UInt8.le_iff_toNat_le] at hle
    have : b.toNat < 0x20 := hcontrol
    omega
  simp [hex_value, hlow 0x30 (by decide), hlow 0x41 (by decide), hlow 0x61 (by decide)] at hvalue

theorem not_control_of_short_escape {e plain : UInt8} (hshort : short_escape e = some plain) : ¬ e < 0x20 := by
  intro hcontrol
  have hne : ∀ other : UInt8, ¬ other < 0x20 → e ≠ other := by
    rintro other hother rfl
    exact hother hcontrol
  simp [short_escape, hne 0x22 (by decide), hne 0x5c (by decide), hne 0x2f (by decide), hne 0x62 (by decide),
    hne 0x66 (by decide), hne 0x6e (by decide), hne 0x72 (by decide), hne 0x74 (by decide)] at hshort

/-- Raw contents hold no control byte. -/
theorem not_control_string_token {input : List UInt8} {split : List UInt8 × List UInt8}
    (htoken : string_token input = some split) : ∀ b ∈ split.1, ¬ b < 0x20 := by
  have hprepend : ∀ {front tail : List UInt8} {split}, (∀ b ∈ front, ¬ b < 0x20) →
      (∀ {rest}, string_token tail = some rest → ∀ b ∈ rest.1, ¬ b < 0x20) →
      (string_token tail).map (prepend front) = some split → ∀ b ∈ split.1, ¬ b < 0x20 := by
    intro front tail split hfront htail hsplit
    obtain ⟨rest, hrest, rfl⟩ := Option.map_eq_some_iff.mp hsplit
    exact fun b hmem => (List.mem_append.mp hmem).elim (hfront b) (htail hrest b)
  fun_induction string_token input generalizing split with
  | case2 =>
    cases htoken
    exact fun b hmem => (nomatch hmem)
  | case4 h1 h2 h3 h4 tail hhex _ ih =>
    obtain ⟨n, hvalue⟩ := Option.isSome_iff_exists.mp hhex
    simp only [hex4, Option.bind_eq_bind, Option.bind_eq_some_iff] at hvalue
    obtain ⟨_, hfirst, _, hsecond, _, hthird, _, hfourth, _⟩ := hvalue
    refine hprepend ?_ ih htoken
    simp only [List.forall_mem_cons, List.not_mem_nil, false_imp_iff, implies_true, and_true]
    exact ⟨by decide, by decide, not_control_of_hex_value hfirst, not_control_of_hex_value hsecond,
      not_control_of_hex_value hthird, not_control_of_hex_value hfourth⟩
  | case7 e after _ hshort _ ih =>
    obtain ⟨plain, hplain⟩ := Option.isSome_iff_exists.mp hshort
    refine hprepend ?_ ih htoken
    simp only [List.forall_mem_cons, List.not_mem_nil, false_imp_iff, implies_true, and_true]
    exact ⟨by decide, not_control_of_short_escape hplain⟩
  | case10 e after _ _ hcontrol ih =>
    refine hprepend ?_ ih htoken
    intro b hmem
    rwa [List.mem_singleton.mp hmem]
  | _ => cases htoken

theorem StringToken.not_control {raw : List UInt8} (htoken : StringToken raw) : ∀ b ∈ raw, ¬ b < 0x20 :=
  not_control_string_token (htoken [])

/-- No control byte is among bytes of which each has been checked. -/
theorem not_control_of_all {bytes : List UInt8} (hall : (bytes.all fun b => decide (¬ b < 0x20)) = true) :
    ∀ b ∈ bytes, ¬ b < 0x20 := by
  intro b hb
  exact of_decide_eq_true (List.all_eq_true.mp hall b hb)

mutual

/-- A rendered tree holds no control byte. -/
theorem not_control_render : ∀ value : Value, value.Written → ∀ b ∈ value.render, ¬ b < 0x20
  | .null, _ => not_control_of_all (by decide)
  | .bool true, _ => not_control_of_all (by decide)
  | .bool false, _ => not_control_of_all (by decide)
  | .number token, hwritten => by
    obtain ⟨n, rfl⟩ := hwritten
    intro b hmem hcontrol
    have hdigit := isDigit_of_mem_decimal hmem
    simp only [is_digit, Bool.and_eq_true, decide_eq_true_eq, UInt8.le_iff_toNat_le] at hdigit
    have hlow : 0x30 ≤ b.toNat := hdigit.1
    have hhigh : b.toNat < 0x20 := UInt8.lt_iff_toNat_lt.mp hcontrol
    omega
  | .string raw, hwritten => by
    have hraw := StringToken.not_control hwritten
    simpa [render, or_imp, forall_and] using hraw
  | .array [], _ => not_control_of_all (by decide)
  | .array (first :: others), hwritten => by
    have hfirst := not_control_render first hwritten.1
    have hothers := not_control_render_elements others hwritten.2
    simpa [render, or_imp, forall_and] using And.intro hfirst hothers
  | .object [], _ => not_control_of_all (by decide)
  | .object ((name, value) :: others), hwritten => by
    have hname := StringToken.not_control hwritten.1
    have hvalue := not_control_render value hwritten.2.1
    have hothers := not_control_render_members others hwritten.2.2
    simpa [render, or_imp, forall_and] using And.intro hname (And.intro hvalue hothers)

theorem not_control_render_elements : ∀ elements : List Value, WrittenElements elements →
    ∀ b ∈ render_elements elements, ¬ b < 0x20
  | [], _ => not_control_of_all (by decide)
  | value :: others, hwritten => by
    have hvalue := not_control_render value hwritten.1
    have hothers := not_control_render_elements others hwritten.2
    simpa [render_elements, or_imp, forall_and] using And.intro hvalue hothers

theorem not_control_render_members : ∀ members : List (List UInt8 × Value), WrittenMembers members →
    ∀ b ∈ render_members members, ¬ b < 0x20
  | [], _ => not_control_of_all (by decide)
  | (name, value) :: others, hwritten => by
    have hname := StringToken.not_control hwritten.1
    have hvalue := not_control_render value hwritten.2.1
    have hothers := not_control_render_members others hwritten.2.2
    simpa [render_members, or_imp, forall_and] using And.intro hname (And.intro hvalue hothers)

end

theorem zero_notMem_render (value : Value) (hwritten : value.Written) : 0 ∉ value.render :=
  fun hmem => not_control_render value hwritten 0 hmem (by decide)

/-- Members end with the closing brace. -/
theorem getLast?_render_members (members : List (List UInt8 × Value)) :
    (render_members members).getLast? = some 0x7d := by
  induction members with
  | nil => rfl
  | cons entry rest ih => rw [render_members, List.getLast?_append, ih, Option.some_or]

theorem getLast?_render_object (members : List (List UInt8 × Value)) :
    (Value.object members).render.getLast? = some 0x7d := by
  cases members with
  | nil => rfl
  | cons entry rest => rw [render, List.getLast?_append, getLast?_render_members, Option.some_or]

end Value

/-- Reading the compact text of a written tree gives the tree back. -/
theorem parse_render {value : Value} (hwritten : value.Written) : parse value.render = some value := by
  have hfuel := Value.weight_le_length value hwritten
  have hread := Value.parse_value_render value (2 * value.render.length + 2) [] hwritten (by omega)
    (by intro b hb; cases hb)
  rw [List.append_nil] at hread
  simp [parse, hread, skip_whitespace]

end json
