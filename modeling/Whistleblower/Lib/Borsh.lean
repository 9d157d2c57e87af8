import Whistleblower.Lib.Text

namespace borsh

/-- Why a reader refuses its input. -/
inductive DecodeError where
  | unexpected_length
  | not_all_bytes_read
  | invalid_utf8
  | unexpected_variant (tag : UInt8)
  deriving DecidableEq, Repr

/-- The text of each error. That of a broken string goes on with where it broke. -/
def DecodeError.message : DecodeError → String
  | .unexpected_length => "Unexpected length of input"
  | .not_all_bytes_read => "Not all bytes read"
  | .invalid_utf8 => "invalid utf-8"
  | .unexpected_variant tag => "Unexpected variant tag: " ++ toString tag.toNat

/-- A binary format of one type. Writing fails only on a value too long for its
    length field; reading takes a value off the front and leaves the rest. What
    is written is read back, and nothing but what is written is read. -/
structure Codec (A : Type) where
  encode : A → Option (List UInt8)
  decode : List UInt8 → Except DecodeError (A × List UInt8)
  decode_encode : ∀ {value bytes}, encode value = some bytes →
    ∀ rest, decode (bytes ++ rest) = .ok (value, rest)
  encode_decode : ∀ {input value rest}, decode input = .ok (value, rest) →
    ∃ bytes, encode value = some bytes ∧ input = bytes ++ rest

/-- Read a whole input as one value. -/
def try_from_slice {A : Type} (codec : Codec A) (input : List UInt8) : Except DecodeError A :=
  match codec.decode input with
  | .error e => .error e
  | .ok (value, []) => .ok value
  | .ok (_, _ :: _) => .error .not_all_bytes_read

/-- A whole input reads as a value exactly when it is the value's encoding. -/
theorem try_from_slice_eq_ok {A : Type} {codec : Codec A} {input : List UInt8} {value : A} :
    try_from_slice codec input = .ok value ↔ codec.encode value = some input := by
  constructor
  · intro hread
    unfold try_from_slice at hread
    split at hread
    · cases hread
    · rename_i decoded hdecode
      cases hread
      obtain ⟨bytes, hencode, rfl⟩ := codec.encode_decode hdecode
      rwa [List.append_nil]
    · cases hread
  · intro hencode
    have hdecode := codec.decode_encode hencode []
    rw [List.append_nil] at hdecode
    rw [try_from_slice, hdecode]

/-- What it takes for a format to fit its type exactly: the values that can be written
    are known, each is read back from what was written, nothing else is read, and
    neither a part of an encoding nor an encoding with more behind it is accepted. -/
structure Exact {A : Type} (to_vec : A → Option (List UInt8))
    (try_from_slice : List UInt8 → Except DecodeError A) (Encodable : A → Prop) : Prop where
  written : ∀ value, (to_vec value).isSome ↔ Encodable value
  read_back : ∀ value bytes, to_vec value = some bytes → try_from_slice bytes = .ok value
  canonical : ∀ bytes value, try_from_slice bytes = .ok value → to_vec value = some bytes
  distinct : ∀ bytes other value, try_from_slice bytes = .ok value → try_from_slice other = .ok value →
    bytes = other
  truncated : ∀ value bytes missing, to_vec value = some (bytes ++ missing) → missing ≠ [] →
    ∃ e, try_from_slice bytes = .error e
  trailing : ∀ value bytes extra, to_vec value = some bytes → extra ≠ [] →
    try_from_slice (bytes ++ extra) = .error .not_all_bytes_read

theorem Codec.exact {A : Type} (codec : Codec A) {Encodable : A → Prop}
    (hwritten : ∀ value, (codec.encode value).isSome ↔ Encodable value) :
    Exact codec.encode (try_from_slice codec) Encodable where
  written := hwritten
  read_back := fun _ _ hencode => try_from_slice_eq_ok.mpr hencode
  canonical := fun _ _ hread => try_from_slice_eq_ok.mp hread
  distinct := by
    intro bytes other value hbytes hother
    rw [try_from_slice_eq_ok] at hbytes hother
    exact Option.some.inj (hbytes.symm.trans hother)
  truncated := by
    intro value bytes missing hencode hmissing
    cases hread : try_from_slice codec bytes with
    | error e => exact ⟨e, rfl⟩
    | ok other =>
      have hother := codec.decode_encode (try_from_slice_eq_ok.mp hread) missing
      have hwhole := codec.decode_encode hencode []
      rw [List.append_nil, hother] at hwhole
      cases hwhole
      exact absurd rfl hmissing
  trailing := by
    intro value bytes extra hencode hextra
    cases extra with
    | nil => exact absurd rfl hextra
    | cons b rest => rw [try_from_slice, codec.decode_encode hencode]

/-- Reading a whole input fails as reading from its front does. -/
theorem try_from_slice_eq_error {A : Type} {codec : Codec A} {input : List UInt8} {e : DecodeError}
    (hdecode : codec.decode input = .error e) : try_from_slice codec input = .error e := by
  rw [try_from_slice, hdecode]

/-- A single byte. -/
def byte : Codec UInt8 where
  encode := fun b => some [b]
  decode := fun
    | [] => .error .unexpected_length
    | b :: rest => .ok (b, rest)
  decode_encode := by
    intro b bytes hencode rest
    cases hencode
    rfl
  encode_decode := by
    intro input b rest hdecode
    cases input with
    | nil => cases hdecode
    | cons first tail =>
      cases hdecode
      exact ⟨[b], rfl, rfl⟩

/-- As many bytes as the type says, with no length before them. -/
def fixed (n : Nat) : Codec (Vector UInt8 n) where
  encode := fun value => some value.toList
  decode := fun input =>
    if h : (input.take n).length = n then .ok (⟨(input.take n).toArray, h⟩, input.drop n)
    else .error .unexpected_length
  decode_encode := by
    intro value bytes hencode rest
    cases hencode
    have hlen : value.toList.length = n := value.length_toList
    have htake : (value.toList ++ rest).take n = value.toList := by
      rw [List.take_append_of_le_length hlen.ge, List.take_of_length_le hlen.le]
    have hdrop : (value.toList ++ rest).drop n = rest := by
      rw [List.drop_append_of_le_length hlen.ge, List.drop_eq_nil_of_le hlen.le, List.nil_append]
    rw [dif_pos (by rw [htake, hlen]), hdrop]
    congr 2
    rw [← Vector.toArray_inj]
    simp only [htake]
    rfl
  encode_decode := by
    intro input value rest hdecode
    split at hdecode
    · cases hdecode
      exact ⟨_, rfl, (List.take_append_drop n input).symm⟩
    · cases hdecode

/-- One value after another. -/
def pair {A B : Type} (first : Codec A) (second : Codec B) : Codec (A × B) where
  encode := fun (a, b) => do
    let front ← first.encode a
    let back ← second.encode b
    some (front ++ back)
  decode := fun input => do
    let (a, middle) ← first.decode input
    let (b, rest) ← second.decode middle
    .ok ((a, b), rest)
  decode_encode := by
    rintro ⟨a, b⟩ bytes hencode rest
    simp only [Option.bind_eq_bind, Option.bind_eq_some_iff] at hencode
    obtain ⟨front, hfront, back, hback, hbytes⟩ := hencode
    cases hbytes
    rw [List.append_assoc, first.decode_encode hfront]
    simp only [bind, Except.bind]
    rw [second.decode_encode hback]
  encode_decode := by
    rintro input ⟨a, b⟩ rest hdecode
    cases hfirst : first.decode input with
    | error e => simp [hfirst, bind, Except.bind] at hdecode
    | ok split =>
      obtain ⟨a', middle⟩ := split
      cases hsecond : second.decode middle with
      | error e => simp [hfirst, hsecond, bind, Except.bind] at hdecode
      | ok split =>
        obtain ⟨b', rest'⟩ := split
        simp only [hfirst, hsecond, bind, Except.bind] at hdecode
        cases hdecode
        obtain ⟨front, hfront, rfl⟩ := first.encode_decode hfirst
        obtain ⟨back, hback, rfl⟩ := second.encode_decode hsecond
        exact ⟨front ++ back, by simp [hfront, hback], (List.append_assoc front back rest).symm⟩

/-- A format of another type, whose values are read from a stored form that may
    be refused, and each have exactly that stored form. -/
def refine {A B : Type} (codec : Codec A) (read : A → Except DecodeError B) (write : B → A)
    (read_write : ∀ value, read (write value) = .ok value)
    (write_read : ∀ {stored value}, read stored = .ok value → write value = stored) : Codec B where
  encode := fun value => codec.encode (write value)
  decode := fun input => do
    let (stored, rest) ← codec.decode input
    let value ← read stored
    .ok (value, rest)
  decode_encode := by
    intro value bytes hencode rest
    simp only [codec.decode_encode hencode, bind, Except.bind, read_write]
  encode_decode := by
    intro input value rest hdecode
    cases hstored : codec.decode input with
    | error e => simp [hstored, bind, Except.bind] at hdecode
    | ok split =>
      obtain ⟨stored, tail⟩ := split
      cases hread : read stored with
      | error e => simp [hstored, hread, bind, Except.bind] at hdecode
      | ok value' =>
        simp only [hstored, hread, bind, Except.bind] at hdecode
        cases hdecode
        rw [write_read hread]
        exact codec.encode_decode hstored

/-- The same format under another type's constructors. -/
def map {A B : Type} (codec : Codec A) (read : A → B) (write : B → A)
    (read_write : ∀ value, read (write value) = value)
    (write_read : ∀ stored, write (read stored) = stored) : Codec B :=
  refine codec (fun stored => .ok (read stored)) write
    (fun value => by rw [read_write])
    (fun {stored value} hread => by
      cases hread
      exact write_read stored)

/-- The low bytes of a number, least significant first. -/
def little_endian : Nat → Nat → List UInt8
  | 0, _ => []
  | width + 1, n => UInt8.ofNat n :: little_endian width (n / 256)

def of_little_endian : List UInt8 → Nat
  | [] => 0
  | b :: rest => b.toNat + 256 * of_little_endian rest

theorem length_little_endian (width n : Nat) : (little_endian width n).length = width := by
  induction width generalizing n with
  | zero => rfl
  | succ width ih => rw [little_endian, List.length_cons, ih]

theorem of_little_endian_little_endian (width n : Nat) (hn : n < 256 ^ width) :
    of_little_endian (little_endian width n) = n := by
  induction width generalizing n with
  | zero =>
    rw [Nat.pow_zero] at hn
    simp only [little_endian, of_little_endian]
    omega
  | succ width ih =>
    rw [Nat.pow_succ] at hn
    have hbyte : (UInt8.ofNat n).toNat = n % 256 := rfl
    rw [little_endian, of_little_endian, ih (n / 256) (by omega), hbyte]
    omega

theorem of_little_endian_lt (input : List UInt8) : of_little_endian input < 256 ^ input.length := by
  induction input with
  | nil => decide
  | cons b rest ih =>
    have hbyte := b.toNat_lt
    rw [of_little_endian, List.length_cons, Nat.pow_succ]
    omega

theorem little_endian_of_little_endian (input : List UInt8) :
    little_endian input.length (of_little_endian input) = input := by
  induction input with
  | nil => rfl
  | cons b rest ih =>
    have hbyte := b.toNat_lt
    have hlow : UInt8.ofNat (b.toNat + 256 * of_little_endian rest) = b := by
      apply UInt8.toNat_inj.mp
      change (b.toNat + 256 * of_little_endian rest) % 256 = b.toNat
      omega
    have hhigh : (b.toNat + 256 * of_little_endian rest) / 256 = of_little_endian rest := by omega
    rw [of_little_endian, List.length_cons, little_endian, hlow, hhigh, ih]

/-- An unsigned number of the given width. -/
def unsigned (width : Nat) : Codec (Fin (256 ^ width)) :=
  map (fixed width)
    (fun bytes => ⟨of_little_endian bytes.toList, by
      have h := of_little_endian_lt bytes.toList
      rwa [bytes.length_toList] at h⟩)
    (fun n => ⟨(little_endian width n).toArray, by simp [length_little_endian]⟩)
    (fun n => by
      apply Fin.ext
      exact of_little_endian_little_endian width n n.isLt)
    (fun bytes => by
      apply Vector.toList_inj.mp
      change little_endian width (of_little_endian bytes.toList) = bytes.toList
      have h := little_endian_of_little_endian bytes.toList
      rwa [bytes.length_toList] at h)

def u64 : Codec UInt64 :=
  map (unsigned 8) (fun n => UInt64.ofFin (Fin.cast (by decide) n)) (fun n => Fin.cast (by decide) n.toFin)
    (fun n => by simp) (fun n => by simp)

/-- The given number of values, one after another. -/
def decode_many {A : Type} (codec : Codec A) :
    Nat → List UInt8 → Except DecodeError (List A × List UInt8)
  | 0, input => .ok ([], input)
  | count + 1, input => do
    let (value, middle) ← codec.decode input
    let (others, rest) ← decode_many codec count middle
    .ok (value :: others, rest)

def encode_many {A : Type} (codec : Codec A) : List A → Option (List UInt8)
  | [] => some []
  | value :: others => do
    let front ← codec.encode value
    let back ← encode_many codec others
    some (front ++ back)

theorem decode_encode_many {A : Type} {codec : Codec A} {values : List A} {bytes : List UInt8}
    (hencode : encode_many codec values = some bytes) (rest : List UInt8) :
    decode_many codec values.length (bytes ++ rest) = .ok (values, rest) := by
  induction values generalizing bytes with
  | nil =>
    cases hencode
    rfl
  | cons value others ih =>
    simp only [encode_many, Option.bind_eq_bind, Option.bind_eq_some_iff] at hencode
    obtain ⟨front, hfront, back, hback, hbytes⟩ := hencode
    cases hbytes
    rw [List.append_assoc, List.length_cons, decode_many, codec.decode_encode hfront]
    simp only [bind, Except.bind]
    rw [ih hback]

theorem encode_decode_many {A : Type} {codec : Codec A} {count : Nat} {input rest : List UInt8}
    {values : List A} (hdecode : decode_many codec count input = .ok (values, rest)) :
    values.length = count ∧ ∃ bytes, encode_many codec values = some bytes ∧ input = bytes ++ rest := by
  induction count generalizing input values with
  | zero =>
    cases hdecode
    exact ⟨rfl, [], rfl, rfl⟩
  | succ count ih =>
    cases hvalue : codec.decode input with
    | error e => simp [decode_many, hvalue, bind, Except.bind] at hdecode
    | ok split =>
      obtain ⟨value, middle⟩ := split
      cases hothers : decode_many codec count middle with
      | error e => simp [decode_many, hvalue, hothers, bind, Except.bind] at hdecode
      | ok split =>
        obtain ⟨others, rest'⟩ := split
        simp only [decode_many, hvalue, hothers, bind, Except.bind] at hdecode
        cases hdecode
        obtain ⟨front, hfront, rfl⟩ := codec.encode_decode hvalue
        obtain ⟨hlength, back, hback, rfl⟩ := ih hothers
        refine ⟨by rw [List.length_cons, hlength], front ++ back, ?_, ?_⟩
        · simp [encode_many, hfront, hback]
        · exact (List.append_assoc front back rest).symm

/-- A sequence behind its length in four bytes. -/
def vec {A : Type} (codec : Codec A) : Codec (List A) where
  encode := fun values =>
    if h : values.length < 256 ^ 4 then do
      let front ← (unsigned 4).encode ⟨values.length, h⟩
      let back ← encode_many codec values
      some (front ++ back)
    else none
  decode := fun input => do
    let (count, middle) ← (unsigned 4).decode input
    decode_many codec count middle
  decode_encode := by
    intro values bytes hencode rest
    split at hencode
    · simp only [Option.bind_eq_bind, Option.bind_eq_some_iff] at hencode
      obtain ⟨front, hfront, back, hback, hbytes⟩ := hencode
      cases hbytes
      rw [List.append_assoc, (unsigned 4).decode_encode hfront]
      simp only [bind, Except.bind]
      exact decode_encode_many hback rest
    · cases hencode
  encode_decode := by
    intro input values rest hdecode
    cases hcount : (unsigned 4).decode input with
    | error e => simp [hcount, bind, Except.bind] at hdecode
    | ok split =>
      obtain ⟨count, middle⟩ := split
      simp only [hcount, bind, Except.bind] at hdecode
      obtain ⟨front, hfront, rfl⟩ := (unsigned 4).encode_decode hcount
      obtain ⟨hlength, back, hback, rfl⟩ := encode_decode_many hdecode
      have hlt : values.length < 256 ^ 4 := hlength ▸ count.isLt
      have hfin : (⟨values.length, hlt⟩ : Fin (256 ^ 4)) = count := Fin.ext hlength
      refine ⟨front ++ back, ?_, (List.append_assoc front back rest).symm⟩
      simp only [dif_pos hlt, hfin, hfront, hback, Option.bind_eq_bind, Option.bind_some]

/-- Text as its UTF-8 bytes behind their number. -/
def string : Codec String :=
  refine (vec byte)
    (fun stored => match text.from_utf8 stored with
      | some value => .ok value
      | none => .error .invalid_utf8)
    text.bytes
    (fun value => by rw [text.from_utf8_bytes])
    (fun {stored value} hread => by
      split at hread
      · rename_i hutf8
        cases hread
        exact text.bytes_of_from_utf8 hutf8
      · cases hread)

/-- One of two cases behind its number. -/
def either {A B : Type} (first : Codec A) (second : Codec B) : Codec (A ⊕ B) where
  encode := fun
    | .inl a => (first.encode a).map (0 :: ·)
    | .inr b => (second.encode b).map (1 :: ·)
  decode := fun
    | [] => .error .unexpected_length
    | tag :: input =>
      if tag = 0 then (first.decode input).map fun split => (.inl split.1, split.2)
      else if tag = 1 then (second.decode input).map fun split => (.inr split.1, split.2)
      else .error (.unexpected_variant tag)
  decode_encode := by
    intro value bytes hencode rest
    cases value with
    | inl a =>
      obtain ⟨tail, htail, rfl⟩ := Option.map_eq_some_iff.mp hencode
      simp [first.decode_encode htail, Except.map]
    | inr b =>
      obtain ⟨tail, htail, rfl⟩ := Option.map_eq_some_iff.mp hencode
      simp [second.decode_encode htail, Except.map]
  encode_decode := by
    intro input value rest hdecode
    cases input with
    | nil => cases hdecode
    | cons tag tail =>
      by_cases hzero : tag = 0
      · subst hzero
        cases hfirst : first.decode tail with
        | error e => simp [hfirst, Except.map] at hdecode
        | ok split =>
          simp only [↓reduceIte, hfirst, Except.map] at hdecode
          cases hdecode
          obtain ⟨bytes, hbytes, rfl⟩ := first.encode_decode hfirst
          exact ⟨0 :: bytes, by simp [hbytes], rfl⟩
      · by_cases hone : tag = 1
        · subst hone
          cases hsecond : second.decode tail with
          | error e => simp [hsecond, Except.map] at hdecode
          | ok split =>
            simp only [hzero, ↓reduceIte, hsecond, Except.map] at hdecode
            cases hdecode
            obtain ⟨bytes, hbytes, rfl⟩ := second.encode_decode hsecond
            exact ⟨1 :: bytes, by simp [hbytes], rfl⟩
        · simp [hzero, hone] at hdecode

theorem isSome_encode_pair {A B : Type} {first : Codec A} {second : Codec B} {value : A × B} :
    ((pair first second).encode value).isSome ↔ (first.encode value.1).isSome ∧ (second.encode value.2).isSome := by
  obtain ⟨a, b⟩ := value
  cases hfront : first.encode a <;> cases hback : second.encode b <;> simp [pair, hfront, hback]

theorem isSome_encode_many {A : Type} {codec : Codec A} {values : List A} :
    (encode_many codec values).isSome ↔ ∀ value ∈ values, (codec.encode value).isSome := by
  induction values with
  | nil => simp [encode_many]
  | cons value others ih =>
    rw [List.forall_mem_cons, ← ih]
    cases hfront : codec.encode value <;> cases hback : encode_many codec others <;>
      simp [encode_many, hfront, hback]

/-- A sequence is written behind its length. -/
theorem encode_vec_eq {A : Type} {codec : Codec A} {values : List A} (hlength : values.length < 256 ^ 4) :
    (vec codec).encode values = (encode_many codec values).map (little_endian 4 values.length ++ ·) := by
  have hfront : (unsigned 4).encode ⟨values.length, hlength⟩ = some (little_endian 4 values.length) := rfl
  simp only [vec, dif_pos hlength, hfront, Option.bind_eq_bind, Option.bind_some]
  cases encode_many codec values <;> rfl

theorem isSome_encode_vec {A : Type} {codec : Codec A} {values : List A} :
    ((vec codec).encode values).isSome ↔
      values.length < 256 ^ 4 ∧ ∀ value ∈ values, (codec.encode value).isSome := by
  rw [← isSome_encode_many]
  by_cases hlength : values.length < 256 ^ 4
  · rw [encode_vec_eq hlength, Option.isSome_map]
    exact ⟨fun hmany => ⟨hlength, hmany⟩, And.right⟩
  · have hnone : (vec codec).encode values = none := dif_neg hlength
    rw [hnone]
    constructor
    · rintro ⟨⟩
    · rintro ⟨hshort, _⟩
      exact absurd hshort hlength

theorem isSome_encode_string {s : String} : (string.encode s).isSome ↔ (text.bytes s).length < 256 ^ 4 := by
  refine isSome_encode_vec.trans ⟨And.left, fun hlength => ⟨hlength, fun _ _ => rfl⟩⟩

/-- A count in four bytes is read off the front. -/
theorem decode_count {n : Nat} (hn : n < 256 ^ 4) (rest : List UInt8) :
    (unsigned 4).decode (little_endian 4 n ++ rest) = .ok (⟨n, hn⟩, rest) :=
  (unsigned 4).decode_encode (rfl : (unsigned 4).encode ⟨n, hn⟩ = some (little_endian 4 n)) rest

theorem decode_pair_error {A B : Type} {first : Codec A} {input : List UInt8} {e : DecodeError}
    (hdecode : first.decode input = .error e) (second : Codec B) :
    (pair first second).decode input = .error e := by
  simp only [pair, hdecode, bind, Except.bind]

theorem decode_map_error {A B : Type} {codec : Codec A} {input : List UInt8} {e : DecodeError}
    (hdecode : codec.decode input = .error e) (read : A → B) (write : B → A)
    (read_write : ∀ value, read (write value) = value) (write_read : ∀ stored, write (read stored) = stored) :
    (map codec read write read_write write_read).decode input = .error e := by
  simp only [map, refine, hdecode, bind, Except.bind]

/-- A sequence whose next element cannot be read cannot be read. -/
theorem decode_vec_error {A : Type} {codec : Codec A} {before : List A} {front rest : List UInt8}
    (hfront : encode_many codec before = some front) {e : DecodeError} (hdecode : codec.decode rest = .error e)
    {count : Nat} (hbefore : before.length < count) (hcount : count < 256 ^ 4) :
    (vec codec).decode (little_endian 4 count ++ front ++ rest) = .error e := by
  have hmany : ∀ (before : List A) (front : List UInt8) (count : Nat), encode_many codec before = some front →
      before.length < count → decode_many codec count (front ++ rest) = .error e := by
    intro before
    induction before with
    | nil =>
      intro front count hfront hcount
      cases hfront
      cases count with
      | zero => cases hcount
      | succ count => simp only [List.nil_append, decode_many, hdecode, bind, Except.bind]
    | cons value others ih =>
      intro front count hfront hcount
      simp only [encode_many, Option.bind_eq_bind, Option.bind_eq_some_iff] at hfront
      obtain ⟨head, hhead, tail, htail, hbytes⟩ := hfront
      cases hbytes
      cases count with
      | zero => cases hcount
      | succ count =>
        rw [List.length_cons] at hcount
        rw [List.append_assoc, decode_many, codec.decode_encode hhead]
        simp only [bind, Except.bind]
        rw [ih tail count htail (by omega)]
  rw [List.append_assoc]
  simp only [vec, decode_count hcount, bind, Except.bind]
  exact hmany before front count hfront hbefore

theorem encode_many_byte (bytes : List UInt8) : encode_many byte bytes = some bytes := by
  induction bytes with
  | nil => rfl
  | cons b rest ih =>
    have hbyte : byte.encode b = some [b] := rfl
    simp [encode_many, hbyte, ih]

/-- A string whose bytes are no UTF-8 is refused. -/
theorem decode_string_error {body : List UInt8} (hutf8 : text.from_utf8 body = none)
    (hlength : body.length < 256 ^ 4) (rest : List UInt8) :
    string.decode (little_endian 4 body.length ++ body ++ rest) = .error .invalid_utf8 := by
  have hvec : (vec byte).encode body = some (little_endian 4 body.length ++ body) := by
    rw [encode_vec_eq hlength, encode_many_byte]
    rfl
  simp only [string, refine, (vec byte).decode_encode hvec, bind, Except.bind, hutf8]

theorem encode_pair {A B : Type} {first : Codec A} {second : Codec B} {a : A} {b : B} {front back : List UInt8}
    (hfront : first.encode a = some front) (hback : second.encode b = some back) :
    (pair first second).encode (a, b) = some (front ++ back) := by
  simp [pair, hfront, hback]

/-- A sequence is encoded if its length fits four bytes and its elements are encoded. -/
theorem encode_vec {A : Type} {codec : Codec A} {values : List A} (hlength : values.length < 256 ^ 4)
    {back : List UInt8} (hback : encode_many codec values = some back) :
    ∃ front : List UInt8, front.length = 4 ∧ (vec codec).encode values = some (front ++ back) := by
  refine ⟨little_endian 4 values.length, length_little_endian 4 _, ?_⟩
  rw [encode_vec_eq hlength, hback]
  rfl

/-- A string that is not too long takes four bytes more than its text. -/
theorem encode_string {s : String} (hlength : (text.bytes s).length < 256 ^ 4) :
    ∃ bytes, string.encode s = some bytes ∧ bytes.length = 4 + (text.bytes s).length := by
  obtain ⟨front, hfront, hencode⟩ := encode_vec hlength (encode_many_byte (text.bytes s))
  exact ⟨front ++ text.bytes s, hencode, by rw [List.length_append, hfront]⟩

theorem encode_u64 (n : UInt64) : ∃ bytes, u64.encode n = some bytes ∧ bytes.length = 8 :=
  ⟨_, rfl, Vector.length_toList⟩

end borsh
