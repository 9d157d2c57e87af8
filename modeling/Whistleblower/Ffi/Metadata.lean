import Whistleblower.Lib.Base64
import Whistleblower.Core.Envelope

open whistleblower_core

namespace whistleblower_ffi

/-- Why a call fails. -/
inductive FfiError where
  | invalid_json (error : json.DecodeError)
  | invalid_cid (error : CoreError)
  | envelope_encode (error : CoreError)
  | hash (error : CoreError)
  | hash_length (name : String) (got : Nat)
  | invalid_hex
  | missing (name : String)
  | failed (message : String)
  deriving DecidableEq, Repr

/-- The text of each error. Those of undecodable JSON and hexadecimal go on with the
    decoder's error. -/
def FfiError.message : FfiError → String
  | .invalid_json _ => "invalid JSON: "
  | .invalid_cid error => "invalid cid: " ++ error.message
  | .envelope_encode error => "envelope encode: " ++ error.message
  | .hash error => "hash: " ++ error.message
  | .hash_length name got => name ++ " must be 64 hex chars, got " ++ toString got
  | .invalid_hex => "invalid hex: "
  | .missing name => "missing " ++ name
  | .failed message => message

/-- A hash in hexadecimal, after any number of `0x`. -/
def parse_hash (name : String) (s : String) : Except FfiError (Vector UInt8 32) :=
  let s := String.ofList (text.trimStartChars '0' 'x' s.toList)
  if (text.bytes s).length ≠ 64 then .error (.hash_length name (text.bytes s).length)
  else
    match text.hex_decode s with
    | none => .error .invalid_hex
    | some bytes =>
      if h : bytes.length = 32 then .ok ⟨bytes.toArray, by simpa using h⟩ else .error .invalid_hex

def parse_metadata_hash (s : String) : Except FfiError MetadataHash := (parse_hash "metadata_hash" s).map .mk

def parse_cid_hash (s : String) : Except FfiError CidHash := (parse_hash "cid_hash" s).map .mk

def ALPHA : List Char := "ABCDEFGHIJKLMNOPQRSTUVWXYZabcdefghijklmnopqrstuvwxyz0123456789+/".toList

/-- The letter at an index, which is always below 64. -/
def ALPHA_at (index : UInt8) : Char := ALPHA.getD index.toNat '='

/-- The four characters of a chunk of at most three bytes. -/
def base64_chunk (chunk : List UInt8) : List Char :=
  let b0 := chunk.getD 0 0
  let b1 := chunk.getD 1 0
  let b2 := chunk.getD 2 0
  [ALPHA_at (b0 >>> 2),
    ALPHA_at (((b0 &&& 0x03) <<< 4) ||| (b1 >>> 4)),
    if 1 < chunk.length then ALPHA_at (((b1 &&& 0x0f) <<< 2) ||| (b2 >>> 6)) else '=',
    if 2 < chunk.length then ALPHA_at (b2 &&& 0x3f) else '=']

/-- The chunks of three bytes, the last of which may be shorter. -/
def chunks : List UInt8 → List (List UInt8)
  | [] => []
  | [b0] => [[b0]]
  | [b0, b1] => [[b0, b1]]
  | b0 :: b1 :: b2 :: rest => [b0, b1, b2] :: chunks rest

def base64_encode (bytes : List UInt8) : String := String.ofList ((chunks bytes).flatMap base64_chunk)

/-- The arguments of `compute_metadata_hash`. -/
structure MetadataInputs where
  cid : String
  title : String
  description : String
  content_type : String
  size_bytes : UInt64
  timestamp_unix : UInt64
  tags : List String
  deriving DecidableEq, Repr

namespace MetadataInputs

def field_names : List String :=
  ["cid", "title", "description", "content_type", "size_bytes", "timestamp_unix", "tags"]

/-- The derived deserialiser. -/
def deserialize (value : json.Value) : Except json.DecodeError MetadataInputs := do
  match ← json.fields field_names value with
  | [cid, title, description, content_type, size_bytes, timestamp_unix, tags] =>
    let cid ← json.as_string cid
    let title ← json.as_string title
    let description ← json.as_string description
    let content_type ← json.as_string content_type
    let size_bytes ← json.as_unsigned (2 ^ 64) size_bytes
    let timestamp_unix ← json.as_unsigned (2 ^ 64) timestamp_unix
    let tags ← json.as_list json.as_string tags
    .ok {
      cid, title, description, content_type
      size_bytes := UInt64.ofNat size_bytes
      timestamp_unix := UInt64.ofNat timestamp_unix
      tags }
  | _ => .error (.invalid_length field_names.length)

/-- Arguments that were read have the CID that stands in their first field. -/
theorem fields_of_deserialize {value : json.Value} {self : MetadataInputs} (hread : deserialize value = .ok self) :
    ∃ cid rest, json.fields field_names value = .ok (cid :: rest) ∧ json.as_string cid = .ok self.cid := by
  unfold deserialize at hread
  cases hfields : json.fields field_names value with
  | error e => simp [hfields, bind, Except.bind] at hread
  | ok fields =>
    simp only [hfields, bind, Except.bind] at hread
    split at hread
    · rename_i cid title description content_type size_bytes timestamp_unix tags
      refine ⟨cid, _, rfl, ?_⟩
      -- one split for each field that is read, of which only successes go on
      iterate 7 (split at hread <;> try contradiction)
      cases hread
      assumption
    · cases hread

/-- The fields in the order of their declaration. -/
def entries (self : MetadataInputs) : List (String × json.Value) := [
  ("cid", .of_string self.cid),
  ("title", .of_string self.title),
  ("description", .of_string self.description),
  ("content_type", .of_string self.content_type),
  ("size_bytes", .of_nat self.size_bytes.toNat),
  ("timestamp_unix", .of_nat self.timestamp_unix.toNat),
  ("tags", .array (self.tags.map .of_string))]

/-- The derived serialiser. -/
def serialize (self : MetadataInputs) : json.Value := json.record self.entries

theorem deserialize_serialize (self : MetadataInputs) : deserialize self.serialize = .ok self := by
  have hfields : json.fields field_names self.serialize = .ok (self.entries.map Prod.snd) := by
    have hnames : self.entries.map Prod.fst = field_names := rfl
    have hnodup : field_names.Nodup := by decide
    rw [serialize, ← hnames]
    exact json.fields_record (hnames ▸ hnodup)
  have hsize := json.as_unsigned_of_nat self.size_bytes.toNat_lt
  have htimestamp := json.as_unsigned_of_nat self.timestamp_unix.toNat_lt
  have htags := json.as_list_array json.as_string_of_string self.tags
  rw [deserialize, hfields]
  simp only [entries, List.map_cons, List.map_nil, bind, Except.bind, hsize, htimestamp, htags,
    json.as_string_of_string, UInt64.ofNat_toNat]

theorem written_serialize (self : MetadataInputs) : self.serialize.Written := by
  apply json.written_record
  simp [entries]

/-- The arguments in a text, which is given by its bytes. -/
def from_str (args : List UInt8) : Except json.DecodeError MetadataInputs := json.from_slice deserialize args

theorem from_str_render (self : MetadataInputs) : from_str self.serialize.render = .ok self := by
  rw [from_str, json.from_slice_render self.written_serialize, deserialize_serialize]

end MetadataInputs

/-- The answer's text. Members stand in the order of their names. -/
def metadata_hash_json (envelope_bytes : List UInt8) (metadata_hash : MetadataHash) : json.Value :=
  json.record [
    ("envelope_bytes_b64", .of_string (base64_encode envelope_bytes)),
    ("metadata_hash_hex", .of_string (text.hex_encode metadata_hash.digest.toList)),
    ("success", .bool true)]

def compute_metadata_hash_impl [Sha256] (args : List UInt8) : Except FfiError (List UInt8) :=
  match MetadataInputs.from_str args with
  | .error e => .error (.invalid_json e)
  | .ok inputs =>
    match CanonicalCid.new inputs.cid with
    | .error e => .error (.invalid_cid e)
    | .ok cid =>
      let envelope : MetadataEnvelopeV1 := {
        version := 1
        cid
        title := inputs.title
        description := inputs.description
        content_type := inputs.content_type
        size_bytes := inputs.size_bytes
        timestamp := inputs.timestamp_unix
        tags := inputs.tags }
      match envelope.canonical_json_bytes with
      | .error e => .error (.envelope_encode e)
      | .ok envelope_bytes =>
        match envelope.metadata_hash with
        | .error e => .error (.hash e)
        | .ok metadata_hash => .ok (metadata_hash_json envelope_bytes metadata_hash).render

theorem written_metadata_hash_json (envelope_bytes : List UInt8) (metadata_hash : MetadataHash) :
    (metadata_hash_json envelope_bytes metadata_hash).Written := by
  apply json.written_record
  simp [json.Value.Written]

theorem ALPHA_at_eq (index : UInt8) : ALPHA_at index = base64.letter index.toNat := rfl

/-- The upper bits of a byte. -/
theorem toNat_upper (b0 : UInt8) : (b0 >>> 2).toNat = b0.toNat / 4 := by
  simp [UInt8.toNat_shiftRight, Nat.shiftRight_eq_div_pow]

/-- The lower two bits of a byte and the upper four of the next. -/
theorem toNat_second (b0 b1 : UInt8) :
    (((b0 &&& 0x03) <<< 4) ||| (b1 >>> 4)).toNat = b0.toNat % 4 * 16 + b1.toNat / 16 := by
  have hmask : b0.toNat &&& 3 = b0.toNat % 4 := Nat.and_two_pow_sub_one_eq_mod b0.toNat 2
  have hlow : b1.toNat / 16 < 2 ^ 4 := by have := b1.toNat_lt; omega
  have hor := Nat.two_pow_add_eq_or_of_lt hlow (b0.toNat % 4)
  have hshift : b0.toNat % 4 * 16 % 256 = 2 ^ 4 * (b0.toNat % 4) := by omega
  simp only [UInt8.toNat_or, UInt8.toNat_shiftLeft, UInt8.toNat_and, UInt8.toNat_shiftRight, UInt8.reduceToNat,
    Nat.shiftLeft_eq, Nat.shiftRight_eq_div_pow, hmask]
  rw [hshift, ← hor]
  omega

/-- The lower four bits of a byte and the upper two of the next. -/
theorem toNat_third (b1 b2 : UInt8) :
    (((b1 &&& 0x0f) <<< 2) ||| (b2 >>> 6)).toNat = b1.toNat % 16 * 4 + b2.toNat / 64 := by
  have hmask : b1.toNat &&& 15 = b1.toNat % 16 := Nat.and_two_pow_sub_one_eq_mod b1.toNat 4
  have hlow : b2.toNat / 64 < 2 ^ 2 := by have := b2.toNat_lt; omega
  have hor := Nat.two_pow_add_eq_or_of_lt hlow (b1.toNat % 16)
  have hshift : b1.toNat % 16 * 4 % 256 = 2 ^ 2 * (b1.toNat % 16) := by omega
  simp only [UInt8.toNat_or, UInt8.toNat_shiftLeft, UInt8.toNat_and, UInt8.toNat_shiftRight, UInt8.reduceToNat,
    Nat.shiftLeft_eq, Nat.shiftRight_eq_div_pow, hmask]
  rw [hshift, ← hor]
  omega

/-- The lower bits of a byte. -/
theorem toNat_lower (b2 : UInt8) : (b2 &&& 0x3f).toNat = b2.toNat % 64 :=
  Nat.and_two_pow_sub_one_eq_mod b2.toNat 6

theorem base64_chunk_three (b0 b1 b2 : UInt8) :
    base64_chunk [b0, b1, b2] = [base64.letter (b0.toNat / 4),
      base64.letter (b0.toNat % 4 * 16 + b1.toNat / 16), base64.letter (b1.toNat % 16 * 4 + b2.toNat / 64),
      base64.letter (b2.toNat % 64)] := by
  simp only [base64_chunk, ALPHA_at_eq, List.getD_cons_zero, List.getD_cons_succ, toNat_upper, toNat_second,
    toNat_third, toNat_lower]
  rfl

theorem base64_chunk_two (b0 b1 : UInt8) :
    base64_chunk [b0, b1] = [base64.letter (b0.toNat / 4),
      base64.letter (b0.toNat % 4 * 16 + b1.toNat / 16), base64.letter (b1.toNat % 16 * 4), '='] := by
  simp only [base64_chunk, ALPHA_at_eq, List.getD_cons_zero, List.getD_cons_succ, toNat_upper, toNat_second,
    toNat_third, toNat_lower]
  rfl

theorem base64_chunk_one (b0 : UInt8) :
    base64_chunk [b0] = [base64.letter (b0.toNat / 4), base64.letter (b0.toNat % 4 * 16), '=', '='] := by
  simp only [base64_chunk, ALPHA_at_eq, List.getD_cons_zero, List.getD_cons_succ, toNat_upper, toNat_second,
    toNat_third, toNat_lower]
  rfl

theorem base64_encode_eq (bytes : List UInt8) : base64_encode bytes = String.ofList (base64.encode bytes) := by
  rw [base64_encode]
  congr 1
  induction bytes using chunks.induct with
  | case1 => rfl
  | case2 b0 =>
    rw [chunks, List.flatMap_cons, base64_chunk_one]
    rfl
  | case3 b0 b1 =>
    rw [chunks, List.flatMap_cons, base64_chunk_two]
    rfl
  | case4 b0 b1 b2 rest ih =>
    rw [chunks, List.flatMap_cons, base64_chunk_three, ih, base64.encode]
    rfl

/-- The indexes at which the letters of a chunk are looked up. -/
def base64_indexes (chunk : List UInt8) : List UInt8 :=
  let b0 := chunk.getD 0 0
  let b1 := chunk.getD 1 0
  let b2 := chunk.getD 2 0
  [b0 >>> 2, ((b0 &&& 0x03) <<< 4) ||| (b1 >>> 4)] ++
    (if 1 < chunk.length then [((b1 &&& 0x0f) <<< 2) ||| (b2 >>> 6)] else []) ++
    if 2 < chunk.length then [b2 &&& 0x3f] else []

theorem base64_indexes_lt (chunk : List UInt8) : ∀ index ∈ base64_indexes chunk, index.toNat < 64 := by
  intro index hindex
  have hb0 := (chunk.getD 0 0).toNat_lt
  have hb1 := (chunk.getD 1 0).toNat_lt
  have hb2 := (chunk.getD 2 0).toNat_lt
  simp only [base64_indexes, List.mem_append, List.mem_cons, List.not_mem_nil, or_false, List.mem_ite_nil_right]
    at hindex
  obtain ((rfl | rfl) | ⟨_, rfl⟩) | ⟨_, rfl⟩ := hindex
  · rw [toNat_upper]
    omega
  · rw [toNat_second]
    omega
  · rw [toNat_third]
    omega
  · rw [toNat_lower]
    omega

/-- The letters of a chunk, and its padding. -/
theorem base64_chunk_eq {bytes chunk : List UInt8} (hchunk : chunk ∈ chunks bytes) :
    base64_chunk chunk =
      (base64_indexes chunk).map ALPHA_at ++ List.replicate (3 - chunk.length) '=' := by
  induction bytes using chunks.induct with
  | case1 => cases hchunk
  | case2 b0 =>
    obtain rfl := List.mem_singleton.mp hchunk
    rfl
  | case3 b0 b1 =>
    obtain rfl := List.mem_singleton.mp hchunk
    rfl
  | case4 b0 b1 b2 rest ih =>
    obtain rfl | hrest := List.mem_cons.mp hchunk
    · rfl
    · exact ih hrest

/-- Decoding gives the bytes back. -/
theorem decode_base64_encode (bytes : List UInt8) : base64.decode (base64_encode bytes).toList = some bytes := by
  rw [base64_encode_eq, String.toList_ofList, base64.decode_encode]

/-- A hash that was written in hexadecimal is read back. -/
theorem parse_hash_hex_encode (name : String) (digest : Vector UInt8 32) :
    parse_hash name (text.hex_encode digest.toList) = .ok digest := by
  have hlength : digest.toList.length = 32 := digest.length_toList
  have hdigits := text.length_bytes_hex_encode digest.toList
  rw [parse_hash, text.trimStartChars_of_not_mem (text.not_mem_hex_encode digest.toList), String.ofList_toList]
  simp only [hdigits, hlength, text.hex_decode_hex_encode]
  have harray : digest.toList.toArray = digest.toArray := digest.toArray.toArray_toList
  simp [harray]

theorem parse_metadata_hash_hex_encode (metadata_hash : MetadataHash) :
    parse_metadata_hash (text.hex_encode metadata_hash.digest.toList) = .ok metadata_hash := by
  rw [parse_metadata_hash, parse_hash_hex_encode]
  rfl

end whistleblower_ffi
