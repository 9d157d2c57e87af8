import Whistleblower.Lib.Borsh
import Whistleblower.Core.Registry

namespace whistleblower_core

namespace CanonicalCid

/-- The derived format: that of any string. -/
def codec : borsh.Codec CanonicalCid :=
  borsh.map borsh.string CanonicalCid.mk inner (fun _ => rfl) (fun _ => rfl)

theorem encode_codec {self : CanonicalCid} (hlength : (text.bytes self.inner).length < 256 ^ 4) :
    ∃ bytes, codec.encode self = some bytes ∧ bytes.length = 4 + (text.bytes self.inner).length :=
  borsh.encode_string hlength

theorem isSome_encode_codec (self : CanonicalCid) :
    (codec.encode self).isSome ↔ (text.bytes self.inner).length < 256 ^ 4 := borsh.isSome_encode_string

end CanonicalCid

def CidHash.codec : borsh.Codec CidHash :=
  borsh.map (borsh.fixed 32) CidHash.mk CidHash.digest (fun _ => rfl) (fun _ => rfl)

def MetadataHash.codec : borsh.Codec MetadataHash :=
  borsh.map (borsh.fixed 32) MetadataHash.mk MetadataHash.digest (fun _ => rfl) (fun _ => rfl)

namespace AnchorEntry

def codec : borsh.Codec AnchorEntry :=
  borsh.map (borsh.pair CanonicalCid.codec (borsh.pair CidHash.codec (borsh.pair MetadataHash.codec borsh.u64)))
    (fun (cid, cid_hash, metadata_hash, anchor_timestamp) =>
      { cid, cid_hash, metadata_hash, anchor_timestamp })
    (fun entry => (entry.cid, entry.cid_hash, entry.metadata_hash, entry.anchor_timestamp))
    (fun _ => rfl) (fun _ => rfl)

def to_vec (self : AnchorEntry) : Option (List UInt8) := codec.encode self

def try_from_slice (input : List UInt8) : Except borsh.DecodeError AnchorEntry :=
  borsh.try_from_slice codec input

theorem try_from_slice_to_vec {self : AnchorEntry} {bytes : List UInt8} (hbytes : self.to_vec = some bytes) :
    try_from_slice bytes = .ok self :=
  borsh.try_from_slice_eq_ok.mpr hbytes

/-- An entry takes 76 bytes more than the text of its CID. -/
theorem to_vec_eq_some {self : AnchorEntry} (hcid : (text.bytes self.cid.inner).length < 256 ^ 4) :
    ∃ bytes, self.to_vec = some bytes ∧ bytes.length = 76 + (text.bytes self.cid.inner).length := by
  obtain ⟨cid_bytes, hcid_bytes, hcid_length⟩ := CanonicalCid.encode_codec hcid
  obtain ⟨timestamp, htimestamp, htimestamp_length⟩ := borsh.encode_u64 self.anchor_timestamp
  have hmetadata : MetadataHash.codec.encode self.metadata_hash = some self.metadata_hash.digest.toList := rfl
  have hhash : CidHash.codec.encode self.cid_hash = some self.cid_hash.digest.toList := rfl
  refine ⟨_, borsh.encode_pair hcid_bytes (borsh.encode_pair hhash (borsh.encode_pair hmetadata htimestamp)), ?_⟩
  simp only [List.length_append, Vector.length_toList, hcid_length, htimestamp_length]
  omega

theorem to_vec_eq (self : AnchorEntry) :
    self.to_vec =
      (borsh.pair CanonicalCid.codec (borsh.pair CidHash.codec (borsh.pair MetadataHash.codec borsh.u64))).encode
        (self.cid, self.cid_hash, self.metadata_hash, self.anchor_timestamp) := rfl

theorem isSome_to_vec (self : AnchorEntry) :
    self.to_vec.isSome ↔ (text.bytes self.cid.inner).length < 256 ^ 4 := by
  rw [to_vec_eq, borsh.isSome_encode_pair, CanonicalCid.isSome_encode_codec]
  exact ⟨And.left, fun hlength => ⟨hlength, rfl⟩⟩

/-- The fixed-width fields alone take more than a byte. -/
theorem to_vec_ne_nil {self : AnchorEntry} {bytes : List UInt8} (hbytes : self.to_vec = some bytes) :
    bytes ≠ [] := by
  rintro rfl
  have hread := try_from_slice_to_vec hbytes
  cases hread

end AnchorEntry

namespace RegistryInstruction

def codec : borsh.Codec RegistryInstruction :=
  borsh.map
    (borsh.either
      (borsh.pair CanonicalCid.codec (borsh.pair MetadataHash.codec borsh.u64))
      (borsh.pair (borsh.vec (borsh.pair CanonicalCid.codec MetadataHash.codec)) borsh.u64))
    (fun
      | .inl (cid, metadata_hash, anchor_timestamp) => .AnchorOne cid metadata_hash anchor_timestamp
      | .inr (entries, anchor_timestamp) => .AnchorBatch entries anchor_timestamp)
    (fun
      | .AnchorOne cid metadata_hash anchor_timestamp => .inl (cid, metadata_hash, anchor_timestamp)
      | .AnchorBatch entries anchor_timestamp => .inr (entries, anchor_timestamp))
    (fun instruction => by cases instruction <;> rfl)
    (fun stored => by cases stored <;> rfl)

def to_vec (self : RegistryInstruction) : Option (List UInt8) := codec.encode self

def try_from_slice (input : List UInt8) : Except borsh.DecodeError RegistryInstruction :=
  borsh.try_from_slice codec input

/-- Instruction bytes decode to an instruction exactly when they are its encoding. -/
theorem try_from_slice_eq_ok {input : List UInt8} {instruction : RegistryInstruction} :
    try_from_slice input = .ok instruction ↔ instruction.to_vec = some input :=
  borsh.try_from_slice_eq_ok

/-- Every length in the instruction fits its four bytes. -/
def Short : RegistryInstruction → Prop
  | .AnchorOne cid _ _ => (text.bytes cid.inner).length < 256 ^ 4
  | .AnchorBatch entries _ =>
    entries.length < 256 ^ 4 ∧ ∀ entry ∈ entries, (text.bytes entry.1.inner).length < 256 ^ 4

theorem to_vec_one_eq (cid : CanonicalCid) (metadata_hash : MetadataHash) (anchor_timestamp : UInt64) :
    (AnchorOne cid metadata_hash anchor_timestamp).to_vec =
      ((borsh.pair CanonicalCid.codec (borsh.pair MetadataHash.codec borsh.u64)).encode
        (cid, metadata_hash, anchor_timestamp)).map (0 :: ·) := rfl

theorem to_vec_batch_eq (entries : List (CanonicalCid × MetadataHash)) (anchor_timestamp : UInt64) :
    (AnchorBatch entries anchor_timestamp).to_vec =
      ((borsh.pair (borsh.vec (borsh.pair CanonicalCid.codec MetadataHash.codec)) borsh.u64).encode
        (entries, anchor_timestamp)).map (1 :: ·) := rfl

theorem isSome_to_vec (self : RegistryInstruction) : self.to_vec.isSome ↔ self.Short := by
  cases self with
  | AnchorOne cid metadata_hash anchor_timestamp =>
    rw [to_vec_one_eq, Option.isSome_map, borsh.isSome_encode_pair, CanonicalCid.isSome_encode_codec]
    exact ⟨And.left, fun hlength => ⟨hlength, rfl⟩⟩
  | AnchorBatch entries anchor_timestamp =>
    rw [to_vec_batch_eq, Option.isSome_map, borsh.isSome_encode_pair, borsh.isSome_encode_vec]
    have hentry : ∀ entry : CanonicalCid × MetadataHash,
        ((borsh.pair CanonicalCid.codec MetadataHash.codec).encode entry).isSome ↔
          (text.bytes entry.1.inner).length < 256 ^ 4 := by
      intro entry
      rw [borsh.isSome_encode_pair, CanonicalCid.isSome_encode_codec]
      exact ⟨And.left, fun hlength => ⟨hlength, rfl⟩⟩
    simp only [hentry]
    exact ⟨And.left, fun hshort => ⟨hshort, rfl⟩⟩

/-- A batch is encoded if neither it nor the text of a CID in it is too long. -/
theorem to_vec_batch {entries : List (CanonicalCid × MetadataHash)} (hlength : entries.length < 256 ^ 4)
    (hcids : ∀ entry ∈ entries, (text.bytes entry.1.inner).length < 256 ^ 4) (anchor_timestamp : UInt64) :
    ∃ bytes, (AnchorBatch entries anchor_timestamp).to_vec = some bytes :=
  Option.isSome_iff_exists.mp ((isSome_to_vec _).mpr ⟨hlength, hcids⟩)

end RegistryInstruction

section

variable {body : List UInt8} (hutf8 : text.from_utf8 body = none) (hlength : body.length < 256 ^ 4)
include hutf8 hlength

theorem decode_cid_error (rest : List UInt8) :
    CanonicalCid.codec.decode (borsh.little_endian 4 body.length ++ body ++ rest) = .error .invalid_utf8 :=
  borsh.decode_map_error (borsh.decode_string_error hutf8 hlength rest) _ _ _ _

theorem AnchorEntry.try_from_slice_invalid (rest : List UInt8) :
    AnchorEntry.try_from_slice (borsh.little_endian 4 body.length ++ body ++ rest) = .error .invalid_utf8 := by
  apply borsh.try_from_slice_eq_error
  apply borsh.decode_map_error
  exact borsh.decode_pair_error (decode_cid_error hutf8 hlength rest) _

theorem RegistryInstruction.try_from_slice_invalid_one (rest : List UInt8) :
    RegistryInstruction.try_from_slice (0 :: (borsh.little_endian 4 body.length ++ body ++ rest)) =
      .error .invalid_utf8 := by
  apply borsh.try_from_slice_eq_error
  apply borsh.decode_map_error
  have hpair :=
    borsh.decode_pair_error (decode_cid_error hutf8 hlength rest) (borsh.pair MetadataHash.codec borsh.u64)
  simp only [borsh.either, ↓reduceIte, hpair, Except.map]

theorem RegistryInstruction.try_from_slice_invalid_batch {before : List (CanonicalCid × MetadataHash)}
    {front : List UInt8}
    (hfront : borsh.encode_many (borsh.pair CanonicalCid.codec MetadataHash.codec) before = some front)
    {count : Nat} (hbefore : before.length < count) (hcount : count < 256 ^ 4) (rest : List UInt8) :
    RegistryInstruction.try_from_slice
        (1 :: (borsh.little_endian 4 count ++ front ++ (borsh.little_endian 4 body.length ++ body ++ rest))) =
      .error .invalid_utf8 := by
  apply borsh.try_from_slice_eq_error
  apply borsh.decode_map_error
  have helement := borsh.decode_pair_error (decode_cid_error hutf8 hlength rest) MetadataHash.codec
  have hpair := borsh.decode_pair_error (borsh.decode_vec_error hfront helement hbefore hcount) borsh.u64
  simp only [borsh.either, if_neg (by decide : ¬(1 : UInt8) = 0), ↓reduceIte, hpair, Except.map]

end

theorem RegistryInstruction.try_from_slice_unknown {tag : UInt8} (hzero : tag ≠ 0) (hone : tag ≠ 1)
    (rest : List UInt8) :
    RegistryInstruction.try_from_slice (tag :: rest) = .error (.unexpected_variant tag) := by
  apply borsh.try_from_slice_eq_error
  apply borsh.decode_map_error
  simp only [borsh.either, if_neg hzero, if_neg hone]

/-- The formats of instructions and of stored entries are exact: what is shorter than
    2^32 is written and read back, and only what is written is read. A cut or extended
    encoding, an unknown tag, and a CID at any place that is no UTF-8 are refused. -/
theorem wire_formats_exact :
    borsh.Exact RegistryInstruction.to_vec RegistryInstruction.try_from_slice RegistryInstruction.Short ∧
    borsh.Exact AnchorEntry.to_vec AnchorEntry.try_from_slice
      (fun entry => (text.bytes entry.cid.inner).length < 256 ^ 4) ∧
    (∀ tag rest, tag ≠ 0 → tag ≠ 1 →
      RegistryInstruction.try_from_slice (tag :: rest) = .error (.unexpected_variant tag)) ∧
    ∀ body rest, text.from_utf8 body = none → body.length < 256 ^ 4 →
      let cid := borsh.little_endian 4 body.length ++ body ++ rest
      AnchorEntry.try_from_slice cid = .error .invalid_utf8 ∧
      RegistryInstruction.try_from_slice (0 :: cid) = .error .invalid_utf8 ∧
      ∀ before front count,
        borsh.encode_many (borsh.pair CanonicalCid.codec MetadataHash.codec) before = some front →
        before.length < count → count < 256 ^ 4 →
        RegistryInstruction.try_from_slice (1 :: (borsh.little_endian 4 count ++ front ++ cid)) =
          .error .invalid_utf8 := by
  refine ⟨borsh.Codec.exact _ RegistryInstruction.isSome_to_vec, borsh.Codec.exact _ AnchorEntry.isSome_to_vec,
    fun tag rest hzero hone => RegistryInstruction.try_from_slice_unknown hzero hone rest, ?_⟩
  intro body rest hutf8 hlength
  refine ⟨AnchorEntry.try_from_slice_invalid hutf8 hlength rest,
    RegistryInstruction.try_from_slice_invalid_one hutf8 hlength rest, ?_⟩
  intro before front count hfront hbefore hcount
  exact RegistryInstruction.try_from_slice_invalid_batch hutf8 hlength hfront hbefore hcount rest

end whistleblower_core
