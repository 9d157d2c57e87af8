import Whistleblower.Lib.Sha256
import Whistleblower.Lib.Json.Decode

namespace whistleblower_core

def DEFAULT_CONTENT_TOPIC : String := "/lp0017-whistleblower/1/cids/json"

/-- Keeps the hashes of CIDs apart from all other uses of the hash. -/
def CID_HASH_DOMAIN : String := "lp0017:cid:v1\x00"

inductive CoreError where
  | EmptyCid
  | Json (error : String)
  deriving DecidableEq, Repr

def CoreError.message : CoreError → String
  | .EmptyCid => "CID cannot be empty"
  | .Json error => "canonical JSON serialization failed: " ++ error

theorem eq_ok_of_toOption {E A : Type} {result : Except E A} {a : A} (hsome : result.toOption = some a) :
    result = .ok a := by
  cases result with
  | ok b => exact congrArg Except.ok (Option.some.inj hsome)
  | error e => cases hsome

/-- A plain wrapper. `CanonicalCid.new` is one way to make a value, and the derived
    deserialisers, which accept every string, are the others. -/
structure CanonicalCid where
  inner : String
  deriving DecidableEq, Repr

def CanonicalCid.new (cid : String) : Except CoreError CanonicalCid :=
  let canonical := text.trim cid
  if canonical = "" then .error .EmptyCid else .ok ⟨canonical⟩

def CanonicalCid.as_str (self : CanonicalCid) : String := self.inner

/-- What the constructor guarantees: some text, and no white space around it. -/
def CanonicalCid.Canonical (self : CanonicalCid) : Prop :=
  self.inner ≠ "" ∧ text.trim self.inner = self.inner

instance (self : CanonicalCid) : Decidable self.Canonical := by
  unfold CanonicalCid.Canonical
  infer_instance

structure CidHash where
  digest : Vector UInt8 32
  deriving DecidableEq

structure MetadataHash where
  digest : Vector UInt8 32
  deriving DecidableEq

structure MetadataEnvelopeV1 where
  version : UInt8
  cid : CanonicalCid
  title : String
  description : String
  content_type : String
  size_bytes : UInt64
  timestamp : UInt64
  tags : List String
  deriving DecidableEq, Repr

def cid_hash [Sha256] (cid : CanonicalCid) : CidHash :=
  ⟨Sha256.digest (text.bytes CID_HASH_DOMAIN ++ text.bytes cid.as_str)⟩

def sha256_bytes [Sha256] (bytes : List UInt8) : Vector UInt8 32 := Sha256.digest bytes

namespace MetadataEnvelopeV1

def field_names : List String :=
  ["version", "cid", "title", "description", "content_type", "size_bytes", "timestamp", "tags"]

/-- The fields in the order of their declaration. -/
def entries (self : MetadataEnvelopeV1) : List (String × json.Value) := [
  ("version", .of_nat self.version.toNat),
  ("cid", .of_string self.cid.inner),
  ("title", .of_string self.title),
  ("description", .of_string self.description),
  ("content_type", .of_string self.content_type),
  ("size_bytes", .of_nat self.size_bytes.toNat),
  ("timestamp", .of_nat self.timestamp.toNat),
  ("tags", .array (self.tags.map .of_string))]

/-- The derived serialiser. -/
def serialize (self : MetadataEnvelopeV1) : json.Value := json.record self.entries

/-- The derived deserialiser. The CID is taken as any other string. -/
def deserialize (value : json.Value) : Except json.DecodeError MetadataEnvelopeV1 := do
  match ← json.fields field_names value with
  | [version, cid, title, description, content_type, size_bytes, timestamp, tags] =>
    let version ← json.as_unsigned (2 ^ 8) version
    let cid ← json.as_string cid
    let title ← json.as_string title
    let description ← json.as_string description
    let content_type ← json.as_string content_type
    let size_bytes ← json.as_unsigned (2 ^ 64) size_bytes
    let timestamp ← json.as_unsigned (2 ^ 64) timestamp
    let tags ← json.as_list json.as_string tags
    .ok {
      version := UInt8.ofNat version
      cid := ⟨cid⟩
      title, description, content_type
      size_bytes := UInt64.ofNat size_bytes
      timestamp := UInt64.ofNat timestamp
      tags }
  | _ => .error (.invalid_length field_names.length)

/-- Compact JSON. Writing strings and integers into memory cannot fail. -/
def canonical_json_bytes (self : MetadataEnvelopeV1) : Except CoreError (List UInt8) :=
  .ok self.serialize.render

def metadata_hash [Sha256] (self : MetadataEnvelopeV1) : Except CoreError MetadataHash := do
  let bytes ← self.canonical_json_bytes
  .ok ⟨Sha256.digest bytes⟩

/-- The derived reader of JSON texts. -/
def from_slice (input : List UInt8) : Except json.DecodeError MetadataEnvelopeV1 :=
  json.from_slice deserialize input

theorem written_serialize (self : MetadataEnvelopeV1) : self.serialize.Written := by
  apply json.written_record
  simp [entries]

/-- The canonical form is a text. -/
theorem canonical_json_text (self : MetadataEnvelopeV1) :
    ∃ record, self.canonical_json_bytes = .ok (text.bytes record) := by
  have hvalid : text.Valid self.serialize.render := by
    apply json.valid_record
    simp [entries]
  obtain ⟨record, hrecord⟩ := hvalid
  exact ⟨record, congrArg Except.ok hrecord.symm⟩

theorem fields_serialize (self : MetadataEnvelopeV1) :
    json.fields field_names self.serialize = .ok (self.entries.map Prod.snd) := by
  have hnames : self.entries.map Prod.fst = field_names := rfl
  have hnodup : field_names.Nodup := by decide
  rw [serialize, ← hnames]
  exact json.fields_record (hnames ▸ hnodup)

theorem deserialize_serialize (self : MetadataEnvelopeV1) : deserialize self.serialize = .ok self := by
  have hversion := json.as_unsigned_of_nat self.version.toNat_lt
  have hsize := json.as_unsigned_of_nat self.size_bytes.toNat_lt
  have htimestamp := json.as_unsigned_of_nat self.timestamp.toNat_lt
  have htags := json.as_list_array json.as_string_of_string self.tags
  rw [deserialize, fields_serialize]
  simp only [entries, List.map_cons, List.map_nil, bind, Except.bind, hversion, hsize, htimestamp,
    htags, json.as_string_of_string, UInt8.ofNat_toNat, UInt64.ofNat_toNat]

/-- An envelope that was read has the CID that stands in its second field. -/
theorem fields_of_deserialize {value : json.Value} {self : MetadataEnvelopeV1}
    (hread : deserialize value = .ok self) :
    ∃ version cid title description content_type size_bytes timestamp tags,
      json.fields field_names value =
        .ok [version, cid, title, description, content_type, size_bytes, timestamp, tags] ∧
      json.as_string cid = .ok self.cid.inner := by
  unfold deserialize at hread
  cases hfields : json.fields field_names value with
  | error e => simp [hfields, bind, Except.bind] at hread
  | ok fields =>
    simp only [hfields, bind, Except.bind] at hread
    split at hread
    · rename_i version cid title description content_type size_bytes timestamp tags
      refine ⟨version, cid, title, description, content_type, size_bytes, timestamp, tags, rfl, ?_⟩
      -- one split for each field that is read, of which only successes go on
      iterate 8 (split at hread <;> try contradiction)
      cases hread
      assumption
    · cases hread

/-- Reading canonical bytes gives the envelope back. -/
theorem from_slice_canonical {self : MetadataEnvelopeV1} {bytes : List UInt8}
    (hbytes : self.canonical_json_bytes = .ok bytes) : from_slice bytes = .ok self := by
  cases hbytes
  rw [from_slice, json.from_slice_render self.written_serialize, deserialize_serialize]

/-- Different envelopes have different canonical bytes. -/
theorem canonical_json_bytes_injective : Function.Injective canonical_json_bytes := by
  intro first second heq
  have hfirst : from_slice first.serialize.render = .ok first := from_slice_canonical rfl
  have hsecond : from_slice second.serialize.render = .ok second := from_slice_canonical rfl
  have hrender : first.serialize.render = second.serialize.render := by
    simpa [canonical_json_bytes] using heq
  rw [hrender, hsecond] at hfirst
  cases hfirst
  rfl

theorem metadata_hash_eq [Sha256] (self : MetadataEnvelopeV1) :
    self.metadata_hash = .ok ⟨Sha256.digest self.serialize.render⟩ := rfl

end MetadataEnvelopeV1

namespace CanonicalCid

theorem new_eq_ok {cid : String} {canonical : CanonicalCid} :
    new cid = .ok canonical ↔ canonical = ⟨text.trim cid⟩ ∧ text.trim cid ≠ "" := by
  unfold new
  by_cases hempty : text.trim cid = ""
  · simp [hempty]
  · simp only [hempty, ↓reduceIte, Except.ok.injEq, ne_eq, not_false_eq_true, and_true]
    exact eq_comm

/-- The constructor's values are canonical, and every canonical value is one. -/
theorem canonical_iff_new {self : CanonicalCid} : self.Canonical ↔ ∃ cid, new cid = .ok self := by
  constructor
  · rintro ⟨hnonempty, htrimmed⟩
    exact ⟨self.inner, new_eq_ok.mpr ⟨by rw [htrimmed], by rwa [htrimmed]⟩⟩
  · rintro ⟨cid, hnew⟩
    obtain ⟨rfl, hnonempty⟩ := new_eq_ok.mp hnew
    exact ⟨hnonempty, text.trim_trim cid⟩

/-- Normalising a canonical CID's own text gives the CID back. -/
theorem Canonical.new_as_str {self : CanonicalCid} (hcanonical : self.Canonical) :
    new self.as_str = .ok self :=
  new_eq_ok.mpr ⟨by rw [as_str, hcanonical.2], by rw [as_str, hcanonical.2]; exact hcanonical.1⟩

end CanonicalCid

end whistleblower_core
