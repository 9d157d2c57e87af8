import Mathlib.Data.List.Sort
import Whistleblower.Lib.Base64
import Whistleblower.Lib.Json.Decode

namespace whistleblower_ui

/-- What the backend puts in a `QJsonObject`. Its doubles are cast from integers. -/
inductive QJsonValue where
  | string (s : String)
  | double (n : Int)
  | array (elements : List String)
  deriving DecidableEq, Repr

abbrev QJsonObject := List (String × QJsonValue)

/-- What the backend uses of Qt to write and read texts. Texts are given by their UTF-8
    bytes, and a document that is no object has no members. -/
class Qt where
  /-- `QJsonDocument(args).toJson(QJsonDocument::Compact)`. -/
  toJson (args : QJsonObject) : List UInt8
  /-- `QJsonDocument::fromJson(result).object().value(key).toBool()`. -/
  toBool (result : List UInt8) (key : String) : Bool
  /-- `QJsonDocument::fromJson(result).object().value(key)`, if it is a string. -/
  toString? (result : List UInt8) (key : String) : Option String
  /-- `QByteArray::fromBase64`. -/
  fromBase64 (encoded : List UInt8) : List UInt8
  /-- `QByteArray::toBase64`. -/
  toBase64 (bytes : List UInt8) : List UInt8

/-- `QString::fromLatin1`: every byte is a character. -/
def fromLatin1 (bytes : List UInt8) : String := String.ofList (bytes.map fun b => Char.ofNat b.toNat)

/-- The members of an object that holds texts and truth values only, under different names. -/
structure Flat (entries : List (String × json.Value)) : Prop where
  nodup : (entries.map Prod.fst).Nodup
  values : ∀ entry ∈ entries, (∃ s, entry.2 = .of_string s) ∨ ∃ b, entry.2 = .bool b

theorem Flat.written {entries : List (String × json.Value)} (hflat : Flat entries) :
    (json.record entries).Written := by
  apply json.written_record
  intro entry hentry
  obtain ⟨s, hs⟩ | ⟨b, hb⟩ := hflat.values entry hentry
  · rw [hs]
    exact json.written_of_string s
  · rw [hb]
    trivial

/-- What Qt documents of these functions: flat objects are read back member by member,
    and Base64 is the padded one over the standard alphabet. -/
structure Qt.Documented [Qt] : Prop where
  toBool {entries : List (String × json.Value)} (hflat : Flat entries) {key : String} {b : Bool}
    (hmem : (key, .bool b) ∈ entries) : Qt.toBool (json.record entries).render key = b
  toString? {entries : List (String × json.Value)} (hflat : Flat entries) {key s : String}
    (hmem : (key, .of_string s) ∈ entries) : Qt.toString? (json.record entries).render key = some s
  fromBase64 {chars : List Char} {bytes : List UInt8} (hdecode : base64.decode chars = some bytes) :
    Qt.fromBase64 (text.bytes (String.ofList chars)) = bytes
  toBase64 (bytes : List UInt8) :
    Qt.toBase64 bytes = (base64.encode bytes).map fun c => UInt8.ofNat c.toNat

/-- The member of an object text under a name. -/
def Qt.member? (result : List UInt8) (key : String) : Option json.Value :=
  match json.parse result with
  | some (.object members) =>
    match json.named_members members with
    | .ok named => (json.member named key).toOption
    | .error _ => none
  | _ => none

def QJsonValue.toValue : QJsonValue → json.Value
  | .string s => .of_string s
  | .double n => .of_nat n.toNat
  | .array elements => .array (elements.map .of_string)

/-- The members of an object, which Qt keeps sorted by key. -/
def QJsonObject.members (args : QJsonObject) : List (String × json.Value) :=
  (args.insertionSort fun first second => first.1 ≤ second.1).map fun entry => (entry.1, entry.2.toValue)

theorem QJsonObject.mem_members {args : QJsonObject} {entry : String × json.Value} :
    entry ∈ args.members ↔ ∃ arg ∈ args, (arg.1, arg.2.toValue) = entry := by
  simp only [members, List.mem_map, List.mem_insertionSort]

theorem QJsonObject.names_members (args : QJsonObject) : (args.members.map Prod.fst).Perm (args.map Prod.fst) := by
  rw [members, List.map_map]
  exact (List.perm_insertionSort (fun first second : String × QJsonValue => first.1 ≤ second.1) args).map Prod.fst

/-- Qt on the texts that the backend exchanges, on which it is run; results hold for
    every instance. -/
instance Qt.standard : Qt where
  toJson args := (json.record args.members).render
  toBool result key :=
    match Qt.member? result key with
    | some (.bool b) => b
    | _ => false
  toString? result key := (Qt.member? result key).bind fun value => (json.as_string value).toOption
  fromBase64 encoded := ((text.from_utf8 encoded).bind fun s => base64.decode s.toList).getD []
  toBase64 bytes := (base64.encode bytes).map fun c => UInt8.ofNat c.toNat

theorem Qt.member?_render {entries : List (String × json.Value)} (hwritten : (json.record entries).Written)
    (hnodup : (entries.map Prod.fst).Nodup) {key : String} {value : json.Value} (hmem : (key, value) ∈ entries) :
    Qt.member? (json.record entries).render key = some value := by
  have hparse := json.parse_render hwritten
  have hmember := json.member_of_mem hnodup hmem
  rw [json.record] at hparse ⊢
  simp only [Qt.member?, hparse, json.named_members_escape, hmember]
  rfl

theorem Qt.documented_standard : Qt.Documented := by
  refine ⟨?_, ?_, ?_, ?_⟩
  · intro entries hflat key b hmem
    simp only [Qt.toBool, Qt.member?_render hflat.written hflat.nodup hmem]
  · intro entries hflat key s hmem
    simp [Qt.toString?, Qt.member?_render hflat.written hflat.nodup hmem, Except.toOption]
  · intro chars bytes hdecode
    simp [Qt.fromBase64, hdecode]
  · intro bytes
    rfl

/-- What Qt documents of `toJson`: it writes UTF-8 without a zero byte, and the text of an
    object in which a string stands under its name. -/
structure Qt.Writes [Qt] : Prop where
  utf8 (args : QJsonObject) : text.Valid (Qt.toJson args)
  no_zero (args : QJsonObject) : 0 ∉ Qt.toJson args
  string {args : QJsonObject} (hnodup : (args.map Prod.fst).Nodup) {key s : String}
    (hmem : (key, .string s) ∈ args) : (Qt.member? (Qt.toJson args) key).map json.as_string = some (.ok s)

theorem QJsonValue.written_toValue (value : QJsonValue) : value.toValue.Written := by
  cases value with
  | string s => exact json.written_of_string s
  | double n => exact json.written_of_nat n.toNat
  | array elements => exact json.written_strings elements

theorem QJsonObject.written_members (args : QJsonObject) : (json.record args.members).Written := by
  apply json.written_record
  intro entry hentry
  obtain ⟨arg, _, rfl⟩ := mem_members.mp hentry
  exact arg.2.written_toValue

theorem QJsonValue.valid_toValue (value : QJsonValue) : text.Valid value.toValue.render := by
  cases value with
  | string s => exact json.valid_of_string s
  | double n => exact json.valid_of_nat n.toNat
  | array elements => exact json.valid_strings elements

theorem Qt.writes_standard : Qt.Writes := by
  refine ⟨?utf8, ?no_zero, ?string⟩
  case utf8 =>
    intro args
    apply json.valid_record
    intro entry hentry
    obtain ⟨arg, _, rfl⟩ := QJsonObject.mem_members.mp hentry
    exact arg.2.valid_toValue
  case no_zero => exact fun args => json.Value.zero_notMem_render _ args.written_members
  case string =>
    intro args hnodup key s hmem
    have hentry : (key, (QJsonValue.string s).toValue) ∈ args.members :=
      QJsonObject.mem_members.mpr ⟨_, hmem, rfl⟩
    have hmember := Qt.member?_render args.written_members (args.names_members.nodup_iff.mpr hnodup) hentry
    calc (Qt.member? (Qt.toJson args) key).map json.as_string
        = (some (json.Value.of_string s)).map json.as_string := congrArg (Option.map json.as_string) hmember
      _ = some (.ok s) := congrArg some (json.as_string_of_string s)

/-- Characters below 256 are read back from their codes. -/
theorem fromLatin1_codes {chars : List Char} (hcodes : ∀ c ∈ chars, c.toNat < 256) :
    fromLatin1 (chars.map fun c => UInt8.ofNat c.toNat) = String.ofList chars := by
  have hback : ∀ c ∈ chars, Char.ofNat (UInt8.ofNat c.toNat).toNat = c := by
    intro c hc
    have hlt := hcodes c hc
    rw [UInt8.toNat_ofNat_of_lt' hlt, Char.ofNat_toNat]
  rw [fromLatin1, List.map_map]
  congr 1
  exact (List.map_congr_left hback).trans chars.map_id

end whistleblower_ui
