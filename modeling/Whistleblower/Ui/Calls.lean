import Whistleblower.Ffi.Bridge
import Whistleblower.Ui.Display

open nssa_core whistleblower_core whistleblower_registry whistleblower_lez_adapter whistleblower_ffi

namespace whistleblower_ui

/-- What a `QJsonObject` inside another one tells, of the object text of the outer one. -/
class QtNested where
  /-- `static_cast<qint64>(object.value(outer).toObject().value(key).toDouble())`. -/
  toInteger (result : List UInt8) (outer key : String) : Int
  /-- `object.value(outer).toObject().value(key)`, if it is a string. -/
  toString? (result : List UInt8) (outer key : String) : Option String

/-- The members of an object of texts, truth values, and objects of texts and natural numbers. -/
structure Nested (entries : List (String × json.Value)) : Prop where
  nodup : (entries.map Prod.fst).Nodup
  values : ∀ entry ∈ entries, (∃ s, entry.2 = .of_string s) ∨ (∃ b, entry.2 = .bool b) ∨
    ∃ members : List (String × json.Value), entry.2 = json.record members ∧ (members.map Prod.fst).Nodup ∧
      ∀ member ∈ members, (∃ s, member.2 = .of_string s) ∨ ∃ n, member.2 = .of_nat n

theorem Nested.written {entries : List (String × json.Value)} (hnested : Nested entries) :
    (json.record entries).Written := by
  apply json.written_record
  intro entry hentry
  obtain ⟨s, hs⟩ | ⟨b, hb⟩ | ⟨members, hmembers, _, hvalues⟩ := hnested.values entry hentry
  · rw [hs]
    exact json.written_of_string s
  · rw [hb]
    trivial
  · rw [hmembers]
    apply json.written_record
    intro member hmember
    obtain ⟨s, hs⟩ | ⟨n, hn⟩ := hvalues member hmember
    · rw [hs]
      exact json.written_of_string s
    · rw [hn]
      exact json.written_of_nat n

/-- What Qt documents of these functions. Members of inner objects are read back by their
    names, numbers while a double is exact. -/
structure QtNested.Documented [Qt] [QtNested] : Prop where
  toBool {entries : List (String × json.Value)} (hnested : Nested entries) {key : String} {b : Bool}
    (hmem : (key, .bool b) ∈ entries) : Qt.toBool (json.record entries).render key = b
  toInteger {entries members : List (String × json.Value)} (hnested : Nested entries) {outer : String}
    (houter : (outer, json.record members) ∈ entries) {key : String} {n : Nat} (hmem : (key, .of_nat n) ∈ members)
    (hexact : n ≤ 2 ^ 53) : QtNested.toInteger (json.record entries).render outer key = n
  toString? {entries members : List (String × json.Value)} (hnested : Nested entries) {outer : String}
    (houter : (outer, json.record members) ∈ entries) {key s : String} (hmem : (key, .of_string s) ∈ members) :
    QtNested.toString? (json.record entries).render outer key = some s

/-- The double next to a natural number, which is a natural number again. Halves go to the
    even neighbour. -/
def toDouble (n : Nat) : Nat :=
  if n ≤ 2 ^ 53 then n
  else
    let ulp := 2 ^ (n.log2 - 52)
    let rest := n % ulp
    if 2 * rest < ulp ∨ 2 * rest = ulp ∧ n / ulp % 2 = 0 then n - rest else n - rest + ulp

/-- The member of an inner object. -/
def QtNested.member? (result : List UInt8) (outer key : String) : Option json.Value :=
  match Qt.member? result outer with
  | some (.object members) =>
    match json.named_members members with
    | .ok named => (json.member named key).toOption
    | .error _ => none
  | _ => none

/-- Qt on the texts that the backend reads. -/
instance QtNested.standard : QtNested where
  toInteger result outer key :=
    match QtNested.member? result outer key with
    | some (.number token) => ((json.of_decimal token).map toDouble).getD 0
    | _ => 0
  toString? result outer key := (QtNested.member? result outer key).bind fun value => (json.as_string value).toOption

theorem QtNested.member?_render {entries members : List (String × json.Value)} (hnested : Nested entries)
    {outer : String} (houter : (outer, json.record members) ∈ entries) {key : String} {value : json.Value}
    (hmem : (key, value) ∈ members) : QtNested.member? (json.record entries).render outer key = some value := by
  have hmembers : (members.map Prod.fst).Nodup := by
    obtain ⟨s, hs⟩ | ⟨b, hb⟩ | ⟨others, hothers, hnodup, _⟩ := hnested.values _ houter
    · cases hs
    · cases hb
    · rwa [record_injective hothers]
  have hobject := Qt.member?_render hnested.written hnested.nodup houter
  have hfound := json.member_of_mem hmembers hmem
  rw [QtNested.member?, hobject]
  simp only [json.record, json.named_members_escape, hfound]
  rfl

theorem QtNested.documented_standard : QtNested.Documented := by
  refine ⟨?_, ?_, ?_⟩
  · intro entries hnested key b hmem
    simp only [Qt.toBool, Qt.member?_render hnested.written hnested.nodup hmem]
  · intro entries members hnested outer houter key n hmem hexact
    simp only [QtNested.toInteger, QtNested.member?_render hnested houter hmem, json.Value.of_nat,
      json.of_decimal_decimal, Option.map_some, Option.getD_some]
    rw [toDouble, if_pos hexact]
  · intro entries members hnested outer houter key s hmem
    simp [QtNested.toString?, QtNested.member?_render hnested houter hmem, Except.toOption]

/-- What goes with every call of the FFI: the wallet's directory, the sequencer, and the
    program's file, if one is found. -/
structure FfiSettings where
  m_walletPath : String
  m_sequencerUrl : String
  programBin : String
  deriving DecidableEq, Repr

def baseFfiArgs (settings : FfiSettings) : QJsonObject :=
  [("wallet_path", .string settings.m_walletPath), ("sequencer_url", .string settings.m_sequencerUrl)] ++
    if settings.programBin = "" then [] else [("program_bin", .string settings.programBin)]

/-- The arguments of `whistleblower_anchor_one`. -/
def anchorOneArgs (settings : FfiSettings) (cid metadataHashHex : String) : QJsonObject :=
  baseFfiArgs settings ++ [("cid", .string cid), ("metadata_hash_hex", .string metadataHashHex)]

theorem nodup_anchorOneArgs (settings : FfiSettings) (cid metadataHashHex : String) :
    ((anchorOneArgs settings cid metadataHashHex).map Prod.fst).Nodup := by
  rw [anchorOneArgs, baseFfiArgs]
  split <;> simp

section

variable [Qt]

/-- A string of the arguments stands where the FFI looks for it. -/
theorem str_at_of_reads (hwrites : Qt.Writes) {args : QJsonObject} (hnodup : (args.map Prod.fst).Nodup) {host : Host}
    {v : json.Value} (hreads : Reads host (some (Qt.toJson args)) v) {key s : String} (hmem : (key, .string s) ∈ args) :
    json.str_at v key = some s := by
  obtain ⟨found, harg, hread⟩ := hreads
  rw [arg_to_str, cstr_to_str_toJson hwrites] at harg
  obtain rfl := Except.ok.inj harg
  obtain ⟨value, hvalue, hstring⟩ := Option.map_eq_some_iff.mp (hwrites.string hnodup hmem)
  rw [Qt.member?] at hvalue
  split at hvalue
  · rename_i members hparse
    split at hvalue
    · rename_i named hnamed
      have hobject : v = .object members := by
        simp only [json.from_slice_any, hparse] at hread
        split at hread
        · exact (Except.ok.inj hread).symm
        · cases hread
      rw [hobject]
      cases hmember : json.member named key with
      | error e =>
        rw [hmember] at hvalue
        cases hvalue
      | ok found =>
        rw [hmember] at hvalue
        cases hvalue
        exact json.str_at_of_member hnamed hmember hstring
    · cases hvalue
  · cases hvalue

/-- The FFI reads the CID and the hash that it is given. -/
theorem anchorOneArgs_read (hwrites : Qt.Writes) {settings : FfiSettings} {cid metadataHashHex : String} {host : Host}
    {v : json.Value} (hreads : Reads host (some (Qt.toJson (anchorOneArgs settings cid metadataHashHex))) v) :
    FfiFunction.cid_of v = (CanonicalCid.new cid).toOption ∧
      FfiFunction.metadata_hash_of v = (parse_metadata_hash metadataHashHex).toOption := by
  have hnodup := nodup_anchorOneArgs settings cid metadataHashHex
  have hcid : json.str_at v "cid" = some cid :=
    str_at_of_reads hwrites hnodup hreads (by simp [anchorOneArgs])
  have hhash : json.str_at v "metadata_hash_hex" = some metadataHashHex :=
    str_at_of_reads hwrites hnodup hreads (by simp [anchorOneArgs])
  rw [FfiFunction.cid_of, FfiFunction.metadata_hash_of, hcid, hhash]
  exact ⟨rfl, rfl⟩

variable [QtNested]

/-- What the backend reads of an answer of `whistleblower_anchor_one`. -/
def readAnswer (result : List UInt8) : AnchorAnswer where
  success := Qt.toBool result "success"
  error := Qt.toString? result "error"
  anchor_timestamp := QtNested.toInteger result "entry" "anchor_timestamp"
  cid_hash := (QtNested.toString? result "entry" "cid_hash").getD ""

/-- The answer names the entry, and its time if that is a number that a double can hold. -/
structure AnchorAnswer.Tells (answer : AnchorAnswer) (entry : AnchorEntry) : Prop where
  cid_hash : answer.cid_hash = text.hex_encode entry.cid_hash.digest.toList
  anchor_timestamp : entry.anchor_timestamp.toNat ≤ 2 ^ 53 → answer.anchor_timestamp = entry.anchor_timestamp.toNat

omit [Qt] [QtNested] in
theorem nested_anchor_json (entry : AnchorEntry) : Nested [("entry", entry_to_json entry), ("success", .bool true)] := by
  refine ⟨by simp, ?_⟩
  intro member hmember
  simp only [List.mem_cons, List.not_mem_nil, or_false] at hmember
  obtain rfl | rfl := hmember
  · exact .inr (.inr ⟨_, rfl, by simp, by simp⟩)
  · exact .inr (.inl ⟨true, rfl⟩)

theorem readAnswer_anchor_json (hnested : QtNested.Documented) (entry : AnchorEntry) :
    (readAnswer (anchor_json entry).render).success = true ∧ (readAnswer (anchor_json entry).render).Tells entry := by
  have hshape := nested_anchor_json entry
  refine ⟨hnested.toBool hshape (by simp), ?_, ?_⟩
  · have hhash : QtNested.toString? (anchor_json entry).render "entry" "cid_hash" =
        some (text.hex_encode entry.cid_hash.digest.toList) := by
      exact hnested.toString? hshape List.mem_cons_self (by simp)
    rw [readAnswer, hhash]
    rfl
  · intro hexact
    exact hnested.toInteger hshape List.mem_cons_self (by simp) hexact

/-- An answer that is a success is that of an entry. -/
theorem readAnswer_of_answers [Sha256] [Nssa] (hqt : Qt.Documented) (hnested : QtNested.Documented)
    {program_id : ProgramId} {host : Host} {args_json : Option (List UInt8)} {world : World} {answer : List UInt8}
    (hanswers : Answers program_id host args_json .anchor_one world answer)
    (hsuccess : (readAnswer answer).success = true) :
    ∃ v cid entry, Reads host args_json v ∧ FfiFunction.cid_of v = some cid ∧
      entries_of program_id world (cid_hash cid) = some entry ∧ (readAnswer answer).Tells entry := by
  obtain ⟨msg, rfl⟩ | ⟨v, hash, hreads, hhash, ⟨entry, hentry, rfl⟩ | ⟨hquery, _⟩⟩ := hanswers
  · rw [readAnswer, toBool_error hqt] at hsuccess
    cases hsuccess
  · obtain ⟨cid, hcid, rfl⟩ := Option.map_eq_some_iff.mp hhash
    exact ⟨v, cid, entry, hreads, hcid, hentry, (readAnswer_anchor_json hnested entry).2⟩
  · exact absurd rfl hquery

end

end whistleblower_ui
