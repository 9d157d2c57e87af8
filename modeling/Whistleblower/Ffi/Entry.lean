import Whistleblower.Ffi.Metadata

open whistleblower_core

namespace whistleblower_ffi

/-- The text that a C string holds. It ends before the first zero byte. -/
def cstr_to_str (ptr : List UInt8) : Except FfiError (List UInt8) :=
  let bytes := ptr.takeWhile (· ≠ 0)
  if (text.from_utf8 bytes).isSome then .ok bytes else .error (.failed "invalid UTF-8: ")

def error_value (msg : String) : json.Value := json.record [("error", .of_string msg), ("success", .bool false)]

/-- What stands for a text that is no C string. -/
def null_byte_value : json.Value :=
  json.record [("success", .bool false), ("error", .of_string "null byte in output")]

def to_cstring (s : List UInt8) : List UInt8 := if 0 ∈ s then null_byte_value.render else s

def error_json (msg : String) : List UInt8 := to_cstring (error_value msg).render

def ffi_call (result : Except FfiError (List UInt8)) : List UInt8 :=
  match result with
  | .ok r => to_cstring r
  | .error e => error_json e.message

def whistleblower_compute_metadata_hash [Sha256] (args_json : List UInt8) : List UInt8 :=
  match cstr_to_str args_json with
  | .ok args => ffi_call (compute_metadata_hash_impl args)
  | .error e => error_json e.message

/-- What a writer of strings and numbers makes is a C string. -/
theorem to_cstring_render {value : json.Value} (hwritten : value.Written) :
    to_cstring value.render = value.render := by
  rw [to_cstring, if_neg (json.Value.zero_notMem_render value hwritten)]

theorem error_json_eq (msg : String) : error_json msg = (error_value msg).render := by
  apply to_cstring_render
  apply json.written_record
  simp [json.Value.Written]

/-- A successful call writes the canonical form of an envelope for the CID that it was
    given, and the hash of that form. -/
theorem compute_metadata_hash_eq_ok [Sha256] {args output : List UInt8}
    (hcompute : compute_metadata_hash_impl args = .ok output) :
    ∃ (inputs : MetadataInputs) (envelope : MetadataEnvelopeV1) (bytes : List UInt8),
      MetadataInputs.from_str args = .ok inputs ∧ CanonicalCid.new inputs.cid = .ok envelope.cid ∧
      envelope.canonical_json_bytes = .ok bytes ∧
      output = (metadata_hash_json bytes ⟨Sha256.digest bytes⟩).render := by
  rw [compute_metadata_hash_impl] at hcompute
  split at hcompute
  · cases hcompute
  · rename_i inputs hinputs
    split at hcompute
    · cases hcompute
    · rename_i cid hcid
      exact ⟨inputs, _, _, hinputs, hcid, rfl, (Except.ok.inj hcompute).symm⟩

theorem whistleblower_compute_metadata_hash_of_ok [Sha256] {args_json args output : List UInt8}
    (hargs : cstr_to_str args_json = .ok args) (hcompute : compute_metadata_hash_impl args = .ok output) :
    whistleblower_compute_metadata_hash args_json = output := by
  obtain ⟨_, _, _, _, _, _, rfl⟩ := compute_metadata_hash_eq_ok hcompute
  simp only [whistleblower_compute_metadata_hash, hargs, hcompute]
  exact to_cstring_render (written_metadata_hash_json _ _)

/-- Every answer hands over an envelope or tells of an error. -/
theorem compute_metadata_hash_cases [Sha256] (args_json : List UInt8) :
    (∃ (envelope : MetadataEnvelopeV1) (bytes : List UInt8), envelope.canonical_json_bytes = .ok bytes ∧
      whistleblower_compute_metadata_hash args_json = (metadata_hash_json bytes ⟨Sha256.digest bytes⟩).render) ∨
    ∃ msg, whistleblower_compute_metadata_hash args_json = (error_value msg).render := by
  cases hargs : cstr_to_str args_json with
  | error e =>
    refine .inr ⟨e.message, ?_⟩
    simp only [whistleblower_compute_metadata_hash, hargs]
    exact error_json_eq _
  | ok args =>
    cases hcompute : compute_metadata_hash_impl args with
    | error e =>
      refine .inr ⟨e.message, ?_⟩
      simp only [whistleblower_compute_metadata_hash, hargs, hcompute]
      exact error_json_eq _
    | ok output =>
      obtain ⟨_, envelope, bytes, _, _, hbytes, houtput⟩ := compute_metadata_hash_eq_ok hcompute
      refine .inl ⟨envelope, bytes, hbytes, ?_⟩
      rw [whistleblower_compute_metadata_hash_of_ok hargs hcompute, houtput]

end whistleblower_ffi
