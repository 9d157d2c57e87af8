import Whistleblower.Ffi.Entry
import Whistleblower.Ffi.Query
import Whistleblower.Lez.Agreement

open nssa_core whistleblower_core whistleblower_registry document_indexing whistleblower_lez_adapter first_writer

namespace whistleblower_ffi

/-- The answer of a successful `anchor_one`. -/
def anchor_json (entry : AnchorEntry) : json.Value :=
  json.record [("entry", entry_to_json entry), ("success", .bool true)]

/-- The text of an argument, which may be the null pointer. -/
def arg_to_str : Option (List UInt8) → Except FfiError (List UInt8)
  | none => .error (.failed "null pointer")
  | some ptr => cstr_to_str ptr

section

variable [Sha256] [Nssa]

/-- Build the client, and ask it to anchor a CID. -/
def anchor (host : Host) (v : json.Value) (cid : CanonicalCid) (metadata_hash : MetadataHash) :
    Async LezIo (Except FfiError (List UInt8)) :=
  match host.registry_client v, host.runtime with
  | .error e, _ => pure (.error (.failed e))
  | .ok _, .error e => pure (.error (.failed ("tokio: " ++ e)))
  | .ok client, .ok () => do
    match ← client.anchor_one cid metadata_hash with
    | .error e => pure (.error (.failed ("anchor_one: " ++ e.message)))
    | .ok entry => pure (.ok (anchor_json entry).render)

def anchor_one_impl (host : Host) (args : List UInt8) : Async LezIo (Except FfiError (List UInt8)) :=
  match json.from_slice_any host.number_fits args with
  | .error e => pure (.error (.invalid_json e))
  | .ok v =>
    match host.init_wallet v with
    | .error e => pure (.error (.failed ("wallet init: " ++ e)))
    | .ok () =>
      match json.str_at v "cid" with
      | none => pure (.error (.missing "cid"))
      | some cid =>
        match CanonicalCid.new cid with
        | .error e => pure (.error (.invalid_cid e))
        | .ok cid =>
          match json.str_at v "metadata_hash_hex" with
          | none => pure (.error (.missing "metadata_hash_hex"))
          | some s =>
            match parse_metadata_hash s with
            | .error e => pure (.error e)
            | .ok metadata_hash => anchor host v cid metadata_hash

omit [Sha256] in
/-- A function of the interface, around what it does with the text of its argument. -/
def entry_point (impl : List UInt8 → Async LezIo (Except FfiError (List UInt8))) (args_json : Option (List UInt8)) :
    Async LezIo (List UInt8) :=
  match arg_to_str args_json with
  | .error e => pure (error_json e.message)
  | .ok args => do
    let result ← impl args
    pure (ffi_call result)

def whistleblower_anchor_one (host : Host) (args_json : Option (List UInt8)) : Async LezIo (List UInt8) :=
  entry_point (anchor_one_impl host) args_json

def whistleblower_query_by_cid (host : Host) (args_json : Option (List UInt8)) : Async LezIo (List UInt8) :=
  entry_point (query_by_cid_impl host) args_json

def whistleblower_query_by_cid_hash (host : Host) (args_json : Option (List UInt8)) : Async LezIo (List UInt8) :=
  entry_point (query_by_cid_hash_impl host) args_json

end

/-- The functions that reach the registry. -/
inductive FfiFunction where
  | anchor_one
  | query_by_cid
  | query_by_cid_hash
  deriving DecidableEq, Repr

namespace FfiFunction

/-- The CID that the arguments give, under `cid`. -/
def cid_of (v : json.Value) : Option CanonicalCid :=
  (json.str_at v "cid").bind fun s => (CanonicalCid.new s).toOption

/-- The hash that an anchor is asked for with. -/
def metadata_hash_of (v : json.Value) : Option MetadataHash :=
  (json.str_at v "metadata_hash_hex").bind fun s => (parse_metadata_hash s).toOption

section

variable [Sha256]

/-- The hash whose entry a function is asked for. -/
def hash_of (v : json.Value) : FfiFunction → Option CidHash
  | .anchor_one => (cid_of v).map cid_hash
  | .query_by_cid => (cid_of v).map cid_hash
  | .query_by_cid_hash => (json.str_at v "cid_hash_hex").bind fun s => (parse_cid_hash s).toOption

/-- The answer that hands over an entry. -/
def answer (entry : AnchorEntry) : FfiFunction → List UInt8
  | .anchor_one => (anchor_json entry).render
  | .query_by_cid => (query_json (some entry)).render
  | .query_by_cid_hash => (query_json (some entry)).render

variable [Nssa]

def call (host : Host) (args_json : Option (List UInt8)) : FfiFunction → Async LezIo (List UInt8)
  | .anchor_one => whistleblower_anchor_one host args_json
  | .query_by_cid => whistleblower_query_by_cid host args_json
  | .query_by_cid_hash => whistleblower_query_by_cid_hash host args_json

end

end FfiFunction

/-- The arguments are this value, for the host that reads them. -/
def Reads (host : Host) (args_json : Option (List UInt8)) (v : json.Value) : Prop :=
  ∃ args, arg_to_str args_json = .ok args ∧ json.from_slice_any host.number_fits args = .ok v

/-- Every client that the host builds is one of this program. -/
def Host.Builds (host : Host) (program_id : ProgramId) : Prop :=
  ∀ v client, host.registry_client v = .ok client → client.program_id = program_id

theorem written_entry_to_json (entry : AnchorEntry) : (entry_to_json entry).Written := by
  apply json.written_record
  simp

theorem written_anchor_json (entry : AnchorEntry) : (anchor_json entry).Written := by
  apply json.written_record
  intro member hmember
  simp only [List.mem_cons, List.not_mem_nil, or_false] at hmember
  obtain rfl | rfl := hmember
  · exact written_entry_to_json entry
  · trivial

theorem written_query_json (result : Option AnchorEntry) : (query_json result).Written := by
  apply json.written_record
  intro member hmember
  simp only [List.mem_cons, List.not_mem_nil, or_false] at hmember
  obtain rfl | rfl | rfl := hmember
  · cases result with
    | none => trivial
    | some entry => exact written_entry_to_json entry
  · trivial
  · trivial

/-- A record shows its members. -/
theorem record_injective {entries others : List (String × json.Value)} (hsame : json.record entries = json.record others) :
    entries = others := by
  have hmembers := json.named_members_escape entries
  rw [json.record, json.record] at hsame
  injection hsame with hlists
  rw [hlists, json.named_members_escape] at hmembers
  exact (Except.ok.inj hmembers).symm

theorem of_string_injective {s t : String} (hsame : json.Value.of_string s = json.Value.of_string t) : s = t := by
  have hread := json.as_string_of_string s
  rw [hsame, json.as_string_of_string] at hread
  exact (Except.ok.inj hread).symm

theorem hex_digest_injective {first second : Vector UInt8 32}
    (hsame : json.Value.of_string (text.hex_encode first.toList) = json.Value.of_string (text.hex_encode second.toList)) :
    first = second := by
  have hlists := text.hex_encode_injective (of_string_injective hsame)
  exact Vector.toArray_inj.mp (Array.toList_inj.mp hlists)

/-- The text of an entry has all that the entry has. -/
theorem entry_to_json_injective {entry other : AnchorEntry} (hsame : entry_to_json entry = entry_to_json other) :
    entry = other := by
  have hmembers := record_injective hsame
  simp only [List.cons.injEq, Prod.mk.injEq, true_and, and_true] at hmembers
  obtain ⟨htimestamp, hcid, hhash, hmetadata⟩ := hmembers
  have hread := json.as_unsigned_of_nat entry.anchor_timestamp.toNat_lt
  rw [htimestamp, json.as_unsigned_of_nat other.anchor_timestamp.toNat_lt] at hread
  obtain ⟨⟨cid⟩, ⟨digest⟩, ⟨metadata⟩, timestamp⟩ := entry
  obtain ⟨⟨cid'⟩, ⟨digest'⟩, ⟨metadata'⟩, timestamp'⟩ := other
  obtain rfl := of_string_injective hcid
  obtain rfl := hex_digest_injective hhash
  obtain rfl := hex_digest_injective hmetadata
  obtain rfl := UInt64.toNat_inj.mp (Except.ok.inj hread).symm
  rfl

theorem render_injective {value other : json.Value} (hvalue : value.Written) (hother : other.Written)
    (hsame : value.render = other.render) : value = other := by
  have hparse := json.parse_render hvalue
  rw [hsame, json.parse_render hother] at hparse
  exact (Option.some.inj hparse).symm

theorem written_error_value (msg : String) : (error_value msg).Written := by
  apply json.written_record
  simp [json.Value.Written]

/-- The text of an error. -/
def Fails (answer : List UInt8) : Prop := ∃ msg, answer = (error_value msg).render

theorem Fails.of_error (e : FfiError) : Fails (ffi_call (.error e)) := ⟨e.message, error_json_eq e.message⟩

theorem valid_bool (b : Bool) : text.Valid (json.Value.bool b).render := by
  cases b with
  | false => exact ⟨"false", by decide +kernel⟩
  | true => exact ⟨"true", by decide +kernel⟩

theorem valid_null : text.Valid json.Value.null.render := ⟨"null", by decide +kernel⟩

theorem valid_entry_to_json (entry : AnchorEntry) : text.Valid (entry_to_json entry).render := by
  apply json.valid_record
  simp

theorem valid_error_value (msg : String) : text.Valid (error_value msg).render := by
  apply json.valid_record
  simp [valid_bool]

theorem valid_anchor_json (entry : AnchorEntry) : text.Valid (anchor_json entry).render := by
  apply json.valid_record
  simp [valid_entry_to_json, valid_bool]

theorem valid_query_json (result : Option AnchorEntry) : text.Valid (query_json result).render := by
  apply json.valid_record
  cases result with
  | none => simp [valid_bool, valid_null]
  | some entry => simp [valid_entry_to_json, valid_bool]

theorem FfiFunction.valid_answer [Sha256] (function : FfiFunction) (entry : AnchorEntry) :
    text.Valid (function.answer entry) := by
  cases function with
  | anchor_one => exact valid_anchor_json entry
  | query_by_cid | query_by_cid_hash => exact valid_query_json (some entry)

theorem FfiFunction.not_fails [Sha256] (function : FfiFunction) (entry : AnchorEntry) :
    ¬Fails (function.answer entry) := by
  rintro ⟨msg, hanswer⟩
  cases function with
  | anchor_one =>
    have hmembers := record_injective
      (render_injective (written_anchor_json entry) (written_error_value msg) hanswer)
    simp at hmembers
  | query_by_cid | query_by_cid_hash =>
    have hmembers := record_injective
      (render_injective (written_query_json (some entry)) (written_error_value msg) hanswer)
    simp at hmembers

/-- An answer tells its entry. -/
theorem FfiFunction.answer_injective [Sha256] {function : FfiFunction} {entry other : AnchorEntry}
    (hsame : function.answer entry = function.answer other) : entry = other := by
  cases function with
  | anchor_one =>
    have hmembers := record_injective
      (render_injective (written_anchor_json entry) (written_anchor_json other) hsame)
    simp only [List.cons.injEq, Prod.mk.injEq, true_and, and_true] at hmembers
    exact entry_to_json_injective hmembers
  | query_by_cid | query_by_cid_hash =>
    have hmembers := record_injective
      (render_injective (written_query_json (some entry)) (written_query_json (some other)) hsame)
    simp only [List.cons.injEq, Prod.mk.injEq, true_and, and_true, Option.map_some, Option.getD_some] at hmembers
    exact entry_to_json_injective hmembers.1

theorem FfiFunction.answer_ne_none [Sha256] {function : FfiFunction} {entry : AnchorEntry}
    (hfunction : function ≠ .anchor_one) : function.answer entry ≠ (query_json none).render := by
  intro hsame
  cases function with
  | anchor_one => exact hfunction rfl
  | query_by_cid | query_by_cid_hash =>
    have hmembers := record_injective
      (render_injective (written_query_json (some entry)) (written_query_json none) hsame)
    simp at hmembers

section

variable [Sha256] [Nssa] {program_id : ProgramId} {host : Host} {args_json : Option (List UInt8)}

/-- All that a call submits is an `AnchorOne` of the CID and the hash that it was given. -/
def Submits (host : Host) (args_json : Option (List UInt8)) (function : FfiFunction) (_ : World) (request : LezCall) :
    Prop :=
  ∀ tx, request = .send_transaction tx → function = .anchor_one ∧ ∃ v client cid metadata_hash,
    Reads host args_json v ∧ FfiFunction.cid_of v = some cid ∧ FfiFunction.metadata_hash_of v = some metadata_hash ∧
    host.registry_client v = .ok client ∧ (Call.anchor_one cid metadata_hash).Attempt client tx

/-- An answer is an error, or hands over the entry that the registry has under the hash asked
    for. A query may also have found nothing. -/
def Answers (program_id : ProgramId) (host : Host) (args_json : Option (List UInt8)) (function : FfiFunction)
    (world : World) (answer : List UInt8) : Prop :=
  Fails answer ∨ ∃ v hash, Reads host args_json v ∧ function.hash_of v = some hash ∧
    ((∃ entry, entries_of program_id world hash = some entry ∧ answer = function.answer entry) ∨
      function ≠ .anchor_one ∧ answer = (query_json none).render)

omit [Sha256] in
/-- What an implementation hands over goes out as it is, and an error as its text. -/
theorem entry_point_ensures {asks : World → LezCall → Prop} {Good : World → List UInt8 → Prop}
    {impl : List UInt8 → Async LezIo (Except FfiError (List UInt8))} {world : World}
    (himpl : ∀ args, arg_to_str args_json = .ok args → Async.Ensures (rely program_id) asks
      (fun w result => ∀ output, result = .ok output → 0 ∉ output ∧ Good w output) (impl args) world) :
    Async.Ensures (rely program_id) asks (fun w answer => Fails answer ∨ Good w answer)
      (entry_point impl args_json) world := by
  unfold entry_point
  cases harg : arg_to_str args_json with
  | error e => exact .ret fun _ _ => .inl ⟨e.message, error_json_eq e.message⟩
  | ok args =>
    refine (himpl args harg).bind ?_
    intro later result hresult
    refine .ret fun last hlast => ?_
    cases result with
    | error e => exact .inl (.of_error e)
    | ok output =>
      obtain ⟨hzero, hgood⟩ := hresult last hlast output rfl
      refine .inr ?_
      rw [ffi_call, to_cstring, if_neg hzero]
      exact hgood

/-- A client's error is told, and its entry handed over. -/
theorem anchor_ensures (hbuilds : host.Builds program_id) {v : json.Value} (hreads : Reads host args_json v)
    {cid : CanonicalCid} (hcid : FfiFunction.cid_of v = some cid) {metadata_hash : MetadataHash}
    (hhash : FfiFunction.metadata_hash_of v = some metadata_hash) (world : World) :
    Async.Ensures (rely program_id) (Submits host args_json .anchor_one)
      (fun w result => ∀ output, result = .ok output → 0 ∉ output ∧
        ∃ entry, entries_of program_id w (cid_hash cid) = some entry ∧ output = (anchor_json entry).render)
      (anchor host v cid metadata_hash) world := by
  unfold anchor
  split
  · exact .ret fun _ _ _ hnone => nomatch hnone
  · exact .ret fun _ _ _ hnone => nomatch hnone
  · rename_i client hclient hruntime
    obtain rfl := hbuilds v client hclient
    refine (Async.Ensures.weaken ?_ (anchor_one_ensures cid metadata_hash world)).bind ?_
    · exact fun _ request hattempt tx htx =>
        ⟨rfl, v, client, cid, metadata_hash, hreads, hcid, hhash, hclient, hattempt tx htx⟩
    · intro later result hresult
      cases result with
      | error e => exact .ret fun _ _ _ hnone => nomatch hnone
      | ok entry =>
        refine .ret fun last hlast output houtput => ?_
        cases houtput
        exact ⟨json.Value.zero_notMem_render _ (written_anchor_json entry), entry, hresult last hlast entry rfl, rfl⟩

/-- A query tells the client's error, the entry that it found, or that it found none. -/
theorem query_ensures (hbuilds : host.Builds program_id) {v : json.Value} (hash : CidHash) {function : FfiFunction}
    (world : World) :
    Async.Ensures (rely program_id) (Submits host args_json function)
      (fun w result => ∀ output, result = .ok output → 0 ∉ output ∧
        ((∃ entry, entries_of program_id w hash = some entry ∧ output = (query_json (some entry)).render) ∨
          output = (query_json none).render)) (query host v hash) world := by
  unfold query
  split
  · exact .ret fun _ _ _ hnone => nomatch hnone
  · exact .ret fun _ _ _ hnone => nomatch hnone
  · rename_i client hclient hruntime
    obtain rfl := hbuilds v client hclient
    have hread := @read_entry_ensures _ _ client (.query_by_cid_hash hash) hash world
    refine (Async.Ensures.weaken ?_ hread).bind ?_
    · intro _ request hattempt tx htx
      obtain ⟨_, _, _, hnone, _⟩ := hattempt tx htx
      cases hnone
    · intro later result hresult
      cases result with
      | error e => exact .ret fun _ _ _ hnone => nomatch hnone
      | ok found =>
        refine .ret fun last hlast output houtput => ?_
        cases houtput
        refine ⟨json.Value.zero_notMem_render _ (written_query_json found), ?_⟩
        cases found with
        | none => exact .inr rfl
        | some entry => exact .inl ⟨entry, hresult last hlast entry rfl, rfl⟩

theorem anchor_one_impl_ensures (hbuilds : host.Builds program_id) {args : List UInt8}
    (harg : arg_to_str args_json = .ok args) (world : World) :
    Async.Ensures (rely program_id) (Submits host args_json .anchor_one)
      (fun w result => ∀ output, result = .ok output → 0 ∉ output ∧
        ∃ v hash, Reads host args_json v ∧ FfiFunction.anchor_one.hash_of v = some hash ∧
          ((∃ entry, entries_of program_id w hash = some entry ∧ output = FfiFunction.anchor_one.answer entry) ∨
            FfiFunction.anchor_one ≠ .anchor_one ∧ output = (query_json none).render))
      (anchor_one_impl host args) world := by
  unfold anchor_one_impl
  split
  · exact .ret fun _ _ _ hnone => nomatch hnone
  · rename_i v hv
    split
    · exact .ret fun _ _ _ hnone => nomatch hnone
    · split
      · exact .ret fun _ _ _ hnone => nomatch hnone
      · rename_i s hs
        split
        · exact .ret fun _ _ _ hnone => nomatch hnone
        · rename_i cid hcid
          split
          · exact .ret fun _ _ _ hnone => nomatch hnone
          · rename_i hex hhex
            split
            · exact .ret fun _ _ _ hnone => nomatch hnone
            · rename_i metadata_hash hhash
              have hreads : Reads host args_json v := ⟨args, harg, hv⟩
              have hcid_of : FfiFunction.cid_of v = some cid := by
                rw [FfiFunction.cid_of, hs, Option.bind_some, hcid]
                rfl
              have hhash_of : FfiFunction.metadata_hash_of v = some metadata_hash := by
                rw [FfiFunction.metadata_hash_of, hhex, Option.bind_some, hhash]
                rfl
              refine (anchor_ensures hbuilds hreads hcid_of hhash_of world).mono ?_
              intro last result hresult output houtput
              obtain ⟨hzero, entry, hentry, hanswer⟩ := hresult output houtput
              exact ⟨hzero, v, cid_hash cid, hreads, congrArg (Option.map cid_hash) hcid_of,
                .inl ⟨entry, hentry, hanswer⟩⟩

theorem query_by_cid_impl_ensures (hbuilds : host.Builds program_id) {args : List UInt8}
    (harg : arg_to_str args_json = .ok args) (world : World) :
    Async.Ensures (rely program_id) (Submits host args_json .query_by_cid)
      (fun w result => ∀ output, result = .ok output → 0 ∉ output ∧
        ∃ v hash, Reads host args_json v ∧ FfiFunction.query_by_cid.hash_of v = some hash ∧
          ((∃ entry, entries_of program_id w hash = some entry ∧ output = FfiFunction.query_by_cid.answer entry) ∨
            FfiFunction.query_by_cid ≠ .anchor_one ∧ output = (query_json none).render))
      (query_by_cid_impl host args) world := by
  unfold query_by_cid_impl
  split
  · exact .ret fun _ _ _ hnone => nomatch hnone
  · rename_i v hv
    split
    · exact .ret fun _ _ _ hnone => nomatch hnone
    · split
      · exact .ret fun _ _ _ hnone => nomatch hnone
      · rename_i s hs
        split
        · exact .ret fun _ _ _ hnone => nomatch hnone
        · rename_i cid hcid
          have hcid_of : FfiFunction.cid_of v = some cid := by
            rw [FfiFunction.cid_of, hs, Option.bind_some, hcid]
            rfl
          refine (query_ensures hbuilds (cid_hash cid) world).mono ?_
          intro last result hresult output houtput
          obtain ⟨hzero, hanswer⟩ := hresult output houtput
          exact ⟨hzero, v, cid_hash cid, ⟨args, harg, hv⟩, congrArg (Option.map cid_hash) hcid_of,
            hanswer.imp_right fun hnone => ⟨nofun, hnone⟩⟩

theorem query_by_cid_hash_impl_ensures (hbuilds : host.Builds program_id) {args : List UInt8}
    (harg : arg_to_str args_json = .ok args) (world : World) :
    Async.Ensures (rely program_id) (Submits host args_json .query_by_cid_hash)
      (fun w result => ∀ output, result = .ok output → 0 ∉ output ∧
        ∃ v hash, Reads host args_json v ∧ FfiFunction.query_by_cid_hash.hash_of v = some hash ∧
          ((∃ entry, entries_of program_id w hash = some entry ∧ output = FfiFunction.query_by_cid_hash.answer entry) ∨
            FfiFunction.query_by_cid_hash ≠ .anchor_one ∧ output = (query_json none).render))
      (query_by_cid_hash_impl host args) world := by
  unfold query_by_cid_hash_impl
  split
  · exact .ret fun _ _ _ hnone => nomatch hnone
  · rename_i v hv
    split
    · exact .ret fun _ _ _ hnone => nomatch hnone
    · split
      · exact .ret fun _ _ _ hnone => nomatch hnone
      · rename_i s hs
        split
        · exact .ret fun _ _ _ hnone => nomatch hnone
        · rename_i hash hhash
          have hhash_of : FfiFunction.query_by_cid_hash.hash_of v = some hash := by
            rw [FfiFunction.hash_of, hs, Option.bind_some, hhash]
            rfl
          refine (query_ensures hbuilds hash world).mono ?_
          intro last result hresult output houtput
          obtain ⟨hzero, hanswer⟩ := hresult output houtput
          exact ⟨hzero, v, hash, ⟨args, harg, hv⟩, hhash_of, hanswer.imp_right fun hnone => ⟨nofun, hnone⟩⟩

/-- Every function answers with an error, or with what the registry holds from then on. -/
theorem FfiFunction.call_ensures (hbuilds : host.Builds program_id) (function : FfiFunction) (world : World) :
    Async.Ensures (rely program_id) (Submits host args_json function) (Answers program_id host args_json function)
      (function.call host args_json) world := by
  cases function with
  | anchor_one => exact entry_point_ensures fun args harg => anchor_one_impl_ensures hbuilds harg world
  | query_by_cid => exact entry_point_ensures fun args harg => query_by_cid_impl_ensures hbuilds harg world
  | query_by_cid_hash => exact entry_point_ensures fun args harg => query_by_cid_hash_impl_ensures hbuilds harg world

omit [Sha256] in
/-- An account that holds an entry is read as it is. -/
theorem read_entry_finds {client : LezRegistryClient} {hash : CidHash} {entry : AnchorEntry} {world : World}
    (hentry : entries_of client.program_id world hash = some entry) :
    Async.Ensures (rely client.program_id) (fun (_ : World) (_ : LezCall) => True)
      (fun _ result => ∀ found, result = .ok found → found = some entry)
      (LezRegistryClient.read_entry (client.entry_pda_for_hash hash)) world := by
  have hfetch : Async.Ensures (rely client.program_id) (fun (_ : World) (_ : LezCall) => True)
      (fun _ (result : Except String Account) => ∀ account, result = .ok account →
        decode_entry account.data.bytes = some entry)
      (Async.call (I := LezIo) (.get_account_public (client.entry_pda_for_hash hash))) world := by
    intro later hlater
    refine ⟨trivial, ?_⟩
    intro response after hanswer last _ account hresponse
    rw [hanswer.2 account hresponse]
    exact hlater hash entry hentry
  refine hfetch.bind ?_
  intro later response hresponse
  split
  · exact .ret (by rintro _ _ _ ⟨⟩)
  · rename_i account
    have hdecode := hresponse later (.refl _) account rfl
    rw [decode_entry] at hdecode
    dsimp only
    split at hdecode
    · cases hdecode
    · rename_i hdata
      rw [if_neg hdata]
      cases hread : AnchorEntry.try_from_slice account.data.bytes with
      | error e =>
        rw [hread] at hdecode
        cases hdecode
      | ok other =>
        rw [hread] at hdecode
        cases hdecode
        refine .ret fun _ _ found hfound => ?_
        cases hfound
        rfl

omit [Sha256] in
/-- A query that begins when there is an entry finds it. -/
theorem query_finds (hbuilds : host.Builds program_id) (v : json.Value) {hash : CidHash} {entry : AnchorEntry}
    {world : World} (hentry : entries_of program_id world hash = some entry) :
    Async.Ensures (rely program_id) (fun (_ : World) (_ : LezCall) => True)
      (fun _ result => ∀ output, result = .ok output → 0 ∉ output ∧ output = (query_json (some entry)).render)
      (query host v hash) world := by
  unfold query
  split
  · exact .ret fun _ _ _ hnone => nomatch hnone
  · exact .ret fun _ _ _ hnone => nomatch hnone
  · rename_i client hclient hruntime
    obtain rfl := hbuilds v client hclient
    refine (read_entry_finds hentry).bind ?_
    intro later result hresult
    cases result with
    | error e => exact .ret fun _ _ _ hnone => nomatch hnone
    | ok found =>
      refine .ret fun _ _ output houtput => ?_
      cases houtput
      obtain rfl := hresult later (.refl _) found rfl
      exact ⟨json.Value.zero_notMem_render _ (written_query_json (some entry)), rfl⟩

omit [Sha256] [Nssa] in
theorem Reads.unique {v other : json.Value} (hreads : Reads host args_json v) (hother : Reads host args_json other) :
    v = other := by
  obtain ⟨args, harg, hv⟩ := hreads
  obtain ⟨args', harg', hv'⟩ := hother
  rw [harg] at harg'
  cases harg'
  rw [hv] at hv'
  exact Except.ok.inj hv'

/-- A function that is called when there is an entry under the hash that it is asked for hands
    over that entry, unless it fails. -/
theorem FfiFunction.call_finds (hbuilds : host.Builds program_id) {function : FfiFunction} {v : json.Value}
    (hreads : Reads host args_json v) {hash : CidHash} (hhash : function.hash_of v = some hash) {entry : AnchorEntry}
    {world : World} (hentry : entries_of program_id world hash = some entry) :
    Async.Ensures (rely program_id) (fun (_ : World) (_ : LezCall) => True)
      (fun _ answer => Fails answer ∨ answer = function.answer entry) (function.call host args_json) world := by
  obtain ⟨text, harg, hv⟩ := hreads
  have hsame : ∀ args, arg_to_str args_json = .ok args → args = text := by
    intro args hargs
    rw [harg] at hargs
    exact (Except.ok.inj hargs).symm
  cases function with
  | anchor_one =>
    have hkept : Async.Ensures (rely program_id) (Submits host args_json .anchor_one)
        (fun w answer => entries_of program_id w hash = some entry ∧ Answers program_id host args_json .anchor_one w answer)
        (FfiFunction.anchor_one.call host args_json) world := by
      refine Async.Ensures.frame ?_ ?_ hentry (FfiFunction.call_ensures hbuilds .anchor_one world)
      · exact fun _ _ hbefore hmoves => hmoves hash entry hbefore
      · exact fun _ _ _ _ hbefore hanswers => hanswers.1 hash entry hbefore
    refine (hkept.mono ?_).weaken fun _ _ _ => trivial
    rintro last answer ⟨hstored, hfails | ⟨other, named, hother, hnamed, hanswer⟩⟩
    · exact .inl hfails
    · obtain rfl := hother.unique ⟨text, harg, hv⟩
      rw [hhash] at hnamed
      cases hnamed
      obtain ⟨found, hfound, hgiven⟩ | ⟨hquery, _⟩ := hanswer
      · rw [hstored] at hfound
        cases hfound
        exact .inr hgiven
      · exact absurd rfl hquery
  | query_by_cid =>
    refine entry_point_ensures fun args hargs => ?_
    obtain rfl := hsame args hargs
    unfold query_by_cid_impl
    rw [hv]
    dsimp only
    split
    · exact .ret fun _ _ _ hnone => nomatch hnone
    · split
      · exact .ret fun _ _ _ hnone => nomatch hnone
      · rename_i s hs
        split
        · exact .ret fun _ _ _ hnone => nomatch hnone
        · rename_i cid hcid
          rw [FfiFunction.hash_of, FfiFunction.cid_of, hs, Option.bind_some, hcid] at hhash
          cases hhash
          exact query_finds hbuilds v hentry
  | query_by_cid_hash =>
    refine entry_point_ensures fun args hargs => ?_
    obtain rfl := hsame args hargs
    unfold query_by_cid_hash_impl
    rw [hv]
    dsimp only
    split
    · exact .ret fun _ _ _ hnone => nomatch hnone
    · split
      · exact .ret fun _ _ _ hnone => nomatch hnone
      · rename_i s hs
        split
        · exact .ret fun _ _ _ hnone => nomatch hnone
        · rename_i found hfound
          rw [FfiFunction.hash_of, hs, Option.bind_some, hfound] at hhash
          cases hhash
          exact query_finds hbuilds v hentry

end

end whistleblower_ffi
