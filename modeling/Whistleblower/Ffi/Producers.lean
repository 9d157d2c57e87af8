import Whistleblower.Indexing.Publisher
import Whistleblower.Indexing.Batch.Recovery
import Whistleblower.Ffi.Metadata

open whistleblower_core document_indexing

namespace whistleblower_ffi

/-- The arguments that describe the publisher's file under the storage's CID. -/
def MetadataInputs.of_file (storage_cid : String) (inputs : document_indexing.MetadataInputs) : MetadataInputs where
  cid := storage_cid
  title := inputs.title
  description := inputs.description
  content_type := inputs.content_type
  size_bytes := inputs.size_bytes
  timestamp_unix := inputs.timestamp_unix
  tags := inputs.tags

section

variable [Sha256]

/-- The outcome of publishing a file under a CID. -/
def outcome_of (cid : CanonicalCid) (inputs : document_indexing.MetadataInputs) (publish_receipt : PublishReceipt) :
    PublishOutcome :=
  let envelope := inputs.envelope cid
  { cid, envelope
    envelope_bytes := envelope.serialize.render
    metadata_hash := ⟨Sha256.digest envelope.serialize.render⟩
    publish_receipt }

/-- A publisher whose storage returns one CID broadcasts one text, and unless the
    storage or the delivery fails returns the outcome for it. -/
theorem publish_file_cases {storage_cid : String} {cid : CanonicalCid}
    (hcid : CanonicalCid.new storage_cid = .ok cid) {publisher : Publisher} {path : String}
    {inputs : document_indexing.MetadataInputs} {trace : List (Exchange Adapters)}
    {result : Except PublisherError PublishOutcome}
    (hreturns : (publisher.publish_file path inputs).Returns trace result)
    (hstorage : ∀ upload, uploaded path upload ∈ trace → upload.cid = storage_cid) :
    (∀ exchange ∈ trace, ∀ topic bytes, exchange.request = AdapterCall.publish topic bytes →
        topic = publisher.content_topic ∧ bytes = (inputs.envelope cid).serialize.render) ∧
      ((∃ e, result = .error (.Storage e)) ∨ (∃ e, result = .error (.Delivery e)) ∨
        ∃ publish_receipt, result = .ok (outcome_of cid inputs publish_receipt) ∧
          published publisher.content_topic (inputs.envelope cid).serialize.render publish_receipt ∈ trace) := by
  have hensures := publisher.publish_file_ensures path inputs []
  constructor
  · intro exchange hexchange topic bytes hrequest
    obtain ⟨front, back, rfl, hasks⟩ := hensures.asked hreturns hexchange
    obtain ⟨htopic, upload, canonical, hupload, hcanonical, hbytes⟩ := hasks topic bytes hrequest
    rw [hstorage upload (List.mem_append_left _ hupload), hcid] at hcanonical
    cases hcanonical
    exact ⟨htopic, (Except.ok.inj hbytes).symm⟩
  · have hpublished := hensures.returns hreturns
    cases result with
    | error e =>
      cases e with
      | Storage e => exact .inl ⟨e, rfl⟩
      | Delivery e => exact .inr (.inl ⟨e, rfl⟩)
      | InvalidCid other =>
        obtain ⟨upload, hupload, rfl, e, hinvalid⟩ := hpublished
        rw [hstorage upload hupload, hcid] at hinvalid
        cases hinvalid
      | Registry e => cases hpublished
      | Envelope e => cases hpublished
    | ok outcome =>
      obtain ⟨upload, hupload, hcanonical, henvelope, hbytes, hhash, hsent⟩ := hpublished
      rw [hstorage upload hupload, hcid] at hcanonical
      obtain ⟨canonical, envelope, envelope_bytes, metadata_hash, publish_receipt⟩ := outcome
      obtain rfl : cid = canonical := Except.ok.inj hcanonical
      obtain rfl : envelope = inputs.envelope cid := henvelope
      obtain rfl : (inputs.envelope cid).serialize.render = envelope_bytes := Except.ok.inj hbytes
      obtain rfl : ⟨Sha256.digest (inputs.envelope cid).serialize.render⟩ = metadata_hash := Except.ok.inj hhash
      exact .inr (.inr ⟨publish_receipt, rfl, hsent⟩)

theorem compute_metadata_hash_eq {args : List UInt8} {storage_cid : String} {cid : CanonicalCid}
    {inputs : document_indexing.MetadataInputs} (hcid : CanonicalCid.new storage_cid = .ok cid)
    (hargs : MetadataInputs.from_str args = .ok (.of_file storage_cid inputs)) :
    compute_metadata_hash_impl args = .ok (metadata_hash_json (inputs.envelope cid).serialize.render
      ⟨Sha256.digest (inputs.envelope cid).serialize.render⟩).render := by
  have hnew : CanonicalCid.new (MetadataInputs.of_file storage_cid inputs).cid = .ok cid := hcid
  rw [compute_metadata_hash_impl, hargs]
  simp only [hnew]
  rfl

/-- The three producers agree on every file with a CID that is not blank: they give one
    CID, one text and the hash of that text. Envelopes are read back from their texts,
    so different ones have different texts. -/
theorem producers_agree (storage_cid : String) (hcid : text.trim storage_cid ≠ "")
    (inputs : document_indexing.MetadataInputs) :
    ∃ cid envelope bytes metadata_hash, CanonicalCid.new storage_cid = .ok cid ∧
      inputs.envelope cid = envelope ∧ envelope.canonical_json_bytes = .ok bytes ∧
      metadata_hash.digest = Sha256.digest bytes ∧
      (∀ publisher path trace result, (Publisher.publish_file publisher path inputs).Returns trace result →
        (∀ upload, uploaded path upload ∈ trace → upload.cid = storage_cid) →
        (∀ exchange ∈ trace, ∀ topic sent, exchange.request = AdapterCall.publish topic sent →
          topic = publisher.content_topic ∧ sent = bytes) ∧
        ((∃ e, result = .error (.Storage e)) ∨ (∃ e, result = .error (.Delivery e)) ∨
          ∃ publish_receipt, result = .ok { cid, envelope, envelope_bytes := bytes, metadata_hash, publish_receipt } ∧
            published publisher.content_topic bytes publish_receipt ∈ trace)) ∧
      (∀ publisher : Publisher, 1 ≤ publisher.retry_policy.max_attempts.toNat →
        ∀ path upload publish_receipt, upload.cid = storage_cid →
          (publisher.publish_file path inputs).Returns
            [uploaded path upload, published publisher.content_topic bytes publish_receipt]
            (.ok { cid, envelope, envelope_bytes := bytes, metadata_hash, publish_receipt })) ∧
      (∀ args, MetadataInputs.from_str args = .ok (.of_file storage_cid inputs) →
        ∃ output b64 hex, compute_metadata_hash_impl args = .ok output ∧
          json.parse output = some (json.record [("envelope_bytes_b64", .of_string b64),
            ("metadata_hash_hex", .of_string hex), ("success", .bool true)]) ∧
          base64.decode b64.toList = some bytes ∧ parse_metadata_hash hex = .ok metadata_hash) ∧
      MetadataInputs.from_str (MetadataInputs.of_file storage_cid inputs).serialize.render =
        .ok (.of_file storage_cid inputs) ∧
      (∀ received : ReceivedEnvelope, received.payload = bytes → ∀ hash,
        batch.accept received.topic received (.ok (.New hash)) = some (cid, metadata_hash)) ∧
      (∀ other : MetadataEnvelopeV1, ∀ text, other.canonical_json_bytes = .ok text →
        MetadataEnvelopeV1.from_slice text = .ok other) ∧
      Function.Injective MetadataEnvelopeV1.canonical_json_bytes := by
  have hnew : CanonicalCid.new storage_cid = .ok ⟨text.trim storage_cid⟩ :=
    CanonicalCid.new_eq_ok.mpr ⟨rfl, hcid⟩
  generalize (⟨text.trim storage_cid⟩ : CanonicalCid) = cid at hnew
  refine ⟨cid, inputs.envelope cid, (inputs.envelope cid).serialize.render,
    ⟨Sha256.digest (inputs.envelope cid).serialize.render⟩, hnew, rfl, rfl, rfl, ?_, ?_, ?_, ?_, ?_, ?_, ?_⟩
  · intro publisher path trace result hreturns hstorage
    exact publish_file_cases hnew hreturns hstorage
  · rintro publisher hattempts path upload publish_receipt rfl
    exact Publisher.publish_file_returns hattempts path inputs hnew publish_receipt
  · intro args hargs
    exact ⟨_, _, _, compute_metadata_hash_eq hnew hargs, json.parse_render (written_metadata_hash_json _ _),
      decode_base64_encode _, parse_metadata_hash_hex_encode _⟩
  · exact MetadataInputs.from_str_render _
  · rintro received hpayload hash
    apply batch.accept_eq_some.mpr
    have hread : MetadataEnvelopeV1.from_slice received.payload = .ok (inputs.envelope cid) := by
      rw [hpayload]
      exact MetadataEnvelopeV1.from_slice_canonical rfl
    refine ⟨⟨hash, rfl⟩, inputs.envelope cid, ?_, rfl, rfl⟩
    rw [batch.parse_envelope, if_neg (fun h => h rfl), hread]
  · exact fun other text htext => MetadataEnvelopeV1.from_slice_canonical htext
  · exact MetadataEnvelopeV1.canonical_json_bytes_injective

end

/-- A padded CID, a title with a control character and the largest size. -/
theorem producers_agree_padded_cid :
    let inputs : document_indexing.MetadataInputs := {
      title := "\u0000 \"\u00e9\""
      description := ""
      content_type := "text/plain"
      size_bytes := 18446744073709551615
      timestamp_unix := 0
      tags := ["a", "\\"] }
    let upload : UploadReceipt := { request_id := "1", cid := " bafy-a\n" }
    let publish_receipt : PublishReceipt := { request_id := "2", message_hash := "", timestamp := "" }
    let args := (MetadataInputs.of_file upload.cid inputs).serialize.render
    ∃ outcome output b64 hex,
      (Publisher.new.publish_file "report" inputs).Returns
        [uploaded "report" upload, published DEFAULT_CONTENT_TOPIC outcome.envelope_bytes publish_receipt]
        (.ok outcome) ∧
      compute_metadata_hash_impl args = .ok output ∧
      json.parse output = some (json.record [("envelope_bytes_b64", .of_string b64),
        ("metadata_hash_hex", .of_string hex), ("success", .bool true)]) ∧
      base64.decode b64.toList = some outcome.envelope_bytes ∧
      parse_metadata_hash hex = .ok outcome.metadata_hash := by
  intro inputs upload publish_receipt args
  obtain ⟨cid, envelope, bytes, metadata_hash, _, _, _, _, _, hpublishes, hcomputes, hargs, _⟩ :=
    producers_agree upload.cid (by decide +kernel) inputs
  obtain ⟨output, b64, hex, houtput, hparse, hbytes, hhash⟩ := hcomputes args hargs
  have hreturns := hpublishes Publisher.new (by decide) "report" upload publish_receipt rfl
  let outcome : PublishOutcome := { cid, envelope, envelope_bytes := bytes, metadata_hash, publish_receipt }
  exact ⟨outcome, output, b64, hex, hreturns, houtput, hparse, hbytes, hhash⟩

end whistleblower_ffi
