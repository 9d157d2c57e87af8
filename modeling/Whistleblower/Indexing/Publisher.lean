import Whistleblower.Indexing.Retry

open whistleblower_core

namespace document_indexing

inductive PublisherError where
  | Storage (error : AdapterError)
  | Delivery (error : AdapterError)
  | Registry (error : AdapterError)
  | Envelope (error : CoreError)
  | InvalidCid (cid : String)
  deriving DecidableEq, Repr

def PublisherError.message : PublisherError → String
  | .Storage error => "storage upload failed after retries: " ++ error.to_string
  | .Delivery error => "delivery publish failed after retries: " ++ error.to_string
  | .Registry error => "registry anchor failed after retries: " ++ error.to_string
  | .Envelope error => "envelope construction failed: " ++ error.message
  | .InvalidCid cid => "invalid canonical CID returned by storage: " ++ cid

/-- What the caller supplies in addition to the file itself. -/
structure MetadataInputs where
  title : String
  description : String
  content_type : String
  size_bytes : UInt64
  timestamp_unix : UInt64
  tags : List String
  deriving DecidableEq, Repr

structure PublishOutcome where
  cid : CanonicalCid
  envelope : MetadataEnvelopeV1
  envelope_bytes : List UInt8
  metadata_hash : MetadataHash
  publish_receipt : PublishReceipt
  deriving DecidableEq

structure Publisher where
  content_topic : String
  retry_policy : RetryPolicy
  deriving DecidableEq, Repr

namespace Publisher

def new : Publisher where
  content_topic := DEFAULT_CONTENT_TOPIC
  retry_policy := .default

variable [Sha256]

/-- Upload and broadcast, without anchoring. -/
def publish_file (self : Publisher) (path : String) (inputs : MetadataInputs) :
    Async Adapters (Except PublisherError PublishOutcome) := do
  match ← with_retry self.retry_policy (Async.call (I := Adapters) (.upload_file path)) with
  | .error e => pure (.error (.Storage e))
  | .ok upload =>
    match CanonicalCid.new upload.cid with
    | .error _ => pure (.error (.InvalidCid upload.cid))
    | .ok cid =>
      let envelope : MetadataEnvelopeV1 := {
        version := 1
        cid
        title := inputs.title
        description := inputs.description
        content_type := inputs.content_type
        size_bytes := inputs.size_bytes
        timestamp := inputs.timestamp_unix
        tags := inputs.tags }
      match envelope.canonical_json_bytes with
      | .error e => pure (.error (.Envelope e))
      | .ok envelope_bytes =>
        match envelope.metadata_hash with
        | .error e => pure (.error (.Envelope e))
        | .ok metadata_hash => do
          match ← with_retry self.retry_policy
              (Async.call (I := Adapters) (.publish self.content_topic envelope_bytes)) with
          | .error e => pure (.error (.Delivery e))
          | .ok publish_receipt =>
            pure (.ok { cid, envelope, envelope_bytes, metadata_hash, publish_receipt })

/-- Anchor a published outcome. -/
def anchor_published (self : Publisher) (outcome : PublishOutcome) :
    Async Adapters (Except PublisherError AnchorEntry) := do
  match ← with_retry self.retry_policy
      (Async.call (I := Adapters) (.anchor_one outcome.cid outcome.metadata_hash)) with
  | .error e => pure (.error (.Registry e))
  | .ok entry => pure (.ok entry)

/-- Upload, broadcast and anchor. -/
def publish_and_anchor (self : Publisher) (path : String) (inputs : MetadataInputs) :
    Async Adapters (Except PublisherError (PublishOutcome × AnchorEntry)) := do
  match ← self.publish_file path inputs with
  | .error e => pure (.error e)
  | .ok outcome => do
    match ← self.anchor_published outcome with
    | .error e => pure (.error e)
    | .ok entry => pure (.ok (outcome, entry))

end Publisher

/-- The envelope that describes a file under a CID. -/
def MetadataInputs.envelope (self : MetadataInputs) (cid : CanonicalCid) : MetadataEnvelopeV1 where
  version := 1
  cid := cid
  title := self.title
  description := self.description
  content_type := self.content_type
  size_bytes := self.size_bytes
  timestamp := self.timestamp_unix
  tags := self.tags

/-- The storage's successful answer. -/
def uploaded (path : String) (receipt : UploadReceipt) : Exchange Adapters :=
  ⟨.upload_file path, (Except.ok receipt : Except AdapterError UploadReceipt)⟩

/-- The delivery's successful answer. -/
def published (topic : String) (bytes : List UInt8) (receipt : PublishReceipt) : Exchange Adapters :=
  ⟨.publish topic bytes, (Except.ok receipt : Except AdapterError PublishReceipt)⟩

namespace Publisher

section

variable [Sha256]

/-- What is broadcast is the canonical form of the envelope under a CID that the
    storage returned. -/
def Broadcasts (self : Publisher) (path : String) (inputs : MetadataInputs) (calls : List (Exchange Adapters))
    (request : AdapterCall) : Prop :=
  ∀ topic bytes, request = .publish topic bytes → topic = self.content_topic ∧
    ∃ upload cid, uploaded path upload ∈ calls ∧ CanonicalCid.new upload.cid = .ok cid ∧
      (inputs.envelope cid).canonical_json_bytes = .ok bytes

/-- What each result of publishing a file tells. -/
def Published (self : Publisher) (path : String) (inputs : MetadataInputs) (calls : List (Exchange Adapters)) :
    Except PublisherError PublishOutcome → Prop
  | .ok outcome => ∃ upload, uploaded path upload ∈ calls ∧ CanonicalCid.new upload.cid = .ok outcome.cid ∧
      outcome.envelope = inputs.envelope outcome.cid ∧
      outcome.envelope.canonical_json_bytes = .ok outcome.envelope_bytes ∧
      outcome.envelope.metadata_hash = .ok outcome.metadata_hash ∧
      published self.content_topic outcome.envelope_bytes outcome.publish_receipt ∈ calls
  | .error (.InvalidCid cid) => ∃ upload, uploaded path upload ∈ calls ∧ upload.cid = cid ∧
      ∃ e, CanonicalCid.new cid = .error e
  | .error (.Storage _) => True
  | .error (.Delivery _) => True
  | .error _ => False

omit [Sha256] in
theorem upload_ensures (self : Publisher) (path : String) (inputs : MetadataInputs)
    (calls : List (Exchange Adapters)) :
    Async.Ensures (Async.recording Adapters) (self.Broadcasts path inputs)
      (OnResult (fun _ _ => True) fun calls upload => uploaded path upload ∈ calls)
      (with_retry self.retry_policy (Async.call (I := Adapters) (.upload_file path))) calls := by
  refine with_retry_records (V := fun _ => True) (fun _ _ _ => trivial) (fun _ _ _ _ => trivial)
    (by rintro _ _ _ _ _ ⟨⟩) (by rintro _ _ _ _ _ ⟨⟩) ?_ calls trivial
  intro before _
  refine .call (by rintro _ _ _ _ ⟨⟩) ?_
  rintro _ (e | upload) _ _ rfl rfl rfl
  · trivial
  · exact List.mem_append_right _ List.mem_cons_self

omit [Sha256] in
theorem broadcast_ensures (self : Publisher) (path : String) (inputs : MetadataInputs) {upload : UploadReceipt}
    {cid : CanonicalCid} (hcid : CanonicalCid.new upload.cid = .ok cid) {bytes : List UInt8}
    (hbytes : (inputs.envelope cid).canonical_json_bytes = .ok bytes) {calls : List (Exchange Adapters)}
    (huploaded : uploaded path upload ∈ calls) :
    Async.Ensures (Async.recording Adapters) (self.Broadcasts path inputs)
      (OnResult (fun calls _ => uploaded path upload ∈ calls) fun calls receipt =>
        uploaded path upload ∈ calls ∧ published self.content_topic bytes receipt ∈ calls)
      (with_retry self.retry_policy (Async.call (I := Adapters) (.publish self.content_topic bytes))) calls := by
  have hcall : ∀ before, uploaded path upload ∈ before → Async.Ensures (Async.recording Adapters)
      (self.Broadcasts path inputs) (OnResult (fun calls _ => uploaded path upload ∈ calls) fun calls receipt =>
        uploaded path upload ∈ calls ∧ published self.content_topic bytes receipt ∈ calls)
      (Async.call (I := Adapters) (.publish self.content_topic bytes)) before := by
    intro before hbefore
    refine .call ?_ ?_
    · rintro _ rfl topic sent hsent
      cases hsent
      exact ⟨rfl, upload, cid, hbefore, hcid, hbytes⟩
    · rintro _ (e | receipt) _ _ rfl rfl rfl
      · exact List.mem_append_left _ hbefore
      · exact ⟨List.mem_append_left _ hbefore, List.mem_append_right _ List.mem_cons_self⟩
  refine with_retry_records (V := fun calls => uploaded path upload ∈ calls) (fun _ _ hkept => hkept) ?_ ?_ ?_ hcall
    calls huploaded
  · exact fun _ _ _ hkept => List.mem_append_left _ hkept
  · rintro _ _ _ _ _ ⟨⟩
  · rintro _ _ _ _ _ ⟨⟩

theorem publish_file_ensures (self : Publisher) (path : String) (inputs : MetadataInputs)
    (calls : List (Exchange Adapters)) :
    Async.Ensures (Async.recording Adapters) (self.Broadcasts path inputs) (self.Published path inputs)
      (self.publish_file path inputs) calls := by
  refine (self.upload_ensures path inputs calls).bind ?_
  intro later result hresult
  cases result with
  | error e => exact .ret fun _ _ => trivial
  | ok upload =>
    have huploaded : uploaded path upload ∈ later := hresult later rfl
    dsimp only
    split
    · rename_i e hcid
      refine .ret ?_
      rintro _ rfl
      exact ⟨upload, huploaded, rfl, e, hcid⟩
    · rename_i cid hcid
      have hbytes : (inputs.envelope cid).canonical_json_bytes = .ok (inputs.envelope cid).serialize.render := rfl
      refine (self.broadcast_ensures path inputs hcid hbytes huploaded).bind ?_
      intro last sent hsent
      cases sent with
      | error e => exact .ret fun _ _ => trivial
      | ok receipt =>
        obtain ⟨hkept, hpublished⟩ := hsent last rfl
        refine .ret ?_
        rintro _ rfl
        exact ⟨upload, hkept, hcid, rfl, rfl, rfl, hpublished⟩

/-- Publishing succeeds at once if the storage returns some CID and the delivery takes
    the broadcast. -/
theorem publish_file_returns {self : Publisher} (hattempts : 1 ≤ self.retry_policy.max_attempts.toNat)
    (path : String) (inputs : MetadataInputs) {upload : UploadReceipt} {cid : CanonicalCid}
    (hcid : CanonicalCid.new upload.cid = .ok cid) (publish_receipt : PublishReceipt) :
    let envelope := inputs.envelope cid
    (self.publish_file path inputs).Returns
      [uploaded path upload, published self.content_topic envelope.serialize.render publish_receipt]
      (.ok {
        cid, envelope
        envelope_bytes := envelope.serialize.render
        metadata_hash := ⟨Sha256.digest envelope.serialize.render⟩
        publish_receipt }) := by
  intro envelope
  have hupload := with_retry_of_ok hattempts (T := UploadReceipt) (Async.call_returns (uploaded path upload))
  have hpublish := with_retry_of_ok hattempts (T := PublishReceipt)
    (Async.call_returns (published self.content_topic envelope.serialize.render publish_receipt))
  refine hupload.bind ?_
  simp only [hcid]
  exact hpublish.bind (.refl _)

end

end Publisher

end document_indexing
