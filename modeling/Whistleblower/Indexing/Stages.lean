import Whistleblower.Indexing.Attempts
import Whistleblower.Indexing.Publisher

open whistleblower_core

namespace document_indexing

theorem Adapters.panic_returns {A : Type} (message : String) (trace : List (Exchange Adapters)) (result : A) :
    ¬ (Runtime.panic message : Async Adapters A).Returns trace result := by
  intro hreturns
  obtain ⟨response, _⟩ := Async.returns_ask_iff.mp hreturns
  exact response.elim

/-- An upload of a file. -/
def uploading (path : String) : Retried Adapters UploadReceipt where
  op := Async.call (I := Adapters) (.upload_file path)
  answer := fun result => ⟨AdapterCall.upload_file path, result⟩
  pause := fun duration => ⟨AdapterCall.sleep duration, ()⟩
  op_returns := fun _ _ => Async.returns_call_iff
  sleep_returns := fun _ _ _ => Async.returns_call_iff
  panic_returns := Adapters.panic_returns

/-- A broadcast of a payload. -/
def publishing (topic : String) (bytes : List UInt8) : Retried Adapters PublishReceipt where
  op := Async.call (I := Adapters) (.publish topic bytes)
  answer := fun result => ⟨AdapterCall.publish topic bytes, result⟩
  pause := fun duration => ⟨AdapterCall.sleep duration, ()⟩
  op_returns := fun _ _ => Async.returns_call_iff
  sleep_returns := fun _ _ _ => Async.returns_call_iff
  panic_returns := Adapters.panic_returns

/-- An anchoring of a CID. -/
def anchoring (cid : CanonicalCid) (metadata_hash : MetadataHash) : Retried Adapters AnchorEntry where
  op := Async.call (I := Adapters) (.anchor_one cid metadata_hash)
  answer := fun result => ⟨AdapterCall.anchor_one cid metadata_hash, result⟩
  pause := fun duration => ⟨AdapterCall.sleep duration, ()⟩
  op_returns := fun _ _ => Async.returns_call_iff
  sleep_returns := fun _ _ _ => Async.returns_call_iff
  panic_returns := Adapters.panic_returns

namespace Publisher

section

variable [Sha256]

/-- The attempts of one stage, with the result they end with. -/
def Stage {T : Type} (self : Publisher) (call : Retried Adapters T) (result : Except AdapterError T)
    (trace : List (Exchange Adapters)) : Prop :=
  ∃ results, Attempts self.retry_policy.max_attempts.toNat results result ∧
    trace = call.exchanges self.retry_policy 1 results

omit [Sha256] in
theorem stage_iff {T : Type} {self : Publisher} (hattempts : 1 ≤ self.retry_policy.max_attempts.toNat)
    (call : Retried Adapters T) {result : Except AdapterError T} {trace : List (Exchange Adapters)} :
    (with_retry self.retry_policy call.op).Returns trace result ↔ self.Stage call result trace :=
  call.with_retry_returns_iff hattempts

/-- What publishing a file exchanges and returns: uploads of the path, and once one of them
    returned a CID that is not blank, broadcasts of the canonical form of its envelope. -/
inductive FileStages (self : Publisher) (path : String) (inputs : MetadataInputs) :
    List (Exchange Adapters) → Except PublisherError PublishOutcome → Prop where
  | storage {uploads : List (Exchange Adapters)} {e : AdapterError}
      (huploads : self.Stage (uploading path) (.error e) uploads) :
      FileStages self path inputs uploads (.error (.Storage e))
  | invalid_cid {uploads : List (Exchange Adapters)} {upload : UploadReceipt}
      (huploads : self.Stage (uploading path) (.ok upload) uploads) (hblank : text.trim upload.cid = "") :
      FileStages self path inputs uploads (.error (.InvalidCid upload.cid))
  | delivery {uploads publishes : List (Exchange Adapters)} {upload : UploadReceipt} {bytes : List UInt8}
      {e : AdapterError} (huploads : self.Stage (uploading path) (.ok upload) uploads)
      (hcid : text.trim upload.cid ≠ "")
      (hbytes : (inputs.envelope ⟨text.trim upload.cid⟩).canonical_json_bytes = .ok bytes)
      (hpublishes : self.Stage (publishing self.content_topic bytes) (.error e) publishes) :
      FileStages self path inputs (uploads ++ publishes) (.error (.Delivery e))
  | published {uploads publishes : List (Exchange Adapters)} {upload : UploadReceipt} {bytes : List UInt8}
      {publish_receipt : PublishReceipt} (huploads : self.Stage (uploading path) (.ok upload) uploads)
      (hcid : text.trim upload.cid ≠ "")
      (hbytes : (inputs.envelope ⟨text.trim upload.cid⟩).canonical_json_bytes = .ok bytes)
      (hpublishes : self.Stage (publishing self.content_topic bytes) (.ok publish_receipt) publishes) :
      FileStages self path inputs (uploads ++ publishes) (.ok {
        cid := ⟨text.trim upload.cid⟩
        envelope := inputs.envelope ⟨text.trim upload.cid⟩
        envelope_bytes := bytes
        metadata_hash := ⟨Sha256.digest bytes⟩
        publish_receipt })

/-- What the whole pipeline exchanges and returns: it goes on with anchorings of what was
    published, once that was. -/
inductive Stages (self : Publisher) (path : String) (inputs : MetadataInputs) :
    List (Exchange Adapters) → Except PublisherError (PublishOutcome × AnchorEntry) → Prop where
  | unpublished {calls : List (Exchange Adapters)} {e : PublisherError}
      (hcalls : FileStages self path inputs calls (.error e)) : Stages self path inputs calls (.error e)
  | registry {calls anchors : List (Exchange Adapters)} {outcome : PublishOutcome} {e : AdapterError}
      (hcalls : FileStages self path inputs calls (.ok outcome))
      (hanchors : self.Stage (anchoring outcome.cid outcome.metadata_hash) (.error e) anchors) :
      Stages self path inputs (calls ++ anchors) (.error (.Registry e))
  | anchored {calls anchors : List (Exchange Adapters)} {outcome : PublishOutcome} {entry : AnchorEntry}
      (hcalls : FileStages self path inputs calls (.ok outcome))
      (hanchors : self.Stage (anchoring outcome.cid outcome.metadata_hash) (.ok entry) anchors) :
      Stages self path inputs (calls ++ anchors) (.ok (outcome, entry))

section

variable {self : Publisher} (hattempts : 1 ≤ self.retry_policy.max_attempts.toNat) {path : String}
  {inputs : MetadataInputs} {trace : List (Exchange Adapters)}

include hattempts

/-- After an upload with a CID, the outcome is that of the broadcast. -/
theorem publish_file_sends {uploads publishes : List (Exchange Adapters)} {upload : UploadReceipt}
    {sent : Except AdapterError PublishReceipt} (huploads : self.Stage (uploading path) (.ok upload) uploads)
    (hcid : text.trim upload.cid ≠ "")
    (hpublishes : self.Stage
      (publishing self.content_topic (inputs.envelope ⟨text.trim upload.cid⟩).serialize.render) sent publishes) :
    (self.publish_file path inputs).Returns (uploads ++ publishes)
      ((sent.mapError .Delivery).map fun publish_receipt => {
        cid := ⟨text.trim upload.cid⟩
        envelope := inputs.envelope ⟨text.trim upload.cid⟩
        envelope_bytes := (inputs.envelope ⟨text.trim upload.cid⟩).serialize.render
        metadata_hash := ⟨Sha256.digest (inputs.envelope ⟨text.trim upload.cid⟩).serialize.render⟩
        publish_receipt }) := by
  rw [publish_file, Async.returns_bind_iff]
  refine ⟨_, uploads, publishes, rfl, (stage_iff hattempts (uploading path)).mpr huploads, ?_⟩
  have hvalid := CanonicalCid.new_eq_ok.mpr ⟨rfl, hcid⟩
  simp only [hvalid]
  rw [← List.append_nil publishes]
  refine ((stage_iff hattempts (publishing self.content_topic _)).mpr hpublishes).bind ?_
  cases sent <;> exact .refl _

theorem publish_file_iff {result : Except PublisherError PublishOutcome} :
    (self.publish_file path inputs).Returns trace result ↔ FileStages self path inputs trace result := by
  constructor
  · intro hreturns
    rw [publish_file, Async.returns_bind_iff] at hreturns
    obtain ⟨uploaded, uploads, rest, rfl, huploads, hrest⟩ := hreturns
    replace huploads := (stage_iff hattempts (uploading path)).mp huploads
    cases uploaded with
    | error e =>
      obtain ⟨rfl, rfl⟩ := Async.returns_ret_iff.mp hrest
      rw [List.append_nil]
      exact .storage huploads
    | ok upload =>
      dsimp only at hrest
      split at hrest
      · rename_i e hinvalid
        obtain ⟨rfl, rfl⟩ := Async.returns_ret_iff.mp hrest
        rw [List.append_nil]
        refine .invalid_cid huploads ?_
        by_contra hcid
        rw [CanonicalCid.new_eq_ok.mpr ⟨rfl, hcid⟩] at hinvalid
        cases hinvalid
      · rename_i cid hvalid
        obtain ⟨rfl, hcid⟩ := CanonicalCid.new_eq_ok.mp hvalid
        have hbytes : (inputs.envelope ⟨text.trim upload.cid⟩).canonical_json_bytes =
            .ok (inputs.envelope ⟨text.trim upload.cid⟩).serialize.render := rfl
        obtain ⟨sent, publishes, last, rfl, hpublishes, hlast⟩ := Async.returns_bind_iff.mp hrest
        replace hpublishes := (stage_iff hattempts (publishing self.content_topic _)).mp hpublishes
        cases sent with
        | error e =>
          obtain ⟨rfl, rfl⟩ := Async.returns_ret_iff.mp hlast
          rw [List.append_nil]
          exact .delivery huploads hcid hbytes hpublishes
        | ok publish_receipt =>
          obtain ⟨rfl, rfl⟩ := Async.returns_ret_iff.mp hlast
          rw [List.append_nil]
          exact .published huploads hcid hbytes hpublishes
  · intro hstages
    cases hstages with
    | storage huploads =>
      rw [publish_file, Async.returns_bind_iff]
      refine ⟨_, trace, [], (List.append_nil _).symm, (stage_iff hattempts (uploading path)).mpr huploads, ?_⟩
      exact .refl _
    | @invalid_cid _ upload huploads hblank =>
      rw [publish_file, Async.returns_bind_iff]
      refine ⟨_, trace, [], (List.append_nil _).symm, (stage_iff hattempts (uploading path)).mpr huploads, ?_⟩
      have hinvalid : CanonicalCid.new upload.cid = .error .EmptyCid := if_pos hblank
      simp only [hinvalid]
      exact .refl _
    | delivery huploads hcid hbytes hpublishes =>
      cases hbytes
      exact publish_file_sends hattempts huploads hcid hpublishes
    | published huploads hcid hbytes hpublishes =>
      cases hbytes
      exact publish_file_sends hattempts huploads hcid hpublishes

omit [Sha256] in
theorem anchor_published_iff {outcome : PublishOutcome} {result : Except PublisherError AnchorEntry} :
    (self.anchor_published outcome).Returns trace result ↔
      ∃ anchored, self.Stage (anchoring outcome.cid outcome.metadata_hash) anchored trace ∧
        result = anchored.mapError .Registry := by
  rw [anchor_published, Async.returns_bind_iff]
  constructor
  · rintro ⟨anchored, anchors, rest, rfl, hanchors, hrest⟩
    replace hanchors := (stage_iff hattempts (anchoring _ _)).mp hanchors
    refine ⟨anchored, ?_⟩
    cases anchored with
    | error e =>
      obtain ⟨rfl, rfl⟩ := Async.returns_ret_iff.mp hrest
      exact ⟨by rwa [List.append_nil], rfl⟩
    | ok entry =>
      obtain ⟨rfl, rfl⟩ := Async.returns_ret_iff.mp hrest
      exact ⟨by rwa [List.append_nil], rfl⟩
  · rintro ⟨anchored, hanchors, rfl⟩
    refine ⟨anchored, trace, [], (List.append_nil _).symm, (stage_iff hattempts (anchoring _ _)).mpr hanchors, ?_⟩
    cases anchored <;> exact .refl _

omit hattempts in
/-- Publishing a file and then anchoring its outcome. -/
theorem publish_and_anchor_returns_iff {result : Except PublisherError (PublishOutcome × AnchorEntry)} :
    (self.publish_and_anchor path inputs).Returns trace result ↔
      (∃ e, (self.publish_file path inputs).Returns trace (.error e) ∧ result = .error e) ∨
      ∃ outcome calls anchors anchored, (self.publish_file path inputs).Returns calls (.ok outcome) ∧
        (self.anchor_published outcome).Returns anchors anchored ∧ trace = calls ++ anchors ∧
        result = anchored.map (outcome, ·) := by
  rw [publish_and_anchor, Async.returns_bind_iff]
  constructor
  · rintro ⟨published, calls, rest, rfl, hcalls, hrest⟩
    cases published with
    | error e =>
      obtain ⟨rfl, rfl⟩ := Async.returns_ret_iff.mp hrest
      rw [List.append_nil]
      exact .inl ⟨e, hcalls, rfl⟩
    | ok outcome =>
      obtain ⟨anchored, anchors, last, rfl, hanchors, hlast⟩ := Async.returns_bind_iff.mp hrest
      cases anchored with
      | error e =>
        obtain ⟨rfl, rfl⟩ := Async.returns_ret_iff.mp hlast
        rw [List.append_nil]
        exact .inr ⟨outcome, calls, anchors, .error e, hcalls, hanchors, rfl, rfl⟩
      | ok entry =>
        obtain ⟨rfl, rfl⟩ := Async.returns_ret_iff.mp hlast
        rw [List.append_nil]
        exact .inr ⟨outcome, calls, anchors, .ok entry, hcalls, hanchors, rfl, rfl⟩
  · rintro (⟨e, hcalls, rfl⟩ | ⟨outcome, calls, anchors, anchored, hcalls, hanchors, rfl, rfl⟩)
    · exact ⟨.error e, trace, [], (List.append_nil _).symm, hcalls, .refl _⟩
    · refine ⟨.ok outcome, calls, anchors, rfl, hcalls, Async.returns_bind_iff.mpr ?_⟩
      refine ⟨anchored, anchors, [], (List.append_nil _).symm, hanchors, ?_⟩
      cases anchored <;> exact .refl _

/-- The pipeline is staged, and publishing and anchoring apart make the same calls. -/
theorem publish_and_anchor_staged {result : Except PublisherError (PublishOutcome × AnchorEntry)} :
    ((self.publish_and_anchor path inputs).Returns trace result ↔ Stages self path inputs trace result) ∧
      ((self.publish_and_anchor path inputs).Returns trace result ↔
        (∃ e, (self.publish_file path inputs).Returns trace (.error e) ∧ result = .error e) ∨
        ∃ outcome calls anchors anchored, (self.publish_file path inputs).Returns calls (.ok outcome) ∧
          (self.anchor_published outcome).Returns anchors anchored ∧ trace = calls ++ anchors ∧
          result = anchored.map (outcome, ·)) := by
  refine ⟨publish_and_anchor_returns_iff.trans ⟨?_, ?_⟩, publish_and_anchor_returns_iff⟩
  · rintro (⟨e, hcalls, rfl⟩ | ⟨outcome, calls, anchors, anchored, hcalls, hanchors, rfl, rfl⟩)
    · exact .unpublished ((publish_file_iff hattempts).mp hcalls)
    · obtain ⟨anchored, hstage, rfl⟩ := (anchor_published_iff hattempts).mp hanchors
      replace hcalls := (publish_file_iff hattempts).mp hcalls
      cases anchored with
      | error e => exact .registry hcalls hstage
      | ok entry => exact .anchored hcalls hstage
  · intro hstages
    cases hstages with
    | unpublished hcalls => exact .inl ⟨_, (publish_file_iff hattempts).mpr hcalls, rfl⟩
    | registry hcalls hstage =>
      exact .inr ⟨_, _, _, _, (publish_file_iff hattempts).mpr hcalls,
        (anchor_published_iff hattempts).mpr ⟨_, hstage, rfl⟩, rfl, rfl⟩
    | anchored hcalls hstage =>
      exact .inr ⟨_, _, _, _, (publish_file_iff hattempts).mpr hcalls,
        (anchor_published_iff hattempts).mpr ⟨_, hstage, rfl⟩, rfl, rfl⟩

end

end

/-- The second upload succeeds and its document is broadcast, and the registry refuses the
    CID. -/
theorem publish_and_anchor_staged_refused :
    let inputs : MetadataInputs := ⟨"Leaflet", "", "text/plain", 12, 7, ["a"]⟩
    let bytes := (inputs.envelope ⟨"bafy-a"⟩).serialize.render
    let refused : AdapterError := .non_retryable "refused"
    (new.publish_and_anchor "leaflet.txt" inputs).Returns
      [⟨AdapterCall.upload_file "leaflet.txt", Except.error (.retryable "not yet")⟩,
        ⟨AdapterCall.sleep 200000000, ()⟩, uploaded "leaflet.txt" ⟨"1", " bafy-a"⟩,
        published DEFAULT_CONTENT_TOPIC bytes ⟨"2", "", "7"⟩,
        ⟨AdapterCall.anchor_one ⟨"bafy-a"⟩ ⟨Sha256.digest bytes⟩, Except.error refused⟩]
      (.error (.Registry refused)) := by
  intro inputs bytes refused
  have hcid : text.trim " bafy-a" = "bafy-a" := by decide +kernel
  have huploads : new.Stage (uploading "leaflet.txt") (.ok ⟨"1", " bafy-a"⟩)
      [⟨AdapterCall.upload_file "leaflet.txt", Except.error (.retryable "not yet")⟩,
        ⟨AdapterCall.sleep 200000000, ()⟩, uploaded "leaflet.txt" ⟨"1", " bafy-a"⟩] := by
    refine ⟨[.error (.retryable "not yet"), .ok ⟨"1", " bafy-a"⟩], ⟨rfl, ?_, by decide, .inl trivial⟩, rfl⟩
    rintro _ (_ | ⟨_, ⟨⟩⟩) hsettled
    cases hsettled
  have hpublishes : new.Stage (publishing DEFAULT_CONTENT_TOPIC bytes) (.ok ⟨"2", "", "7"⟩)
      [published DEFAULT_CONTENT_TOPIC bytes ⟨"2", "", "7"⟩] :=
    ⟨[.ok ⟨"2", "", "7"⟩], attempts_singleton_iff.mpr ⟨rfl, .inl trivial⟩, rfl⟩
  have hanchors : new.Stage (anchoring ⟨"bafy-a"⟩ ⟨Sha256.digest bytes⟩) (.error refused)
      [⟨AdapterCall.anchor_one ⟨"bafy-a"⟩ ⟨Sha256.digest bytes⟩, Except.error refused⟩] :=
    ⟨[.error refused], attempts_singleton_iff.mpr ⟨rfl, .inl rfl⟩, rfl⟩
  have hbytes : (inputs.envelope ⟨text.trim " bafy-a"⟩).canonical_json_bytes = .ok bytes := by rw [hcid]; rfl
  have hstaged : FileStages new "leaflet.txt" inputs _ _ :=
    .published huploads (by rw [hcid]; decide) hbytes hpublishes
  refine ((publish_and_anchor_staged (by decide)).1).mpr (.registry hstaged ?_)
  rw [hcid]
  exact hanchors

end Publisher

end document_indexing
