import Whistleblower.Lib.Transition
import Whistleblower.Ui.Broadcast
import Whistleblower.Ui.Steps

open whistleblower_core whistleblower_ffi

namespace whistleblower_ui

/-- A modified list has the modified element, and the others at their places. -/
theorem mem_modify_iff {A : Type} {f : A → A} {i : Nat} {l : List A} {b : A} :
    b ∈ l.modify i f ↔ (∃ a, l[i]? = some a ∧ f a = b) ∨ ∃ j, i ≠ j ∧ l[j]? = some b := by
  rw [List.mem_iff_getElem?]
  constructor
  · rintro ⟨j, hj⟩
    by_cases hij : i = j
    · subst hij
      rw [List.getElem?_modify_eq] at hj
      exact .inl (Option.map_eq_some_iff.mp hj)
    · rw [List.getElem?_modify_ne f l hij] at hj
      exact .inr ⟨j, hij, hj⟩
  · rintro (⟨a, ha, rfl⟩ | ⟨j, hij, hj⟩)
    · exact ⟨i, by rw [List.getElem?_modify_eq, ha]; rfl⟩
    · exact ⟨j, by rw [List.getElem?_modify_ne f l hij, hj]⟩

/-- An element that is not at the modified place stays. -/
theorem mem_modify_of_ne {A : Type} {f : A → A} {i : Nat} {l : List A} {b : A} (hmem : b ∈ l)
    (hne : l[i]? ≠ some b) : b ∈ l.modify i f := by
  obtain ⟨j, hj⟩ := List.getElem?_of_mem hmem
  refine mem_modify_iff.mpr (.inr ⟨j, ?_, hj⟩)
  rintro rfl
  exact hne hj

/-- The outcome of an anchoring call. -/
def Anchor.succeeded (anchor : Anchor) : Bool := anchor.answer.any AnchorAnswer.success

/-- What was picked for an upload stays when another report or a timeout is noted. -/
theorem exists_picked {uploads : List Upload} {f : Upload → Upload} {i : Nat} {file cid : String}
    (hkept : ∀ upload, uploads[i]? = some upload → upload.picked = some cid →
      (f upload).file = upload.file ∧ (f upload).picked = upload.picked)
    (hexists : ∃ upload ∈ uploads, upload.file = file ∧ upload.picked = some cid) :
    ∃ upload ∈ uploads.modify i f, upload.file = file ∧ upload.picked = some cid := by
  obtain ⟨upload, hupload, hfile, hpicked⟩ := hexists
  by_cases hi : uploads[i]? = some upload
  · obtain ⟨hsame, hcid⟩ := hkept upload hi hpicked
    exact ⟨f upload, mem_modify_iff.mpr (.inl ⟨upload, hi, rfl⟩), hsame.trans hfile, hcid.trans hpicked⟩
  · exact ⟨upload, mem_modify_of_ne hupload hi, hfile, hpicked⟩

/-- A CID that has been picked stays when another upload is reported. -/
theorem exists_picked_next {self : WhistleblowerBackend} {i : Nat} {upload : Upload} {report : Report}
    {file cid : String} (hupload : self.uploads[i]? = some upload) (hopen : upload.reported = none)
    (hexists : ∃ upload ∈ self.uploads, upload.file = file ∧ upload.picked = some cid) :
    ∃ upload ∈ (self.reported i report).uploads, upload.file = file ∧ upload.picked = some cid := by
  refine exists_picked ?_ hexists
  intro found hfound hpicked
  rw [hupload] at hfound
  obtain rfl := Option.some.inj hfound
  rw [Upload.picked, hopen] at hpicked
  cases hpicked

/-- A CID is picked for the upload whose report is handled, beside those for which it was. -/
theorem picked_iff {self : WhistleblowerBackend} {i : Nat} {upload : Upload} {report : Report} {file : String}
    (hupload : self.uploads[i]? = some upload) (hopen : upload.reported = none) :
    (∃ upload ∈ (self.reported i report).uploads, upload.file = file ∧
        upload.picked = some (WhistleblowerBackend.eventCid report.data)) ↔
      (∃ upload ∈ self.uploads[i]?, upload.file = file) ∨
        ∃ upload ∈ self.uploads, upload.file = file ∧
          upload.picked = some (WhistleblowerBackend.eventCid report.data) := by
  constructor
  · rintro ⟨found, hfound, hfile, hpicked⟩
    obtain ⟨before, hbefore, rfl⟩ | ⟨j, _, hj⟩ := mem_modify_iff.mp hfound
    · exact .inl ⟨before, hbefore, hfile⟩
    · exact .inr ⟨found, List.mem_of_getElem? hj, hfile, hpicked⟩
  · rintro (⟨found, hfound, hfile⟩ | hexists)
    · exact ⟨_, mem_modify_iff.mpr (.inl ⟨found, hfound, rfl⟩), hfile, rfl⟩
    · exact exists_picked_next hupload hopen hexists

/-- A success stays when an open call gets its answer. -/
theorem exists_succeeded {anchors : List Anchor} {i : Nat} {anchor : Anchor} {answer : AnchorAnswer} {cid : String}
    (hanchor : anchors[i]? = some anchor) (hopen : anchor.answer = none)
    (hexists : ∃ anchor ∈ anchors, anchor.cid = cid ∧ anchor.succeeded = true) :
    ∃ anchor ∈ anchors.modify i fun anchor => { anchor with answer := some answer },
      anchor.cid = cid ∧ anchor.succeeded = true := by
  obtain ⟨found, hfound, hcid, hsucceeded⟩ := hexists
  refine ⟨found, mem_modify_of_ne hfound ?_, hcid, hsucceeded⟩
  rw [hanchor]
  rintro ⟨⟩
  rw [Anchor.succeeded, hopen] at hsucceeded
  cases hsucceeded

/-- An answer leaves the CIDs of the calls as they are. -/
theorem cid_of_mem_answered {anchors : List Anchor} {i : Nat} {answer : AnchorAnswer} {other : Anchor}
    (hother : other ∈ anchors.modify i fun anchor => { anchor with answer := some answer }) :
    ∃ anchor ∈ anchors, anchor.cid = other.cid := by
  obtain ⟨before, hbefore, rfl⟩ | ⟨j, _, hj⟩ := mem_modify_iff.mp hother
  · exact ⟨before, List.mem_of_getElem? hbefore, rfl⟩
  · exact ⟨other, List.mem_of_getElem? hj, rfl⟩

section

variable [Sha256]

/-- The text is the hash of an envelope for the CID. -/
def HashOf (cid metadataHashHex : String) : Prop :=
  ∃ (envelope : MetadataEnvelopeV1) (metadata_hash : MetadataHash), CanonicalCid.new cid = .ok envelope.cid ∧
    envelope.metadata_hash = .ok metadata_hash ∧ metadataHashHex = text.hex_encode metadata_hash.digest.toList

variable [Qt]

omit [Sha256] in
/-- The FFI reads the text that Qt writes. -/
theorem cstr_to_str_toJson (hwrites : Qt.Writes) (args : QJsonObject) :
    cstr_to_str (Qt.toJson args) = .ok (Qt.toJson args) := by
  have htake : (Qt.toJson args).takeWhile (· ≠ 0) = Qt.toJson args := by
    apply List.takeWhile_eq_self_iff.mpr
    intro b hb
    exact decide_eq_true fun hzero => hwrites.no_zero args (hzero ▸ hb)
  obtain ⟨s, hs⟩ := hwrites.utf8 args
  rw [cstr_to_str, htake, ← hs, text.from_utf8_bytes]
  rfl

omit [Sha256] [Qt] in
/-- The CID that the FFI reads is the one that stands under that name. -/
theorem cid_of_from_str {args : List UInt8} {inputs : MetadataInputs} {cid : String}
    (hread : MetadataInputs.from_str args = .ok inputs)
    (hmember : (Qt.member? args "cid").map json.as_string = some (.ok cid)) : inputs.cid = cid := by
  obtain ⟨value, hvalue, hcid⟩ := Option.map_eq_some_iff.mp hmember
  rw [Qt.member?] at hvalue
  split at hvalue
  · rename_i members hparse
    rw [MetadataInputs.from_str, json.from_slice, hparse] at hread
    obtain ⟨first, rest, hfields, hfirst⟩ := MetadataInputs.fields_of_deserialize hread
    obtain ⟨named, hnamed, hfound⟩ := json.member_of_fields hfields
    simp only [hnamed, hfound, Except.toOption, Option.some.injEq] at hvalue
    rw [← hvalue, hfirst] at hcid
    exact Except.ok.inj hcid
  · cases hvalue

/-- What the backend takes from the FFI as a hash is the hash of an envelope for the CID
    that it asked for. -/
theorem hashOf_of_envelopeOf (hqt : Qt.Documented) (hwrites : Qt.Writes) {cid metadataHashHex : String}
    {metadata : Metadata} {now : Int} {envelopeBytes : List UInt8}
    (henvelope : envelopeOf cid metadata now = .ok (metadataHashHex, envelopeBytes)) :
    HashOf cid metadataHashHex := by
  have hargs := cstr_to_str_toJson hwrites (envelopeArgs cid metadata now)
  have hnodup : ((envelopeArgs cid metadata now).map Prod.fst).Nodup := by
    have hnames : (envelopeArgs cid metadata now).map Prod.fst = MetadataInputs.field_names := rfl
    rw [hnames]
    decide
  cases hcompute : compute_metadata_hash_impl (Qt.toJson (envelopeArgs cid metadata now)) with
  | error e =>
    have hanswer : whistleblower_compute_metadata_hash (Qt.toJson (envelopeArgs cid metadata now)) =
        (error_value e.message).render := by
      simp only [whistleblower_compute_metadata_hash, hargs, hcompute]
      exact error_json_eq e.message
    rw [envelopeOf] at henvelope
    simp [hanswer, toBool_error hqt] at henvelope
  | ok output =>
    obtain ⟨inputs, envelope, bytes, hread, hnew, hbytes, houtput⟩ := compute_metadata_hash_eq_ok hcompute
    have hcid : inputs.cid = cid := cid_of_from_str hread (hwrites.string hnodup List.mem_cons_self)
    have hanswer := (whistleblower_compute_metadata_hash_of_ok hargs hcompute).trans houtput
    rw [envelopeOf_of_answer hqt hanswer] at henvelope
    obtain ⟨rfl, -⟩ := Prod.mk.inj (Except.ok.inj henvelope)
    refine ⟨envelope, ⟨Sha256.digest bytes⟩, hcid ▸ hnew, ?_, rfl⟩
    rw [← Except.ok.inj hbytes]
    rfl

/-- What is shown describes the selected file. -/
structure Displays (backend : WhistleblowerBackend) : Prop where
  cid : backend.m_lastCid ≠ "" →
    ∃ upload ∈ backend.uploads, upload.file = backend.m_selectedFile ∧ upload.picked = some backend.m_lastCid
  hash : backend.m_lastCid = "" ∧ backend.m_lastMetadataHashHex = "" ∨
    HashOf backend.m_lastCid backend.m_lastMetadataHashHex
  anchored : backend.m_stage = 3 ∨ backend.m_lastAnchorTimestamp ≠ 0 →
    ∃ anchor ∈ backend.anchors, anchor.cid = backend.m_lastCid ∧ anchor.succeeded = true
  uploading : backend.m_stage = 1 → backend.m_pendingUploadCallback ≠ none

/-- What a step must meet for the display to stay right. A publish finds the storage module.
    A reported upload whose CID is shown was one of the file that is selected by then, or
    this CID was picked for that file before. An upload does not fail while it is shown as being
    in progress. An anchor that succeeds was called for the CID that is still shown. -/
def Steady (self : WhistleblowerBackend) : Action → Prop
  | .publish _ _ _ fi => self.m_selectedFile ≠ "" → fi.isSome = true → self.storageAvailable = true
  | .storageUploadDone i report => ∀ callback ∈ self.m_pendingUploadCallback,
    (self.m_stage = 1 → WhistleblowerBackend.eventCid report.data ≠ "" ∧
      (envelopeOf (WhistleblowerBackend.eventCid report.data) callback.metadata self.currentSecsSinceEpoch).isOk = true) ∧
    (WhistleblowerBackend.eventCid report.data ≠ "" →
      (envelopeOf (WhistleblowerBackend.eventCid report.data) callback.metadata self.currentSecsSinceEpoch).isOk = true →
      (∃ upload ∈ self.uploads[i]?, upload.file = self.m_selectedFile) ∨
        ∃ upload ∈ self.uploads, upload.file = self.m_selectedFile ∧
          upload.picked = some (WhistleblowerBackend.eventCid report.data))
  | .uploadTimeout _ => self.m_pendingUploadCallback ≠ none → self.m_stage ≠ 1
  | .anchorFinished i answer => answer.success = true →
    ∃ anchor ∈ self.anchors[i]?, anchor.cid = self.m_lastCid
  | _ => True

instance (self : WhistleblowerBackend) : (action : Action) → Decidable (Steady self action)
  | .publish _ _ _ fi => inferInstanceAs (Decidable (_ → fi.isSome = true → self.storageAvailable = true))
  | .storageUploadDone _ _ => inferInstanceAs (Decidable (∀ callback ∈ self.m_pendingUploadCallback, _))
  | .uploadTimeout _ => inferInstanceAs (Decidable (_ → self.m_stage ≠ 1))
  | .anchorFinished i answer => inferInstanceAs (Decidable (answer.success = true → ∃ anchor ∈ self.anchors[i]?, _))
  | .tick _ => isTrue trivial
  | .setSelectedFile _ => isTrue trivial
  | .anchorLast => isTrue trivial
  | .messageSent _ => isTrue trivial
  | .messageError _ => isTrue trivial
  | .broadcastTimeout _ => isTrue trivial

/-- What holds of every state that is reached. While an upload is awaited the backend is
    busy and shows no anchor. An anchoring call that has not finished is the last one, and
    while it lasts the backend is busy, awaits no upload, and shows that call's CID or none. -/
structure Orderly (backend : WhistleblowerBackend) : Prop where
  pending : backend.m_pendingUploadCallback ≠ none → backend.m_busy = true ∧ backend.m_lastAnchorTimestamp = 0
  calling : ∀ (i : Nat) (anchor : Anchor), backend.anchors[i]? = some anchor → anchor.answer = none →
    i + 1 = backend.anchors.length ∧ backend.m_busy = true ∧ backend.m_pendingUploadCallback = none ∧
      (backend.m_lastCid = anchor.cid ∨ backend.m_lastCid = "")
  named : ∀ anchor ∈ backend.anchors, anchor.cid ≠ ""
  hash : backend.m_lastCid = "" ∧ backend.m_lastMetadataHashHex = "" ∨
    HashOf backend.m_lastCid backend.m_lastMetadataHashHex

namespace Orderly

omit [Qt] in
theorem constructed (storageAvailable deliveryAvailable : Bool) (now : Int) :
    Orderly (.constructed storageAvailable deliveryAvailable now) := by
  refine ⟨?_, ?_, ?_, .inl ⟨rfl, rfl⟩⟩
  · intro hpending
    exact absurd rfl hpending
  · intro i anchor hanchor
    cases hanchor
  · intro anchor hanchor
    cases hanchor

omit [Qt] in
/-- Where nothing is awaited and every call has finished, only what is shown matters. -/
theorem of_finished {backend : WhistleblowerBackend} (hpending : backend.m_pendingUploadCallback = none)
    (hfinished : ∀ anchor ∈ backend.anchors, anchor.answer ≠ none)
    (hnamed : ∀ anchor ∈ backend.anchors, anchor.cid ≠ "")
    (hhash : backend.m_lastCid = "" ∧ backend.m_lastMetadataHashHex = "" ∨
      HashOf backend.m_lastCid backend.m_lastMetadataHashHex) : Orderly backend where
  pending hwaits := absurd hpending hwaits
  calling _ anchor hanchor hopen := absurd hopen (hfinished anchor (List.mem_of_getElem? hanchor))
  named := hnamed
  hash := hhash

omit [Qt] in
/-- What is open keeps the backend busy. -/
theorem idle {backend : WhistleblowerBackend} (horderly : Orderly backend) (hbusy : backend.m_busy = false) :
    backend.m_pendingUploadCallback = none ∧ ∀ anchor ∈ backend.anchors, anchor.answer ≠ none := by
  constructor
  · by_contra hpending
    have hwaits := (horderly.pending hpending).1
    rw [hbusy] at hwaits
    cases hwaits
  · intro anchor hanchor hopen
    obtain ⟨i, hi⟩ := List.getElem?_of_mem hanchor
    have hcalling := (horderly.calling i anchor hi hopen).2.1
    rw [hbusy] at hcalling
    cases hcalling

omit [Qt] in
/-- No call is open while an upload is awaited. -/
theorem finished {backend : WhistleblowerBackend} (horderly : Orderly backend) {callback : UploadCallback}
    (hpending : backend.m_pendingUploadCallback = some callback) :
    ∀ anchor ∈ backend.anchors, anchor.answer ≠ none := by
  intro anchor hanchor hopen
  obtain ⟨i, hi⟩ := List.getElem?_of_mem hanchor
  have hnone := (horderly.calling i anchor hi hopen).2.2.1
  rw [hpending] at hnone
  cases hnone

omit [Qt] in
/-- When the open call gets its answer, every call has finished. -/
theorem answered {backend : WhistleblowerBackend} (horderly : Orderly backend) {i : Nat} {anchor : Anchor}
    (hanchor : backend.anchors[i]? = some anchor) (hopen : anchor.answer = none) (answer : AnchorAnswer) :
    ∀ other ∈ backend.anchors.modify i fun anchor => { anchor with answer := some answer }, other.answer ≠ none := by
  intro other hother hnone
  obtain ⟨_, _, rfl⟩ | ⟨j, hij, hj⟩ := mem_modify_iff.mp hother
  · exact Option.some_ne_none answer hnone
  · have hlast := (horderly.calling i anchor hanchor hopen).1
    have hother := (horderly.calling j other hj hnone).1
    omega

omit [Qt] in
theorem named_answered {backend : WhistleblowerBackend} (horderly : Orderly backend) (i : Nat)
    (answer : AnchorAnswer) :
    ∀ other ∈ backend.anchors.modify i fun anchor => { anchor with answer := some answer }, other.cid ≠ "" := by
  intro other hother
  obtain ⟨before, hbefore, hsame⟩ := cid_of_mem_answered hother
  exact hsame ▸ horderly.named before hbefore

omit [Sha256] in
/-- A broadcast shows nothing. -/
theorem broadcastEnvelope [Sha256] {backend : WhistleblowerBackend} (horderly : Orderly backend) (topic : String)
    (envelopeBytes : List UInt8) : Orderly (backend.broadcastEnvelope topic envelopeBytes) := by
  obtain hsame | ⟨_, broadcast, hsent⟩ := backend.broadcastEnvelope_cases topic envelopeBytes
  · rw [hsame]
    exact horderly
  · rw [hsent]
    exact ⟨horderly.pending, horderly.calling, horderly.named, horderly.hash⟩

theorem step (hqt : Qt.Documented) (hwrites : Qt.Writes) {self next : WhistleblowerBackend} {action : Action}
    (horderly : Orderly self) (hstep : self.step action = some next) : Orderly next := by
  cases WhistleblowerBackend.step_cases hstep with
  | same_file => exact horderly
  | new_file filePath signals hfile =>
    refine ⟨fun hpending => ⟨(horderly.pending hpending).1, rfl⟩, ?_, horderly.named, .inl ⟨rfl, rfl⟩⟩
    intro i anchor hanchor hopen
    obtain ⟨hlast, hbusy, hnone, _⟩ := horderly.calling i anchor hanchor hopen
    exact ⟨hlast, hbusy, hnone, .inr rfl⟩
  | no_file _ _ _ _ msg signals hbusy | no_document msg signals hbusy =>
    obtain ⟨hnone, hfinished⟩ := horderly.idle hbusy
    exact of_finished hnone hfinished horderly.named horderly.hash
  | refused _ _ _ fi msg signals hbusy =>
    obtain ⟨hnone, hfinished⟩ := horderly.idle hbusy
    exact of_finished hnone hfinished horderly.named horderly.hash
  | requested _ _ _ fi metadata message signals hbusy =>
    obtain ⟨_, hfinished⟩ := horderly.idle hbusy
    refine ⟨fun _ => ⟨rfl, rfl⟩, ?_, horderly.named, horderly.hash⟩
    intro i anchor hanchor hopen
    exact absurd hopen (hfinished anchor (List.mem_of_getElem? hanchor))
  | anchoring message signals hbusy hcid =>
    obtain ⟨hnone, hfinished⟩ := horderly.idle hbusy
    refine ⟨fun hpending => absurd hnone hpending, ?calling, ?named, horderly.hash⟩
    case calling =>
      intro i anchor hanchor hopen
      dsimp only at hanchor
      rw [List.getElem?_append] at hanchor
      split at hanchor
      · exact absurd hopen (hfinished anchor (List.mem_of_getElem? hanchor))
      · obtain ⟨hi, _⟩ := List.getElem?_eq_some_iff.mp hanchor
        obtain rfl := List.mem_singleton.mp (List.mem_of_getElem? hanchor)
        rw [List.length_singleton] at hi
        rw [List.length_append, List.length_singleton]
        exact ⟨by omega, rfl, hnone, .inl rfl⟩
    case named =>
      intro anchor hanchor
      obtain hanchor | hanchor := List.mem_append.mp hanchor
      · exact horderly.named anchor hanchor
      · rw [List.mem_singleton.mp hanchor]
        exact hcid
  | blank i report upload callback _ _ hpending =>
    exact of_finished rfl (horderly.finished hpending) horderly.named horderly.hash
  | uncomputed i report upload callback _ _ _ _ hpending =>
    exact of_finished rfl (horderly.finished hpending) horderly.named horderly.hash
  | published i report upload callback metadataHashHex envelopeBytes signals _ _ hpending hcid henvelope =>
    refine broadcastEnvelope ?_ _ _
    exact of_finished rfl (horderly.finished hpending) horderly.named
      (.inr (hashOf_of_envelopeOf hqt hwrites henvelope))
  | timed_out i callback msg signals _ hpending =>
    exact of_finished rfl (horderly.finished hpending) horderly.named horderly.hash
  | anchor_failed i answer anchor msg signals hanchor hopen =>
    obtain ⟨_, _, hnone, _⟩ := horderly.calling i anchor hanchor hopen
    exact of_finished hnone (horderly.answered hanchor hopen answer) (horderly.named_answered i answer) horderly.hash
  | anchored i answer anchor signals hanchor hopen =>
    obtain ⟨_, _, hnone, _⟩ := horderly.calling i anchor hanchor hopen
    exact of_finished hnone (horderly.answered hanchor hopen answer) (horderly.named_answered i answer) horderly.hash
  | tick | unawaited | idle_timer | message_sent | message_error | broadcast_timer =>
    exact ⟨horderly.pending, horderly.calling, horderly.named, horderly.hash⟩

end Orderly

theorem displays_broadcastEnvelope {backend : WhistleblowerBackend} (topic : String) (envelopeBytes : List UInt8) :
    Displays (backend.broadcastEnvelope topic envelopeBytes) ↔ Displays backend := by
  obtain hsame | ⟨_, broadcast, hsent⟩ := backend.broadcastEnvelope_cases topic envelopeBytes
  · rw [hsame]
  · rw [hsent]
    constructor
    · intro hdisplays
      exact ⟨hdisplays.cid, hdisplays.hash, hdisplays.anchored, hdisplays.uploading⟩
    · intro hdisplays
      exact ⟨hdisplays.cid, hdisplays.hash, hdisplays.anchored, hdisplays.uploading⟩

omit [Sha256] [Qt] in
theorem nothing_anchored {stage : Nat} {timestamp : Int} (hstage : stage ≠ 3) (htimestamp : timestamp = 0) :
    ¬(stage = 3 ∨ timestamp ≠ 0) := not_or.mpr ⟨hstage, not_not_intro htimestamp⟩

omit [Qt] in
/-- An upload that ends without a result may not be shown as being in progress. -/
theorem displays_lost_iff {self next : WhistleblowerBackend} (hdisplays : Displays self)
    (hpending : next.m_pendingUploadCallback = none) (hfile : next.m_selectedFile = self.m_selectedFile)
    (hcid : next.m_lastCid = self.m_lastCid) (hhash : next.m_lastMetadataHashHex = self.m_lastMetadataHashHex)
    (hstage : next.m_stage = self.m_stage) (htimestamp : next.m_lastAnchorTimestamp = self.m_lastAnchorTimestamp)
    (hanchors : next.anchors = self.anchors)
    (huploads : ∀ file cid, (∃ upload ∈ self.uploads, upload.file = file ∧ upload.picked = some cid) →
      ∃ upload ∈ next.uploads, upload.file = file ∧ upload.picked = some cid) :
    Displays next ↔ self.m_stage ≠ 1 := by
  constructor
  · intro hnext hshown
    exact hnext.uploading (hstage.trans hshown) hpending
  · intro hshown
    refine ⟨?_, ?_, ?_, fun hlost => absurd (hstage.symm.trans hlost) hshown⟩
    · rw [hcid, hfile]
      exact fun hnonempty => huploads _ _ (hdisplays.cid hnonempty)
    · rw [hcid, hhash]
      exact hdisplays.hash
    · rw [hstage, htimestamp, hanchors, hcid]
      exact hdisplays.anchored

/-- A CID that comes to be shown is right if it was picked for the selected file. -/
theorem displays_published_iff (hqt : Qt.Documented) (hwrites : Qt.Writes) {self : WhistleblowerBackend} {i : Nat}
    {report : Report} {upload : Upload} {callback : UploadCallback} {metadataHashHex : String}
    {envelopeBytes : List UInt8} (horderly : Orderly self) (hupload : self.uploads[i]? = some upload)
    (hopen : upload.reported = none) (hpending : self.m_pendingUploadCallback = some callback)
    (hcid : WhistleblowerBackend.eventCid report.data ≠ "")
    (henvelope : envelopeOf (WhistleblowerBackend.eventCid report.data) callback.metadata self.currentSecsSinceEpoch =
      .ok (metadataHashHex, envelopeBytes)) (computed : List Computation) (signals : List Emission) :
    Displays { self.reported i report with
      m_pendingUploadCallback := none
      computed
      m_lastCid := WhistleblowerBackend.eventCid report.data
      m_lastMetadataHashHex := metadataHashHex
      m_stage := 2
      m_busy := false
      m_busyMessage := ""
      signals } ↔
      (∃ upload ∈ self.uploads[i]?, upload.file = self.m_selectedFile) ∨
        ∃ upload ∈ self.uploads, upload.file = self.m_selectedFile ∧
          upload.picked = some (WhistleblowerBackend.eventCid report.data) := by
  have hwaits : self.m_pendingUploadCallback ≠ none := by
    rw [hpending]
    exact Option.some_ne_none callback
  constructor
  · intro hshown
    exact (picked_iff hupload hopen).mp (hshown.cid hcid)
  · intro hreported
    have hhash := hashOf_of_envelopeOf hqt hwrites henvelope
    refine ⟨fun _ => (picked_iff hupload hopen).mpr hreported, .inr hhash, ?_, nofun⟩
    exact fun hanchored => absurd hanchored (nothing_anchored nofun (horderly.pending hwaits).2)

omit [Qt] in
/-- An anchor that comes to be shown is right if its CID is still shown. -/
theorem displays_anchored_iff {self : WhistleblowerBackend} {i : Nat} {anchor : Anchor} {answer : AnchorAnswer}
    (horderly : Orderly self) (hdisplays : Displays self) (hanchor : self.anchors[i]? = some anchor)
    (hopen : anchor.answer = none) (hanswer : answer.success = true) (signals : List Emission) :
    Displays { self with
      anchors := self.anchors.modify i fun anchor => { anchor with answer := some answer }
      m_lastAnchorTimestamp := answer.anchor_timestamp
      m_stage := 3
      m_busy := false
      m_busyMessage := ""
      signals } ↔ anchor.cid = self.m_lastCid := by
  constructor
  · intro hshown
    obtain hcid | hcid := (horderly.calling i anchor hanchor hopen).2.2.2
    · exact hcid.symm
    · -- no call was made for an empty CID
      obtain ⟨other, hother, hsame, _⟩ := hshown.anchored (.inl rfl)
      obtain ⟨before, hbefore, hbefore_cid⟩ := cid_of_mem_answered hother
      exact absurd (hbefore_cid.trans (hsame.trans hcid)) (horderly.named before hbefore)
  · intro hcid
    refine ⟨hdisplays.cid, hdisplays.hash, ?_, nofun⟩
    exact fun _ => ⟨_, mem_modify_iff.mpr (.inl ⟨anchor, hanchor, rfl⟩), hcid, hanswer⟩

/-- A step keeps the display right exactly if it is steady. -/
theorem displays_step_iff (hqt : Qt.Documented) (hwrites : Qt.Writes) {self next : WhistleblowerBackend}
    {action : Action} (horderly : Orderly self) (hdisplays : Displays self) (hstep : self.step action = some next) :
    Steady self action ↔ Displays next := by
  cases WhistleblowerBackend.step_cases hstep with
  | same_file => exact ⟨fun _ => hdisplays, fun _ => trivial⟩
  | new_file =>
    refine ⟨fun _ => ⟨fun hcid => absurd rfl hcid, .inl ⟨rfl, rfl⟩, ?_, nofun⟩, fun _ => trivial⟩
    exact fun hanchored => absurd hanchored (nothing_anchored nofun rfl)
  | no_file title description tagsCsv fi msg signals hbusy hfile =>
    refine ⟨fun _ => ⟨hdisplays.cid, hdisplays.hash, hdisplays.anchored, hdisplays.uploading⟩, ?_⟩
    rintro - hselected hsome
    obtain hempty | rfl := hfile
    · exact absurd hempty hselected
    · cases hsome
  | refused title description tagsCsv fi msg signals hbusy hfile hrefused =>
    have hnone := (horderly.idle hbusy).1
    constructor
    · intro hsteady
      obtain hstorage | hpending := hrefused
      · rw [hsteady hfile rfl] at hstorage
        cases hstorage
      · exact absurd hnone hpending
    · exact fun hshown => absurd hnone (hshown.uploading rfl)
  | requested title description tagsCsv fi metadata message signals hbusy hfile hstorage =>
    refine ⟨fun _ => ⟨?_, hdisplays.hash, ?_, nofun⟩, fun _ _ _ => hstorage⟩
    · intro hcid
      obtain ⟨upload, hupload, hreported⟩ := hdisplays.cid hcid
      exact ⟨upload, List.mem_append_left _ hupload, hreported⟩
    · exact fun hanchored => absurd hanchored (nothing_anchored nofun rfl)
  | anchoring message signals hbusy hcid =>
    refine ⟨fun _ => ⟨hdisplays.cid, hdisplays.hash, ?_, hdisplays.uploading⟩, fun _ => trivial⟩
    intro hanchored
    obtain ⟨anchor, hanchor, hsucceeded⟩ := hdisplays.anchored hanchored
    exact ⟨anchor, List.mem_append_left _ hanchor, hsucceeded⟩
  | unawaited i report upload hupload hopen hpending =>
    refine ⟨fun _ => ⟨?_, hdisplays.hash, hdisplays.anchored, hdisplays.uploading⟩, ?_⟩
    · exact fun hcid => exists_picked_next hupload hopen (hdisplays.cid hcid)
    · intro _ callback hwaits
      rw [hpending] at hwaits
      cases hwaits
  | blank i report upload callback hupload hopen hpending hcid =>
    refine Iff.trans ?_ (Iff.symm (displays_lost_iff hdisplays rfl rfl rfl rfl rfl rfl rfl ?kept))
    case kept => exact fun _ _ => exists_picked_next hupload hopen
    constructor
    · exact fun hsteady hstage => absurd hcid ((hsteady callback hpending).1 hstage).1
    · exact fun hstage _ _ => ⟨fun hshown => absurd hshown hstage, fun hsome => absurd hcid hsome⟩
  | uncomputed i report upload callback msg signals hupload hopen hpending hcid henvelope =>
    have hfailed : (envelopeOf (WhistleblowerBackend.eventCid report.data) callback.metadata
        self.currentSecsSinceEpoch).isOk ≠ true := by
      rw [henvelope]
      exact Bool.false_ne_true
    refine Iff.trans ?_ (Iff.symm (displays_lost_iff hdisplays rfl rfl rfl rfl rfl rfl rfl ?kept))
    case kept => exact fun _ _ => exists_picked_next hupload hopen
    constructor
    · exact fun hsteady hstage => absurd ((hsteady callback hpending).1 hstage).2 hfailed
    · intro hstage other hwaits
      obtain rfl := Option.some.inj (hpending.symm.trans hwaits)
      exact ⟨fun hshown => absurd hshown hstage, fun _ hok => absurd hok hfailed⟩
  | published i report upload callback metadataHashHex envelopeBytes signals hupload hopen hpending hcid henvelope =>
    have hok : (envelopeOf (WhistleblowerBackend.eventCid report.data) callback.metadata
        self.currentSecsSinceEpoch).isOk = true := by
      rw [henvelope]
      rfl
    rw [displays_broadcastEnvelope, displays_published_iff hqt hwrites horderly hupload hopen hpending hcid henvelope]
    constructor
    · exact fun hsteady => (hsteady callback hpending).2 hcid hok
    · intro hreported other hwaits
      obtain rfl := Option.some.inj (hpending.symm.trans hwaits)
      exact ⟨fun _ => ⟨hcid, hok⟩, fun _ _ => hreported⟩
  | idle_timer i hi hpending =>
    exact ⟨fun _ => ⟨hdisplays.cid, hdisplays.hash, hdisplays.anchored, hdisplays.uploading⟩,
      fun _ hwaits => absurd hpending hwaits⟩
  | timed_out i callback msg signals hi hpending =>
    have hwaits : self.m_pendingUploadCallback ≠ none := by
      rw [hpending]
      exact Option.some_ne_none callback
    refine Iff.trans ?_ (Iff.symm (displays_lost_iff hdisplays rfl rfl rfl rfl rfl rfl rfl ?kept))
    case kept => exact fun _ _ => exists_picked fun _ _ _ => ⟨rfl, rfl⟩
    exact ⟨fun hsteady => hsteady hwaits, fun hstage _ => hstage⟩
  | anchor_failed i answer anchor msg signals hanchor hopen hanswer =>
    constructor
    · intro _
      refine ⟨hdisplays.cid, hdisplays.hash, ?_, hdisplays.uploading⟩
      exact fun hanchored => exists_succeeded hanchor hopen (hdisplays.anchored hanchored)
    · intro _ hsuccess
      rw [hanswer] at hsuccess
      cases hsuccess
  | anchored i answer anchor signals hanchor hopen hanswer =>
    rw [displays_anchored_iff horderly hdisplays hanchor hopen hanswer]
    constructor
    · intro hsteady
      obtain ⟨found, hfound, hcid⟩ := hsteady hanswer
      obtain rfl := Option.some.inj (hanchor.symm.trans hfound)
      exact hcid
    · exact fun hcid _ => ⟨anchor, hanchor, hcid⟩
  | tick | no_document | message_sent | message_error | broadcast_timer =>
    exact ⟨fun _ => ⟨hdisplays.cid, hdisplays.hash, hdisplays.anchored, hdisplays.uploading⟩, fun _ => trivial⟩

/-- A run shows what describes the selected file in every state that it reaches, exactly
    if all its steps are steady. -/
theorem displays_iff_steady (hqt : Qt.Documented) (hwrites : Qt.Writes) {storageAvailable deliveryAvailable : Bool}
    {now : Int} {actions : List Action} {last : WhistleblowerBackend}
    (hrun : transition.run WhistleblowerBackend.step (.constructed storageAvailable deliveryAvailable now) actions =
      some last) :
    transition.Along WhistleblowerBackend.step Steady (.constructed storageAvailable deliveryAvailable now) actions ↔
      ∀ front back reached, actions = front ++ back →
        transition.run WhistleblowerBackend.step (.constructed storageAvailable deliveryAvailable now) front =
          some reached →
        Displays reached := by
  refine transition.along_iff_reached (I := Orderly) (P := Displays) ?_ ?_ (.constructed _ _ _) ?_ hrun
  · exact fun self action next horderly hstep => horderly.step hqt hwrites hstep
  · exact fun self action next hstep horderly hdisplays => displays_step_iff hqt hwrites horderly hdisplays hstep
  · refine ⟨fun hcid => absurd rfl hcid, .inl ⟨rfl, rfl⟩, ?_, nofun⟩
    exact fun hanchored => absurd hanchored (nothing_anchored nofun rfl)

end

/-- The user publishes a file, anchors it, and then hears of the anchor. -/
def anchoredFile : List Action := [
  .setSelectedFile "file:///first.txt",
  .publish "First" "" "" (some { size := 1, mimeType := "text/plain" }),
  .storageUploadDone 0 { cid := "zFirst", data := ["zFirst"] },
  .anchorLast,
  .anchorFinished 0 { success := true, error := none, anchor_timestamp := 9, cid_hash := "" }]

theorem displays_iff_steady_anchored :
    ∃ last, transition.run WhistleblowerBackend.step (.constructed true true 7) anchoredFile = some last ∧
      ∀ front back reached, anchoredFile = front ++ back →
        transition.run WhistleblowerBackend.step (.constructed true true 7) front = some reached →
        Displays reached := by
  have hsteady : (transition.run WhistleblowerBackend.step (.constructed true true 7) anchoredFile).isSome = true ∧
      transition.Along WhistleblowerBackend.step Steady (.constructed true true 7) anchoredFile := by decide +kernel
  obtain ⟨last, hlast⟩ := Option.isSome_iff_exists.mp hsteady.1
  exact ⟨last, hlast, (displays_iff_steady Qt.documented_standard Qt.writes_standard hlast).mp hsteady.2⟩

/-- The user selects another file before the anchor is known, and then that file is shown
    as anchored without ever having been published. -/
def otherFile : List Action := [
  .setSelectedFile "file:///first.txt",
  .publish "First" "" "" (some { size := 1, mimeType := "text/plain" }),
  .storageUploadDone 0 { cid := "zFirst", data := ["zFirst"] },
  .anchorLast,
  .setSelectedFile "file:///second.txt",
  .anchorFinished 0 { success := true, error := none, anchor_timestamp := 9, cid_hash := "" }]

theorem other_file_shown_as_anchored :
    ¬∀ (actions : List Action) (last : WhistleblowerBackend),
      transition.run WhistleblowerBackend.step (.constructed true true 7) actions = some last → Displays last := by
  intro hclaim
  have hrun : (transition.run WhistleblowerBackend.step (.constructed true true 7) otherFile).any (fun last =>
      last.m_stage = 3 ∧ ∀ anchor ∈ last.anchors, anchor.cid ≠ last.m_lastCid) = true := by decide +kernel
  obtain ⟨last, hlast, hstate⟩ := (Option.any_eq_true _ _).mp hrun
  obtain ⟨hstage, hother⟩ := of_decide_eq_true hstate
  obtain ⟨anchor, hanchor, hcid, _⟩ := (hclaim otherFile last hlast).anchored (.inl hstage)
  exact hother anchor hanchor hcid

end whistleblower_ui
