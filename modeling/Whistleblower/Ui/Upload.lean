import Whistleblower.Lib.Transition
import Whistleblower.Ui.Steps

namespace whistleblower_ui

/-- Two states that agree on uploads, results and anchoring calls. What is shown, and the
    broadcasts, may differ. -/
structure Quiet (first second : WhistleblowerBackend) : Prop where
  pending : second.m_pendingUploadCallback = first.m_pendingUploadCallback
  cid : second.m_lastCid = first.m_lastCid
  hash : second.m_lastMetadataHashHex = first.m_lastMetadataHashHex
  uploads : second.uploads = first.uploads
  computed : second.computed = first.computed
  anchors : second.anchors = first.anchors

theorem Quiet.broadcastEnvelope [Qt] (self : WhistleblowerBackend) (topic : String) (envelopeBytes : List UInt8) :
    Quiet self (self.broadcastEnvelope topic envelopeBytes) := by
  obtain hsame | ⟨_, _, hsent⟩ := self.broadcastEnvelope_cases topic envelopeBytes
  · rw [hsame]
    exact ⟨rfl, rfl, rfl, rfl, rfl, rfl⟩
  · rw [hsent]
    exact ⟨rfl, rfl, rfl, rfl, rfl, rfl⟩

section

variable [Sha256] [Qt]

/-- The computation was for this CID, and the FFI gave this hash. -/
structure Computation.Gives (computation : Computation) (cid metadataHashHex : String) : Prop where
  cid : computation.cid = cid
  hash : ∃ envelopeBytes, envelopeOf computation.cid computation.callback.metadata computation.now =
    .ok (metadataHashHex, envelopeBytes)

/-- Exactly the upload that was neither reported nor timed out has a callback that waits,
    and results stem from computations under the CID that was reported for the computation's
    own upload. -/
structure Owned (backend : WhistleblowerBackend) : Prop where
  pending : ∀ callback, backend.m_pendingUploadCallback = some callback → ∃ upload,
    backend.uploads[callback.upload]? = some upload ∧ upload.metadata = callback.metadata ∧ upload.reported = none
  owner : ∀ (i : Nat) (upload : Upload), backend.uploads[i]? = some upload → upload.reported = none →
    upload.timedOut = false →
    ∃ callback, backend.m_pendingUploadCallback = some callback ∧ callback.upload = i
  computed : ∀ computation ∈ backend.computed, ∃ upload, backend.uploads[computation.callback.upload]? = some upload ∧
    upload.metadata = computation.callback.metadata ∧ upload.reported.map Report.cid = some computation.cid
  result : backend.m_lastCid ≠ "" → backend.m_lastMetadataHashHex ≠ "" →
    ∃ computation ∈ backend.computed, computation.Gives backend.m_lastCid backend.m_lastMetadataHashHex
  anchors : ∀ (i : Nat) (anchor : Anchor), backend.anchors[i]? = some anchor →
    ∃ computation ∈ backend.computed, computation.Gives anchor.cid anchor.metadataHashHex

theorem Owned.quiet {first second : WhistleblowerBackend} (howned : Owned first) (hquiet : Quiet first second) :
    Owned second := by
  obtain ⟨hpending, hcid, hhash, huploads, hcomputed, hanchors⟩ := hquiet
  refine ⟨?_, ?_, ?_, ?_, ?_⟩
  · rw [hpending, huploads]
    exact howned.pending
  · rw [hpending, huploads]
    exact howned.owner
  · rw [hcomputed, huploads]
    exact howned.computed
  · rw [hcid, hhash, hcomputed]
    exact howned.result
  · rw [hanchors, hcomputed]
    exact howned.anchors

theorem owned_constructed (storageAvailable deliveryAvailable : Bool) (now : Int) :
    Owned (.constructed storageAvailable deliveryAvailable now) := by
  refine ⟨?_, ?_, ?_, ?_, ?_⟩
  · intro callback hpending
    cases hpending
  · intro i upload hupload
    cases hupload
  · intro computation hcomputation
    cases hcomputation
  · intro hcid
    exact absurd rfl hcid
  · intro i anchor hanchor
    cases hanchor

/-- A computation is for an upload, under the CID that was reported for it. -/
theorem Owned.compute {self : WhistleblowerBackend} (howned : Owned self) {computation : Computation}
    {upload : Upload} (hupload : self.uploads[computation.callback.upload]? = some upload)
    (hmetadata : upload.metadata = computation.callback.metadata)
    (hreported : upload.reported.map Report.cid = some computation.cid) :
    Owned { self with computed := self.computed ++ [computation] } := by
  refine ⟨howned.pending, howned.owner, ?_, ?_, ?_⟩
  · intro other hother
    obtain hother | hother := List.mem_append.mp hother
    · exact howned.computed other hother
    · rw [List.mem_singleton.mp hother]
      exact ⟨upload, hupload, hmetadata, hreported⟩
  · intro hcid hhash
    obtain ⟨other, hother, hgives⟩ := howned.result hcid hhash
    exact ⟨other, List.mem_append_left _ hother, hgives⟩
  · intro i anchor hanchor
    obtain ⟨other, hother, hgives⟩ := howned.anchors i anchor hanchor
    exact ⟨other, List.mem_append_left _ hother, hgives⟩

/-- An upload is marked, so that it is no longer open, and no callback waits. -/
theorem Owned.close {self : WhistleblowerBackend} (howned : Owned self) {i : Nat} {upload : Upload}
    (hupload : self.uploads[i]? = some upload) (hreported : upload.reported = none)
    (howner : ∀ callback, self.m_pendingUploadCallback = some callback → callback.upload = i)
    (mark : Upload → Upload) (hmark : (mark upload).reported ≠ none ∨ (mark upload).timedOut = true) :
    Owned { self with m_pendingUploadCallback := none, uploads := self.uploads.modify i mark } := by
  refine ⟨?_, ?_, ?_, howned.result, howned.anchors⟩
  · intro callback hcallback
    cases hcallback
  · intro k found hfound hnone hopened
    dsimp only at hfound
    by_cases hk : i = k
    · rw [← hk, List.getElem?_modify_eq, hupload] at hfound
      rw [← Option.some.inj hfound] at hnone hopened
      obtain hmark | hmark := hmark
      · exact absurd hnone hmark
      · rw [hmark] at hopened
        cases hopened
    · rw [List.getElem?_modify_ne _ _ hk] at hfound
      obtain ⟨callback, hcallback, howns⟩ := howned.owner k found hfound hnone hopened
      exact absurd ((howner callback hcallback).symm.trans howns) hk
  · intro computation hcomputation
    obtain ⟨found, hfound, hmetadata, hcid⟩ := howned.computed computation hcomputation
    refine ⟨found, ?_, hmetadata, hcid⟩
    dsimp only
    rw [List.getElem?_modify_ne, hfound]
    intro hindex
    rw [← hindex, hupload] at hfound
    rw [← Option.some.inj hfound, hreported] at hcid
    cases hcid

/-- An upload is reported, and no callback waits for another one. -/
theorem Owned.close_reported {self : WhistleblowerBackend} (howned : Owned self) {i : Nat} {upload : Upload}
    (hupload : self.uploads[i]? = some upload) (hreported : upload.reported = none)
    (howner : ∀ callback, self.m_pendingUploadCallback = some callback → callback.upload = i) (report : Report) :
    Owned { self.reported i report with m_pendingUploadCallback := none } :=
  howned.close hupload hreported howner _ (.inl nofun)

/-- An upload that is reported in time is the one that is awaited. -/
theorem Owned.owner_of_report {self : WhistleblowerBackend} (howned : Owned self) {i : Nat} {upload : Upload}
    {callback : UploadCallback} (hupload : self.uploads[i]? = some upload) (hreported : upload.reported = none)
    (hintime : upload.timedOut = false) (hpending : self.m_pendingUploadCallback = some callback) :
    callback.upload = i := by
  obtain ⟨owner, howner, hindex⟩ := howned.owner i upload hupload hreported hintime
  rw [hpending] at howner
  rw [Option.some.inj howner, hindex]

/-- The upload that is awaited is reported, and the computation under its CID is noted. -/
theorem Owned.report {self : WhistleblowerBackend} (howned : Owned self) {i : Nat} {upload : Upload}
    {callback : UploadCallback} (hupload : self.uploads[i]? = some upload) (hreported : upload.reported = none)
    (hpending : self.m_pendingUploadCallback = some callback) (howner : callback.upload = i) {report : Report}
    (hpicked : report.cid = WhistleblowerBackend.eventCid report.data) :
    Owned { self.reported i report with
      m_pendingUploadCallback := none
      computed := self.computed ++
        [{ callback, cid := WhistleblowerBackend.eventCid report.data, now := self.currentSecsSinceEpoch }] } := by
  have howners : ∀ other, self.m_pendingUploadCallback = some other → other.upload = i := by
    intro other hother
    rw [hpending] at hother
    rw [← Option.some.inj hother, howner]
  have hclosed := howned.close_reported hupload hreported howners report
  obtain ⟨found, hfound, hmetadata, _⟩ := howned.pending callback hpending
  rw [howner, hupload] at hfound
  obtain rfl := Option.some.inj hfound
  have hreport : (self.uploads.modify i fun upload => { upload with reported := some report })[callback.upload]? =
      some { upload with reported := some report } := by
    rw [howner, List.getElem?_modify_eq, hupload]
    rfl
  exact hclosed.compute hreport hmetadata (congrArg some hpicked)

/-- A new upload is awaited. -/
theorem Owned.request {self : WhistleblowerBackend} (howned : Owned self)
    (hpending : self.m_pendingUploadCallback = none) (file : String) (metadata : Metadata) :
    Owned { self with
      m_pendingUploadCallback := some { upload := self.uploads.length, metadata }
      uploads := self.uploads ++ [{ file, metadata, reported := none, timedOut := false }] } := by
  refine ⟨?_, ?_, ?_, howned.result, howned.anchors⟩
  · intro callback hcallback
    rw [← Option.some.inj hcallback]
    exact ⟨_, List.getElem?_concat_length, rfl, rfl⟩
  · intro k found hfound hnone hopened
    dsimp only at hfound
    rw [List.getElem?_append] at hfound
    split at hfound
    · obtain ⟨owner, howner, _⟩ := howned.owner k found hfound hnone hopened
      rw [hpending] at howner
      cases howner
    · rename_i hlength
      obtain ⟨hk, _⟩ := List.getElem?_eq_some_iff.mp hfound
      simp only [List.length_cons, List.length_nil] at hk
      exact ⟨_, rfl, by dsimp only; omega⟩
  · intro computation hcomputation
    obtain ⟨found, hfound, hmetadata, hcid⟩ := howned.computed computation hcomputation
    refine ⟨found, ?_, hmetadata, hcid⟩
    rw [List.getElem?_append_left (List.getElem?_eq_some_iff.mp hfound).1]
    exact hfound

/-- What is shown is anchored. -/
theorem Owned.call {self : WhistleblowerBackend} (howned : Owned self) (hcid : self.m_lastCid ≠ "")
    (hhash : self.m_lastMetadataHashHex ≠ "") :
    Owned { self with anchors := self.anchors ++
      [{ cid := self.m_lastCid, metadataHashHex := self.m_lastMetadataHashHex, answer := none }] } := by
  refine ⟨howned.pending, howned.owner, howned.computed, howned.result, ?_⟩
  intro i anchor hanchor
  dsimp only at hanchor
  rw [List.getElem?_append] at hanchor
  split at hanchor
  · exact howned.anchors i anchor hanchor
  · rw [List.mem_singleton.mp (List.mem_of_getElem? hanchor)]
    exact howned.result hcid hhash

theorem Owned.answer {self : WhistleblowerBackend} (howned : Owned self) (i : Nat) (answer : AnchorAnswer) :
    Owned { self with anchors := self.anchors.modify i fun anchor => { anchor with answer := some answer } } := by
  refine ⟨howned.pending, howned.owner, howned.computed, howned.result, ?_⟩
  intro k found hfound
  dsimp only at hfound
  rw [List.getElem?_modify] at hfound
  obtain ⟨before, hbefore, rfl⟩ := Option.map_eq_some_iff.mp hfound
  have hgives := howned.anchors k before hbefore
  split
  · exact hgives
  · exact hgives

/-- An upload that is reported while a callback waits has not timed out: its own callback
    was not taken by a safety timer. From the data of the event the handler picks the CID
    that the storage module reports, or none. -/
def Attributed (self : WhistleblowerBackend) : Action → Prop
  | .storageUploadDone upload report => self.m_pendingUploadCallback.isSome = true →
    self.uploads[upload]?.any Upload.timedOut = false ∧
      (WhistleblowerBackend.eventCid report.data = "" ∨ report.cid = WhistleblowerBackend.eventCid report.data)
  | _ => True

instance (self : WhistleblowerBackend) : (action : Action) → Decidable (Attributed self action)
  | .storageUploadDone upload report =>
    inferInstanceAs (Decidable (_ → self.uploads[upload]?.any Upload.timedOut = false ∧
      (WhistleblowerBackend.eventCid report.data = "" ∨ report.cid = WhistleblowerBackend.eventCid report.data)))
  | .tick _ => isTrue trivial
  | .setSelectedFile _ => isTrue trivial
  | .publish _ _ _ _ => isTrue trivial
  | .anchorLast => isTrue trivial
  | .uploadTimeout _ => isTrue trivial
  | .messageSent _ => isTrue trivial
  | .messageError _ => isTrue trivial
  | .broadcastTimeout _ => isTrue trivial
  | .anchorFinished _ _ => isTrue trivial

omit [Sha256] [Qt] in
theorem Attributed.of_pending {self : WhistleblowerBackend} {i : Nat} {report : Report} {upload : Upload}
    {callback : UploadCallback} (hattributed : Attributed self (.storageUploadDone i report))
    (hupload : self.uploads[i]? = some upload) (hpending : self.m_pendingUploadCallback = some callback) :
    upload.timedOut = false ∧
      (WhistleblowerBackend.eventCid report.data = "" ∨
        report.cid = WhistleblowerBackend.eventCid report.data) := by
  have hreport := hattributed (by rw [hpending]; rfl)
  rwa [hupload, Option.any_some] at hreport

theorem Owned.step {self next : WhistleblowerBackend} {action : Action} (hattributed : Attributed self action)
    (howned : Owned self) (hstep : self.step action = some next) : Owned next := by
  cases WhistleblowerBackend.step_cases hstep with
  | new_file =>
    exact ⟨howned.pending, howned.owner, howned.computed, fun hcid => absurd rfl hcid, howned.anchors⟩
  | requested _ _ _ _ metadata _ _ _ _ _ hpending =>
    exact (howned.request hpending self.m_selectedFile metadata).quiet ⟨rfl, rfl, rfl, rfl, rfl, rfl⟩
  | anchoring _ _ _ hcid hhash => exact (howned.call hcid hhash).quiet ⟨rfl, rfl, rfl, rfl, rfl, rfl⟩
  | unawaited i report upload hupload hreported hpending =>
    have howners : ∀ callback, self.m_pendingUploadCallback = some callback → callback.upload = i := by
      intro callback hwaits
      rw [hpending] at hwaits
      cases hwaits
    exact (howned.close_reported hupload hreported howners report).quiet ⟨hpending, rfl, rfl, rfl, rfl, rfl⟩
  | blank i report upload callback hupload hreported hpending hcid =>
    obtain ⟨hintime, _⟩ := hattributed.of_pending hupload hpending
    have howners : ∀ other, self.m_pendingUploadCallback = some other → other.upload = i := by
      intro other hother
      exact howned.owner_of_report hupload hreported hintime hother
    exact howned.close_reported hupload hreported howners report
  | uncomputed i report upload callback msg signals hupload hreported hpending hcid =>
    obtain ⟨hintime, hpicked⟩ := hattributed.of_pending hupload hpending
    have howner := howned.owner_of_report hupload hreported hintime hpending
    have hreport := howned.report hupload hreported hpending howner (hpicked.resolve_left hcid)
    exact hreport.quiet ⟨rfl, rfl, rfl, rfl, rfl, rfl⟩
  | published i report upload callback metadataHashHex envelopeBytes signals hupload hreported hpending hcid
      henvelope =>
    obtain ⟨hintime, hpicked⟩ := hattributed.of_pending hupload hpending
    have howner := howned.owner_of_report hupload hreported hintime hpending
    have hreport := howned.report hupload hreported hpending howner (hpicked.resolve_left hcid)
    refine Owned.quiet ?_ (Quiet.broadcastEnvelope _ _ _)
    refine ⟨hreport.pending, hreport.owner, hreport.computed, ?_, hreport.anchors⟩
    intro _ _
    exact ⟨_, List.mem_append_right _ List.mem_cons_self, rfl, envelopeBytes, henvelope⟩
  | timed_out i callback msg signals hi hpending =>
    obtain ⟨upload, hupload, _, hreported⟩ := howned.pending callback hpending
    have howners : ∀ other, self.m_pendingUploadCallback = some other → other.upload = callback.upload := by
      intro other hother
      rw [hpending] at hother
      rw [Option.some.inj hother]
    exact (howned.close hupload hreported howners _ (.inr rfl)).quiet ⟨rfl, rfl, rfl, rfl, rfl, rfl⟩
  | anchor_failed i answer => exact (howned.answer i answer).quiet ⟨rfl, rfl, rfl, rfl, rfl, rfl⟩
  | anchored i answer => exact (howned.answer i answer).quiet ⟨rfl, rfl, rfl, rfl, rfl, rfl⟩
  | tick | same_file | no_file | refused | no_document | idle_timer | message_sent | message_error
  | broadcast_timer => exact howned.quiet ⟨rfl, rfl, rfl, rfl, rfl, rfl⟩

/-- A `publish` requests the upload of this file, which is selected, with this callback,
    which describes the file as it was typed. -/
def Requests (self : WhistleblowerBackend) (action : Action) (next : WhistleblowerBackend) (file : String)
    (callback : UploadCallback) : Prop :=
  ∃ title description tagsCsv fi, action = .publish title description tagsCsv (some fi) ∧
    next.uploads.length = self.uploads.length + 1 ∧ next.m_pendingUploadCallback = some callback ∧
    file = self.m_selectedFile ∧ callback = {
      upload := self.uploads.length
      metadata := {
        title, description
        contentType := fi.mimeType
        sizeBytes := fi.size
        tags := WhistleblowerBackend.tagsOf tagsCsv } }

/-- Some action of the run requested the upload of this file with this callback. -/
def Requested (initial : WhistleblowerBackend) (actions : List Action) (file : String) (callback : UploadCallback) :
    Prop :=
  ∃ front action back before after, actions = front ++ action :: back ∧
    transition.run WhistleblowerBackend.step initial front = some before ∧ before.step action = some after ∧
    Requests before action after file callback

theorem Requested.later {initial : WhistleblowerBackend} {actions : List Action} {file : String}
    {callback : UploadCallback} (hrequested : Requested initial actions file callback) (action : Action) :
    Requested initial (actions ++ [action]) file callback := by
  obtain ⟨front, first, back, before, after, rfl, hrequest⟩ := hrequested
  refine ⟨front, first, back ++ [action], before, after, ?_, hrequest⟩
  rw [List.append_assoc, List.cons_append]

/-- An upload was there before a step, of the same file and with the same description, or the
    step requests it. -/
theorem uploads_of_step {self next : WhistleblowerBackend} {action : Action} (hstep : self.step action = some next)
    {i : Nat} {upload : Upload} (hupload : next.uploads[i]? = some upload) :
    (∃ before, self.uploads[i]? = some before ∧ before.file = upload.file ∧ before.metadata = upload.metadata) ∨
      Requests self action next upload.file { upload := i, metadata := upload.metadata } := by
  have hmodified : ∀ {j : Nat} {mark : Upload → Upload}, next.uploads = self.uploads.modify j mark →
      (∀ upload, (mark upload).file = upload.file) → (∀ upload, (mark upload).metadata = upload.metadata) →
      ∃ before, self.uploads[i]? = some before ∧ before.file = upload.file ∧ before.metadata = upload.metadata := by
    intro j mark hmarked hfile hmetadata
    rw [hmarked, List.getElem?_modify] at hupload
    obtain ⟨before, hbefore, rfl⟩ := Option.map_eq_some_iff.mp hupload
    refine ⟨before, hbefore, ?_⟩
    split
    · exact ⟨(hfile before).symm, (hmetadata before).symm⟩
    · exact ⟨rfl, rfl⟩
  cases WhistleblowerBackend.step_cases hstep with
  | requested title description tagsCsv fi metadata _ _ _ _ _ _ hmetadata =>
    dsimp only at hupload
    rw [List.getElem?_append] at hupload
    split at hupload
    · exact .inl ⟨upload, hupload, rfl, rfl⟩
    · rename_i hlength
      obtain ⟨hi, hnew⟩ := List.getElem?_eq_some_iff.mp hupload
      rw [List.length_singleton] at hi
      obtain rfl : i = self.uploads.length := by omega
      obtain rfl : _ = upload := (List.getElem_singleton _).symm.trans hnew
      exact .inr ⟨title, description, tagsCsv, fi, rfl, List.length_append, rfl, rfl, congrArg _ hmetadata⟩
  | unawaited | blank | uncomputed | timed_out => exact .inl (hmodified rfl (fun _ => rfl) fun _ => rfl)
  | published => exact .inl (hmodified (Quiet.broadcastEnvelope _ _ _).uploads (fun _ => rfl) fun _ => rfl)
  | _ => exact .inl ⟨upload, hupload, rfl, rfl⟩

/-- Every upload was requested by a `publish` of the run. -/
theorem requested_of_run {initial last : WhistleblowerBackend} {actions : List Action} (hempty : initial.uploads = [])
    (hrun : transition.run WhistleblowerBackend.step initial actions = some last) {i : Nat} {upload : Upload}
    (hupload : last.uploads[i]? = some upload) :
    Requested initial actions upload.file { upload := i, metadata := upload.metadata } := by
  induction actions using List.reverseRecOn generalizing last upload with
  | nil =>
    cases hrun
    rw [hempty] at hupload
    cases hupload
  | append_singleton front action ih =>
    obtain ⟨middle, hfront, hlast⟩ := transition.run_append_eq_some.mp hrun
    obtain ⟨next, hstep, hnext⟩ := transition.run_cons_eq_some.mp hlast
    cases hnext
    obtain ⟨before, hbefore, hfile, hmetadata⟩ | hrequests := uploads_of_step hstep hupload
    · rw [← hfile, ← hmetadata]
      exact (ih hfront hbefore).later action
    · exact ⟨front, action, [], middle, last, rfl, hfront, hstep, hrequests⟩

/-- If no upload is reported late while a callback waits, and the handler picks the CIDs that
    are reported, every computation is for the CID that was reported for the upload of the
    file that the `publish` of its own callback requested, with the description that was typed
    there. Every pair that is anchored is the CID and the hash of one such computation. -/
theorem cid_belongs_to_its_upload {storageAvailable deliveryAvailable : Bool} {now : Int} {actions : List Action}
    {last : WhistleblowerBackend}
    (hattributed : transition.Along WhistleblowerBackend.step Attributed
      (.constructed storageAvailable deliveryAvailable now) actions)
    (hrun : transition.run WhistleblowerBackend.step (.constructed storageAvailable deliveryAvailable now) actions =
      some last) :
    (∀ computation ∈ last.computed, ∃ upload, last.uploads[computation.callback.upload]? = some upload ∧
      upload.reported.map Report.cid = some computation.cid ∧
      Requested (.constructed storageAvailable deliveryAvailable now) actions upload.file computation.callback) ∧
    ∀ anchor ∈ last.anchors, ∃ computation ∈ last.computed,
      computation.Gives anchor.cid anchor.metadataHashHex := by
  have howned : Owned last := transition.run_preserves_along (P := Owned)
    (fun _ _ _ hattributed howned hstep => howned.step hattributed hstep) hattributed (owned_constructed _ _ _) hrun
  constructor
  · intro computation hcomputation
    obtain ⟨upload, hupload, hmetadata, hcid⟩ := howned.computed computation hcomputation
    have hrequested := requested_of_run rfl hrun hupload
    rw [hmetadata] at hrequested
    exact ⟨upload, hupload, hcid, hrequested⟩
  · intro anchor hanchor
    obtain ⟨i, hi⟩ := List.getElem?_of_mem hanchor
    exact howned.anchors i anchor hi

/-- A continuation that gets a CID computes under it. -/
theorem publishContinuation_computes (self : WhistleblowerBackend) (callback : UploadCallback) {cid : String}
    (hcid : cid ≠ "") :
    (self.publishContinuation callback cid).uploads = self.uploads ∧
      ∃ computation ∈ (self.publishContinuation callback cid).computed, computation.callback = callback ∧
        computation.cid = cid := by
  obtain ⟨hempty, _⟩ | ⟨_, msg, signals, _, hcontinued⟩ |
      ⟨_, metadataHashHex, envelopeBytes, signals, _, hcontinued⟩ := self.publishContinuation_cases callback cid
  · exact absurd hempty hcid
  · rw [hcontinued]
    exact ⟨rfl, _, List.mem_append_right _ List.mem_cons_self, rfl, rfl⟩
  · rw [hcontinued, (Quiet.broadcastEnvelope _ _ _).uploads, (Quiet.broadcastEnvelope _ _ _).computed]
    exact ⟨rfl, _, List.mem_append_right _ List.mem_cons_self, rfl, rfl⟩

/-- A report that finds a callback, whoever it belongs to. -/
theorem step_storageUploadDone {self : WhistleblowerBackend} {i : Nat} {callback : UploadCallback} (report : Report)
    (hreported : self.uploads[i]?.map Upload.reported = some none)
    (hpending : self.m_pendingUploadCallback = some callback)
    (hcid : WhistleblowerBackend.eventCid report.data ≠ "") :
    ∃ next, self.step (.storageUploadDone i report) = some next ∧
      (∀ k, i ≠ k → next.uploads[k]? = self.uploads[k]?) ∧
      ∃ computation ∈ next.computed, computation.callback = callback ∧
        computation.cid = WhistleblowerBackend.eventCid report.data := by
  refine ⟨_, if_pos hreported, ?_⟩
  rw [WhistleblowerBackend.storageUploadDone]
  simp only [hpending]
  obtain ⟨huploads, hcomputed⟩ := publishContinuation_computes { self with
    m_pendingUploadCallback := none
    uploads := self.uploads.modify i fun upload => { upload with reported := some report } } callback hcid
  refine ⟨?_, hcomputed⟩
  intro k hk
  rw [huploads]
  exact List.getElem?_modify_ne _ _ hk

end

/-- A file is published, its upload is overdue, and it is reported when nothing waits for it. Then
    another file is published, reported with a session id before the CID, and anchored. -/
def sessionReport : List Action := [
  .setSelectedFile "file:///first.txt",
  .publish "First" "" "" (some { size := 1, mimeType := "text/plain" }),
  .uploadTimeout 0,
  .storageUploadDone 0 { cid := "zFirst", data := ["zFirst"] },
  .setSelectedFile "file:///second.txt",
  .publish "Second" "" "b, a" (some { size := 2, mimeType := "text/plain" }),
  .storageUploadDone 1 { cid := "bafy-b", data := ["17", "bafy-b"] },
  .anchorLast]

theorem cid_belongs_to_its_upload_sessionReport :
    ∃ last, transition.run WhistleblowerBackend.step (.constructed true true 7) sessionReport = some last ∧
      last.computed ≠ [] ∧ last.anchors ≠ [] ∧
      (∀ computation ∈ last.computed, ∃ upload, last.uploads[computation.callback.upload]? = some upload ∧
        upload.reported.map Report.cid = some computation.cid ∧
        Requested (.constructed true true 7) sessionReport upload.file computation.callback) ∧
      ∀ anchor ∈ last.anchors, ∃ computation ∈ last.computed,
        computation.Gives anchor.cid anchor.metadataHashHex := by
  have hrun : (transition.run WhistleblowerBackend.step (.constructed true true 7) sessionReport).any (fun last =>
      last.computed ≠ [] ∧ last.anchors ≠ []) = true := by decide +kernel
  obtain ⟨last, hlast, hstate⟩ := (Option.any_eq_true _ _).mp hrun
  obtain ⟨hcomputed, hanchors⟩ := of_decide_eq_true hstate
  exact ⟨last, hlast, hcomputed, hanchors, cid_belongs_to_its_upload (by decide +kernel) hlast⟩

/-- The user publishes a file, waits until that times out, and publishes another file. -/
def lateReport : List Action := [
  .setSelectedFile "file:///first.txt",
  .publish "First" "" "" (some { size := 1, mimeType := "text/plain" }),
  .uploadTimeout 0,
  .setSelectedFile "file:///second.txt",
  .publish "Second" "" "" (some { size := 2, mimeType := "text/plain" })]

/-- The late report of the first upload makes the second `publish` compute under its CID. -/
theorem late_report_crosses_uploads :
    ¬∀ (actions : List Action) (last : WhistleblowerBackend),
      transition.run WhistleblowerBackend.step (.constructed true true 7) actions = some last →
      ∀ computation ∈ last.computed, ∃ upload, last.uploads[computation.callback.upload]? = some upload ∧
        upload.reported.map Report.cid = some computation.cid := by
  intro hclaim
  have hrun : (transition.run WhistleblowerBackend.step (.constructed true true 7) lateReport).any (fun before =>
      before.m_pendingUploadCallback.map UploadCallback.upload = some 1 ∧
        before.uploads[0]?.map Upload.reported = some none ∧
        before.uploads[1]?.map Upload.reported = some none) = true := by decide +kernel
  obtain ⟨before, hbefore, hstate⟩ := (Option.any_eq_true _ _).mp hrun
  obtain ⟨hwaits, hfirst, hsecond⟩ := of_decide_eq_true hstate
  obtain ⟨callback, hpending, hcallback⟩ := Option.map_eq_some_iff.mp hwaits
  obtain ⟨next, hnext, hother, computation, hcomputation, howner, _⟩ := step_storageUploadDone
    { cid := "zFirst", data := ["zFirst"] } hfirst hpending (by decide)
  have hlate : transition.run WhistleblowerBackend.step (.constructed true true 7)
      (lateReport ++ [.storageUploadDone 0 { cid := "zFirst", data := ["zFirst"] }]) = some next :=
    transition.run_append_eq_some.mpr ⟨before, hbefore, transition.run_cons_eq_some.mpr ⟨next, hnext, rfl⟩⟩
  obtain ⟨upload, hupload, hreported⟩ := hclaim _ next hlate computation hcomputation
  rw [howner, hcallback, hother 1 (by decide)] at hupload
  rw [hupload, Option.map_some] at hsecond
  rw [Option.some.inj hsecond] at hreported
  cases hreported

end whistleblower_ui
