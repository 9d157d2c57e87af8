import Whistleblower.Ui.Calls
import Whistleblower.Ui.Signals
import Whistleblower.Ui.Upload

open nssa_core whistleblower_core whistleblower_registry whistleblower_lez_adapter whistleblower_ffi first_writer

namespace whistleblower_ui

section

variable [Sha256] [Qt]

/-- The computation made these bytes of an envelope, with their hash as a text. -/
def Computation.Makes (computation : Computation) (metadataHashHex : String) (envelopeBytes : List UInt8) : Prop :=
  envelopeOf computation.cid computation.callback.metadata computation.now = .ok (metadataHashHex, envelopeBytes)

/-- What the backend takes from the FFI is an envelope under the CID that it asked for. -/
theorem Computation.Makes.envelope (hqt : Qt.Documented) (hwrites : Qt.Writes) {computation : Computation}
    {metadataHashHex : String} {envelopeBytes : List UInt8} (hmakes : computation.Makes metadataHashHex envelopeBytes) :
    ∃ envelope : MetadataEnvelopeV1, CanonicalCid.new computation.cid = .ok envelope.cid ∧
      envelope.canonical_json_bytes = .ok envelopeBytes ∧
      metadataHashHex = text.hex_encode (Sha256.digest envelopeBytes).toList := by
  generalize hargs : envelopeArgs computation.cid computation.callback.metadata computation.now = args
  have hread := cstr_to_str_toJson hwrites args
  have hnodup : (args.map Prod.fst).Nodup := by
    have hnames : args.map Prod.fst = MetadataInputs.field_names := by
      rw [← hargs]
      rfl
    rw [hnames]
    decide
  have hmem : ("cid", .string computation.cid) ∈ args := by
    rw [← hargs]
    exact List.mem_cons_self
  cases hcompute : compute_metadata_hash_impl (Qt.toJson args) with
  | error e =>
    have hanswer : whistleblower_compute_metadata_hash (Qt.toJson args) = (error_value e.message).render := by
      simp only [whistleblower_compute_metadata_hash, hread, hcompute]
      exact error_json_eq e.message
    rw [Makes, envelopeOf, hargs] at hmakes
    simp [hanswer, toBool_error hqt] at hmakes
  | ok output =>
    obtain ⟨inputs, envelope, bytes, hinputs, hnew, hbytes, houtput⟩ := compute_metadata_hash_eq_ok hcompute
    have hcid : inputs.cid = computation.cid := cid_of_from_str hinputs (hwrites.string hnodup hmem)
    have hanswer := (whistleblower_compute_metadata_hash_of_ok hread hcompute).trans houtput
    rw [← hargs] at hanswer
    rw [Makes, envelopeOf_of_answer hqt hanswer] at hmakes
    obtain ⟨rfl, rfl⟩ := Prod.mk.inj (Except.ok.inj hmakes)
    exact ⟨envelope, hcid ▸ hnew, hbytes, rfl⟩

/-- What is shown, asked for and sent was computed, and an anchor that is shown was answered. -/
structure Computed (backend : WhistleblowerBackend) : Prop where
  shown : backend.m_lastCid ≠ "" → backend.m_lastMetadataHashHex ≠ "" →
    ∃ computation ∈ backend.computed, computation.Gives backend.m_lastCid backend.m_lastMetadataHashHex
  anchors : ∀ anchor ∈ backend.anchors,
    ∃ computation ∈ backend.computed, computation.Gives anchor.cid anchor.metadataHashHex
  broadcasts : ∀ broadcast ∈ backend.broadcasts, ∃ computation ∈ backend.computed,
    ∃ metadataHashHex envelopeBytes, computation.Makes metadataHashHex envelopeBytes ∧
      broadcast = ⟨contentTopic, fromLatin1 (Qt.toBase64 envelopeBytes)⟩
  timestamp : backend.m_lastAnchorTimestamp ≠ 0 → ∃ anchor ∈ backend.anchors, ∃ answer,
    anchor.answer = some answer ∧ answer.success = true ∧ answer.anchor_timestamp = backend.m_lastAnchorTimestamp

namespace Computed

theorem constructed (storageAvailable deliveryAvailable : Bool) (now : Int) :
    Computed (.constructed storageAvailable deliveryAvailable now) := by
  refine ⟨fun hcid => absurd rfl hcid, ?_, ?_, fun htimestamp => absurd rfl htimestamp⟩
  · exact fun anchor hanchor => nomatch hanchor
  · exact fun broadcast hbroadcast => nomatch hbroadcast

/-- Nothing is asked for or sent. -/
theorem extend {self next : WhistleblowerBackend} (hcomputed : Computed self)
    (hgrows : ∀ computation ∈ self.computed, computation ∈ next.computed)
    (hshown : next.m_lastCid = "" ∨
      next.m_lastCid = self.m_lastCid ∧ next.m_lastMetadataHashHex = self.m_lastMetadataHashHex)
    (hanchors : next.anchors = self.anchors) (hbroadcasts : next.broadcasts = self.broadcasts)
    (htimestamp : next.m_lastAnchorTimestamp = 0 ∨ next.m_lastAnchorTimestamp = self.m_lastAnchorTimestamp) :
    Computed next := by
  refine ⟨?shown, ?anchors, ?broadcasts, ?timestamp⟩
  case shown =>
    intro hcid hhash
    obtain hempty | ⟨hsame, hsame'⟩ := hshown
    · exact absurd hempty hcid
    · rw [hsame] at hcid ⊢
      rw [hsame'] at hhash ⊢
      obtain ⟨computation, hmem, hgives⟩ := hcomputed.shown hcid hhash
      exact ⟨computation, hgrows computation hmem, hgives⟩
  case anchors =>
    rw [hanchors]
    intro anchor hanchor
    obtain ⟨computation, hmem, hgives⟩ := hcomputed.anchors anchor hanchor
    exact ⟨computation, hgrows computation hmem, hgives⟩
  case broadcasts =>
    rw [hbroadcasts]
    intro broadcast hbroadcast
    obtain ⟨computation, hmem, hmakes⟩ := hcomputed.broadcasts broadcast hbroadcast
    exact ⟨computation, hgrows computation hmem, hmakes⟩
  case timestamp =>
    rw [hanchors]
    obtain hzero | hsame := htimestamp
    · exact fun hne => absurd hzero hne
    · rw [hsame]
      exact hcomputed.timestamp

/-- The open call gets its answer. -/
theorem answered {self next : WhistleblowerBackend} (hcomputed : Computed self) {i : Nat} {anchor : Anchor}
    (hanchor : self.anchors[i]? = some anchor) (hopen : anchor.answer = none) {answer : AnchorAnswer}
    (hanchors : next.anchors = self.anchors.modify i fun anchor => { anchor with answer := some answer })
    (hcid : next.m_lastCid = self.m_lastCid) (hhash : next.m_lastMetadataHashHex = self.m_lastMetadataHashHex)
    (hcomputations : next.computed = self.computed) (hbroadcasts : next.broadcasts = self.broadcasts)
    (htimestamp : answer.success = true ∧ next.m_lastAnchorTimestamp = answer.anchor_timestamp ∨
      next.m_lastAnchorTimestamp = self.m_lastAnchorTimestamp) : Computed next := by
  refine ⟨?shown, ?anchors, ?broadcasts, ?timestamp⟩
  case shown =>
    rw [hcid, hhash, hcomputations]
    exact hcomputed.shown
  case anchors =>
    rw [hanchors, hcomputations]
    intro other hother
    obtain ⟨before, hbefore, rfl⟩ | ⟨j, _, hj⟩ := mem_modify_iff.mp hother
    · exact hcomputed.anchors before (List.mem_of_getElem? hbefore)
    · exact hcomputed.anchors other (List.mem_of_getElem? hj)
  case broadcasts =>
    rw [hbroadcasts, hcomputations]
    exact hcomputed.broadcasts
  case timestamp =>
    rw [hanchors]
    obtain ⟨hsuccess, htime⟩ | hsame := htimestamp
    · intro _
      exact ⟨_, mem_modify_iff.mpr (.inl ⟨anchor, hanchor, rfl⟩), answer, rfl, hsuccess, htime.symm⟩
    · rw [hsame]
      intro hne
      obtain ⟨other, hother, found, hfound, hsuccess, htime⟩ := hcomputed.timestamp hne
      obtain ⟨j, hj⟩ := List.getElem?_of_mem hother
      refine ⟨other, mem_modify_iff.mpr (.inr ⟨j, ?_, hj⟩), found, hfound, hsuccess, htime⟩
      rintro rfl
      rw [hanchor] at hj
      cases hj
      rw [hopen] at hfound
      cases hfound

omit [Sha256] in
theorem mem_broadcasts {self : WhistleblowerBackend} {topic : String} {envelopeBytes : List UInt8}
    {broadcast : Broadcast} (hmem : broadcast ∈ (self.broadcastEnvelope topic envelopeBytes).broadcasts) :
    broadcast ∈ self.broadcasts ∨ broadcast = ⟨topic, fromLatin1 (Qt.toBase64 envelopeBytes)⟩ := by
  rw [WhistleblowerBackend.broadcastEnvelope] at hmem
  split at hmem
  · exact .inl hmem
  · split at hmem
    · exact .inl hmem
    · exact (List.mem_append.mp hmem).imp id List.mem_singleton.mp

/-- An envelope is computed, shown and sent. -/
theorem publish {self next : WhistleblowerBackend} (hcomputed : Computed self) {computation : Computation}
    {metadataHashHex : String} {envelopeBytes : List UInt8} (hmakes : computation.Makes metadataHashHex envelopeBytes)
    (hcomputations : next.computed = self.computed ++ [computation]) (hcid : next.m_lastCid = computation.cid)
    (hhash : next.m_lastMetadataHashHex = metadataHashHex) (hanchors : next.anchors = self.anchors)
    (hbroadcasts : next.broadcasts = self.broadcasts)
    (htimestamp : next.m_lastAnchorTimestamp = self.m_lastAnchorTimestamp) :
    Computed (next.broadcastEnvelope contentTopic envelopeBytes) := by
  have hlast : computation ∈ next.computed := by
    rw [hcomputations]
    exact List.mem_append_right _ List.mem_cons_self
  have hgrows : ∀ other ∈ self.computed, other ∈ next.computed := by
    intro other hother
    rw [hcomputations]
    exact List.mem_append_left _ hother
  have hquiet := Quiet.broadcastEnvelope next contentTopic envelopeBytes
  have hclock : (next.broadcastEnvelope contentTopic envelopeBytes).m_lastAnchorTimestamp =
      next.m_lastAnchorTimestamp := by
    obtain hsame | ⟨_, _, hsent⟩ := next.broadcastEnvelope_cases contentTopic envelopeBytes
    · rw [hsame]
    · rw [hsent]
  refine ⟨?shown, ?anchors, ?broadcasts, ?timestamp⟩
  case shown =>
    rw [hquiet.cid, hquiet.hash, hquiet.computed]
    exact fun _ _ => ⟨computation, hlast, hcid.symm, envelopeBytes, hhash ▸ hmakes⟩
  case anchors =>
    rw [hquiet.anchors, hquiet.computed, hanchors]
    intro anchor hanchor
    obtain ⟨other, hother, hgives⟩ := hcomputed.anchors anchor hanchor
    exact ⟨other, hgrows other hother, hgives⟩
  case broadcasts =>
    rw [hquiet.computed]
    intro broadcast hbroadcast
    obtain hearlier | rfl := mem_broadcasts hbroadcast
    · rw [hbroadcasts] at hearlier
      obtain ⟨other, hother, hsent⟩ := hcomputed.broadcasts broadcast hearlier
      exact ⟨other, hgrows other hother, hsent⟩
    · exact ⟨computation, hlast, metadataHashHex, envelopeBytes, hmakes, rfl⟩
  case timestamp =>
    rw [hquiet.anchors, hclock, htimestamp, hanchors]
    exact hcomputed.timestamp

theorem step {self next : WhistleblowerBackend} {action : Action} (hcomputed : Computed self)
    (hstep : self.step action = some next) : Computed next := by
  cases WhistleblowerBackend.step_cases hstep with
  | tick | same_file | no_file | no_document | unawaited | blank | idle_timer | timed_out | message_sent
  | message_error | broadcast_timer =>
    exact hcomputed.extend (fun _ h => h) (.inr ⟨rfl, rfl⟩) rfl rfl (.inr rfl)
  | new_file => exact hcomputed.extend (fun _ h => h) (.inl rfl) rfl rfl (.inl rfl)
  | refused | requested => exact hcomputed.extend (fun _ h => h) (.inr ⟨rfl, rfl⟩) rfl rfl (.inl rfl)
  | uncomputed =>
    exact hcomputed.extend (fun _ h => List.mem_append_left _ h) (.inr ⟨rfl, rfl⟩) rfl rfl (.inr rfl)
  | published i report upload callback metadataHashHex envelopeBytes signals hupload hreported hpending hcid henvelope =>
    have hmakes : Computation.Makes
        { callback, cid := WhistleblowerBackend.eventCid report.data, now := self.currentSecsSinceEpoch } metadataHashHex
        envelopeBytes := henvelope
    exact hcomputed.publish hmakes rfl rfl rfl rfl rfl rfl
  | anchoring message signals hbusy hcid hhash =>
    refine ⟨hcomputed.shown, ?_, hcomputed.broadcasts, ?_⟩
    · intro anchor hanchor
      obtain hanchor | hanchor := List.mem_append.mp hanchor
      · exact hcomputed.anchors anchor hanchor
      · rw [List.mem_singleton.mp hanchor]
        exact hcomputed.shown hcid hhash
    · intro hne
      obtain ⟨anchor, hanchor, hanswer⟩ := hcomputed.timestamp hne
      exact ⟨anchor, List.mem_append_left _ hanchor, hanswer⟩
  | anchor_failed i answer anchor msg signals hanchor hopen hanswer =>
    exact hcomputed.answered hanchor hopen rfl rfl rfl rfl rfl (.inr rfl)
  | anchored i answer anchor signals hanchor hopen hanswer =>
    exact hcomputed.answered hanchor hopen rfl rfl rfl rfl rfl (.inl ⟨hanswer, rfl⟩)

end Computed

omit [Sha256] [Qt] in
/-- Every computation is under a CID that the handler picked from the report of an upload. -/
def Picked (backend : WhistleblowerBackend) : Prop :=
  ∀ computation ∈ backend.computed, ∃ upload ∈ backend.uploads, upload.picked = some computation.cid

omit [Sha256] [Qt] in
/-- What was picked before stays when another upload is reported. -/
theorem Picked.reported {self : WhistleblowerBackend} (hpicked : Picked self) {i : Nat} {upload : Upload}
    (hupload : self.uploads[i]? = some upload) (hopen : upload.reported = none) (report : Report) :
    Picked (self.reported i report) := by
  intro computation hcomputation
  obtain ⟨found, hfound, hcid⟩ := hpicked computation hcomputation
  obtain ⟨other, hother, _, hsame⟩ : ∃ other ∈ (self.reported i report).uploads,
      other.file = found.file ∧ other.picked = some computation.cid :=
    exists_picked_next hupload hopen ⟨found, hfound, rfl, hcid⟩
  exact ⟨other, hother, hsame⟩

omit [Sha256] [Qt] in
/-- An upload is reported, and the computation under the CID that is picked is noted. -/
theorem Picked.compute {self next : WhistleblowerBackend} (hpicked : Picked self) {i : Nat} {upload : Upload}
    (hupload : self.uploads[i]? = some upload) (hopen : upload.reported = none) {report : Report}
    {computation : Computation} (hcid : computation.cid = WhistleblowerBackend.eventCid report.data)
    (huploads : next.uploads = (self.reported i report).uploads)
    (hcomputed : next.computed = self.computed ++ [computation]) : Picked next := by
  intro other hother
  rw [huploads]
  rw [hcomputed] at hother
  obtain hother | hother := List.mem_append.mp hother
  · exact hpicked.reported hupload hopen report other hother
  · rw [List.mem_singleton.mp hother, hcid]
    exact ⟨_, mem_modify_iff.mpr (.inl ⟨upload, hupload, rfl⟩), rfl⟩

theorem Picked.step {self next : WhistleblowerBackend} {action : Action} (hpicked : Picked self)
    (hstep : self.step action = some next) : Picked next := by
  cases WhistleblowerBackend.step_cases hstep with
  | requested =>
    intro computation hcomputation
    obtain ⟨upload, hupload, hcid⟩ := hpicked computation hcomputation
    exact ⟨upload, List.mem_append_left _ hupload, hcid⟩
  | unawaited i report upload hupload hopen => exact hpicked.reported hupload hopen report
  | blank i report upload callback hupload hopen => exact hpicked.reported hupload hopen report
  | uncomputed i report upload callback msg signals hupload hopen =>
    exact hpicked.compute hupload hopen rfl rfl rfl
  | published i report upload callback metadataHashHex envelopeBytes signals hupload hopen =>
    have hquiet := fun shown : WhistleblowerBackend => Quiet.broadcastEnvelope shown contentTopic envelopeBytes
    exact hpicked.compute hupload hopen rfl (hquiet _).uploads (hquiet _).computed
  | timed_out i callback =>
    intro computation hcomputation
    obtain ⟨found, hfound, hcid⟩ := hpicked computation hcomputation
    obtain ⟨other, hother, _, hsame⟩ := exists_picked (i := callback.upload)
      (f := fun upload => { upload with timedOut := true }) (fun _ _ _ => ⟨rfl, rfl⟩) ⟨found, hfound, rfl, hcid⟩
    exact ⟨other, hother, hsame⟩
  | _ => exact hpicked

omit [Sha256] [Qt] in
/-- Every anchor that was announced was answered. -/
def Heard (backend : WhistleblowerBackend) : Prop :=
  ∀ hash, .anchorComplete hash ∈ backend.signals.map Emission.signal → ∃ anchor ∈ backend.anchors, ∃ answer,
    anchor.answer = some answer ∧ answer.success = true ∧ answer.cid_hash = hash

/-- An answer stays. -/
theorem answered_kept {self next : WhistleblowerBackend} {action : Action} (hstep : self.step action = some next)
    {anchor : Anchor} (hanchor : anchor ∈ self.anchors) {answer : AnchorAnswer} (hanswer : anchor.answer = some answer) :
    anchor ∈ next.anchors := by
  have hmodified : ∀ (i : Nat) (asked : Anchor) (found : AnchorAnswer), self.anchors[i]? = some asked →
      asked.answer = none → anchor ∈ self.anchors.modify i fun anchor => { anchor with answer := some found } := by
    intro i asked found hasked hopen
    refine mem_modify_of_ne hanchor fun hsame => ?_
    rw [hasked] at hsame
    cases hsame
    rw [hopen] at hanswer
    cases hanswer
  cases WhistleblowerBackend.step_cases hstep with
  | published =>
    rw [(Quiet.broadcastEnvelope _ _ _).anchors]
    exact hanchor
  | anchoring => exact List.mem_append_left _ hanchor
  | anchor_failed i found asked _ _ hasked hopen => exact hmodified i asked found hasked hopen
  | anchored i found asked _ hasked hopen => exact hmodified i asked found hasked hopen
  | _ => exact hanchor

/-- An announcement is made for an answer. -/
theorem anchorComplete_of_toastsOf {self : WhistleblowerBackend} {action : Action} {hash : String}
    (hmem : .anchorComplete hash ∈ self.toastsOf action) :
    ∃ i answer, action = .anchorFinished i answer ∧ answer.success = true ∧ answer.cid_hash = hash := by
  cases action with
  | tick | setSelectedFile | messageError | broadcastTimeout => cases hmem
  | publish title description tagsCsv fi =>
    simp only [WhistleblowerBackend.toastsOf, WhistleblowerBackend.refusal] at hmem
    split_ifs at hmem <;> simp at hmem
  | anchorLast =>
    simp only [WhistleblowerBackend.toastsOf] at hmem
    split_ifs at hmem <;> simp at hmem
  | storageUploadDone i report =>
    rw [WhistleblowerBackend.toastsOf] at hmem
    split at hmem
    · split_ifs at hmem
      · cases hmem
      · have hcomputed := List.mem_singleton.mp hmem
        rw [Computation.toast] at hcomputed
        split at hcomputed <;> cases hcomputed
    · cases hmem
  | uploadTimeout i =>
    simp only [WhistleblowerBackend.toastsOf] at hmem
    split_ifs at hmem <;> simp at hmem
  | messageSent data =>
    simp only [WhistleblowerBackend.toastsOf] at hmem
    split_ifs at hmem <;> simp at hmem
  | anchorFinished i answer =>
    have hanswer := List.mem_singleton.mp hmem
    rw [AnchorAnswer.toast] at hanswer
    split at hanswer
    · rename_i hsuccess
      cases hanswer
      exact ⟨i, answer, rfl, hsuccess, rfl⟩
    · cases hanswer

theorem Heard.step {self next : WhistleblowerBackend} {action : Action} (hheard : Heard self)
    (hstep : self.step action = some next) : Heard next := by
  intro hash hsignal
  have htoast : .anchorComplete hash ∈ next.toasts := List.mem_filter.mpr ⟨hsignal, rfl⟩
  rw [(WhistleblowerBackend.step_emits hstep).toasts] at htoast
  obtain hearlier | hnew := List.mem_append.mp htoast
  · obtain ⟨anchor, hanchor, answer, hanswer, hsuccess, hsame⟩ := hheard hash (List.mem_of_mem_filter hearlier)
    exact ⟨anchor, answered_kept hstep hanchor hanswer, answer, hanswer, hsuccess, hsame⟩
  · obtain ⟨i, answer, rfl, hsuccess, hsame⟩ := anchorComplete_of_toastsOf hnew
    cases WhistleblowerBackend.step_cases hstep with
    | anchor_failed _ _ _ _ _ _ _ hfailed =>
      rw [hsuccess] at hfailed
      cases hfailed
    | anchored _ _ anchor _ hanchor =>
      exact ⟨_, mem_modify_iff.mpr (.inl ⟨anchor, hanchor, rfl⟩), answer, rfl, hsuccess, hsame⟩

/-- The backend, and the calls of `whistleblower_anchor_one` that it makes on the chain. -/
structure Desktop [Nssa] where
  bridge : Bridge
  backend : WhistleblowerBackend

variable [QtNested] [Nssa]

omit [Sha256] [Qt] [QtNested] [Nssa] in
/-- All that can happen to the backend but for its anchoring calls. -/
def Action.isLocal : Action → Bool
  | .anchorLast => false
  | .anchorFinished _ _ => false
  | _ => true

omit [QtNested] in
/-- The call that an `anchorLast` makes. -/
def Anchor.call (settings : FfiSettings) (host : Host) (anchor : Anchor) : FfiCall :=
  .begun host .anchor_one (some (Qt.toJson (anchorOneArgs settings anchor.cid anchor.metadataHashHex)))

/-- One step: the chain or a call goes on, the backend does something, a call begins for an
    `anchorLast` that finds a document, or the answer of a call is handed to the backend. -/
inductive DesktopStep (program_id : ProgramId) (desktop : Desktop) : Desktop → Prop where
  | moved (bridge : Bridge) (hmoves : Moves program_id desktop.bridge bridge) :
      DesktopStep program_id desktop { desktop with bridge }
  | acted (action : Action) (hlocal : action.isLocal = true) (backend : WhistleblowerBackend)
      (hstep : desktop.backend.step action = some backend) : DesktopStep program_id desktop { desktop with backend }
  | anchoring (settings : FfiSettings) (host : Host) (hbuilds : host.Builds program_id)
      (backend : WhistleblowerBackend) (hstep : desktop.backend.step .anchorLast = some backend) :
      DesktopStep program_id desktop {
        bridge := { desktop.bridge with
          calls := desktop.bridge.calls ++
            (backend.anchors.drop desktop.backend.anchors.length).map (Anchor.call settings host) }
        backend }
  | finished (i : Nat) (call : FfiCall) (hcall : desktop.bridge.calls[i]? = some call) (answer : List UInt8)
      (hanswered : call.answered = some answer) (backend : WhistleblowerBackend)
      (hstep : desktop.backend.step (.anchorFinished i (readAnswer answer)) = some backend) :
      DesktopStep program_id desktop { desktop with backend }

/-- Neither the chain nor the backend has been used. -/
structure Desktop.Initial (program_id : ProgramId) (desktop : Desktop) : Prop where
  bridge : desktop.bridge.Initial program_id
  backend : ∃ storageAvailable deliveryAvailable now,
    desktop.backend = .constructed storageAvailable deliveryAvailable now

/-- A call is for the anchor of its number, and what that anchor was answered is the call's answer. -/
structure Serves (anchor : Anchor) (call : FfiCall) : Prop where
  function : call.function = .anchor_one
  args : ∃ settings, call.args_json = some (Qt.toJson (anchorOneArgs settings anchor.cid anchor.metadataHashHex))
  answer : ∀ answer ∈ anchor.answer, ∃ result, call.answered = some result ∧ answer = readAnswer result

structure Desktop.Invariant (program_id : ProgramId) (desktop : Desktop) : Prop where
  bridge : desktop.bridge.Invariant program_id
  computed : Computed desktop.backend
  picked : Picked desktop.backend
  heard : Heard desktop.backend
  calls : List.Forall₂ Serves desktop.backend.anchors desktop.bridge.calls

variable {program_id : ProgramId} {initial desktop next last : Desktop}

omit [QtNested] [Nssa] in
theorem anchors_of_local {self next : WhistleblowerBackend} {action : Action} (hlocal : action.isLocal = true)
    (hstep : self.step action = some next) : next.anchors = self.anchors := by
  cases WhistleblowerBackend.step_cases hstep with
  | published => exact (Quiet.broadcastEnvelope _ _ _).anchors
  | no_document | anchoring | anchor_failed | anchored => cases hlocal
  | _ => rfl

omit [QtNested] [Nssa] in
/-- An `anchorLast` makes at most one call. -/
theorem anchors_of_anchorLast {self next : WhistleblowerBackend} (hstep : self.step .anchorLast = some next) :
    next.anchors = self.anchors ∨
      ∃ anchor : Anchor, anchor.answer = none ∧ next.anchors = self.anchors ++ [anchor] := by
  cases WhistleblowerBackend.step_cases hstep with
  | no_document => exact .inl rfl
  | anchoring => exact .inr ⟨_, rfl, rfl⟩

omit [QtNested] [Nssa] in
theorem anchors_of_anchorFinished {self next : WhistleblowerBackend} {i : Nat} {answer : AnchorAnswer}
    (hstep : self.step (.anchorFinished i answer) = some next) :
    next.anchors = self.anchors.modify i fun anchor => { anchor with answer := some answer } := by
  cases WhistleblowerBackend.step_cases hstep with
  | anchor_failed | anchored => rfl

/-- To the chain a desktop is a program that calls the FFI. -/
theorem DesktopStep.bridged (hstep : DesktopStep program_id desktop next) :
    Relation.ReflTransGen (BridgeStep program_id) desktop.bridge next.bridge := by
  cases hstep with
  | moved bridge hmoves => exact .single (.moved bridge hmoves)
  | acted => exact .refl
  | anchoring settings host hbuilds backend hacted =>
    obtain hsame | ⟨anchor, _, hmore⟩ := anchors_of_anchorLast hacted
    · simp only [hsame, List.drop_length, List.map_nil, List.append_nil]
      exact .refl
    · simp only [hmore, List.drop_left, List.map_cons, List.map_nil]
      exact .single (.called host hbuilds _ _)
  | finished => exact .refl

theorem bridged_of_run (hsteps : Relation.ReflTransGen (DesktopStep program_id) desktop next) :
    Relation.ReflTransGen (BridgeStep program_id) desktop.bridge next.bridge := by
  induction hsteps with
  | refl => exact .refl
  | tail _ hstep ih => exact ih.trans hstep.bridged

omit [Sha256] [Qt] [QtNested] [Nssa] in
theorem forall₂_getElem? {A B : Type} {R : A → B → Prop} {as : List A} {bs : List B}
    (hrelated : List.Forall₂ R as bs) {i : Nat} {a : A} (ha : as[i]? = some a) : ∃ b, bs[i]? = some b ∧ R a b := by
  induction hrelated generalizing i with
  | nil =>
    rw [List.getElem?_nil] at ha
    cases ha
  | cons hfirst hrest ih =>
    cases i with
    | zero =>
      cases ha
      exact ⟨_, rfl, hfirst⟩
    | succ j => exact ih ha

omit [Sha256] [Qt] [QtNested] [Nssa] in
/-- A related element may be replaced by another one that is related to the same. -/
theorem forall₂_set {A B : Type} {R : A → B → Prop} {as : List A} {bs : List B} (hrelated : List.Forall₂ R as bs)
    {i : Nat} {b after : B} (hb : bs[i]? = some b) (hkept : ∀ a, R a b → R a after) :
    List.Forall₂ R as (bs.set i after) := by
  induction hrelated generalizing i with
  | nil => exact .nil
  | cons hfirst hrest ih =>
    cases i with
    | zero =>
      cases hb
      exact .cons (hkept _ hfirst) hrest
    | succ j => exact .cons hfirst (ih hb)

omit [Sha256] [Qt] [QtNested] [Nssa] in
theorem forall₂_modify {A B : Type} {R : A → B → Prop} {as : List A} {bs : List B} (hrelated : List.Forall₂ R as bs)
    {i : Nat} {b : B} (hb : bs[i]? = some b) {f : A → A} (hkept : ∀ a, R a b → R (f a) b) :
    List.Forall₂ R (as.modify i f) bs := by
  induction hrelated generalizing i with
  | nil =>
    rw [List.getElem?_nil] at hb
    cases hb
  | cons hfirst hrest ih =>
    cases i with
    | zero =>
      cases hb
      exact .cons (hkept _ hfirst) hrest
    | succ j => exact .cons hfirst (ih hb)

omit [Sha256] in
/-- A call that asks for something has not answered its anchor. -/
theorem Serves.proceeds {anchor : Anchor} {call : FfiCall} (hserves : Serves anchor call) {request : LezCall}
    {resume : request.Response → Async LezIo (List UInt8)} (hpending : call.pending = .ask request resume)
    (pending : Async LezIo (List UInt8)) : Serves anchor { call with pending } := by
  refine ⟨hserves.function, hserves.args, ?_⟩
  intro answer hanswer
  obtain ⟨result, hresult, _⟩ := hserves.answer answer hanswer
  rw [FfiCall.answered, hpending] at hresult
  cases hresult

theorem Desktop.Invariant.of_initial (hinitial : desktop.Initial program_id) : desktop.Invariant program_id := by
  obtain ⟨hbridge, _, _, _, hbackend⟩ := hinitial
  refine ⟨.of_initial hbridge, ?_, ?_, ?_, ?_⟩
  · rw [hbackend]
    exact .constructed _ _ _
  · rw [hbackend]
    exact fun computation hcomputation => nomatch hcomputation
  · rw [hbackend]
    exact fun hash hsignal => nomatch hsignal
  · rw [hbackend, hbridge.calls]
    exact .nil

theorem Desktop.Invariant.step (hinjective : PdaInjective program_id) (hinvariant : desktop.Invariant program_id)
    (hstep : DesktopStep program_id desktop next) : next.Invariant program_id := by
  obtain ⟨hbridge, _⟩ := hinvariant.bridge.run hinjective hstep.bridged
  cases hstep with
  | moved bridge hmoves =>
    refine ⟨hbridge, hinvariant.computed, hinvariant.picked, hinvariant.heard, ?_⟩
    cases hmoves with
    | others => exact hinvariant.calls
    | replied i call hcall request resume hpending =>
      exact forall₂_set hinvariant.calls hcall fun _ hserves => hserves.proceeds hpending _
    | unwound i call hcall request resume hpending =>
      exact forall₂_set hinvariant.calls hcall fun _ hserves => hserves.proceeds hpending _
  | acted action hlocal backend hacted =>
    refine ⟨hbridge, hinvariant.computed.step hacted, hinvariant.picked.step hacted, hinvariant.heard.step hacted, ?_⟩
    rw [anchors_of_local hlocal hacted]
    exact hinvariant.calls
  | anchoring settings host hbuilds backend hacted =>
    refine ⟨hbridge, hinvariant.computed.step hacted, hinvariant.picked.step hacted, hinvariant.heard.step hacted, ?_⟩
    obtain hsame | ⟨anchor, hopen, hmore⟩ := anchors_of_anchorLast hacted
    · simp only [hsame, List.drop_length, List.map_nil, List.append_nil]
      exact hinvariant.calls
    · simp only [hmore, List.drop_left, List.map_cons, List.map_nil]
      refine List.rel_append hinvariant.calls (.cons ⟨rfl, ⟨settings, rfl⟩, ?_⟩ .nil)
      intro answer hanswer
      rw [hopen] at hanswer
      cases hanswer
  | finished i call hcall answer hanswered backend hacted =>
    refine ⟨hbridge, hinvariant.computed.step hacted, hinvariant.picked.step hacted, hinvariant.heard.step hacted, ?_⟩
    rw [anchors_of_anchorFinished hacted]
    refine forall₂_modify hinvariant.calls hcall fun anchor hserves => ⟨hserves.function, hserves.args, ?_⟩
    intro found hfound
    cases hfound
    exact ⟨answer, hanswered, rfl⟩

theorem Desktop.Invariant.run (hinjective : PdaInjective program_id) (hinvariant : desktop.Invariant program_id)
    (hsteps : Relation.ReflTransGen (DesktopStep program_id) desktop next) : next.Invariant program_id := by
  induction hsteps with
  | refl => exact hinvariant
  | tail _ hstep ih => exact ih.step hinjective hstep

/-- A success that the backend was told is an entry of the registry, from then on. -/
theorem Desktop.Invariant.answered (hqt : Qt.Documented) (hnested : QtNested.Documented) (hwrites : Qt.Writes)
    (hinvariant : desktop.Invariant program_id) {world : World}
    (hextends : Extends (entries_of program_id desktop.bridge.world) (entries_of program_id world)) {anchor : Anchor}
    (hanchor : anchor ∈ desktop.backend.anchors) {answer : AnchorAnswer} (hanswer : anchor.answer = some answer)
    (hsuccess : answer.success = true) :
    ∃ cid entry, CanonicalCid.new anchor.cid = .ok cid ∧ entries_of program_id world (cid_hash cid) = some entry ∧
      answer.Tells entry := by
  obtain ⟨i, hi⟩ := List.getElem?_of_mem hanchor
  obtain ⟨call, hcall, hfunction, ⟨settings, hargs⟩, hanswers⟩ := forall₂_getElem? hinvariant.calls hi
  obtain ⟨result, hresult, rfl⟩ := hanswers answer hanswer
  obtain ⟨_, hensures⟩ := hinvariant.bridge.calls i call hcall
  have hgiven := answered_ensures hresult (hensures.moves hextends)
  rw [hfunction, hargs] at hgiven
  obtain ⟨v, cid, entry, hreads, hcid, hentry, htells⟩ := readAnswer_of_answers hqt hnested hgiven hsuccess
  have hread := (anchorOneArgs_read hwrites hreads).1
  rw [hcid] at hread
  exact ⟨cid, entry, eq_ok_of_toOption hread.symm, hentry, htells⟩

/-- What an anchor writes was computed. -/
theorem Desktop.Invariant.written (hqt : Qt.Documented) (hwrites : Qt.Writes)
    (hinvariant : desktop.Invariant program_id) {hash : CidHash} {entry : AnchorEntry}
    (hentry : entries_of program_id desktop.bridge.world hash = some entry) :
    (∃ tx, (none, tx) ∈ desktop.bridge.world.executed ∧ entry ∈ new_entries tx) ∨
      ∃ computation ∈ desktop.backend.computed, ∃ metadataHashHex envelopeBytes,
        computation.Makes metadataHashHex envelopeBytes ∧ CanonicalCid.new computation.cid = .ok entry.cid ∧
          entry.metadata_hash.digest = Sha256.digest envelopeBytes := by
  obtain hother | ⟨call, hcall, _, v, hreads, hcid, hhash⟩ := hinvariant.bridge.given hentry
  · exact .inl hother
  · obtain ⟨i, hi⟩ := List.getElem?_of_mem hcall
    obtain ⟨anchor, hanchor, _, ⟨settings, hargs⟩, _⟩ := forall₂_getElem? hinvariant.calls.flip hi
    obtain ⟨computation, hcomputation, hsame, envelopeBytes, hmakes⟩ :=
      hinvariant.computed.anchors anchor (List.mem_of_getElem? hanchor)
    rw [hargs] at hreads
    obtain ⟨hcid_of, hhash_of⟩ := anchorOneArgs_read hwrites hreads
    rw [hcid] at hcid_of
    rw [hhash] at hhash_of
    obtain ⟨_, _, _, hhex⟩ := Computation.Makes.envelope hqt hwrites hmakes
    have hparse := parse_metadata_hash_hex_encode ⟨Sha256.digest envelopeBytes⟩
    rw [← hhex, eq_ok_of_toOption hhash_of.symm] at hparse
    refine .inr ⟨computation, hcomputation, _, envelopeBytes, hmakes, ?_, ?_⟩
    · rw [hsame]
      exact eq_ok_of_toOption hcid_of.symm
    · rw [Except.ok.inj hparse]

/-- A step chosen by its numbers, with the same settings and on one host throughout. -/
inductive DesktopTurn where
  | act (action : Action)
  | anchor
  | serve (index : Nat)
  | execute (position : Nat)
  | finish (index : Nat)

def Desktop.act (program_id : ProgramId) (settings : FfiSettings) (host : Host) (self : Desktop) :
    DesktopTurn → Option Desktop
  | .act action =>
    if action.isLocal then (self.backend.step action).map fun backend => { self with backend } else none
  | .anchor => do
    let backend ← self.backend.step .anchorLast
    some {
      bridge := { self.bridge with
        calls := self.bridge.calls ++
          (backend.anchors.drop self.backend.anchors.length).map (Anchor.call settings host) }
      backend }
  | .serve index => (self.bridge.act program_id host (.serve index)).map fun bridge => { self with bridge }
  | .execute position => (self.bridge.act program_id host (.execute position)).map fun bridge => { self with bridge }
  | .finish index => do
    let call ← self.bridge.calls[index]?
    let answer ← call.answered
    let backend ← self.backend.step (.anchorFinished index (readAnswer answer))
    some { self with backend }

theorem Desktop.step_of_act {settings : FfiSettings} {host : Host} (hbuilds : host.Builds program_id)
    {turn : DesktopTurn} (hact : desktop.act program_id settings host turn = some next) :
    DesktopStep program_id desktop next := by
  cases turn with
  | act action =>
    rw [act] at hact
    split at hact
    · rename_i hlocal
      obtain ⟨backend, hbackend, rfl⟩ := Option.map_eq_some_iff.mp hact
      exact .acted action hlocal backend hbackend
    · cases hact
  | anchor =>
    obtain ⟨backend, hbackend, hnext⟩ := Option.bind_eq_some_iff.mp hact
    cases hnext
    exact .anchoring settings host hbuilds backend hbackend
  | serve index =>
    obtain ⟨bridge, hbridge, rfl⟩ := Option.map_eq_some_iff.mp hact
    exact .moved bridge (Bridge.moves_of_serve hbridge).1
  | execute position =>
    obtain ⟨bridge, hbridge, rfl⟩ := Option.map_eq_some_iff.mp hact
    exact .moved bridge (Bridge.moves_of_execute hbridge).1
  | finish index =>
    simp only [act, Option.bind_eq_bind, Option.bind_eq_some_iff] at hact
    obtain ⟨call, hcall, answer, hanswer, backend, hbackend, hnext⟩ := hact
    cases hnext
    exact .finished index call hcall answer hanswer backend hbackend

theorem Desktop.steps_of_run {settings : FfiSettings} {host : Host} (hbuilds : host.Builds program_id)
    {turns : List DesktopTurn} (hrun : transition.run (Desktop.act program_id settings host) desktop turns = some next) :
    Relation.ReflTransGen (DesktopStep program_id) desktop next :=
  transition.run_relates (fun _ => .refl) (fun _ _ _ => .trans)
    (fun _ _ _ hact => .single (Desktop.step_of_act hbuilds hact)) hrun

omit [Sha256] [Qt] [QtNested] in
/-- A backend with its modules, on a chain that has not been used. -/
def unusedDesktop : Desktop where
  bridge := unusedBridge
  backend := .constructed true true 7

omit [Sha256] [Qt] [QtNested] in
theorem initial_unusedDesktop (program_id : ProgramId) : unusedDesktop.Initial program_id :=
  ⟨initial_unusedBridge program_id, true, true, 7, rfl⟩

end

/-- A file is published, and anchored by a call of four requests. -/
def publishThenAnchor : List DesktopTurn := [
  .act (.setSelectedFile "file:///first.txt"),
  .act (.publish "First" "" "" (some { size := 1, mimeType := "text/plain" })),
  .act (.storageUploadDone 0 { cid := "zFirst", data := ["zFirst"] }),
  .anchor, .serve 0, .serve 0, .execute 0, .serve 0, .serve 0, .finish 0]

def sampleSettings : FfiSettings where
  m_walletPath := ".scaffold/wallet"
  m_sequencerUrl := "http://127.0.0.1:3040"
  programBin := ""

section

variable [Sha256] [Qt] [QtNested] [Nssa] {program_id : ProgramId} {initial desktop last : Desktop}

/-- What the backend shows as anchored is anchored. An answer that it took for a success
    names an entry that the registry has from then on, under the CID of the call, and every
    announcement and every time that it shows are from such an answer. -/
theorem shown_anchors_stand (hqt : Qt.Documented) (hnested : QtNested.Documented) (hwrites : Qt.Writes)
    (hinjective : PdaInjective program_id) (hinitial : initial.Initial program_id)
    (hreached : Relation.ReflTransGen (DesktopStep program_id) initial desktop)
    (hlater : Relation.ReflTransGen (DesktopStep program_id) desktop last) :
    (∀ anchor ∈ desktop.backend.anchors, ∀ answer ∈ anchor.answer, answer.success = true →
        ∃ cid entry, CanonicalCid.new anchor.cid = .ok cid ∧
          (registry program_id last.bridge.world.chain).entries (cid_hash cid) = some entry ∧ answer.Tells entry) ∧
      (∀ hash, .anchorComplete hash ∈ desktop.backend.signals.map Emission.signal →
        ∃ anchor ∈ desktop.backend.anchors, ∃ answer ∈ anchor.answer, answer.success = true ∧ answer.cid_hash = hash) ∧
      (desktop.backend.m_lastAnchorTimestamp ≠ 0 → ∃ anchor ∈ desktop.backend.anchors,
        ∃ answer ∈ anchor.answer, answer.success = true ∧
          answer.anchor_timestamp = desktop.backend.m_lastAnchorTimestamp) := by
  have hinvariant := (Desktop.Invariant.of_initial hinitial).run hinjective hreached
  obtain ⟨_, hextends⟩ := hinvariant.bridge.run hinjective (bridged_of_run hlater)
  refine ⟨?_, hinvariant.heard, hinvariant.computed.timestamp⟩
  intro anchor hanchor answer hanswer hsuccess
  exact hinvariant.answered hqt hnested hwrites hextends hanchor hanswer hsuccess

end

theorem shown_anchors_stand_anchored :
    let program_id : ProgramId := Vector.replicate 8 1
    ∃ last, transition.run (Desktop.act program_id sampleSettings (sampleHost program_id)) unusedDesktop
        publishThenAnchor = some last ∧
      ∃ anchor ∈ last.backend.anchors, ∃ answer ∈ anchor.answer, ∃ cid entry,
        CanonicalCid.new anchor.cid = .ok cid ∧
          (registry program_id last.bridge.world.chain).entries (cid_hash cid) = some entry ∧ answer.Tells entry := by
  intro program_id
  have hrun : (transition.run (Desktop.act program_id sampleSettings (sampleHost program_id)) unusedDesktop
      publishThenAnchor).any (fun last => last.backend.anchors.any fun anchor =>
        anchor.answer.any AnchorAnswer.success) = true := by
    decide +kernel
  obtain ⟨last, hlast, hanchors⟩ := (Option.any_eq_true _ _).mp hrun
  obtain ⟨anchor, hanchor, hanswers⟩ := List.any_eq_true.mp hanchors
  obtain ⟨answer, hanswer, hsuccess⟩ := (Option.any_eq_true _ _).mp hanswers
  obtain ⟨hstands, _, _⟩ := shown_anchors_stand Qt.documented_standard QtNested.documented_standard Qt.writes_standard
    (pdaInjective_seedAddressed program_id) (initial_unusedDesktop program_id)
    (Desktop.steps_of_run (builds_sampleHost program_id) hlast) .refl
  exact ⟨last, hlast, anchor, hanchor, answer, hanswer, hstands anchor hanchor answer hanswer hsuccess⟩

section

variable [Sha256] [Qt] [QtNested] [Nssa] {program_id : ProgramId} {initial desktop : Desktop}

/-- What the backend broadcasts, and what it writes to the registry, was computed. Every entry
    that no one else wrote has the hash of the bytes of an envelope that was made for its CID,
    every broadcast is the Base64 text of such bytes, and every CID that an envelope was made
    for is one that the handler picked from the report of an upload. -/
theorem anchored_entries_were_computed (hqt : Qt.Documented) (hwrites : Qt.Writes)
    (hinjective : PdaInjective program_id) (hinitial : initial.Initial program_id)
    (hreached : Relation.ReflTransGen (DesktopStep program_id) initial desktop) :
    (∀ hash entry, (registry program_id desktop.bridge.world.chain).entries hash = some entry →
      (∃ tx, (none, tx) ∈ desktop.bridge.world.executed ∧ entry ∈ new_entries tx) ∨
        ∃ computation ∈ desktop.backend.computed, ∃ metadataHashHex envelopeBytes,
          computation.Makes metadataHashHex envelopeBytes ∧ CanonicalCid.new computation.cid = .ok entry.cid ∧
            entry.metadata_hash.digest = Sha256.digest envelopeBytes) ∧
      (∀ broadcast ∈ desktop.backend.broadcasts, ∃ computation ∈ desktop.backend.computed,
        ∃ metadataHashHex envelopeBytes, computation.Makes metadataHashHex envelopeBytes ∧
          broadcast = ⟨contentTopic, String.ofList (base64.encode envelopeBytes)⟩) ∧
      (∀ computation ∈ desktop.backend.computed, ∃ upload ∈ desktop.backend.uploads,
        upload.picked = some computation.cid) ∧
      ∀ computation ∈ desktop.backend.computed, ∀ metadataHashHex envelopeBytes,
        computation.Makes metadataHashHex envelopeBytes → ∃ envelope : MetadataEnvelopeV1,
          CanonicalCid.new computation.cid = .ok envelope.cid ∧ envelope.canonical_json_bytes = .ok envelopeBytes ∧
            metadataHashHex = text.hex_encode (Sha256.digest envelopeBytes).toList := by
  have hinvariant := (Desktop.Invariant.of_initial hinitial).run hinjective hreached
  refine ⟨fun hash entry hentry => hinvariant.written hqt hwrites hentry, ?_, hinvariant.picked, ?_⟩
  · intro broadcast hbroadcast
    obtain ⟨computation, hcomputation, hex, bytes, hmakes, rfl⟩ := hinvariant.computed.broadcasts broadcast hbroadcast
    have hcodes : ∀ c ∈ base64.encode bytes, c.toNat < 256 := by
      intro c hc
      have := base64.encode_ascii bytes c hc
      omega
    refine ⟨computation, hcomputation, hex, bytes, hmakes, ?_⟩
    rw [hqt.toBase64, fromLatin1_codes hcodes]
  · exact fun computation _ _ _ hmakes => hmakes.envelope hqt hwrites

end

theorem anchored_entries_were_computed_anchored :
    let program_id : ProgramId := Vector.replicate 8 1
    ∃ last, transition.run (Desktop.act program_id sampleSettings (sampleHost program_id)) unusedDesktop
        publishThenAnchor = some last ∧
      ∃ entry, (registry program_id last.bridge.world.chain).entries (cid_hash ⟨"zFirst"⟩) = some entry ∧
        ((∃ tx, (none, tx) ∈ last.bridge.world.executed ∧ entry ∈ new_entries tx) ∨
          ∃ computation ∈ last.backend.computed, ∃ metadataHashHex envelopeBytes,
            computation.Makes metadataHashHex envelopeBytes ∧ CanonicalCid.new computation.cid = .ok entry.cid ∧
              entry.metadata_hash.digest = Sha256.digest envelopeBytes) ∧
        ∀ computation ∈ last.backend.computed, ∃ upload ∈ last.backend.uploads,
          upload.picked = some computation.cid := by
  intro program_id
  have hrun : (transition.run (Desktop.act program_id sampleSettings (sampleHost program_id)) unusedDesktop
      publishThenAnchor).any (fun last =>
        ((registry program_id last.bridge.world.chain).entries (cid_hash ⟨"zFirst"⟩)).isSome) = true := by
    decide +kernel
  obtain ⟨last, hlast, hstored⟩ := (Option.any_eq_true _ _).mp hrun
  obtain ⟨entry, hentry⟩ := Option.isSome_iff_exists.mp hstored
  obtain ⟨hwritten, _, hpicked, _⟩ := anchored_entries_were_computed Qt.documented_standard Qt.writes_standard
    (pdaInjective_seedAddressed program_id) (initial_unusedDesktop program_id)
    (Desktop.steps_of_run (builds_sampleHost program_id) hlast)
  exact ⟨last, hlast, entry, hentry, hwritten _ entry hentry, hpicked⟩

end whistleblower_ui
