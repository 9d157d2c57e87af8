import Whistleblower.Ui.Backend

namespace whistleblower_ui.WhistleblowerBackend

theorem setBusy_eq (self : WhistleblowerBackend) (busy : Bool) (message : String) :
    ∃ signals, self.setBusy busy message = { self with m_busy := busy, m_busyMessage := message, signals } := by
  rw [setBusy]
  split
  · rename_i hsame
    obtain ⟨rfl, rfl⟩ := hsame
    exact ⟨self.signals, rfl⟩
  · exact ⟨_, rfl⟩

theorem setStage_eq (self : WhistleblowerBackend) (s : Nat) :
    ∃ signals, self.setStage s = { self with m_stage := s, signals } := by
  rw [setStage]
  split
  · rename_i hsame
    subst hsame
    exact ⟨self.signals, rfl⟩
  · exact ⟨_, rfl⟩

theorem setError_eq (self : WhistleblowerBackend) (stage msg : String) :
    ∃ signals, self.setError stage msg =
      { self with m_lastError := msg, m_busy := false, m_busyMessage := "", signals } := by
  rw [setError]
  obtain ⟨signals, hbusy⟩ := setBusy_eq
    (({ self with m_lastError := msg }.emit .lastErrorChanged).emit (.error stage msg)) false ""
  exact ⟨signals, hbusy⟩

theorem clearLastCid_eq (self : WhistleblowerBackend) :
    ∃ signals, self.clearLastCid = { self with m_lastCid := "", signals } := by
  rw [clearLastCid]
  split
  · rename_i hempty
    exact ⟨self.signals, by rw [← hempty]⟩
  · exact ⟨_, rfl⟩

theorem clearLastAnchorTimestamp_eq (self : WhistleblowerBackend) :
    ∃ signals, self.clearLastAnchorTimestamp = { self with m_lastAnchorTimestamp := 0, signals } := by
  rw [clearLastAnchorTimestamp]
  split
  · rename_i hzero
    exact ⟨self.signals, by rw [← hzero]⟩
  · exact ⟨_, rfl⟩

theorem broadcastContinuation_eq (self : WhistleblowerBackend) (messageHash : String) :
    ∃ signals, self.broadcastContinuation messageHash = { self with signals } := by
  rw [broadcastContinuation]
  split
  · exact ⟨self.signals, rfl⟩
  · exact ⟨_, rfl⟩

/-- A broadcast is sent if the module is there and no other is pending. -/
theorem broadcastEnvelope_cases [Qt] (self : WhistleblowerBackend) (topic : String) (envelopeBytes : List UInt8) :
    self.broadcastEnvelope topic envelopeBytes = self ∨
      self.m_pendingPublishCallback = none ∧ ∃ broadcast, self.broadcastEnvelope topic envelopeBytes = { self with
        m_pendingPublishCallback := some { broadcast := self.broadcasts.length }
        broadcasts := self.broadcasts ++ [broadcast]
        broadcastTimers := self.broadcastTimers ++ [self.broadcasts.length] } := by
  rw [broadcastEnvelope]
  split
  · exact .inl rfl
  · split
    · exact .inl rfl
    · rename_i hpending
      exact .inr ⟨Option.not_isSome_iff_eq_none.mp hpending, _, rfl⟩

/-- What is set when a handler fails. -/
def failed (self : WhistleblowerBackend) (msg : String) (signals : List Emission) : WhistleblowerBackend :=
  { self with m_lastError := msg, m_busy := false, m_busyMessage := "", signals }

/-- The upload is marked as reported. -/
def reported (self : WhistleblowerBackend) (upload : Nat) (report : Report) : WhistleblowerBackend :=
  { self with uploads := self.uploads.modify upload fun upload => { upload with reported := some report } }

variable [Sha256] [Qt]

/-- Everything an action can do, with what enables it. What is emitted is left open. -/
inductive Stepped (self : WhistleblowerBackend) : Action → WhistleblowerBackend → Prop where
  | tick (now : Int) : Stepped self (.tick now) { self with currentSecsSinceEpoch := now }
  | same_file (filePath : String) (hfile : self.m_selectedFile = normalize filePath) :
      Stepped self (.setSelectedFile filePath) self
  | new_file (filePath : String) (signals : List Emission) (hfile : self.m_selectedFile ≠ normalize filePath) :
      Stepped self (.setSelectedFile filePath) { self with
        m_selectedFile := normalize filePath
        m_lastCid := ""
        m_lastMetadataHashHex := ""
        m_lastAnchorTimestamp := 0
        m_stage := 0
        signals }
  | no_file (title description tagsCsv : String) (fi : Option FileInfo) (msg : String) (signals : List Emission)
      (hbusy : self.m_busy = false) (hfile : self.m_selectedFile = "" ∨ fi = none) :
      Stepped self (.publish title description tagsCsv fi) (self.failed msg signals)
  | refused (title description tagsCsv : String) (fi : FileInfo) (msg : String) (signals : List Emission)
      (hbusy : self.m_busy = false) (hfile : self.m_selectedFile ≠ "")
      (hrefused : self.storageAvailable = false ∨ self.m_pendingUploadCallback ≠ none) :
      Stepped self (.publish title description tagsCsv (some fi))
        (failed { self with m_stage := 1, m_lastAnchorTimestamp := 0 } msg signals)
  | requested (title description tagsCsv : String) (fi : FileInfo) (metadata : Metadata) (message : String)
      (signals : List Emission) (hbusy : self.m_busy = false) (hfile : self.m_selectedFile ≠ "")
      (hstorage : self.storageAvailable = true) (hpending : self.m_pendingUploadCallback = none)
      (hmetadata : metadata = {
        title, description, contentType := fi.mimeType, sizeBytes := fi.size, tags := tagsOf tagsCsv }) :
      Stepped self (.publish title description tagsCsv (some fi)) { self with
        m_lastError := ""
        m_busy := true
        m_busyMessage := message
        m_stage := 1
        m_lastAnchorTimestamp := 0
        m_pendingUploadCallback := some { upload := self.uploads.length, metadata }
        uploads := self.uploads ++ [{ file := self.m_selectedFile, metadata, reported := none, timedOut := false }]
        uploadTimers := self.uploadTimers ++ [self.uploads.length]
        signals }
  | no_document (msg : String) (signals : List Emission) (hbusy : self.m_busy = false)
      (hdocument : self.m_lastCid = "" ∨ self.m_lastMetadataHashHex = "") :
      Stepped self .anchorLast (self.failed msg signals)
  | anchoring (message : String) (signals : List Emission) (hbusy : self.m_busy = false) (hcid : self.m_lastCid ≠ "")
      (hhash : self.m_lastMetadataHashHex ≠ "") :
      Stepped self .anchorLast { self with
        m_busy := true
        m_busyMessage := message
        anchors := self.anchors ++
          [{ cid := self.m_lastCid, metadataHashHex := self.m_lastMetadataHashHex, answer := none }]
        signals }
  | unawaited (i : Nat) (report : Report) (upload : Upload) (hupload : self.uploads[i]? = some upload)
      (hreported : upload.reported = none) (hpending : self.m_pendingUploadCallback = none) :
      Stepped self (.storageUploadDone i report) (self.reported i report)
  | blank (i : Nat) (report : Report) (upload : Upload) (callback : UploadCallback)
      (hupload : self.uploads[i]? = some upload) (hreported : upload.reported = none)
      (hpending : self.m_pendingUploadCallback = some callback) (hcid : eventCid report.data = "") :
      Stepped self (.storageUploadDone i report) { self.reported i report with m_pendingUploadCallback := none }
  | uncomputed (i : Nat) (report : Report) (upload : Upload) (callback : UploadCallback)
      (msg : String) (signals : List Emission) (hupload : self.uploads[i]? = some upload)
      (hreported : upload.reported = none) (hpending : self.m_pendingUploadCallback = some callback)
      (hcid : eventCid report.data ≠ "")
      (henvelope : envelopeOf (eventCid report.data) callback.metadata self.currentSecsSinceEpoch = .error msg) :
      Stepped self (.storageUploadDone i report) (failed { self.reported i report with
        m_pendingUploadCallback := none
        computed := self.computed ++
          [{ callback, cid := eventCid report.data, now := self.currentSecsSinceEpoch }] } msg signals)
  | published (i : Nat) (report : Report) (upload : Upload) (callback : UploadCallback)
      (metadataHashHex : String) (envelopeBytes : List UInt8) (signals : List Emission)
      (hupload : self.uploads[i]? = some upload) (hreported : upload.reported = none)
      (hpending : self.m_pendingUploadCallback = some callback) (hcid : eventCid report.data ≠ "")
      (henvelope : envelopeOf (eventCid report.data) callback.metadata self.currentSecsSinceEpoch =
        .ok (metadataHashHex, envelopeBytes)) :
      Stepped self (.storageUploadDone i report) (broadcastEnvelope { self.reported i report with
        m_pendingUploadCallback := none
        computed := self.computed ++ [{ callback, cid := eventCid report.data, now := self.currentSecsSinceEpoch }]
        m_lastCid := eventCid report.data
        m_lastMetadataHashHex := metadataHashHex
        m_stage := 2
        m_busy := false
        m_busyMessage := ""
        signals } contentTopic envelopeBytes)
  | idle_timer (i : Nat) (hi : i ∈ self.uploadTimers) (hpending : self.m_pendingUploadCallback = none) :
      Stepped self (.uploadTimeout i) { self with uploadTimers := self.uploadTimers.erase i }
  | timed_out (i : Nat) (callback : UploadCallback) (msg : String) (signals : List Emission)
      (hi : i ∈ self.uploadTimers) (hpending : self.m_pendingUploadCallback = some callback) :
      Stepped self (.uploadTimeout i) (failed { self with
        uploadTimers := self.uploadTimers.erase i
        m_pendingUploadCallback := none
        uploads := self.uploads.modify callback.upload fun upload =>
          { upload with timedOut := true } } msg signals)
  | message_sent (data : List String) (signals : List Emission) :
      Stepped self (.messageSent data) { self with m_pendingPublishCallback := none, signals }
  | message_error (data : List String) :
      Stepped self (.messageError data) { self with m_pendingPublishCallback := none }
  | broadcast_timer (i : Nat) (hi : i ∈ self.broadcastTimers) :
      Stepped self (.broadcastTimeout i) { self with
        broadcastTimers := self.broadcastTimers.erase i
        m_pendingPublishCallback := none }
  | anchor_failed (i : Nat) (answer : AnchorAnswer) (anchor : Anchor) (msg : String) (signals : List Emission)
      (hanchor : self.anchors[i]? = some anchor) (hopen : anchor.answer = none) (hanswer : answer.success = false) :
      Stepped self (.anchorFinished i answer) (failed { self with
        anchors := self.anchors.modify i fun anchor => { anchor with answer := some answer } } msg signals)
  | anchored (i : Nat) (answer : AnchorAnswer) (anchor : Anchor) (signals : List Emission)
      (hanchor : self.anchors[i]? = some anchor) (hopen : anchor.answer = none) (hanswer : answer.success = true) :
      Stepped self (.anchorFinished i answer) { self with
        anchors := self.anchors.modify i fun anchor => { anchor with answer := some answer }
        m_lastAnchorTimestamp := answer.anchor_timestamp
        m_stage := 3
        m_busy := false
        m_busyMessage := ""
        signals }

theorem setSelectedFile_cases (self : WhistleblowerBackend) (filePath : String) :
    Stepped self (.setSelectedFile filePath) (self.setSelectedFile filePath) := by
  rw [setSelectedFile]
  dsimp only
  split
  · rename_i hfile
    exact .same_file filePath hfile
  · rename_i hfile
    generalize hselected : ({ self with m_selectedFile := normalize filePath }.emit .selectedFileChanged) = selected
    obtain ⟨first, hcid⟩ := selected.clearLastCid_eq
    obtain ⟨second, htimestamp⟩ :=
      clearLastAnchorTimestamp_eq { selected.clearLastCid with m_lastMetadataHashHex := "" }
    rw [htimestamp, hcid]
    obtain ⟨third, hstage⟩ := setStage_eq { selected with
      m_lastCid := "", m_lastMetadataHashHex := "", m_lastAnchorTimestamp := 0, signals := second } 0
    rw [hstage, ← hselected]
    exact .new_file filePath third hfile

theorem publishContinuation_empty (self : WhistleblowerBackend) (callback : UploadCallback) :
    self.publishContinuation callback "" = self := if_pos rfl

/-- An upload is requested, unless the module is missing or another upload is pending. -/
theorem uploadToStorage_cases (self : WhistleblowerBackend) (filePath : String) (callback : UploadCallback) :
    (self.storageAvailable = false ∨ self.m_pendingUploadCallback ≠ none) ∧
        (∃ msg signals, self.uploadToStorage filePath callback = self.failed msg signals) ∨
      self.storageAvailable = true ∧ self.m_pendingUploadCallback = none ∧
        self.uploadToStorage filePath callback = { self with
          m_pendingUploadCallback := some callback
          uploads := self.uploads ++
            [{ file := filePath, metadata := callback.metadata, reported := none, timedOut := false }]
          uploadTimers := self.uploadTimers ++ [callback.upload] } := by
  rw [uploadToStorage]
  by_cases hstorage : self.storageAvailable = true
  · rw [if_neg (not_not_intro hstorage)]
    cases hpending : self.m_pendingUploadCallback with
    | none => exact .inr ⟨hstorage, rfl, rfl⟩
    | some other =>
      obtain ⟨signals, herror⟩ := self.setError_eq "upload" "another upload already in flight"
      exact .inl ⟨.inr nofun, _, signals, (publishContinuation_empty _ callback).trans herror⟩
  · rw [if_pos hstorage]
    obtain ⟨signals, herror⟩ := self.setError_eq "upload"
      "storage_module not available — running outside Basecamp host?"
    exact .inl ⟨.inl (Bool.eq_false_iff.mpr hstorage), _, signals,
      (publishContinuation_empty _ callback).trans herror⟩

theorem publish_cases (self : WhistleblowerBackend) (title description tagsCsv : String) (fi : Option FileInfo)
    (hbusy : self.m_busy = false) :
    Stepped self (.publish title description tagsCsv fi) (self.publish title description tagsCsv fi) := by
  unfold WhistleblowerBackend.publish
  split
  · rename_i hfile
    obtain ⟨signals, herror⟩ := self.setError_eq "publish" "no file selected"
    rw [herror]
    exact .no_file title description tagsCsv fi _ signals hbusy (.inl hfile)
  · rename_i hfile
    cases fi with
    | none =>
      obtain ⟨signals, herror⟩ := self.setError_eq "publish"
        ("file does not exist or is not readable: " ++ self.m_selectedFile)
      dsimp only
      rw [herror]
      exact .no_file title description tagsCsv none _ signals hbusy (.inr rfl)
    | some fi =>
      -- what is shown before the upload is requested
      have hshown : ∃ signals, ({ (self.setBusy true "uploading to Logos Storage…").setStage 1 with
          m_lastError := "" }.emit .lastErrorChanged).clearLastAnchorTimestamp = { self with
            m_lastError := "", m_busy := true, m_busyMessage := "uploading to Logos Storage…"
            m_stage := 1, m_lastAnchorTimestamp := 0, signals } := by
        obtain ⟨first, hbusy⟩ := self.setBusy_eq true "uploading to Logos Storage…"
        rw [hbusy]
        obtain ⟨second, hstage⟩ := setStage_eq { self with
          m_busy := true, m_busyMessage := "uploading to Logos Storage…", signals := first } 1
        rw [hstage]
        obtain ⟨third, htimestamp⟩ := clearLastAnchorTimestamp_eq (emit { self with
          m_lastError := "", m_busy := true, m_busyMessage := "uploading to Logos Storage…", m_stage := 1
          signals := second } .lastErrorChanged)
        exact ⟨third, htimestamp⟩
      obtain ⟨shown, hshown⟩ := hshown
      dsimp only
      rw [hshown]
      obtain ⟨hrefused, msg, signals, hupload⟩ | ⟨hstorage, hpending, hupload⟩ := uploadToStorage_cases { self with
        m_lastError := "", m_busy := true, m_busyMessage := "uploading to Logos Storage…"
        m_stage := 1, m_lastAnchorTimestamp := 0, signals := shown } self.m_selectedFile
        { upload := self.uploads.length
          metadata := {
            title, description
            contentType := fi.mimeType
            sizeBytes := fi.size
            tags := tagsOf tagsCsv } }
      · rw [hupload]
        exact .refused title description tagsCsv fi msg signals hbusy hfile hrefused
      · rw [hupload]
        exact .requested title description tagsCsv fi _ _ shown hbusy hfile hstorage hpending rfl

theorem anchorLast_cases (self : WhistleblowerBackend) (hbusy : self.m_busy = false) :
    Stepped self .anchorLast self.anchorLast := by
  rw [anchorLast]
  split
  · rename_i hdocument
    obtain ⟨signals, herror⟩ := self.setError_eq "anchor" "no published document to anchor"
    rw [herror]
    exact .no_document _ signals hbusy hdocument
  · rename_i hdocument
    obtain ⟨hcid, hhash⟩ := not_or.mp hdocument
    obtain ⟨signals, hstart⟩ := self.setBusy_eq true "anchoring on LEZ…"
    rw [hstart]
    exact .anchoring _ signals hbusy hcid hhash

/-- A reported CID is dropped if it is empty. Otherwise its envelope is computed, and it is
    shown unless that fails. -/
theorem publishContinuation_cases (self : WhistleblowerBackend) (callback : UploadCallback) (cid : String) :
    cid = "" ∧ self.publishContinuation callback cid = self ∨
    cid ≠ "" ∧ (∃ msg signals, envelopeOf cid callback.metadata self.currentSecsSinceEpoch = .error msg ∧
      self.publishContinuation callback cid = failed { self with
        computed := self.computed ++ [{ callback, cid, now := self.currentSecsSinceEpoch }] } msg signals) ∨
    cid ≠ "" ∧ ∃ metadataHashHex envelopeBytes signals,
      envelopeOf cid callback.metadata self.currentSecsSinceEpoch = .ok (metadataHashHex, envelopeBytes) ∧
      self.publishContinuation callback cid = broadcastEnvelope { self with
        computed := self.computed ++ [{ callback, cid, now := self.currentSecsSinceEpoch }]
        m_lastCid := cid
        m_lastMetadataHashHex := metadataHashHex
        m_stage := 2
        m_busy := false
        m_busyMessage := ""
        signals } contentTopic envelopeBytes := by
  rw [publishContinuation]
  split
  · rename_i hcid
    exact .inl ⟨hcid, rfl⟩
  · rename_i hcid
    obtain ⟨first, hbusy⟩ := self.setBusy_eq true "computing metadata hash…"
    rw [hbusy]
    dsimp only
    rw [computeEnvelope]
    dsimp only
    cases henvelope : envelopeOf cid callback.metadata self.currentSecsSinceEpoch with
    | error e =>
      obtain ⟨signals, herror⟩ := setError_eq { self with
        m_busy := true
        m_busyMessage := "computing metadata hash…"
        computed := self.computed ++ [{ callback, cid, now := self.currentSecsSinceEpoch }]
        signals := first } "compute envelope" e
      exact .inr (.inl ⟨hcid, e, signals, rfl, herror⟩)
    | ok envelope =>
      obtain ⟨metadataHashHex, envelopeBytes⟩ := envelope
      have hshown : ∀ computed : WhistleblowerBackend, ∃ signals, (computed.setStage 2).setBusy false "" =
          { computed with m_stage := 2, m_busy := false, m_busyMessage := "", signals } := by
        intro computed
        obtain ⟨second, hstage⟩ := computed.setStage_eq 2
        rw [hstage]
        exact setBusy_eq { computed with m_stage := 2, signals := second } false ""
      obtain ⟨signals, hshown⟩ := hshown (emit (emit { self with
        m_busy := true
        m_busyMessage := "computing metadata hash…"
        computed := self.computed ++ [{ callback, cid, now := self.currentSecsSinceEpoch }]
        m_lastCid := cid
        m_lastMetadataHashHex := metadataHashHex
        signals := first } .lastCidChanged) (.uploadComplete cid))
      exact .inr (.inr ⟨hcid, metadataHashHex, envelopeBytes, signals, rfl,
        congrArg (broadcastEnvelope · contentTopic envelopeBytes) hshown⟩)

theorem storageUploadDone_cases (self : WhistleblowerBackend) (i : Nat) (report : Report)
    {upload : Upload} (hupload : self.uploads[i]? = some upload) (hreported : upload.reported = none) :
    Stepped self (.storageUploadDone i report) ((self.reported i report).storageUploadDone report.data) := by
  cases hpending : self.m_pendingUploadCallback with
  | none =>
    have hdone : (self.reported i report).storageUploadDone report.data = self.reported i report := by
      rw [storageUploadDone, reported]
      simp only [hpending]
    rw [hdone]
    exact .unawaited i report upload hupload hreported hpending
  | some callback =>
    have hdone : (self.reported i report).storageUploadDone report.data = publishContinuation
        { self.reported i report with m_pendingUploadCallback := none } callback (eventCid report.data) := by
      rw [storageUploadDone, reported]
      simp only [hpending]
    rw [hdone]
    obtain ⟨hcid, hcontinued⟩ | ⟨hcid, msg, signals, henvelope, hcontinued⟩ |
        ⟨hcid, metadataHashHex, envelopeBytes, signals, henvelope, hcontinued⟩ :=
      publishContinuation_cases { self.reported i report with m_pendingUploadCallback := none } callback (eventCid report.data)
    · rw [hcontinued]
      exact .blank i report upload callback hupload hreported hpending hcid
    · rw [hcontinued]
      exact .uncomputed i report upload callback msg signals hupload hreported hpending hcid henvelope
    · rw [hcontinued]
      exact .published i report upload callback metadataHashHex envelopeBytes signals hupload hreported hpending hcid
        henvelope

theorem uploadTimeout_cases (self : WhistleblowerBackend) {i : Nat} (hi : i ∈ self.uploadTimers) :
    Stepped self (.uploadTimeout i) (uploadTimeout { self with uploadTimers := self.uploadTimers.erase i }) := by
  rw [uploadTimeout]
  split
  · rename_i callback hpending
    rw [publishContinuation_empty]
    obtain ⟨signals, herror⟩ := setError_eq { self with
      uploadTimers := self.uploadTimers.erase i
      m_pendingUploadCallback := none
      uploads := self.uploads.modify callback.upload fun upload => { upload with timedOut := true } } "upload"
      "timed out waiting for storageUploadDone (60s)"
    rw [herror]
    exact .timed_out i callback _ signals hi hpending
  · rename_i hpending
    exact .idle_timer i hi hpending

omit [Sha256] [Qt] in
/-- A pending broadcast is over, and at most told. -/
theorem messageSent_eq (self : WhistleblowerBackend) (data : List String) :
    ∃ signals, self.messageSent data = { self with m_pendingPublishCallback := none, signals } := by
  rw [messageSent]
  split
  · exact broadcastContinuation_eq { self with m_pendingPublishCallback := none } _
  · rename_i hpending
    exact ⟨self.signals, by rw [← hpending]⟩

omit [Sha256] [Qt] in
theorem broadcastFailed_eq (self : WhistleblowerBackend) :
    self.broadcastFailed = { self with m_pendingPublishCallback := none } := by
  rw [broadcastFailed]
  split
  · rfl
  · rename_i hpending
    rw [← hpending]

theorem anchorFinished_cases (self : WhistleblowerBackend) (i : Nat) (answer : AnchorAnswer) {anchor : Anchor}
    (hanchor : self.anchors[i]? = some anchor) (hopen : anchor.answer = none) :
    Stepped self (.anchorFinished i answer) (anchorFinished { self with
      anchors := self.anchors.modify i fun anchor => { anchor with answer := some answer } } answer) := by
  rw [anchorFinished]
  split
  · rename_i hanswer
    obtain ⟨signals, herror⟩ := setError_eq { self with
      anchors := self.anchors.modify i fun anchor => { anchor with answer := some answer } } "anchor"
      (answer.error.getD "unknown")
    rw [herror]
    exact .anchor_failed i answer anchor _ signals hanchor hopen (Bool.eq_false_iff.mpr hanswer)
  · rename_i hanswer
    obtain ⟨first, hstage⟩ := setStage_eq (emit (emit { self with
      anchors := self.anchors.modify i fun anchor => { anchor with answer := some answer }
      m_lastAnchorTimestamp := answer.anchor_timestamp } .lastAnchorTimestampChanged)
      (.anchorComplete answer.cid_hash)) 3
    dsimp only
    rw [hstage]
    obtain ⟨signals, hidle⟩ := setBusy_eq { self with
      anchors := self.anchors.modify i fun anchor => { anchor with answer := some answer }
      m_lastAnchorTimestamp := answer.anchor_timestamp
      m_stage := 3
      signals := first } false ""
    exact hidle ▸ .anchored i answer anchor signals hanchor hopen (not_not.mp hanswer)

/-- A step does one of the things listed, and nothing else. -/
theorem step_cases {self next : WhistleblowerBackend} {action : Action} (hstep : self.step action = some next) :
    Stepped self action next := by
  cases action with
  | tick now =>
    obtain rfl := Option.some.inj hstep
    exact .tick now
  | setSelectedFile filePath =>
    obtain rfl := Option.some.inj hstep
    exact self.setSelectedFile_cases filePath
  | publish title description tagsCsv fi =>
    rw [step] at hstep
    split at hstep
    · cases hstep
    · rename_i hbusy
      obtain rfl := Option.some.inj hstep
      exact self.publish_cases title description tagsCsv fi (Bool.eq_false_iff.mpr hbusy)
  | anchorLast =>
    rw [step] at hstep
    split at hstep
    · cases hstep
    · rename_i hbusy
      obtain rfl := Option.some.inj hstep
      exact self.anchorLast_cases (Bool.eq_false_iff.mpr hbusy)
  | storageUploadDone i report =>
    rw [step] at hstep
    split at hstep
    · rename_i hreported
      obtain rfl := Option.some.inj hstep
      obtain ⟨upload, hupload, hnone⟩ := Option.map_eq_some_iff.mp hreported
      exact self.storageUploadDone_cases i report hupload hnone
    · cases hstep
  | uploadTimeout i =>
    rw [step] at hstep
    split at hstep
    · rename_i hi
      obtain rfl := Option.some.inj hstep
      exact self.uploadTimeout_cases hi
    · cases hstep
  | messageSent data =>
    obtain rfl := Option.some.inj hstep
    obtain ⟨signals, hsent⟩ := self.messageSent_eq data
    rw [hsent]
    exact .message_sent data signals
  | messageError data =>
    obtain rfl := Option.some.inj hstep
    rw [broadcastFailed_eq]
    exact .message_error data
  | broadcastTimeout i =>
    rw [step] at hstep
    split at hstep
    · rename_i hi
      obtain rfl := Option.some.inj hstep
      rw [broadcastFailed_eq]
      exact .broadcast_timer i hi
    · cases hstep
  | anchorFinished i answer =>
    rw [step] at hstep
    split at hstep
    · rename_i hanchor
      obtain rfl := Option.some.inj hstep
      obtain ⟨anchor, hfound, hopen⟩ := Option.map_eq_some_iff.mp hanchor
      exact self.anchorFinished_cases i answer hfound hopen
    · cases hstep

end whistleblower_ui.WhistleblowerBackend
