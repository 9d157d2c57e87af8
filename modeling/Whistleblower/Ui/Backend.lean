import Whistleblower.Ffi.Entry
import Whistleblower.Ui.Qt

open whistleblower_ffi

namespace whistleblower_ui

/-- What `QFileInfo` and `QMimeDatabase` tell about a file that can be read. -/
structure FileInfo where
  size : Int
  mimeType : String
  deriving DecidableEq, Repr

/-- The description of a file. -/
structure Metadata where
  title : String
  description : String
  contentType : String
  sizeBytes : Int
  tags : List String
  deriving DecidableEq, Repr

/-- The continuation of `publish`: what it captures, and the number of the upload that it
    was made for. -/
structure UploadCallback where
  upload : Nat
  metadata : Metadata
  deriving DecidableEq, Repr

/-- The continuation of a broadcast, with the number of the broadcast. -/
structure PublishCallback where
  broadcast : Nat
  deriving DecidableEq, Repr

inductive Signal where
  | selectedFileChanged
  | lastCidChanged
  | lastAnchorTimestampChanged
  | lastErrorChanged
  | busyChanged
  | stageChanged
  | uploadComplete (cid : String)
  | broadcastComplete (messageHash : String)
  | anchorComplete (cidHash : String)
  | error (stage msg : String)
  deriving DecidableEq, Repr

/-- What the getters of the object return. -/
structure Properties where
  selectedFile : String
  lastCid : String
  lastAnchorTimestamp : Int
  lastError : String
  busyMessage : String
  busy : Bool
  stage : Nat
  deriving DecidableEq, Repr

/-- A signal, with what the getters return when it is emitted. -/
structure Emission where
  signal : Signal
  properties : Properties
  deriving DecidableEq, Repr

/-- A `storageUploadDone` event: the CID that the storage module reports, and the data in
    which it does. -/
structure Report where
  cid : String
  data : List String
  deriving DecidableEq, Repr

/-- An `uploadUrl` request: the file, its description in the `publish` that made the
    request, the event that reported it, and whether a safety timer took its callback. -/
structure Upload where
  file : String
  metadata : Metadata
  reported : Option Report
  timedOut : Bool
  deriving DecidableEq, Repr

/-- A `send` request. -/
structure Broadcast where
  topic : String
  payload : String
  deriving DecidableEq, Repr

/-- What a `QJsonObject` from `whistleblower_anchor_one` tells. -/
structure AnchorAnswer where
  success : Bool
  error : Option String
  anchor_timestamp : Int
  cid_hash : String
  deriving DecidableEq, Repr

/-- A call of `whistleblower_anchor_one`, with its answer when it has finished. -/
structure Anchor where
  cid : String
  metadataHashHex : String
  answer : Option AnchorAnswer
  deriving DecidableEq, Repr

/-- A call of `computeEnvelope` in a continuation. -/
structure Computation where
  callback : UploadCallback
  cid : String
  now : Int
  deriving DecidableEq, Repr

/-- The object, followed by the clock and by what it has emitted, requested, armed and
    called. Timers are named by the request that they were armed for. -/
structure WhistleblowerBackend where
  storageAvailable : Bool
  deliveryAvailable : Bool
  m_pendingUploadCallback : Option UploadCallback
  m_pendingPublishCallback : Option PublishCallback
  m_selectedFile : String
  m_lastCid : String
  m_lastMetadataHashHex : String
  m_lastAnchorTimestamp : Int
  m_lastError : String
  m_busyMessage : String
  m_busy : Bool
  m_stage : Nat
  currentSecsSinceEpoch : Int
  signals : List Emission
  uploads : List Upload
  uploadTimers : List Nat
  broadcasts : List Broadcast
  broadcastTimers : List Nat
  computed : List Computation
  anchors : List Anchor
  deriving DecidableEq, Repr

def contentTopic : String := "/lp0017-whistleblower/1/cids/json"

namespace WhistleblowerBackend

/-- The object after its construction. -/
def constructed (storageAvailable deliveryAvailable : Bool) (now : Int) : WhistleblowerBackend where
  storageAvailable := storageAvailable
  deliveryAvailable := deliveryAvailable
  m_pendingUploadCallback := none
  m_pendingPublishCallback := none
  m_selectedFile := ""
  m_lastCid := ""
  m_lastMetadataHashHex := ""
  m_lastAnchorTimestamp := 0
  m_lastError := ""
  m_busyMessage := ""
  m_busy := false
  m_stage := 0
  currentSecsSinceEpoch := now
  signals := []
  uploads := []
  uploadTimers := []
  broadcasts := []
  broadcastTimers := []
  computed := []
  anchors := []

def properties (self : WhistleblowerBackend) : Properties where
  selectedFile := self.m_selectedFile
  lastCid := self.m_lastCid
  lastAnchorTimestamp := self.m_lastAnchorTimestamp
  lastError := self.m_lastError
  busyMessage := self.m_busyMessage
  busy := self.m_busy
  stage := self.m_stage

def emit (self : WhistleblowerBackend) (signal : Signal) : WhistleblowerBackend :=
  { self with signals := self.signals ++ [{ signal, properties := self.properties }] }

def setBusy (self : WhistleblowerBackend) (busy : Bool) (message : String) : WhistleblowerBackend :=
  if self.m_busy = busy ∧ self.m_busyMessage = message then self
  else { self with m_busy := busy, m_busyMessage := message }.emit .busyChanged

def setStage (self : WhistleblowerBackend) (s : Nat) : WhistleblowerBackend :=
  if self.m_stage = s then self else { self with m_stage := s }.emit .stageChanged

def setError (self : WhistleblowerBackend) (stage msg : String) : WhistleblowerBackend :=
  ((({ self with m_lastError := msg }.emit .lastErrorChanged).emit (.error stage msg)).setBusy false "")

def clearLastCid (self : WhistleblowerBackend) : WhistleblowerBackend :=
  if self.m_lastCid = "" then self else { self with m_lastCid := "" }.emit .lastCidChanged

def clearLastAnchorTimestamp (self : WhistleblowerBackend) : WhistleblowerBackend :=
  if self.m_lastAnchorTimestamp = 0 then self
  else { self with m_lastAnchorTimestamp := 0 }.emit .lastAnchorTimestampChanged

/-- A path without the scheme that the file dialog puts before it. -/
def normalize (filePath : String) : String :=
  if "file://".toList.isPrefixOf filePath.toList then String.ofList (filePath.toList.drop 7) else filePath

/-- A new selection forgets what was published of the old one. -/
def setSelectedFile (self : WhistleblowerBackend) (filePath : String) : WhistleblowerBackend :=
  let normalized := normalize filePath
  if self.m_selectedFile = normalized then self
  else
    let self := { self with m_selectedFile := normalized }.emit .selectedFileChanged
    let self := { self.clearLastCid with m_lastMetadataHashHex := "" }
    self.clearLastAnchorTimestamp.setStage 0

end WhistleblowerBackend

section

variable [Sha256] [Qt]

/-- The arguments of `whistleblower_compute_metadata_hash`. -/
def envelopeArgs (cid : String) (metadata : Metadata) (now : Int) : QJsonObject := [
  ("cid", .string cid),
  ("title", .string metadata.title),
  ("description", .string metadata.description),
  ("content_type", .string metadata.contentType),
  ("size_bytes", .double metadata.sizeBytes),
  ("timestamp_unix", .double now),
  ("tags", .array metadata.tags)]

/-- The hash and the bytes that the FFI makes of a description under a CID, or its error. -/
def envelopeOf (cid : String) (metadata : Metadata) (now : Int) : Except String (String × List UInt8) :=
  let result := whistleblower_compute_metadata_hash (Qt.toJson (envelopeArgs cid metadata now))
  if Qt.toBool result "success" then
    .ok ((Qt.toString? result "metadata_hash_hex").getD "",
      Qt.fromBase64 (text.bytes ((Qt.toString? result "envelope_bytes_b64").getD "")))
  else .error ((Qt.toString? result "error").getD "unknown")

namespace WhistleblowerBackend

def computeEnvelope (self : WhistleblowerBackend) (cid : String) (metadata : Metadata) :
    WhistleblowerBackend × Option (String × List UInt8) :=
  match envelopeOf cid metadata self.currentSecsSinceEpoch with
  | .ok envelope => (self, some envelope)
  | .error e => (self.setError "compute envelope" e, none)

omit [Sha256] [Qt] in
/-- What a broadcast does when it is over. -/
def broadcastContinuation (self : WhistleblowerBackend) (messageHash : String) : WhistleblowerBackend :=
  if messageHash = "" then self else self.emit (.broadcastComplete messageHash)

omit [Sha256] in
def broadcastEnvelope (self : WhistleblowerBackend) (topic : String) (envelopeBytes : List UInt8) :
    WhistleblowerBackend :=
  if ¬self.deliveryAvailable then self.broadcastContinuation ""
  else if self.m_pendingPublishCallback.isSome then self.broadcastContinuation ""
  else
    let broadcast := self.broadcasts.length
    { self with
      m_pendingPublishCallback := some { broadcast }
      broadcasts := self.broadcasts ++ [{ topic, payload := fromLatin1 (Qt.toBase64 envelopeBytes) }]
      broadcastTimers := self.broadcastTimers ++ [broadcast] }

/-- What `publish` does when the upload is over. -/
def publishContinuation (self : WhistleblowerBackend) (callback : UploadCallback) (cid : String) :
    WhistleblowerBackend :=
  if cid = "" then self
  else
    let self := self.setBusy true "computing metadata hash…"
    let computation : Computation := { callback, cid, now := self.currentSecsSinceEpoch }
    let self := { self with computed := self.computed ++ [computation] }
    match self.computeEnvelope cid callback.metadata with
    | (self, none) => self
    | (self, some (metadataHashHex, envelopeBytes)) =>
      let self := { self with m_lastCid := cid, m_lastMetadataHashHex := metadataHashHex }
      let self := (self.emit .lastCidChanged).emit (.uploadComplete cid)
      let self := (self.setStage 2).setBusy false ""
      self.broadcastEnvelope contentTopic envelopeBytes

def uploadToStorage (self : WhistleblowerBackend) (filePath : String) (onComplete : UploadCallback) :
    WhistleblowerBackend :=
  if ¬self.storageAvailable then
    let self := self.setError "upload" "storage_module not available — running outside Basecamp host?"
    self.publishContinuation onComplete ""
  else if self.m_pendingUploadCallback.isSome then
    let self := self.setError "upload" "another upload already in flight"
    self.publishContinuation onComplete ""
  else
    let upload : Upload := { file := filePath, metadata := onComplete.metadata, reported := none, timedOut := false }
    { self with
      m_pendingUploadCallback := some onComplete
      uploads := self.uploads ++ [upload]
      uploadTimers := self.uploadTimers ++ [onComplete.upload] }

/-- `tagsCsv.split(',', Qt::SkipEmptyParts)`, trimmed. -/
def tagsOf (tagsCsv : String) : List String :=
  ((tagsCsv.toList.splitOn ',').filter (· ≠ [])).map fun tag => text.trim (String.ofList tag)

def publish (self : WhistleblowerBackend) (title description tagsCsv : String) (fi : Option FileInfo) :
    WhistleblowerBackend :=
  if self.m_selectedFile = "" then self.setError "publish" "no file selected"
  else
    match fi with
    | none => self.setError "publish" ("file does not exist or is not readable: " ++ self.m_selectedFile)
    | some fi =>
      let metadata : Metadata := {
        title, description
        contentType := fi.mimeType
        sizeBytes := fi.size
        tags := tagsOf tagsCsv }
      let self := (self.setBusy true "uploading to Logos Storage…").setStage 1
      let self := { self with m_lastError := "" }.emit .lastErrorChanged
      let self := self.clearLastAnchorTimestamp
      self.uploadToStorage self.m_selectedFile { upload := self.uploads.length, metadata }

omit [Sha256] [Qt] in
def anchorLast (self : WhistleblowerBackend) : WhistleblowerBackend :=
  if self.m_lastCid = "" ∨ self.m_lastMetadataHashHex = "" then
    self.setError "anchor" "no published document to anchor"
  else
    let anchor : Anchor := { cid := self.m_lastCid, metadataHashHex := self.m_lastMetadataHashHex, answer := none }
    let self := self.setBusy true "anchoring on LEZ…"
    { self with anchors := self.anchors ++ [anchor] }

omit [Sha256] [Qt] in
/-- The watcher of an anchoring call has finished. -/
def anchorFinished (self : WhistleblowerBackend) (answer : AnchorAnswer) : WhistleblowerBackend :=
  if ¬answer.success then self.setError "anchor" (answer.error.getD "unknown")
  else
    let self := { self with m_lastAnchorTimestamp := answer.anchor_timestamp }
    let self := (self.emit .lastAnchorTimestampChanged).emit (.anchorComplete answer.cid_hash)
    (self.setStage 3).setBusy false ""

omit [Sha256] [Qt] in
/-- The CID in the data of an event: the first text that looks like one, or else the last. -/
def eventCid (data : List String) : String :=
  let looksLikeCid (s : String) : Bool := "z".toList.isPrefixOf s.toList || "bafy".toList.isPrefixOf s.toList
  match data.find? looksLikeCid with
  | some cid => cid
  | none => data.getLast?.getD ""

omit [Sha256] [Qt] in
-- a session id before the CID is passed over, unless it looks like one
example : eventCid ["17", "bafy-a"] = "bafy-a" ∧ eventCid ["zs-17", "bafy-a"] = "zs-17" := by decide

def storageUploadDone (self : WhistleblowerBackend) (data : List String) : WhistleblowerBackend :=
  match self.m_pendingUploadCallback with
  | some cb => { self with m_pendingUploadCallback := none }.publishContinuation cb (eventCid data)
  | none => self

omit [Sha256] [Qt] in
def messageSent (self : WhistleblowerBackend) (data : List String) : WhistleblowerBackend :=
  match self.m_pendingPublishCallback with
  | some _ => { self with m_pendingPublishCallback := none }.broadcastContinuation (data[1]?.getD "")
  | none => self

omit [Sha256] [Qt] in
/-- A failed or overdue broadcast. Its callback gets no hash. -/
def broadcastFailed (self : WhistleblowerBackend) : WhistleblowerBackend :=
  match self.m_pendingPublishCallback with
  | some _ => { self with m_pendingPublishCallback := none }.broadcastContinuation ""
  | none => self

/-- A safety timer of an upload fires. -/
def uploadTimeout (self : WhistleblowerBackend) : WhistleblowerBackend :=
  match self.m_pendingUploadCallback with
  | some cb =>
    let uploads := self.uploads.modify cb.upload fun upload => { upload with timedOut := true }
    let self := { self with m_pendingUploadCallback := none, uploads }
    (self.setError "upload" "timed out waiting for storageUploadDone (60s)").publishContinuation cb ""
  | none => self

end WhistleblowerBackend

end

/-- The CID that the handler takes from the report of an upload. -/
def Upload.picked (self : Upload) : Option String :=
  self.reported.map fun report => WhistleblowerBackend.eventCid report.data

/-- What can happen next. The user publishes and anchors only while nothing is in progress,
    and the storage module reports an upload once. -/
inductive Action where
  | tick (now : Int)
  | setSelectedFile (filePath : String)
  | publish (title description tagsCsv : String) (fi : Option FileInfo)
  | anchorLast
  | storageUploadDone (upload : Nat) (report : Report)
  | uploadTimeout (upload : Nat)
  | messageSent (data : List String)
  | messageError (data : List String)
  | broadcastTimeout (broadcast : Nat)
  | anchorFinished (anchor : Nat) (answer : AnchorAnswer)
  deriving DecidableEq, Repr

namespace WhistleblowerBackend

variable [Sha256] [Qt]

def step (self : WhistleblowerBackend) : Action → Option WhistleblowerBackend
  | .tick now => some { self with currentSecsSinceEpoch := now }
  | .setSelectedFile filePath => some (self.setSelectedFile filePath)
  | .publish title description tagsCsv fi =>
    if self.m_busy then none else some (self.publish title description tagsCsv fi)
  | .anchorLast => if self.m_busy then none else some self.anchorLast
  | .storageUploadDone upload report =>
    if (self.uploads[upload]?.map Upload.reported) = some none then
      let uploads := self.uploads.modify upload fun upload => { upload with reported := some report }
      some ({ self with uploads }.storageUploadDone report.data)
    else none
  | .uploadTimeout upload =>
    if upload ∈ self.uploadTimers then
      some { self with uploadTimers := self.uploadTimers.erase upload }.uploadTimeout
    else none
  | .messageSent data => some (self.messageSent data)
  | .messageError _ => some self.broadcastFailed
  | .broadcastTimeout broadcast =>
    if broadcast ∈ self.broadcastTimers then
      some { self with broadcastTimers := self.broadcastTimers.erase broadcast }.broadcastFailed
    else none
  | .anchorFinished anchor answer =>
    if (self.anchors[anchor]?.map Anchor.answer) = some none then
      let anchors := self.anchors.modify anchor fun anchor => { anchor with answer := some answer }
      some ({ self with anchors }.anchorFinished answer)
    else none

end WhistleblowerBackend

end whistleblower_ui
