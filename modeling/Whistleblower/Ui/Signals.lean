import Whistleblower.Ui.Display

namespace whistleblower_ui

/-- What is exposed to QML. -/
inductive Property where
  | selectedFile
  | lastCid
  | lastAnchorTimestamp
  | lastError
  | busyMessage
  | busy
  | stage
  deriving DecidableEq, Repr

inductive PropertyValue where
  | text (s : String)
  | number (n : Int)
  | truth (b : Bool)
  deriving DecidableEq, Repr

namespace Property

/-- What QML gets when it reads a property. -/
def read (properties : Properties) : Property → PropertyValue
  | .selectedFile => .text properties.selectedFile
  | .lastCid => .text properties.lastCid
  | .lastAnchorTimestamp => .number properties.lastAnchorTimestamp
  | .lastError => .text properties.lastError
  | .busyMessage => .text properties.busyMessage
  | .busy => .truth properties.busy
  | .stage => .number properties.stage

/-- The signal that tells QML to read it again. -/
def notify : Property → Signal
  | .selectedFile => .selectedFileChanged
  | .lastCid => .lastCidChanged
  | .lastAnchorTimestamp => .lastAnchorTimestampChanged
  | .lastError => .lastErrorChanged
  | .busyMessage => .busyChanged
  | .busy => .busyChanged
  | .stage => .stageChanged

end Property

/-- The signals on which QML shows a toast. -/
def Signal.isToast : Signal → Bool
  | .uploadComplete _ => true
  | .broadcastComplete _ => true
  | .anchorComplete _ => true
  | .error _ _ => true
  | _ => false

def WhistleblowerBackend.toasts (self : WhistleblowerBackend) : List Signal :=
  (self.signals.map Emission.signal).filter Signal.isToast

/-- What QML shows of the properties. -/
abbrev View := Property → PropertyValue

namespace View

/-- On a signal QML reads again what it notifies, before the handler that emitted it goes on. -/
def notified (view : View) (emission : Emission) : View :=
  fun p => if p.notify = emission.signal then p.read emission.properties else view p

/-- QML hears the signals one after another. -/
def refresh (view : View) (emitted : List Emission) : View := emitted.foldl notified view

theorem refresh_append (view : View) (early late : List Emission) :
    view.refresh (early ++ late) = (view.refresh early).refresh late := List.foldl_append

end View

/-- From one state to another these toasts are shown, and a view of the one becomes a view of
    the other by what is emitted. -/
def Emits (self : WhistleblowerBackend) (toasts : List Signal) (next : WhistleblowerBackend) : Prop :=
  ∃ emitted, next.signals = self.signals ++ emitted ∧ (emitted.map Emission.signal).filter Signal.isToast = toasts ∧
    View.refresh (Property.read self.properties) emitted = Property.read next.properties

namespace Emits

theorem toasts {self next : WhistleblowerBackend} {toasts : List Signal} (hemits : Emits self toasts next) :
    next.toasts = self.toasts ++ toasts := by
  obtain ⟨emitted, hsignals, rfl, _⟩ := hemits
  rw [WhistleblowerBackend.toasts, hsignals, List.map_append, List.filter_append, WhistleblowerBackend.toasts]

theorem trans {first second third : WhistleblowerBackend} {front back : List Signal}
    (hfirst : Emits first front second) (hsecond : Emits second back third) : Emits first (front ++ back) third := by
  obtain ⟨early, hearly, rfl, hshown⟩ := hfirst
  obtain ⟨late, hlate, rfl, hshown'⟩ := hsecond
  refine ⟨early ++ late, ?_, ?_, ?_⟩
  · rw [hlate, hearly, List.append_assoc]
  · rw [List.map_append, List.filter_append]
  · rw [View.refresh_append, hshown, hshown']

/-- What is not exposed may change unnoticed. -/
theorem hidden (self next : WhistleblowerBackend) (hsignals : next.signals = self.signals)
    (hsame : next.properties = self.properties) : Emits self [] next := by
  refine ⟨[], ?_, rfl, ?_⟩
  · rw [hsignals, List.append_nil]
  · rw [hsame]
    rfl

theorem refl (self : WhistleblowerBackend) : Emits self [] self := hidden self self rfl rfl

/-- A signal that is emitted after the properties that it notifies were assigned, and no others. -/
theorem emit (self assigned : WhistleblowerBackend) (signal : Signal) (hsignals : assigned.signals = self.signals)
    (hsame : ∀ p : Property, p.notify ≠ signal → p.read assigned.properties = p.read self.properties) :
    Emits self ([signal].filter Signal.isToast) (assigned.emit signal) := by
  refine ⟨[{ signal, properties := assigned.properties }], ?_, rfl, ?_⟩
  · rw [WhistleblowerBackend.emit, hsignals]
  · funext p
    change (if p.notify = signal then p.read assigned.properties else p.read self.properties) =
      p.read assigned.properties
    split
    · rfl
    · rename_i hsilent
      exact (hsame p hsilent).symm

end Emits

namespace WhistleblowerBackend

theorem setBusy_emits (self : WhistleblowerBackend) (busy : Bool) (message : String) :
    Emits self [] (self.setBusy busy message) := by
  rw [setBusy]
  split
  · exact .refl self
  · refine Emits.emit self { self with m_busy := busy, m_busyMessage := message } .busyChanged rfl ?_
    intro p hsilent
    cases p with
    | busy | busyMessage => exact absurd rfl hsilent
    | _ => rfl

theorem setStage_emits (self : WhistleblowerBackend) (s : Nat) : Emits self [] (self.setStage s) := by
  rw [setStage]
  split
  · exact .refl self
  · refine Emits.emit self { self with m_stage := s } .stageChanged rfl ?_
    intro p hsilent
    cases p with
    | stage => exact absurd rfl hsilent
    | _ => rfl

theorem setError_emits (self : WhistleblowerBackend) (stage msg : String) :
    Emits self [.error stage msg] (self.setError stage msg) := by
  have herror : Emits self [] ({ self with m_lastError := msg }.emit .lastErrorChanged) := by
    refine Emits.emit self { self with m_lastError := msg } .lastErrorChanged rfl ?_
    intro p hsilent
    cases p with
    | lastError => exact absurd rfl hsilent
    | _ => rfl
  have htold := herror.trans (Emits.emit _ _ (.error stage msg) rfl fun _ _ => rfl)
  exact htold.trans (setBusy_emits _ false "")

theorem clearLastCid_emits (self : WhistleblowerBackend) : Emits self [] self.clearLastCid := by
  rw [clearLastCid]
  split
  · exact .refl self
  · refine Emits.emit self { self with m_lastCid := "" } .lastCidChanged rfl ?_
    intro p hsilent
    cases p with
    | lastCid => exact absurd rfl hsilent
    | _ => rfl

theorem clearLastAnchorTimestamp_emits (self : WhistleblowerBackend) :
    Emits self [] self.clearLastAnchorTimestamp := by
  rw [clearLastAnchorTimestamp]
  split
  · exact .refl self
  · refine Emits.emit self { self with m_lastAnchorTimestamp := 0 } .lastAnchorTimestampChanged rfl ?_
    intro p hsilent
    cases p with
    | lastAnchorTimestamp => exact absurd rfl hsilent
    | _ => rfl

theorem setSelectedFile_emits (self : WhistleblowerBackend) (filePath : String) :
    Emits self [] (self.setSelectedFile filePath) := by
  rw [setSelectedFile]
  dsimp only
  split
  · exact .refl self
  · have hfile : Emits self [] ({ self with m_selectedFile := normalize filePath }.emit .selectedFileChanged) := by
      refine Emits.emit self { self with m_selectedFile := normalize filePath } .selectedFileChanged rfl ?_
      intro p hsilent
      cases p with
      | selectedFile => exact absurd rfl hsilent
      | _ => rfl
    have hcid := hfile.trans (clearLastCid_emits _)
    generalize clearLastCid _ = cleared at hcid ⊢
    have hhash := hcid.trans (Emits.hidden cleared { cleared with m_lastMetadataHashHex := "" } rfl
      rfl)
    exact (hhash.trans (clearLastAnchorTimestamp_emits _)).trans (setStage_emits _ 0)

theorem broadcastContinuation_emits (self : WhistleblowerBackend) (messageHash : String) :
    Emits self (if messageHash = "" then [] else [.broadcastComplete messageHash])
      (self.broadcastContinuation messageHash) := by
  rw [broadcastContinuation]
  split
  · exact .refl self
  · exact Emits.emit self self (.broadcastComplete messageHash) rfl fun _ _ => rfl

theorem broadcastEnvelope_emits [Qt] (self : WhistleblowerBackend) (topic : String) (envelopeBytes : List UInt8) :
    Emits self [] (self.broadcastEnvelope topic envelopeBytes) := by
  obtain hsame | ⟨_, broadcast, hsent⟩ := self.broadcastEnvelope_cases topic envelopeBytes
  · rw [hsame]
    exact .refl self
  · rw [hsent]
    exact Emits.hidden self _ rfl rfl

end WhistleblowerBackend

section

variable [Sha256] [Qt]

/-- What a computation is told as. -/
def Computation.toast (self : Computation) : Signal :=
  match envelopeOf self.cid self.callback.metadata self.now with
  | .ok _ => .uploadComplete self.cid
  | .error e => .error "compute envelope" e

omit [Sha256] [Qt] in
/-- What an answer of the anchoring function is told as. -/
def AnchorAnswer.toast (self : AnchorAnswer) : Signal :=
  if self.success then .anchorComplete self.cid_hash else .error "anchor" (self.error.getD "unknown")

namespace WhistleblowerBackend

theorem publishContinuation_emits (self : WhistleblowerBackend) (callback : UploadCallback) (cid : String) :
    Emits self
      (if cid = "" then [] else [({ callback, cid, now := self.currentSecsSinceEpoch } : Computation).toast])
      (self.publishContinuation callback cid) := by
  rw [publishContinuation]
  split
  · exact .refl self
  · have hbusy := self.setBusy_emits true "computing metadata hash…"
    have hnow : (self.setBusy true "computing metadata hash…").currentSecsSinceEpoch = self.currentSecsSinceEpoch := by
      obtain ⟨signals, hsame⟩ := self.setBusy_eq true "computing metadata hash…"
      rw [hsame]
    generalize self.setBusy true "computing metadata hash…" = busy at hbusy hnow ⊢
    have hcomputing := hbusy.trans (Emits.hidden busy { busy with
      computed := busy.computed ++ [{ callback, cid, now := busy.currentSecsSinceEpoch }] } rfl
      rfl)
    rw [Computation.toast]
    dsimp only
    rw [computeEnvelope]
    dsimp only
    rw [hnow] at hcomputing ⊢
    cases henvelope : envelopeOf cid callback.metadata self.currentSecsSinceEpoch with
    | error e =>
      dsimp only
      exact hcomputing.trans (setError_emits _ "compute envelope" e)
    | ok envelope =>
      obtain ⟨metadataHashHex, envelopeBytes⟩ := envelope
      have hshown : ∀ computed : WhistleblowerBackend, Emits computed []
          ({ computed with m_lastCid := cid, m_lastMetadataHashHex := metadataHashHex }.emit .lastCidChanged) := by
        intro computed
        refine Emits.emit computed { computed with m_lastCid := cid, m_lastMetadataHashHex := metadataHashHex }
          .lastCidChanged rfl ?_
        intro p hsilent
        cases p with
        | lastCid => exact absurd rfl hsilent
        | _ => rfl
      have htold := (hcomputing.trans (hshown _)).trans
        (Emits.emit _ _ (.uploadComplete cid) rfl fun _ _ => rfl)
      dsimp only
      exact ((htold.trans (setStage_emits _ 2)).trans (setBusy_emits _ false "")).trans
        (broadcastEnvelope_emits _ contentTopic envelopeBytes)

/-- The error of a request that is not made. -/
def refusal (self : WhistleblowerBackend) : List Signal :=
  if self.storageAvailable = false then
    [.error "upload" "storage_module not available — running outside Basecamp host?"]
  else if self.m_pendingUploadCallback.isSome = true then [.error "upload" "another upload already in flight"]
  else []

theorem uploadToStorage_emits (self : WhistleblowerBackend) (filePath : String) (callback : UploadCallback) :
    Emits self self.refusal (self.uploadToStorage filePath callback) := by
  rw [uploadToStorage, refusal]
  simp only [Bool.not_eq_true, publishContinuation_empty]
  split
  · exact self.setError_emits "upload" _
  · split
    · exact self.setError_emits "upload" _
    · exact Emits.hidden self _ rfl rfl

/-- The toasts that an action shows. -/
def toastsOf (self : WhistleblowerBackend) : Action → List Signal
  | .publish _ _ _ fi =>
    if self.m_selectedFile = "" then [.error "publish" "no file selected"]
    else if fi.isSome = true then self.refusal
    else [.error "publish" ("file does not exist or is not readable: " ++ self.m_selectedFile)]
  | .anchorLast =>
    if self.m_lastCid = "" ∨ self.m_lastMetadataHashHex = "" then [.error "anchor" "no published document to anchor"]
    else []
  | .storageUploadDone _ report =>
    match self.m_pendingUploadCallback with
    | some callback =>
      if eventCid report.data = "" then []
      else [({ callback, cid := eventCid report.data, now := self.currentSecsSinceEpoch } : Computation).toast]
    | none => []
  | .uploadTimeout _ =>
    if self.m_pendingUploadCallback.isSome = true then
      [.error "upload" "timed out waiting for storageUploadDone (60s)"]
    else []
  | .messageSent data =>
    if self.m_pendingPublishCallback.isSome = true ∧ data[1]?.getD "" ≠ "" then
      [.broadcastComplete (data[1]?.getD "")]
    else []
  | .anchorFinished _ answer => [answer.toast]
  | _ => []

theorem publish_emits (self : WhistleblowerBackend) (title description tagsCsv : String) (fi : Option FileInfo) :
    Emits self (self.toastsOf (.publish title description tagsCsv fi))
      (self.publish title description tagsCsv fi) := by
  unfold WhistleblowerBackend.publish
  rw [toastsOf]
  split
  · exact self.setError_emits "publish" _
  · cases fi with
    | none => exact self.setError_emits "publish" _
    | some fi =>
      rw [Option.isSome_some, if_pos rfl]
      dsimp only
      have hbusy := self.setBusy_emits true "uploading to Logos Storage…"
      obtain ⟨first, hbusy_eq⟩ := self.setBusy_eq true "uploading to Logos Storage…"
      rw [hbusy_eq] at hbusy ⊢
      have hstage := hbusy.trans (setStage_emits _ 1)
      obtain ⟨second, hstage_eq⟩ := setStage_eq { self with
        m_busy := true, m_busyMessage := "uploading to Logos Storage…", signals := first } 1
      rw [hstage_eq] at hstage ⊢
      have hcleared : ∀ staged : WhistleblowerBackend,
          Emits staged [] ({ staged with m_lastError := "" }.emit .lastErrorChanged) := by
        intro staged
        refine Emits.emit staged { staged with m_lastError := "" } .lastErrorChanged rfl ?_
        intro p hsilent
        cases p with
        | lastError => exact absurd rfl hsilent
        | _ => rfl
      have htimestamp := (hstage.trans (hcleared _)).trans (clearLastAnchorTimestamp_emits _)
      obtain ⟨third, htimestamp_eq⟩ := clearLastAnchorTimestamp_eq (emit { self with
        m_lastError := "", m_busy := true, m_busyMessage := "uploading to Logos Storage…", m_stage := 1
        signals := second } .lastErrorChanged)
      dsimp only at htimestamp
      rw [htimestamp_eq] at htimestamp ⊢
      exact htimestamp.trans (uploadToStorage_emits _ _ _)

theorem anchorLast_emits (self : WhistleblowerBackend) : Emits self (self.toastsOf .anchorLast) self.anchorLast := by
  rw [anchorLast, toastsOf]
  split
  · exact self.setError_emits "anchor" _
  · exact (self.setBusy_emits true "anchoring on LEZ…").trans
      (Emits.hidden _ _ rfl rfl)

omit [Sha256] [Qt] in
theorem anchorFinished_emits (self : WhistleblowerBackend) (answer : AnchorAnswer) :
    Emits self [answer.toast] (self.anchorFinished answer) := by
  rw [anchorFinished, AnchorAnswer.toast]
  by_cases hsuccess : answer.success = true
  · rw [if_neg (not_not_intro hsuccess), if_pos hsuccess]
    have htimestamp : Emits self []
        ({ self with m_lastAnchorTimestamp := answer.anchor_timestamp }.emit .lastAnchorTimestampChanged) := by
      refine Emits.emit self { self with m_lastAnchorTimestamp := answer.anchor_timestamp }
        .lastAnchorTimestampChanged rfl ?_
      intro p hsilent
      cases p with
      | lastAnchorTimestamp => exact absurd rfl hsilent
      | _ => rfl
    have htold := htimestamp.trans
      (Emits.emit _ _ (.anchorComplete answer.cid_hash) rfl fun _ _ => rfl)
    exact (htold.trans (setStage_emits _ 3)).trans (setBusy_emits _ false "")
  · rw [if_pos hsuccess, if_neg hsuccess]
    exact self.setError_emits "anchor" _

theorem storageUploadDone_emits (self : WhistleblowerBackend) (i : Nat) (report : Report) :
    Emits self (self.toastsOf (.storageUploadDone i report)) (self.storageUploadDone report.data) := by
  rw [storageUploadDone, toastsOf]
  cases self.m_pendingUploadCallback with
  | some callback =>
    exact (Emits.hidden self { self with m_pendingUploadCallback := none } rfl rfl).trans
      (publishContinuation_emits _ callback (eventCid report.data))
  | none => exact .refl self

theorem uploadTimeout_emits (self : WhistleblowerBackend) (i : Nat) :
    Emits self (self.toastsOf (.uploadTimeout i)) self.uploadTimeout := by
  rw [uploadTimeout, toastsOf]
  cases self.m_pendingUploadCallback with
  | some callback =>
    dsimp only
    rw [publishContinuation_empty, Option.isSome_some, if_pos rfl]
    exact (Emits.hidden self _ rfl rfl).trans (setError_emits _ "upload" _)
  | none => exact .refl self

omit [Sha256] [Qt] in
theorem messageSent_emits (self : WhistleblowerBackend) (data : List String) :
    Emits self (if self.m_pendingPublishCallback.isSome = true ∧ data[1]?.getD "" ≠ "" then
      [.broadcastComplete (data[1]?.getD "")] else []) (self.messageSent data) := by
  rw [messageSent]
  cases self.m_pendingPublishCallback with
  | some callback =>
    have htold := (Emits.hidden self { self with m_pendingPublishCallback := none } rfl rfl).trans
      (broadcastContinuation_emits _ (data[1]?.getD ""))
    simp only [Option.isSome_some, true_and, ne_eq, ite_not]
    exact htold
  | none => exact .refl self

omit [Sha256] [Qt] in
theorem broadcastFailed_emits (self : WhistleblowerBackend) : Emits self [] self.broadcastFailed := by
  rw [broadcastFailed_eq]
  exact Emits.hidden self _ rfl rfl

/-- A step shows its toasts, and notifies every property that it changes. -/
theorem step_emits {self next : WhistleblowerBackend} {action : Action} (hstep : self.step action = some next) :
    Emits self (self.toastsOf action) next := by
  cases action with
  | tick now =>
    obtain rfl := Option.some.inj hstep
    exact Emits.hidden self _ rfl rfl
  | setSelectedFile filePath =>
    obtain rfl := Option.some.inj hstep
    exact self.setSelectedFile_emits filePath
  | publish title description tagsCsv fi =>
    rw [step] at hstep
    split at hstep
    · cases hstep
    · obtain rfl := Option.some.inj hstep
      exact self.publish_emits title description tagsCsv fi
  | anchorLast =>
    rw [step] at hstep
    split at hstep
    · cases hstep
    · obtain rfl := Option.some.inj hstep
      exact self.anchorLast_emits
  | storageUploadDone i report =>
    rw [step] at hstep
    split at hstep
    · obtain rfl := Option.some.inj hstep
      exact (Emits.hidden self (self.reported i report) rfl rfl).trans
        (storageUploadDone_emits _ i report)
    · cases hstep
  | uploadTimeout i =>
    rw [step] at hstep
    split at hstep
    · obtain rfl := Option.some.inj hstep
      exact (Emits.hidden self { self with uploadTimers := self.uploadTimers.erase i } rfl
        rfl).trans (uploadTimeout_emits _ i)
    · cases hstep
  | messageSent data =>
    obtain rfl := Option.some.inj hstep
    exact self.messageSent_emits data
  | messageError data =>
    obtain rfl := Option.some.inj hstep
    exact self.broadcastFailed_emits
  | broadcastTimeout i =>
    rw [step] at hstep
    split at hstep
    · obtain rfl := Option.some.inj hstep
      exact (Emits.hidden self { self with broadcastTimers := self.broadcastTimers.erase i } rfl
        rfl).trans (broadcastFailed_emits _)
    · cases hstep
  | anchorFinished i answer =>
    rw [step] at hstep
    split at hstep
    · obtain rfl := Option.some.inj hstep
      exact (Emits.hidden self _ rfl rfl).trans (anchorFinished_emits _ answer)
    · cases hstep

end WhistleblowerBackend

/-- The backend handles an event, and QML the signals that it emitted. -/
def handle (state : WhistleblowerBackend × View) (action : Action) : Option (WhistleblowerBackend × View) :=
  (state.1.step action).map fun next => (next, state.2.refresh (next.signals.drop state.1.signals.length))

/-- A view that is current stays so while events are handled. -/
theorem view_run {self last : WhistleblowerBackend} {view : View} {actions : List Action}
    (hrun : transition.run handle (self, Property.read self.properties) actions = some (last, view)) :
    transition.run WhistleblowerBackend.step self actions = some last ∧ view = Property.read last.properties := by
  induction actions generalizing self with
  | nil =>
    cases hrun
    exact ⟨rfl, rfl⟩
  | cons action rest ih =>
    obtain ⟨⟨next, refreshed⟩, hhandle, hrest⟩ := transition.run_cons_eq_some.mp hrun
    obtain ⟨after, hstep, hrefreshed⟩ := Option.map_eq_some_iff.mp hhandle
    cases hrefreshed
    obtain ⟨emitted, hsignals, _, hshown⟩ := WhistleblowerBackend.step_emits hstep
    dsimp only at hrest
    rw [hsignals, List.drop_left, hshown] at hrest
    obtain ⟨hlast, hview⟩ := ih hrest
    exact ⟨transition.run_cons_eq_some.mpr ⟨next, hstep, hlast⟩, hview⟩

/-- QML shows the properties as they are, after whatever has happened. -/
theorem view_is_current (storageAvailable deliveryAvailable : Bool) (now : Int) {actions : List Action}
    {last : WhistleblowerBackend} {view : View}
    (hrun : transition.run handle (.constructed storageAvailable deliveryAvailable now,
      Property.read (WhistleblowerBackend.constructed storageAvailable deliveryAvailable now).properties) actions =
        some (last, view)) :
    transition.run WhistleblowerBackend.step (.constructed storageAvailable deliveryAvailable now) actions = some last ∧
      view = Property.read last.properties :=
  view_run hrun

end

theorem view_is_current_anchored :
    ∃ last view, transition.run handle (.constructed true true 7,
        Property.read (WhistleblowerBackend.constructed true true 7).properties) anchoredFile = some (last, view) ∧
      view .stage = .number 3 ∧ view = Property.read last.properties := by
  have hrun : (transition.run handle (.constructed true true 7,
      Property.read (WhistleblowerBackend.constructed true true 7).properties) anchoredFile).any
        (fun state => state.2 .stage = .number 3) = true := by
    decide +kernel
  obtain ⟨⟨last, view⟩, hlast, hstage⟩ := (Option.any_eq_true _ _).mp hrun
  exact ⟨last, view, hlast, of_decide_eq_true hstage, (view_is_current true true 7 hlast).2⟩

end whistleblower_ui
