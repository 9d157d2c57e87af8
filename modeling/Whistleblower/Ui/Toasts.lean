import Whistleblower.Ui.Signals
import Whistleblower.Ui.Timers

namespace whistleblower_ui

/-- A file is selected before it is published, and a CID is shown, without an anchor, before it
    is anchored: otherwise the buttons are disabled. -/
def Clicked (self : WhistleblowerBackend) : Action → Prop
  | .publish _ _ _ _ => self.m_selectedFile ≠ ""
  | .anchorLast => self.m_lastCid ≠ "" ∧ self.m_lastAnchorTimestamp = 0
  | _ => True

instance (self : WhistleblowerBackend) : (action : Action) → Decidable (Clicked self action)
  | .publish _ _ _ _ => inferInstanceAs (Decidable (self.m_selectedFile ≠ ""))
  | .anchorLast => inferInstanceAs (Decidable (_ ∧ self.m_lastAnchorTimestamp = 0))
  | .tick _ => isTrue trivial
  | .setSelectedFile _ => isTrue trivial
  | .storageUploadDone _ _ => isTrue trivial
  | .uploadTimeout _ => isTrue trivial
  | .messageSent _ => isTrue trivial
  | .messageError _ => isTrue trivial
  | .broadcastTimeout _ => isTrue trivial
  | .anchorFinished _ _ => isTrue trivial

namespace Signal

/-- Toasts about a computed envelope. -/
def isComputed : Signal → Bool
  | .uploadComplete _ => true
  | .error stage _ => stage = "compute envelope"
  | _ => false

/-- Toasts about an answer of the anchoring function. -/
def isAnchored : Signal → Bool
  | .anchorComplete _ => true
  | .error stage _ => stage = "anchor"
  | _ => false

def isBroadcast : Signal → Bool
  | .broadcastComplete _ => true
  | _ => false

end Signal

section

variable [Sha256] [Qt]

/-- What can have gone wrong, with the error that is shown for it. -/
inductive Cause (backend : WhistleblowerBackend) : String → String → Prop where
  | unreadable (file : String) (hfile : file ≠ "") :
      Cause backend "publish" ("file does not exist or is not readable: " ++ file)
  | unavailable (hstorage : backend.storageAvailable = false) :
      Cause backend "upload" "storage_module not available — running outside Basecamp host?"
  | overdue (upload : Upload) (hupload : upload ∈ backend.uploads) (htimer : upload.timedOut = true) :
      Cause backend "upload" "timed out waiting for storageUploadDone (60s)"
  | uncomputed (computation : Computation) (hcomputation : computation ∈ backend.computed) (msg : String)
      (henvelope : envelopeOf computation.cid computation.callback.metadata computation.now = .error msg) :
      Cause backend "compute envelope" msg
  | unanchored (anchor : Anchor) (hanchor : anchor ∈ backend.anchors) (answer : AnchorAnswer)
      (hanswer : anchor.answer = some answer) (hfailed : answer.success = false) :
      Cause backend "anchor" (answer.error.getD "unknown")

/-- What the calls of the anchoring function have answered, as it is told. -/
def WhistleblowerBackend.answers (self : WhistleblowerBackend) : List Signal :=
  self.anchors.filterMap fun anchor => anchor.answer.map AnchorAnswer.toast

/-- The toasts tell, in order, how each computation and each anchoring call ended. They tell of no
    more broadcasts than were sent and are not pending, and every error has its cause. -/
structure Told (backend : WhistleblowerBackend) : Prop where
  computed : backend.toasts.filter Signal.isComputed = backend.computed.map Computation.toast
  anchored : backend.toasts.filter Signal.isAnchored = backend.answers
  broadcasts : (backend.toasts.filter Signal.isBroadcast).length + backend.m_pendingPublishCallback.toList.length ≤
    backend.broadcasts.length
  causes : ∀ stage msg, .error stage msg ∈ backend.toasts → Cause backend stage msg

theorem Told.constructed (storageAvailable deliveryAvailable : Bool) (now : Int) :
    Told (.constructed storageAvailable deliveryAvailable now) :=
  ⟨rfl, rfl, Nat.le_refl 0, fun _ _ htoast => nomatch htoast⟩

/-- What happened stays a cause. -/
structure Remembers (first second : WhistleblowerBackend) : Prop where
  storage : second.storageAvailable = first.storageAvailable
  uploads : ∀ upload ∈ first.uploads, upload.timedOut = true → ∃ other ∈ second.uploads, other.timedOut = true
  computed : ∀ computation ∈ first.computed, computation ∈ second.computed
  anchors : ∀ anchor ∈ first.anchors, ∀ answer, anchor.answer = some answer →
    ∃ other ∈ second.anchors, other.answer = some answer

omit [Sha256] [Qt] in
/-- What is told of does not change. -/
theorem Remembers.same {first second : WhistleblowerBackend} (hstorage : second.storageAvailable = first.storageAvailable)
    (huploads : second.uploads = first.uploads) (hcomputed : second.computed = first.computed)
    (hanchors : second.anchors = first.anchors) : Remembers first second where
  storage := hstorage
  uploads upload hupload htimer := ⟨upload, huploads ▸ hupload, htimer⟩
  computed _ hcomputation := hcomputed ▸ hcomputation
  anchors anchor hanchor _ hanswer := ⟨anchor, hanchors ▸ hanchor, hanswer⟩

theorem Cause.remembered {self next : WhistleblowerBackend} (hremembers : Remembers self next) {stage msg : String}
    (hcause : Cause self stage msg) : Cause next stage msg := by
  cases hcause with
  | unreadable file hfile => exact .unreadable file hfile
  | unavailable hstorage => exact .unavailable (hremembers.storage.trans hstorage)
  | overdue upload hupload htimer =>
    obtain ⟨other, hother, hlate⟩ := hremembers.uploads upload hupload htimer
    exact .overdue other hother hlate
  | uncomputed computation hcomputation msg henvelope =>
    exact .uncomputed computation (hremembers.computed computation hcomputation) msg henvelope
  | unanchored anchor hanchor answer hanswer hfailed =>
    obtain ⟨other, hother, hsame⟩ := hremembers.anchors anchor hanchor answer hanswer
    exact .unanchored other hother answer hsame hfailed

omit [Sha256] [Qt] in
/-- Marking an upload forgets no timeout. -/
theorem timedOut_modify {uploads : List Upload} {i : Nat} {mark : Upload → Upload}
    (hmark : ∀ upload : Upload, upload.timedOut = true → (mark upload).timedOut = true) {upload : Upload}
    (hupload : upload ∈ uploads) (htimer : upload.timedOut = true) :
    ∃ other ∈ uploads.modify i mark, other.timedOut = true := by
  obtain ⟨j, hj⟩ := List.getElem?_of_mem hupload
  by_cases hij : i = j
  · refine ⟨mark upload, mem_modify_iff.mpr (.inl ⟨upload, hij ▸ hj, rfl⟩), hmark upload htimer⟩
  · exact ⟨upload, mem_modify_iff.mpr (.inr ⟨j, hij, hj⟩), htimer⟩

omit [Sha256] [Qt] in
theorem answer_modify {anchors : List Anchor} {i : Nat} {anchor : Anchor} (hanchor : anchors[i]? = some anchor)
    (hopen : anchor.answer = none) (answer : AnchorAnswer) {other : Anchor} (hother : other ∈ anchors)
    {given : AnchorAnswer} (hgiven : other.answer = some given) :
    other ∈ anchors.modify i fun anchor => { anchor with answer := some answer } := by
  apply mem_modify_of_ne hother
  intro hsame
  rw [hanchor] at hsame
  rw [← Option.some.inj hsame, hopen] at hgiven
  cases hgiven

omit [Sha256] [Qt] in
/-- The last element of a list is modified. -/
theorem modify_last {A : Type} {l : List A} {i : Nat} {a : A} (ha : l[i]? = some a) (hlast : i + 1 = l.length)
    (f : A → A) : ∃ front, l = front ++ [a] ∧ l.modify i f = front ++ [f a] := by
  obtain ⟨hi, helem⟩ := List.getElem?_eq_some_iff.mp ha
  refine ⟨l.take i, ?_, ?_⟩
  · rw [← helem, List.take_append_getElem hi, hlast, List.take_length]
  · rw [List.modify_eq_take_cons_drop hi, helem, hlast, List.drop_length]

/-- Toasts that follow those shown so far, with what they tell. -/
theorem Told.extend {self next : WhistleblowerBackend} (htold : Told self) {toasts : List Signal}
    (htoasts : next.toasts = self.toasts ++ toasts) (hremembers : Remembers self next)
    (hcomputed : next.computed.map Computation.toast =
      self.computed.map Computation.toast ++ toasts.filter Signal.isComputed)
    (hanchored : next.answers = self.answers ++ toasts.filter Signal.isAnchored)
    (hbroadcasts : self.broadcasts.length + (toasts.filter Signal.isBroadcast).length +
        next.m_pendingPublishCallback.toList.length ≤
      next.broadcasts.length + self.m_pendingPublishCallback.toList.length)
    (hcauses : ∀ stage msg, .error stage msg ∈ toasts → Cause next stage msg) : Told next := by
  refine ⟨?_, ?_, ?_, ?_⟩
  · rw [htoasts, List.filter_append, htold.computed, hcomputed]
  · rw [htoasts, List.filter_append, htold.anchored, hanchored]
  · have hbefore := htold.broadcasts
    rw [htoasts, List.filter_append, List.length_append]
    omega
  · intro stage msg htoast
    rw [htoasts] at htoast
    obtain htoast | htoast := List.mem_append.mp htoast
    · exact (htold.causes stage msg htoast).remembered hremembers
    · exact hcauses stage msg htoast

/-- A step that shows nothing, and ends neither a computation nor an anchoring call. -/
theorem Told.silent {self next : WhistleblowerBackend} (htold : Told self) (htoasts : next.toasts = self.toasts ++ [])
    (hremembers : Remembers self next) (hcomputed : next.computed = self.computed) (hanchored : next.answers = self.answers)
    (hbroadcasts : self.broadcasts.length + next.m_pendingPublishCallback.toList.length ≤
      next.broadcasts.length + self.m_pendingPublishCallback.toList.length) : Told next := by
  refine htold.extend htoasts hremembers ?_ ?_ hbroadcasts fun _ _ htoast => nomatch htoast
  · rw [hcomputed, List.filter_nil, List.append_nil]
  · rw [hanchored, List.filter_nil, List.append_nil]

/-- A step that shows one error, which is about neither. -/
theorem Told.fails {self next : WhistleblowerBackend} (htold : Told self) {stage msg : String}
    (htoasts : next.toasts = self.toasts ++ [.error stage msg]) (hremembers : Remembers self next)
    (hstage : stage = "publish" ∨ stage = "upload") (hcomputed : next.computed = self.computed)
    (hanchored : next.answers = self.answers) (hbroadcasts : next.broadcasts = self.broadcasts)
    (hpending : next.m_pendingPublishCallback = self.m_pendingPublishCallback) (hcause : Cause next stage msg) :
    Told next := by
  refine htold.extend htoasts hremembers ?_ ?_ ?_ ?_
  · obtain rfl | rfl := hstage
    · exact hcomputed ▸ (List.append_nil _).symm
    · exact hcomputed ▸ (List.append_nil _).symm
  · obtain rfl | rfl := hstage
    · exact hanchored.trans (List.append_nil _).symm
    · exact hanchored.trans (List.append_nil _).symm
  · rw [hbroadcasts, hpending]
    exact Nat.le_refl _
  · intro other told htoast
    cases List.mem_singleton.mp htoast
    exact hcause

omit [Qt] in
theorem hash_ne_empty {cid metadataHashHex : String} (hhash : HashOf cid metadataHashHex) : metadataHashHex ≠ "" := by
  obtain ⟨_, metadata_hash, _, _, rfl⟩ := hhash
  intro hempty
  have hlength := text.length_bytes_hex_encode metadata_hash.digest.toList
  rw [hempty, Vector.length_toList] at hlength
  cases hlength

omit [Sha256] in
/-- A broadcast is pending at most once. -/
theorem pending_broadcastEnvelope (self : WhistleblowerBackend) (topic : String) (envelopeBytes : List UInt8) :
    self.broadcasts.length + (self.broadcastEnvelope topic envelopeBytes).m_pendingPublishCallback.toList.length ≤
      (self.broadcastEnvelope topic envelopeBytes).broadcasts.length +
        self.m_pendingPublishCallback.toList.length := by
  obtain hsame | ⟨hpending, broadcast, hsent⟩ := self.broadcastEnvelope_cases topic envelopeBytes
  · rw [hsame]
  · rw [hsent, hpending, List.length_append]
    exact Nat.le_refl _

/-- A broadcast that is sent is not told of yet. -/
theorem Told.broadcastEnvelope {self : WhistleblowerBackend} (htold : Told self) (topic : String)
    (envelopeBytes : List UInt8) : Told (self.broadcastEnvelope topic envelopeBytes) := by
  have htoasts := (self.broadcastEnvelope_emits topic envelopeBytes).toasts
  have hpending := pending_broadcastEnvelope self topic envelopeBytes
  obtain hsame | ⟨_, broadcast, hsent⟩ := self.broadcastEnvelope_cases topic envelopeBytes
  · rw [hsame]
    exact htold
  · rw [hsent] at htoasts hpending ⊢
    exact htold.silent htoasts (.same rfl rfl rfl rfl) rfl rfl hpending

omit [Qt] in
/-- The last call of the anchoring function is answered. -/
theorem answers_modify {self : WhistleblowerBackend} (horderly : Orderly self) {i : Nat} {anchor : Anchor}
    (hanchor : self.anchors[i]? = some anchor) (hopen : anchor.answer = none) (answer : AnchorAnswer) :
    (self.anchors.modify i fun anchor => { anchor with answer := some answer }).filterMap
        (fun anchor => anchor.answer.map AnchorAnswer.toast) = self.answers ++ [answer.toast] := by
  obtain ⟨front, hfront, hmodified⟩ := modify_last hanchor (horderly.calling i anchor hanchor hopen).1
    fun anchor => { anchor with answer := some answer }
  have hnothing : [anchor].filterMap (fun anchor => anchor.answer.map AnchorAnswer.toast) = [] := by
    rw [List.filterMap_cons_none (by rw [hopen]; rfl), List.filterMap_nil]
  rw [hmodified, WhistleblowerBackend.answers, hfront, List.filterMap_append, List.filterMap_append, hnothing,
    List.append_nil]
  rfl

theorem Told.step {self next : WhistleblowerBackend} {action : Action}
    (hclicked : Clicked self action) (horderly : Orderly self) (htimed : Timed self) (htold : Told self)
    (hstep : self.step action = some next) : Told next := by
  have htoasts := (WhistleblowerBackend.step_emits hstep).toasts
  cases WhistleblowerBackend.step_cases hstep with
  | tick | same_file | new_file =>
    exact htold.silent htoasts (.same rfl rfl rfl rfl) rfl rfl (Nat.le_refl _)
  | no_file _ _ _ fi _ _ _ hfile =>
    obtain rfl := hfile.resolve_left hclicked
    rw [WhistleblowerBackend.toastsOf, if_neg hclicked] at htoasts
    exact htold.fails htoasts (.same rfl rfl rfl rfl) (.inl rfl) rfl rfl rfl rfl (.unreadable _ hclicked)
  | refused _ _ _ fi _ _ hbusy _ hrefused =>
    obtain hstorage := hrefused.resolve_right fun hpending => hpending (horderly.idle hbusy).1
    rw [WhistleblowerBackend.toastsOf, if_neg hclicked, Option.isSome_some, if_pos rfl,
      WhistleblowerBackend.refusal, if_pos hstorage] at htoasts
    exact htold.fails htoasts (.same rfl rfl rfl rfl) (.inr rfl) rfl rfl rfl rfl (.unavailable hstorage)
  | requested _ _ _ fi _ _ _ _ _ hstorage hpending =>
    rw [WhistleblowerBackend.toastsOf, if_neg hclicked, Option.isSome_some, if_pos rfl,
      WhistleblowerBackend.refusal, hstorage, hpending] at htoasts
    refine htold.silent htoasts ⟨rfl, ?_, fun _ => id, fun anchor hanchor _ hanswer => ⟨anchor, hanchor, hanswer⟩⟩ rfl rfl
      (Nat.le_refl _)
    exact fun upload hupload htimer => ⟨upload, List.mem_append_left _ hupload, htimer⟩
  | no_document _ _ _ hdocument =>
    have hhash := hdocument.resolve_left hclicked.1
    obtain ⟨hempty, _⟩ | hhashed := horderly.hash
    · exact absurd hempty hclicked.1
    · exact absurd hhash (hash_ne_empty hhashed)
  | anchoring message _ _ hcid hhash =>
    rw [WhistleblowerBackend.toastsOf, if_neg (not_or.mpr ⟨hcid, hhash⟩)] at htoasts
    refine htold.silent htoasts ⟨rfl, ?_, fun _ => id, ?_⟩ rfl ?_ (Nat.le_refl _)
    · exact fun upload hupload htimer => ⟨upload, hupload, htimer⟩
    · exact fun anchor hanchor _ hanswer => ⟨anchor, List.mem_append_left _ hanchor, hanswer⟩
    · rw [WhistleblowerBackend.answers, List.filterMap_append]
      exact List.append_nil _
  | unawaited i report upload hupload hreported hpending =>
    rw [WhistleblowerBackend.toastsOf, hpending] at htoasts
    refine htold.silent htoasts ⟨rfl, ?_, fun _ => id, ?_⟩ rfl rfl (Nat.le_refl _)
    · exact fun upload hupload htimer => timedOut_modify (fun _ => id) hupload htimer
    · exact fun anchor hanchor _ hanswer => ⟨anchor, hanchor, hanswer⟩
  | blank i report upload callback hupload hreported hpending hcid =>
    simp only [WhistleblowerBackend.toastsOf, hpending, if_pos hcid] at htoasts
    refine htold.silent htoasts ⟨rfl, ?_, fun _ => id, ?_⟩ rfl rfl (Nat.le_refl _)
    · exact fun upload hupload htimer => timedOut_modify (fun _ => id) hupload htimer
    · exact fun anchor hanchor _ hanswer => ⟨anchor, hanchor, hanswer⟩
  | uncomputed i report upload callback msg signals hupload hreported hpending hcid henvelope =>
    simp only [WhistleblowerBackend.toastsOf, hpending, if_neg hcid, Computation.toast, henvelope] at htoasts
    refine htold.extend htoasts ⟨rfl, ?_, fun _ => List.mem_append_left _, ?_⟩ ?_ (List.append_nil _).symm
      (Nat.le_refl _) ?_
    · exact fun upload hupload htimer => timedOut_modify (fun _ => id) hupload htimer
    · exact fun anchor hanchor _ hanswer => ⟨anchor, hanchor, hanswer⟩
    · have htoast : ({ callback, cid := WhistleblowerBackend.eventCid report.data, now := self.currentSecsSinceEpoch } :
          Computation).toast = .error "compute envelope" msg := by simp only [Computation.toast, henvelope]
      rw [WhistleblowerBackend.failed, List.map_append, List.map_singleton, htoast]
      rfl
    · intro stage other htoast
      cases List.mem_singleton.mp htoast
      exact .uncomputed _ (List.mem_append_right _ List.mem_cons_self) msg henvelope
  | published i report upload callback metadataHashHex envelopeBytes signals hupload hreported hpending hcid henvelope =>
    have htoast : ({ callback, cid := WhistleblowerBackend.eventCid report.data, now := self.currentSecsSinceEpoch } :
        Computation).toast = .uploadComplete (WhistleblowerBackend.eventCid report.data) := by
      simp only [Computation.toast, henvelope]
    simp only [WhistleblowerBackend.toastsOf, hpending, if_neg hcid, htoast] at htoasts
    rw [(WhistleblowerBackend.broadcastEnvelope_emits _ _ _).toasts, List.append_nil] at htoasts
    refine Told.broadcastEnvelope ?_ _ _
    refine htold.extend htoasts ⟨rfl, ?_, fun _ => List.mem_append_left _, ?_⟩ ?_ (List.append_nil _).symm
      (Nat.le_refl _) ?_
    · exact fun upload hupload htimer => timedOut_modify (fun _ => id) hupload htimer
    · exact fun anchor hanchor _ hanswer => ⟨anchor, hanchor, hanswer⟩
    · rw [List.map_append, List.map_singleton, htoast]
      rfl
    · intro stage other htoast
      cases List.mem_singleton.mp htoast
  | idle_timer i hi hpending =>
    rw [WhistleblowerBackend.toastsOf, hpending] at htoasts
    exact htold.silent htoasts (.same rfl rfl rfl rfl) rfl rfl (Nat.le_refl _)
  | timed_out i callback msg signals hi hpending =>
    rw [WhistleblowerBackend.toastsOf, hpending, Option.isSome_some, if_pos rfl] at htoasts
    refine htold.fails htoasts ⟨rfl, ?_, fun _ => id, ?_⟩ (.inr rfl) rfl rfl rfl rfl ?_
    · exact fun upload hupload htimer => timedOut_modify (fun _ _ => rfl) hupload htimer
    · exact fun anchor hanchor _ hanswer => ⟨anchor, hanchor, hanswer⟩
    · obtain ⟨hlast, _⟩ := htimed.uploads.last callback.upload (by rw [hpending]; rfl)
      have hrequested : self.uploads[callback.upload]? = some _ := List.getElem?_eq_getElem (by omega)
      exact .overdue _ (mem_modify_iff.mpr (.inl ⟨_, hrequested, rfl⟩)) rfl
  | message_sent data signals =>
    rw [WhistleblowerBackend.toastsOf] at htoasts
    split at htoasts
    · rename_i hsent
      obtain ⟨callback, hpending⟩ := Option.isSome_iff_exists.mp hsent.1
      refine htold.extend htoasts (.same rfl rfl rfl rfl) (List.append_nil _).symm (List.append_nil _).symm ?_ ?_
      · rw [hpending]
        exact Nat.le_refl _
      · intro stage other htoast
        cases List.mem_singleton.mp htoast
    · exact htold.silent htoasts (.same rfl rfl rfl rfl) rfl rfl (Nat.le_add_right _ _)
  | message_error | broadcast_timer =>
    exact htold.silent htoasts (.same rfl rfl rfl rfl) rfl rfl (Nat.le_add_right _ _)
  | anchor_failed i answer anchor msg signals hanchor hopen hanswer =>
    have hanswers := answers_modify horderly hanchor hopen answer
    have htoast : answer.toast = .error "anchor" (answer.error.getD "unknown") := by
      rw [AnchorAnswer.toast, hanswer]
      rfl
    rw [WhistleblowerBackend.toastsOf, htoast] at htoasts
    rw [htoast] at hanswers
    refine htold.extend htoasts ⟨rfl, ?_, fun _ => id, ?_⟩ (List.append_nil _).symm hanswers (Nat.le_refl _) ?_
    · exact fun upload hupload htimer => ⟨upload, hupload, htimer⟩
    · exact fun other hother given hgiven => ⟨other, answer_modify hanchor hopen answer hother hgiven, hgiven⟩
    · intro stage other htoast
      cases List.mem_singleton.mp htoast
      exact .unanchored _ (mem_modify_iff.mpr (.inl ⟨anchor, hanchor, rfl⟩)) answer rfl hanswer
  | anchored i answer anchor signals hanchor hopen hanswer =>
    have hanswers := answers_modify horderly hanchor hopen answer
    have htoast : answer.toast = .anchorComplete answer.cid_hash := by
      rw [AnchorAnswer.toast, hanswer]
      rfl
    rw [WhistleblowerBackend.toastsOf, htoast] at htoasts
    rw [htoast] at hanswers
    refine htold.extend htoasts ⟨rfl, ?_, fun _ => id, ?_⟩ (List.append_nil _).symm hanswers (Nat.le_refl _) ?_
    · exact fun upload hupload htimer => ⟨upload, hupload, htimer⟩
    · exact fun other hother given hgiven => ⟨other, answer_modify hanchor hopen answer hother hgiven, hgiven⟩
    · intro stage other htoast
      cases List.mem_singleton.mp htoast

/-- While the user acts by the buttons, the toasts tell in order how each computation and each
    anchoring call ended, at most as many of them tell of a broadcast as broadcasts were sent, and
    an error is never about what the buttons rule out: no file, no document, or two uploads at
    once. -/
theorem toasts_tell (hqt : Qt.Documented) (hwrites : Qt.Writes) (storageAvailable deliveryAvailable : Bool) (now : Int)
    {actions : List Action} {last : WhistleblowerBackend}
    (hclicked : transition.Along WhistleblowerBackend.step Clicked
      (.constructed storageAvailable deliveryAvailable now) actions)
    (hrun : transition.run WhistleblowerBackend.step (.constructed storageAvailable deliveryAvailable now) actions =
      some last) :
    last.toasts.filter Signal.isComputed = last.computed.map Computation.toast ∧
      last.toasts.filter Signal.isAnchored = last.answers ∧
      (last.toasts.filter Signal.isBroadcast).length ≤ last.broadcasts.length ∧
      ∀ stage msg, .error stage msg ∈ last.toasts → Cause last stage msg := by
  have hkept : (Orderly last ∧ Timed last) ∧ Told last := by
    refine transition.run_preserves_along (P := fun state => (Orderly state ∧ Timed state) ∧ Told state) ?_ hclicked
      ⟨⟨.constructed _ _ _, .constructed _ _ _⟩, .constructed _ _ _⟩ hrun
    intro self action next hclicked ⟨⟨horderly, htimed⟩, htold⟩ hstep
    exact ⟨⟨horderly.step hqt hwrites hstep, htimed.step hstep⟩, htold.step hclicked horderly htimed hstep⟩
  obtain ⟨_, hcomputed, hanchored, hbroadcasts, hcauses⟩ := hkept
  exact ⟨hcomputed, hanchored, Nat.le_of_add_right_le hbroadcasts, hcauses⟩

end

theorem toasts_tell_anchored :
    ∃ last, transition.run WhistleblowerBackend.step (.constructed true true 7) anchoredFile = some last ∧
      last.toasts.filter Signal.isComputed = last.computed.map Computation.toast ∧
      last.toasts.filter Signal.isAnchored = last.answers := by
  have hclicked : (transition.run WhistleblowerBackend.step (.constructed true true 7) anchoredFile).isSome = true ∧
      transition.Along WhistleblowerBackend.step Clicked (.constructed true true 7) anchoredFile := by decide +kernel
  obtain ⟨last, hlast⟩ := Option.isSome_iff_exists.mp hclicked.1
  obtain ⟨hcomputed, hanchored, _⟩ := toasts_tell Qt.documented_standard Qt.writes_standard true true 7 hclicked.2 hlast
  exact ⟨last, hlast, hcomputed, hanchored⟩

end whistleblower_ui
