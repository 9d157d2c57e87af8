import Whistleblower.Ui.Display
import Whistleblower.Ui.Timers

namespace whistleblower_ui

/-- What is in progress keeps the backend busy, and nothing else does. At most one thing is in
    progress: an upload that is awaited, or the last call of the anchoring function. -/
structure Engaged (backend : WhistleblowerBackend) : Prop where
  pending : backend.m_pendingUploadCallback ≠ none →
    backend.m_busy = true ∧ ∀ anchor ∈ backend.anchors, anchor.answer ≠ none
  calling : ∀ (i : Nat) (anchor : Anchor), backend.anchors[i]? = some anchor → anchor.answer = none →
    i + 1 = backend.anchors.length ∧ backend.m_busy = true
  awaited : backend.m_busy = true →
    backend.m_pendingUploadCallback ≠ none ∨ ∃ anchor ∈ backend.anchors, anchor.answer = none

/-- The backend is busy while nothing is in progress. -/
structure Halted (backend : WhistleblowerBackend) : Prop where
  busy : backend.m_busy = true
  pending : backend.m_pendingUploadCallback = none
  finished : ∀ anchor ∈ backend.anchors, anchor.answer ≠ none

/-- A report that finds a callback has a CID. Without one the callback leaves at once, as if an
    error had been set. -/
def Named (self : WhistleblowerBackend) : Action → Prop
  | .storageUploadDone _ report =>
    self.m_pendingUploadCallback.isSome = true → WhistleblowerBackend.eventCid report.data ≠ ""
  | _ => True

instance (self : WhistleblowerBackend) : (action : Action) → Decidable (Named self action)
  | .storageUploadDone _ report => inferInstanceAs (Decidable (_ → WhistleblowerBackend.eventCid report.data ≠ ""))
  | .tick _ => isTrue trivial
  | .setSelectedFile _ => isTrue trivial
  | .publish _ _ _ _ => isTrue trivial
  | .anchorLast => isTrue trivial
  | .uploadTimeout _ => isTrue trivial
  | .messageSent _ => isTrue trivial
  | .messageError _ => isTrue trivial
  | .broadcastTimeout _ => isTrue trivial
  | .anchorFinished _ _ => isTrue trivial

namespace Engaged

theorem constructed (storageAvailable deliveryAvailable : Bool) (now : Int) :
    Engaged (.constructed storageAvailable deliveryAvailable now) where
  pending hpending := absurd rfl hpending
  calling _ _ hanchor := nomatch hanchor
  awaited hbusy := nomatch hbusy

/-- Where nothing is in progress the backend is idle. -/
theorem of_idle {backend : WhistleblowerBackend} (hbusy : backend.m_busy = false)
    (hpending : backend.m_pendingUploadCallback = none) (hfinished : ∀ anchor ∈ backend.anchors, anchor.answer ≠ none) :
    Engaged backend where
  pending hwaits := absurd hpending hwaits
  calling _ anchor hanchor hopen := absurd hopen (hfinished anchor (List.mem_of_getElem? hanchor))
  awaited hwaits := absurd (hbusy.symm.trans hwaits) nofun

theorem idle {backend : WhistleblowerBackend} (hengaged : Engaged backend) (hbusy : backend.m_busy = false) :
    backend.m_pendingUploadCallback = none ∧ ∀ anchor ∈ backend.anchors, anchor.answer ≠ none := by
  constructor
  · by_contra hpending
    have hwaits := (hengaged.pending hpending).1
    rw [hbusy] at hwaits
    cases hwaits
  · intro anchor hanchor hopen
    obtain ⟨i, hi⟩ := List.getElem?_of_mem hanchor
    have hwaits := (hengaged.calling i anchor hi hopen).2
    rw [hbusy] at hwaits
    cases hwaits

theorem finished {backend : WhistleblowerBackend} (hengaged : Engaged backend) {callback : UploadCallback}
    (hpending : backend.m_pendingUploadCallback = some callback) : ∀ anchor ∈ backend.anchors, anchor.answer ≠ none :=
  (hengaged.pending (hpending ▸ Option.some_ne_none callback)).2

/-- The answer to the open call leaves nothing in progress. -/
theorem answered {backend : WhistleblowerBackend} (hengaged : Engaged backend) {i : Nat} {anchor : Anchor}
    (hanchor : backend.anchors[i]? = some anchor) (hopen : anchor.answer = none) (answer : AnchorAnswer) :
    backend.m_pendingUploadCallback = none ∧
      ∀ other ∈ backend.anchors.modify i fun anchor => { anchor with answer := some answer }, other.answer ≠ none := by
  constructor
  · by_contra hpending
    exact (hengaged.pending hpending).2 anchor (List.mem_of_getElem? hanchor) hopen
  · intro other hother hnone
    obtain ⟨_, _, rfl⟩ | ⟨j, hij, hj⟩ := mem_modify_iff.mp hother
    · cases hnone
    · have hlast := (hengaged.calling i anchor hanchor hopen).1
      have hother := (hengaged.calling j other hj hnone).1
      omega

variable [Sha256] [Qt]

omit [Sha256] in
theorem broadcastEnvelope {backend : WhistleblowerBackend} (hengaged : Engaged backend) (topic : String)
    (envelopeBytes : List UInt8) : Engaged (backend.broadcastEnvelope topic envelopeBytes) := by
  obtain hsame | ⟨_, broadcast, hsent⟩ := backend.broadcastEnvelope_cases topic envelopeBytes
  · rw [hsame]
    exact hengaged
  · rw [hsent]
    exact ⟨hengaged.pending, hengaged.calling, hengaged.awaited⟩

theorem step {self next : WhistleblowerBackend} {action : Action} (hnamed : Named self action)
    (hengaged : Engaged self) (hstep : self.step action = some next) : Engaged next := by
  cases WhistleblowerBackend.step_cases hstep with
  | no_file _ _ _ _ _ _ hbusy | refused _ _ _ _ _ _ hbusy | no_document _ _ hbusy =>
    obtain ⟨hnone, hfinished⟩ := hengaged.idle hbusy
    exact of_idle rfl hnone hfinished
  | requested _ _ _ _ _ _ _ hbusy =>
    obtain ⟨_, hfinished⟩ := hengaged.idle hbusy
    refine ⟨fun _ => ⟨rfl, hfinished⟩, ?_, fun _ => .inl nofun⟩
    exact fun i anchor hanchor hopen => absurd hopen (hfinished anchor (List.mem_of_getElem? hanchor))
  | anchoring _ _ hbusy =>
    obtain ⟨hnone, hfinished⟩ := hengaged.idle hbusy
    refine ⟨fun hpending => absurd hnone hpending, ?_, fun _ => .inr ⟨_, List.mem_append_right _ List.mem_cons_self, rfl⟩⟩
    intro i anchor hanchor hopen
    dsimp only at hanchor
    rw [List.getElem?_append] at hanchor
    split at hanchor
    · exact absurd hopen (hfinished anchor (List.mem_of_getElem? hanchor))
    · obtain ⟨hi, _⟩ := List.getElem?_eq_some_iff.mp hanchor
      rw [List.length_singleton] at hi
      rw [List.length_append, List.length_singleton]
      exact ⟨by omega, rfl⟩
  | blank i report upload callback _ _ hpending hcid => exact absurd hcid (hnamed (hpending ▸ rfl))
  | uncomputed _ _ _ _ _ _ _ _ hpending => exact of_idle rfl rfl (hengaged.finished hpending)
  | published _ _ _ _ _ _ _ _ _ hpending =>
    refine broadcastEnvelope ?_ _ _
    exact of_idle rfl rfl (hengaged.finished hpending)
  | timed_out _ _ _ _ _ hpending => exact of_idle rfl rfl (hengaged.finished hpending)
  | anchor_failed i answer _ _ _ hanchor hopen | anchored i answer _ _ hanchor hopen =>
    obtain ⟨hnone, hfinished⟩ := hengaged.answered hanchor hopen answer
    exact of_idle rfl hnone hfinished
  | tick | same_file | new_file | unawaited | idle_timer | message_sent | message_error | broadcast_timer =>
    exact ⟨hengaged.pending, hengaged.calling, hengaged.awaited⟩

/-- A report without a CID takes the callback, and sets nothing. -/
theorem halt {self next : WhistleblowerBackend} {action : Action} (hblank : ¬Named self action)
    (hengaged : Engaged self) (hstep : self.step action = some next) : Halted next := by
  cases WhistleblowerBackend.step_cases hstep with
  | unawaited _ _ _ _ _ hpending =>
    refine absurd (fun hsome => ?_) hblank
    rw [hpending] at hsome
    cases hsome
  | blank _ _ _ callback _ _ hpending =>
    exact ⟨(hengaged.pending (hpending ▸ Option.some_ne_none callback)).1, rfl, hengaged.finished hpending⟩
  | uncomputed _ _ _ _ _ _ _ _ _ hcid | published _ _ _ _ _ _ _ _ _ _ hcid => exact absurd (fun _ => hcid) hblank
  | _ => exact absurd trivial hblank

/-- A timer that fires during an upload ends it. -/
theorem idle_of_uploadTimeout {self next : WhistleblowerBackend} {i : Nat} {callback : UploadCallback}
    (hpending : self.m_pendingUploadCallback = some callback) (hstep : self.step (.uploadTimeout i) = some next) :
    next.m_busy = false := by
  cases WhistleblowerBackend.step_cases hstep with
  | idle_timer _ _ hnone =>
    rw [hpending] at hnone
    cases hnone
  | timed_out => rfl

theorem idle_of_anchorFinished {self next : WhistleblowerBackend} {i : Nat} {answer : AnchorAnswer}
    (hstep : self.step (.anchorFinished i answer) = some next) : next.m_busy = false := by
  cases WhistleblowerBackend.step_cases hstep with
  | anchor_failed => rfl
  | anchored => rfl

theorem ends_by_timer {backend : WhistleblowerBackend} (htimed : Timed backend) {callback : UploadCallback}
    (hpending : backend.m_pendingUploadCallback = some callback) :
    ∃ next, backend.step (.uploadTimeout callback.upload) = some next ∧ next.m_busy = false := by
  have harmed := (htimed.uploads.last callback.upload (by rw [hpending]; rfl)).2
  have hfires := backend.step_uploadTimeout harmed
  exact ⟨_, hfires, idle_of_uploadTimeout hpending hfires⟩

theorem ends_by_answer {backend : WhistleblowerBackend} {i : Nat} {anchor : Anchor}
    (hanchor : backend.anchors[i]? = some anchor) (hopen : anchor.answer = none) (answer : AnchorAnswer) :
    ∃ next, backend.step (.anchorFinished i answer) = some next ∧ next.m_busy = false := by
  have hasked : backend.anchors[i]?.map Anchor.answer = some none := by rw [hanchor, Option.map_some, hopen]
  have hfinishes : backend.step (.anchorFinished i answer) = some _ := if_pos hasked
  exact ⟨_, hfinishes, idle_of_anchorFinished hfinishes⟩

end Engaged

section

variable [Sha256] [Qt]

/-- Nothing that can happen ends it. -/
theorem Halted.step {self next : WhistleblowerBackend} {action : Action} (hhalted : Halted self)
    (hstep : self.step action = some next) : Halted next := by
  obtain ⟨hbusy, hpending, hfinished⟩ := hhalted
  have hidle : ∀ {P : Prop}, self.m_busy = false → P := fun hidle => absurd (hbusy.symm.trans hidle) nofun
  have hwaits : ∀ {P : Prop} {callback : UploadCallback}, self.m_pendingUploadCallback = some callback → P :=
    fun hwaits => absurd (hpending.symm.trans hwaits) nofun
  have hcalls : ∀ {P : Prop} {i : Nat} {anchor : Anchor}, self.anchors[i]? = some anchor → anchor.answer = none → P :=
    fun hanchor hopen => absurd hopen (hfinished _ (List.mem_of_getElem? hanchor))
  cases WhistleblowerBackend.step_cases hstep with
  | no_file _ _ _ _ _ _ hbusy | refused _ _ _ _ _ _ hbusy | requested _ _ _ _ _ _ _ hbusy | no_document _ _ hbusy
  | anchoring _ _ hbusy => exact hidle hbusy
  | blank _ _ _ _ _ _ hpending | uncomputed _ _ _ _ _ _ _ _ hpending | published _ _ _ _ _ _ _ _ _ hpending
  | timed_out _ _ _ _ _ hpending => exact hwaits hpending
  | anchor_failed _ _ _ _ _ hanchor hopen | anchored _ _ _ _ hanchor hopen => exact hcalls hanchor hopen
  | tick | same_file | new_file | unawaited | idle_timer | message_sent | message_error | broadcast_timer =>
    exact ⟨hbusy, hpending, hfinished⟩

/-- From then on the backend is busy, whatever happens. -/
def BusyForGood (backend : WhistleblowerBackend) : Prop :=
  ∀ later last, transition.run WhistleblowerBackend.step backend later = some last → last.m_busy = true

theorem Halted.busy_for_good {backend : WhistleblowerBackend} (hhalted : Halted backend) : BusyForGood backend :=
  fun _ _ hrun => (transition.run_preserves (fun _ _ _ hhalted hstep => hhalted.step hstep) hhalted hrun).busy

/-- What a run leaves: the backend is engaged if every report that found a callback had a CID,
    and halted otherwise. -/
theorem engaged_or_halted {initial last : WhistleblowerBackend} {actions : List Action} (hengaged : Engaged initial)
    (hrun : transition.run WhistleblowerBackend.step initial actions = some last) :
    transition.Along WhistleblowerBackend.step Named initial actions ∧ Engaged last ∨
      ¬transition.Along WhistleblowerBackend.step Named initial actions ∧ Halted last := by
  induction actions generalizing initial with
  | nil =>
    cases hrun
    exact .inl ⟨trivial, hengaged⟩
  | cons action rest ih =>
    obtain ⟨next, hstep, hrest⟩ := transition.run_cons_eq_some.mp hrun
    by_cases hnamed : Named initial action
    · obtain ⟨halong, hlast⟩ | ⟨hblank, hlast⟩ := ih (hengaged.step hnamed hstep) hrest
      · refine .inl ⟨⟨hnamed, fun other hother => ?_⟩, hlast⟩
        rwa [← Option.some.inj (hstep.symm.trans hother)]
      · exact .inr ⟨fun halong => hblank (halong.2 next hstep), hlast⟩
    · refine .inr ⟨fun halong => hnamed halong.1, ?_⟩
      exact transition.run_preserves (fun _ _ _ hhalted hstep => hhalted.step hstep) (hengaged.halt hnamed hstep) hrest

/-- After a run the backend is busy for good exactly if a report without a CID has found a
    callback. Otherwise, while it is busy, one event ends that: the awaited upload's own timer, or
    whatever the open anchoring call answers. -/
theorem busy_for_good_iff (storageAvailable deliveryAvailable : Bool) (now : Int) {actions : List Action}
    {last : WhistleblowerBackend} (hrun : transition.run WhistleblowerBackend.step
      (.constructed storageAvailable deliveryAvailable now) actions = some last) :
    (BusyForGood last ↔ ¬transition.Along WhistleblowerBackend.step Named
      (.constructed storageAvailable deliveryAvailable now) actions) ∧
    (¬BusyForGood last → last.m_busy = true →
      (∃ callback next, last.m_pendingUploadCallback = some callback ∧
        last.step (.uploadTimeout callback.upload) = some next ∧ next.m_busy = false) ∨
      ∃ i, i + 1 = last.anchors.length ∧
        ∀ answer, ∃ next, last.step (.anchorFinished i answer) = some next ∧ next.m_busy = false) := by
  have htimed : Timed last := transition.run_preserves (fun _ _ _ htimed hstep => htimed.step hstep)
    (Timed.constructed storageAvailable deliveryAvailable now) hrun
  have hends : Engaged last → last.m_busy = true →
      (∃ callback next, last.m_pendingUploadCallback = some callback ∧
        last.step (.uploadTimeout callback.upload) = some next ∧ next.m_busy = false) ∨
      ∃ i, i + 1 = last.anchors.length ∧
        ∀ answer, ∃ next, last.step (.anchorFinished i answer) = some next ∧ next.m_busy = false := by
    intro hengaged hbusy
    obtain hpending | ⟨anchor, hanchor, hopen⟩ := hengaged.awaited hbusy
    · obtain ⟨callback, hcallback⟩ := Option.ne_none_iff_exists'.mp hpending
      obtain ⟨next, hnext⟩ := Engaged.ends_by_timer htimed hcallback
      exact .inl ⟨callback, next, hcallback, hnext⟩
    · obtain ⟨i, hi⟩ := List.getElem?_of_mem hanchor
      exact .inr ⟨i, (hengaged.calling i anchor hi hopen).1, Engaged.ends_by_answer hi hopen⟩
  obtain ⟨halong, hengaged⟩ | ⟨hblank, hhalted⟩ :=
    engaged_or_halted (.constructed storageAvailable deliveryAvailable now) hrun
  · refine ⟨⟨fun hgood => ?_, fun hblank => absurd halong hblank⟩, fun _ => hends hengaged⟩
    obtain ⟨callback, next, _, hstep, hidle⟩ | ⟨i, _, hanswer⟩ := hends hengaged (hgood [] last rfl)
    · have hbusy := hgood [.uploadTimeout callback.upload] next (transition.run_cons_eq_some.mpr ⟨next, hstep, rfl⟩)
      rw [hidle] at hbusy
      cases hbusy
    · let answer : AnchorAnswer := { success := false, error := none, anchor_timestamp := 0, cid_hash := "" }
      obtain ⟨next, hstep, hidle⟩ := hanswer answer
      have hbusy := hgood [.anchorFinished i answer] next (transition.run_cons_eq_some.mpr ⟨next, hstep, rfl⟩)
      rw [hidle] at hbusy
      cases hbusy
  · exact ⟨⟨fun _ => hblank, fun _ => hhalted.busy_for_good⟩, fun hgood => absurd hhalted.busy_for_good hgood⟩

end

/-- A file is published, and the storage module reports its upload without data. -/
def blankReport : List Action := [
  .setSelectedFile "file:///first.txt",
  .publish "First" "" "" (some { size := 1, mimeType := "text/plain" }),
  .storageUploadDone 0 { cid := "zFirst", data := [] }]

theorem busy_for_good_iff_blankReport :
    ∃ last, transition.run WhistleblowerBackend.step (.constructed true true 7) blankReport = some last ∧
      BusyForGood last := by
  have hsome : (transition.run WhistleblowerBackend.step (.constructed true true 7) blankReport).isSome = true := by
    decide +kernel
  obtain ⟨last, hlast⟩ := Option.isSome_iff_exists.mp hsome
  have hblank : ¬transition.Along WhistleblowerBackend.step Named (.constructed true true 7) blankReport := by
    decide +kernel
  exact ⟨last, hlast, (busy_for_good_iff true true 7 hlast).1.mpr hblank⟩

end whistleblower_ui
