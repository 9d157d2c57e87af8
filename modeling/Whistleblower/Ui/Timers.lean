import Mathlib.Data.List.Nodup
import Whistleblower.Lib.Transition
import Whistleblower.Ui.Steps

namespace whistleblower_ui

/-- The requests of one kind, numbered as they are made, with the timers that have not
    fired. At most the last one is pending, and then its own timer has not fired. -/
structure Armed (pending : Option Nat) (made : Nat) (timers : List Nat) : Prop where
  single : timers.Nodup
  below : ∀ i ∈ timers, i < made
  last : ∀ i, pending = some i → i + 1 = made ∧ i ∈ timers

namespace Armed

theorem none_made : Armed none 0 [] := by
  refine ⟨List.nodup_nil, ?_, ?_⟩
  · intro i hi
    cases hi
  · intro i hpending
    cases hpending

/-- A new request is pending and arms a timer of its own. -/
theorem request {pending : Option Nat} {made : Nat} {timers : List Nat} (harmed : Armed pending made timers) :
    Armed (some made) (made + 1) (timers ++ [made]) := by
  refine ⟨?single, ?below, ?last⟩
  case single =>
    refine List.nodup_append.mpr ⟨harmed.single, List.nodup_singleton made, ?_⟩
    intro i hi other hother
    rw [List.mem_singleton.mp hother]
    exact Nat.ne_of_lt (harmed.below i hi)
  case below =>
    intro i hi
    obtain hi | hi := List.mem_append.mp hi
    · exact Nat.lt_succ_of_lt (harmed.below i hi)
    · rw [List.mem_singleton.mp hi]
      exact Nat.lt_succ_self made
  case last =>
    intro i hi
    obtain rfl := Option.some.inj hi
    exact ⟨rfl, List.mem_append_right timers (List.mem_singleton_self made)⟩

theorem cleared {pending : Option Nat} {made : Nat} {timers : List Nat} (harmed : Armed pending made timers) :
    Armed none made timers := ⟨harmed.single, harmed.below, fun _ hpending => nomatch hpending⟩

/-- A timer that fires leaves nothing pending. -/
theorem fired {pending : Option Nat} {made : Nat} {timers : List Nat} (harmed : Armed pending made timers) (i : Nat) :
    Armed none made (timers.erase i) := by
  refine ⟨harmed.single.erase i, ?_, fun _ hpending => nomatch hpending⟩
  exact fun other hother => harmed.below other (List.mem_of_mem_erase hother)

end Armed

/-- Uploads and broadcasts each have timers of their own. -/
structure Timed (backend : WhistleblowerBackend) : Prop where
  uploads : Armed (backend.m_pendingUploadCallback.map UploadCallback.upload) backend.uploads.length
    backend.uploadTimers
  broadcasts : Armed (backend.m_pendingPublishCallback.map PublishCallback.broadcast) backend.broadcasts.length
    backend.broadcastTimers

namespace Timed

theorem constructed (storageAvailable deliveryAvailable : Bool) (now : Int) :
    Timed (.constructed storageAvailable deliveryAvailable now) := ⟨.none_made, .none_made⟩

/-- What is noted about an upload makes no request. -/
theorem modified {backend : WhistleblowerBackend} (htimed : Timed backend) {upload : Nat} {f : Upload → Upload} :
    Armed (backend.m_pendingUploadCallback.map UploadCallback.upload) (backend.uploads.modify upload f).length
      backend.uploadTimers := by
  rw [List.length_modify]
  exact htimed.uploads

variable [Sha256] [Qt]

omit [Sha256] in
theorem broadcastEnvelope {self : WhistleblowerBackend} (htimed : Timed self) (topic : String)
    (envelopeBytes : List UInt8) : Timed (self.broadcastEnvelope topic envelopeBytes) := by
  obtain hsame | ⟨_, broadcast, hsent⟩ := self.broadcastEnvelope_cases topic envelopeBytes
  · rw [hsame]
    exact htimed
  · rw [hsent]
    refine ⟨htimed.uploads, ?_⟩
    rw [List.length_append]
    exact htimed.broadcasts.request

theorem step {self next : WhistleblowerBackend} {action : Action} (htimed : Timed self)
    (hstep : self.step action = some next) : Timed next := by
  cases WhistleblowerBackend.step_cases hstep with
  | requested =>
    refine ⟨?_, htimed.broadcasts⟩
    rw [List.length_append]
    exact htimed.uploads.request
  | unawaited => exact ⟨htimed.modified, htimed.broadcasts⟩
  | blank | uncomputed => exact ⟨htimed.modified.cleared, htimed.broadcasts⟩
  | published =>
    refine broadcastEnvelope ?_ _ _
    exact ⟨htimed.modified.cleared, htimed.broadcasts⟩
  | idle_timer i hi hpending =>
    refine ⟨?_, htimed.broadcasts⟩
    dsimp only
    rw [hpending]
    exact htimed.uploads.fired i
  | timed_out i => exact ⟨htimed.modified.fired i, htimed.broadcasts⟩
  | message_sent | message_error => exact ⟨htimed.uploads, htimed.broadcasts.cleared⟩
  | broadcast_timer i => exact ⟨htimed.uploads, htimed.broadcasts.fired i⟩
  | tick | same_file | new_file | no_file | refused | no_document | anchoring | anchor_failed | anchored =>
    exact ⟨htimed.uploads, htimed.broadcasts⟩

end Timed

/-- What a safety timer may do when it fires. It is no longer armed, and otherwise changes
    nothing, unless the request that is pending is the one that it was armed for. Then its
    callback is taken, and none of the other kind. -/
def Spares (self : WhistleblowerBackend) : Action → WhistleblowerBackend → Prop
  | .uploadTimeout i, next =>
    next = { self with uploadTimers := self.uploadTimers.erase i } ∨
      self.m_pendingUploadCallback.map UploadCallback.upload = some i ∧ i ∉ next.uploadTimers ∧
        next.m_pendingPublishCallback = self.m_pendingPublishCallback
  | .broadcastTimeout i, next =>
    next = { self with broadcastTimers := self.broadcastTimers.erase i } ∨
      self.m_pendingPublishCallback.map PublishCallback.broadcast = some i ∧ i ∉ next.broadcastTimers ∧
        next.m_pendingUploadCallback = self.m_pendingUploadCallback
  | _, _ => True

/-- A safety timer that fires while a request of its kind is pending is that of the last
    request. -/
def LatestTimer (self : WhistleblowerBackend) : Action → Prop
  | .uploadTimeout i =>
    i ∈ self.uploadTimers → self.m_pendingUploadCallback.isSome = true → i + 1 = self.uploads.length
  | .broadcastTimeout i =>
    i ∈ self.broadcastTimers → self.m_pendingPublishCallback.isSome = true → i + 1 = self.broadcasts.length
  | _ => True

theorem Armed.owner_iff {pending : Option Nat} {made : Nat} {timers : List Nat} (harmed : Armed pending made timers)
    {i : Nat} (hpending : pending.isSome = true) : pending = some i ↔ i + 1 = made := by
  obtain ⟨owner, howner⟩ := Option.isSome_iff_exists.mp hpending
  have hlast := (harmed.last owner howner).1
  rw [howner]
  constructor
  · intro heq
    rw [← Option.some.inj heq]
    exact hlast
  · intro hi
    rw [Nat.succ.inj (hlast.trans hi.symm)]

section

variable [Sha256] [Qt]

theorem WhistleblowerBackend.step_uploadTimeout (self : WhistleblowerBackend) {i : Nat} (hi : i ∈ self.uploadTimers) :
    self.step (.uploadTimeout i) =
      some { self with uploadTimers := self.uploadTimers.erase i }.uploadTimeout := if_pos hi

theorem WhistleblowerBackend.step_broadcastTimeout (self : WhistleblowerBackend) {i : Nat}
    (hi : i ∈ self.broadcastTimers) : self.step (.broadcastTimeout i) =
      some { self with broadcastTimers := self.broadcastTimers.erase i }.broadcastFailed := if_pos hi

/-- An upload's safety timer that fires leaves no upload pending. -/
theorem pending_of_uploadTimeout {self next : WhistleblowerBackend} {i : Nat}
    (hstep : self.step (.uploadTimeout i) = some next) : next.m_pendingUploadCallback = none := by
  cases WhistleblowerBackend.step_cases hstep with
  | idle_timer _ _ hpending => exact hpending
  | timed_out => rfl

/-- A broadcast's safety timer that fires leaves no broadcast pending. -/
theorem pending_of_broadcastTimeout {self next : WhistleblowerBackend} {i : Nat}
    (hstep : self.step (.broadcastTimeout i) = some next) : next.m_pendingPublishCallback = none := by
  cases WhistleblowerBackend.step_cases hstep with
  | broadcast_timer => rfl

/-- A safety timer that fires spares what is not its own, exactly if what is pending was
    requested last. -/
theorem spares_iff {self : WhistleblowerBackend} (htimed : Timed self) (action : Action) :
    LatestTimer self action ↔ ∀ next, self.step action = some next → Spares self action next := by
  cases action with
  | uploadTimeout i =>
    constructor
    · intro hlatest next hstep
      cases WhistleblowerBackend.step_cases hstep with
      | idle_timer _ hi hpending => exact .inl rfl
      | timed_out _ callback msg signals hi hpending =>
        have hsome : self.m_pendingUploadCallback.isSome = true := by rw [hpending]; rfl
        refine .inr ⟨(htimed.uploads.owner_iff (by rwa [Option.isSome_map])).mpr (hlatest hi hsome), ?_, rfl⟩
        exact htimed.uploads.single.not_mem_erase
    · intro hspares hi hsome
      obtain hsame | ⟨howner, -⟩ := hspares _ (self.step_uploadTimeout hi)
      · have hnone := pending_of_uploadTimeout (self.step_uploadTimeout hi)
        rw [hsame] at hnone
        dsimp only at hnone
        rw [hnone] at hsome
        cases hsome
      · exact (htimed.uploads.owner_iff (by rwa [Option.isSome_map])).mp howner
  | broadcastTimeout i =>
    constructor
    · intro hlatest next hstep
      cases WhistleblowerBackend.step_cases hstep with
      | broadcast_timer _ hi =>
        cases hpending : self.m_pendingPublishCallback with
        | none =>
          refine .inl ?_
          rw [← hpending]
        | some callback =>
          have hsome : self.m_pendingPublishCallback.isSome = true := by rw [hpending]; rfl
          refine .inr ⟨(htimed.broadcasts.owner_iff (by rwa [Option.isSome_map])).mpr (hlatest hi hsome), ?_, rfl⟩
          exact htimed.broadcasts.single.not_mem_erase
    · intro hspares hi hsome
      obtain hsame | ⟨howner, -⟩ := hspares _ (self.step_broadcastTimeout hi)
      · have hnone := pending_of_broadcastTimeout (self.step_broadcastTimeout hi)
        rw [hsame] at hnone
        dsimp only at hnone
        rw [hnone] at hsome
        cases hsome
      · exact (htimed.broadcasts.owner_iff (by rwa [Option.isSome_map])).mp howner
  | _ => exact ⟨fun _ _ _ => trivial, fun _ => trivial⟩

/-- Every safety timer that fires in a run affects its own request only, exactly if each
    finds no request of its kind pending or was armed for the last one made. -/
theorem timers_spare_iff (storageAvailable deliveryAvailable : Bool) (now : Int) (actions : List Action) :
    transition.Along WhistleblowerBackend.step LatestTimer
        (.constructed storageAvailable deliveryAvailable now) actions ↔
      transition.Along WhistleblowerBackend.step
        (fun self action => ∀ next, self.step action = some next → Spares self action next)
        (.constructed storageAvailable deliveryAvailable now) actions :=
  transition.along_congr (P := Timed) (fun _ _ _ htimed hstep => htimed.step hstep)
    (fun _ action htimed => spares_iff htimed action)
    (Timed.constructed storageAvailable deliveryAvailable now) actions

end

/-- Two files are published within the time of the first timer. -/
def overlap : List Action := [
  .setSelectedFile "file:///first.txt",
  .publish "First" "" "" (some { size := 1, mimeType := "text/plain" }),
  .storageUploadDone 0 { cid := "zFirst", data := ["zFirst"] },
  .setSelectedFile "file:///second.txt",
  .publish "Second" "" "" (some { size := 2, mimeType := "text/plain" })]

/-- The timer of the first upload fails the second one, whose own timer has not fired. -/
theorem timer_fails_later_upload :
    ¬∀ actions : List Action, transition.Along WhistleblowerBackend.step
      (fun self action => ∀ next, self.step action = some next → Spares self action next)
      (.constructed true true 7) actions := by
  intro hclaim
  have hrun : (transition.run WhistleblowerBackend.step (.constructed true true 7) overlap).any (fun before =>
      before.m_pendingUploadCallback.map UploadCallback.upload = some 1 ∧ before.uploadTimers = [0, 1]) = true := by
    decide +kernel
  obtain ⟨before, hbefore, hstate⟩ := (Option.any_eq_true _ _).mp hrun
  obtain ⟨hwaits, htimers⟩ := of_decide_eq_true hstate
  have hi : 0 ∈ before.uploadTimers := htimers ▸ List.mem_cons_self
  have hfires := before.step_uploadTimeout hi
  obtain hsame | ⟨howner, -⟩ :=
    transition.along_iff_forall.mp (hclaim _) overlap (.uploadTimeout 0) [] before rfl hbefore _ hfires
  · have hnone := pending_of_uploadTimeout hfires
    rw [hsame] at hnone
    dsimp only at hnone
    rw [hnone] at hwaits
    cases hwaits
  · rw [howner] at hwaits
    cases hwaits

end whistleblower_ui
