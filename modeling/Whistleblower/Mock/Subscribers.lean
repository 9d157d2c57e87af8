import Whistleblower.Mock.Completions

open whistleblower_core document_indexing

namespace whistleblower_mock_adapter

/-- A stream can still receive. -/
def Stream.open? (streams : List Stream) (j : Nat) : Bool := (streams[j]?).any fun stream => !stream.dropped

/-- Those who cannot receive are left out, and each of the others receives the envelope. -/
theorem retain_sent_eq (envelope : ReceivedEnvelope) {senders : List Nat} (hnodup : senders.Nodup)
    (streams : List Stream) :
    (retain_sent envelope senders streams).1 = senders.filter (Stream.open? streams) ∧
      ∀ j, (retain_sent envelope senders streams).2[j]? = (streams[j]?).map fun stream =>
        if j ∈ senders ∧ stream.dropped = false then stream.push envelope else stream := by
  induction senders generalizing streams with
  | nil => exact ⟨rfl, fun j => by simp [retain_sent]⟩
  | cons sender rest ih =>
    obtain ⟨habsent, hrest⟩ := List.nodup_cons.mp hnodup
    rw [retain_sent]
    cases hstream : streams[sender]? with
    | none =>
      obtain ⟨hkept, hafter⟩ := ih hrest streams
      refine ⟨?_, fun j => ?_⟩
      · rw [List.filter_cons_of_neg (by simp [Stream.open?, hstream])]
        exact hkept
      · refine (hafter j).trans ?_
        by_cases hj : j = sender
        · rw [hj, hstream]
          rfl
        · simp [hj]
    | some stream =>
      cases hdropped : stream.dropped with
      | true =>
        obtain ⟨hkept, hafter⟩ := ih hrest streams
        simp only [hdropped, if_true]
        refine ⟨?_, fun j => ?_⟩
        · rw [List.filter_cons_of_neg (by simp [Stream.open?, hstream, hdropped])]
          exact hkept
        · rw [hafter j]
          by_cases hj : j = sender
          · rw [hj, hstream, Option.map_some, Option.map_some]
            simp [hdropped]
          · simp [hj]
      | false =>
        obtain ⟨hkept, hafter⟩ := ih hrest (streams.set sender (stream.push envelope))
        simp only [hdropped, Bool.false_eq_true, if_false]
        refine ⟨?_, fun j => ?_⟩
        · rw [List.filter_cons_of_pos (by simp [Stream.open?, hstream, hdropped])]
          refine congrArg (sender :: ·) (hkept.trans (List.filter_congr fun j hj => ?_))
          have hne : sender ≠ j := fun hsame => habsent (hsame ▸ hj)
          rw [Stream.open?, Stream.open?, List.getElem?_set_ne hne]
        · refine (hafter j).trans ?_
          by_cases hj : j = sender
          · subst hj
            have hlt := (List.getElem?_eq_some_iff.mp hstream).1
            rw [List.getElem?_set_self hlt, hstream]
            simp [habsent, hdropped]
          · rw [List.getElem?_set_ne (Ne.symm hj)]
            simp [hj]

/-- A stream after an event. -/
def Stream.next {A : Type} (self : Stream) (j : Nat) : MockEvent A → Stream
  | .emit_received topic payload =>
    if topic = self.topic ∧ self.dropped = false then self.push (received_envelope topic payload) else self
  | .drop_stream other => if other = j then { self with dropped := true } else self
  | _ => self

namespace MockSession

variable {A : Type}

/-- Each stream that can receive is subscribed to its topic, once, and to no other. -/
structure Subscribed (session : MockSession A) : Prop where
  once (topic : String) : (session.delivery.subscribers topic).Nodup
  heard : ∀ topic, ∀ j ∈ session.delivery.subscribers topic,
    ∃ stream, session.streams[j]? = some stream ∧ stream.topic = topic
  listed : ∀ (j : Nat) (stream : Stream), session.streams[j]? = some stream → stream.dropped = false →
    j ∈ session.delivery.subscribers stream.topic

variable {session next : MockSession A} {j : Nat} {stream : Stream}

/-- The subscribers and their streams stay as they are. -/
theorem Subscribed.of_same (hsubscribed : session.Subscribed)
    (hsubscribers : next.delivery.subscribers = session.delivery.subscribers) (hstreams : next.streams = session.streams) :
    next.Subscribed := by
  obtain ⟨honce, hheard, hlisted⟩ := hsubscribed
  refine ⟨?_, ?_, ?_⟩
  · rw [hsubscribers]
    exact honce
  · rw [hsubscribers, hstreams]
    exact hheard
  · rw [hsubscribers, hstreams]
    exact hlisted

theorem Subscribed.subscribe (hsubscribed : session.Subscribed) (topic : String) :
    (session.subscribe topic).Subscribed := by
  rw [MockSession.subscribe]
  split
  · exact hsubscribed
  · obtain ⟨honce, hheard, hlisted⟩ := hsubscribed
    have hknown : ∀ other, ∀ k ∈ session.delivery.subscribers other, k < session.streams.length := by
      intro other k hk
      obtain ⟨found, hfound, _⟩ := hheard other k hk
      exact (List.getElem?_eq_some_iff.mp hfound).1
    refine ⟨?once, ?heard, ?listed⟩
    case once =>
      intro other
      dsimp only
      rw [Function.update_apply]
      split
      · refine List.nodup_append.mpr ⟨honce topic, List.nodup_singleton _, ?_⟩
        rintro k hk _ hlast rfl
        have := hknown topic k hk
        rw [List.mem_singleton.mp hlast] at this
        omega
      · exact honce other
    case heard =>
      intro other k hk
      dsimp only at hk ⊢
      rw [Function.update_apply] at hk
      split at hk
      · rename_i hsame
        subst hsame
        obtain hk | hk := List.mem_append.mp hk
        · obtain ⟨found, hfound, hof⟩ := hheard _ k hk
          exact ⟨found, by rw [List.getElem?_append_left (hknown _ k hk), hfound], hof⟩
        · rw [List.mem_singleton.mp hk]
          exact ⟨_, List.getElem?_concat_length, rfl⟩
      · obtain ⟨found, hfound, hof⟩ := hheard other k hk
        exact ⟨found, by rw [List.getElem?_append_left (hknown other k hk), hfound], hof⟩
    case listed =>
      intro k found hfound hopen
      dsimp only at hfound ⊢
      rw [List.getElem?_append] at hfound
      rw [Function.update_apply]
      split at hfound
      · have hk := hlisted k found hfound hopen
        split
        · rename_i hsame
          exact List.mem_append_left _ (hsame ▸ hk)
        · exact hk
      · obtain rfl := List.mem_singleton.mp (List.mem_of_getElem? hfound)
        rename_i hlong
        have hlast : k = session.streams.length := by
          have := (List.getElem?_eq_some_iff.mp hfound).1
          rw [List.length_singleton] at this
          omega
        rw [if_pos rfl, hlast]
        exact List.mem_append_right _ List.mem_cons_self

/-- What an emission does to a stream. -/
theorem emitted_stream (hsubscribed : session.Subscribed) (hsound : session.delivery.poisoned = false)
    (topic : String) (payload : List UInt8) (hstream : session.streams[j]? = some stream) :
    (session.emit_received topic payload).streams[j]? =
      some (stream.next j (.emit_received topic payload : MockEvent A)) := by
  obtain ⟨_, hafter⟩ := retain_sent_eq (received_envelope topic payload) (hsubscribed.once topic) session.streams
  simp only [MockSession.emit_received, hsound, Bool.false_eq_true, if_false]
  rw [hafter, hstream, Option.map_some, Stream.next]
  refine congrArg some (if_congr ?_ rfl rfl)
  constructor
  · rintro ⟨hmem, hopen⟩
    obtain ⟨found, hfound, hof⟩ := hsubscribed.heard topic j hmem
    rw [hstream] at hfound
    exact ⟨Option.some.inj hfound ▸ hof.symm, hopen⟩
  · rintro ⟨rfl, hopen⟩
    exact ⟨hsubscribed.listed j stream hstream hopen, hopen⟩

theorem Subscribed.emit_received (hsubscribed : session.Subscribed) (topic : String) (payload : List UInt8) :
    (session.emit_received topic payload).Subscribed := by
  rw [MockSession.emit_received]
  split
  · exact hsubscribed
  · obtain ⟨honce, hheard, hlisted⟩ := hsubscribed
    obtain ⟨hkept, hafter⟩ := retain_sent_eq (received_envelope topic payload) (honce topic) session.streams
    have hstays : ∀ (k : Nat) (found : Stream), session.streams[k]? = some found →
        ∃ later : Stream, (retain_sent (received_envelope topic payload) (session.delivery.subscribers topic)
          session.streams).2[k]? = some later ∧ later.topic = found.topic := by
      intro k found hfound
      rw [hafter, hfound]
      refine ⟨_, rfl, ?_⟩
      dsimp only
      split <;> rfl
    refine ⟨?once, ?heard, ?listed⟩
    case once =>
      intro other
      dsimp only
      rw [Function.update_apply, hkept]
      split
      · exact (honce topic).filter _
      · exact honce other
    case heard =>
      intro other k hk
      dsimp only at hk ⊢
      have hbefore : k ∈ session.delivery.subscribers other := by
        rw [Function.update_apply, hkept] at hk
        split at hk
        · rename_i hsame
          exact hsame ▸ List.mem_of_mem_filter hk
        · exact hk
      obtain ⟨found, hfound, hof⟩ := hheard other k hbefore
      obtain ⟨later, hlater, hsame⟩ := hstays k found hfound
      exact ⟨later, hlater, hsame.trans hof⟩
    case listed =>
      intro k later hlater hopen
      dsimp only at hlater ⊢
      rw [hafter] at hlater
      obtain ⟨found, hfound, rfl⟩ := Option.map_eq_some_iff.mp hlater
      have hfound_open : found.dropped = false := by
        split at hopen <;> exact hopen
      have htopic : (if k ∈ session.delivery.subscribers topic ∧ found.dropped = false then
          found.push (received_envelope topic payload) else found).topic = found.topic := by
        split <;> rfl
      have hk := hlisted k found hfound hfound_open
      rw [htopic, Function.update_apply, hkept]
      split
      · rename_i hsame
        exact List.mem_filter.mpr ⟨hsame ▸ hk, by simp [Stream.open?, hfound, hfound_open]⟩
      · exact hk

theorem Subscribed.drop_stream (hsubscribed : session.Subscribed) (j : Nat) :
    { session with streams := session.streams.modify j fun stream => { stream with dropped := true } }.Subscribed := by
  obtain ⟨honce, hheard, hlisted⟩ := hsubscribed
  refine ⟨honce, ?heard, ?listed⟩
  case heard =>
    intro topic k hk
    obtain ⟨found, hfound, hof⟩ := hheard topic k hk
    refine ⟨if j = k then { found with dropped := true } else found, ?_, ?_⟩
    · dsimp only
      rw [List.getElem?_modify, hfound]
      split <;> rfl
    · split <;> exact hof
  case listed =>
    intro k later hlater hopen
    dsimp only at hlater
    rw [List.getElem?_modify] at hlater
    obtain ⟨found, hfound, rfl⟩ := Option.map_eq_some_iff.mp hlater
    split at hopen
    · cases hopen
    · rename_i hne
      rw [if_neg hne]
      exact hlisted k found hfound hopen

variable [Sha256] {event : MockEvent A}

omit [Sha256] in
theorem subscribers_complete_publish (request_id : String) (outcome : Except AdapterError String) :
    (session.complete_publish request_id outcome).delivery.subscribers = session.delivery.subscribers ∧
      (session.complete_publish request_id outcome).streams = session.streams ∧
      ((session.complete_publish request_id outcome).delivery.poisoned = false → session.delivery.poisoned = false) := by
  rw [MockSession.complete_publish]
  split
  · exact ⟨rfl, rfl, id⟩
  · split
    · exact ⟨rfl, rfl, fun hclear => by cases hclear⟩
    · exact ⟨rfl, rfl, id⟩

omit [Sha256] in
theorem subscribers_complete_upload (request_id cid : String) :
    (session.complete_upload request_id cid).delivery = session.delivery ∧
      (session.complete_upload request_id cid).streams = session.streams := by
  rw [MockSession.complete_upload]
  split
  · exact ⟨rfl, rfl⟩
  · split <;> exact ⟨rfl, rfl⟩

theorem subscribers_ask (i : Nat) (task : Task A) (request : AdapterCall)
    (resume : request.Response → Async Adapters A) :
    (session.ask i task request resume).delivery.subscribers = session.delivery.subscribers ∧
      (session.ask i task request resume).delivery.poisoned = session.delivery.poisoned ∧
      (session.ask i task request resume).streams = session.streams := by
  cases request with
  | upload_file path =>
    rw [MockSession.ask]
    split <;> exact ⟨rfl, rfl, rfl⟩
  | publish topic bytes =>
    rw [MockSession.ask]
    split <;> exact ⟨rfl, rfl, rfl⟩
  | anchor_one | anchor_batch | query_by_cid_hash | sink_send | sleep | panic => exact ⟨rfl, rfl, rfl⟩

/-- An event that is neither a subscription nor an emission nor a drop leaves the streams alone,
    and no lock is ever unpoisoned. -/
theorem step_cases (hstep : session.step event = some next) :
    (next.delivery.subscribers = session.delivery.subscribers ∧ next.streams = session.streams ∧
      (next.delivery.poisoned = false → session.delivery.poisoned = false) ∧
      ∀ (j : Nat) (stream : Stream), stream.next j event = stream) ∨
    (∃ topic, event = .subscribe topic ∧ next = session.subscribe topic) ∨
    (∃ topic payload, event = .emit_received topic payload ∧ next = session.emit_received topic payload) ∨
    ∃ j, event = .drop_stream j ∧
      next = { session with streams := session.streams.modify j fun stream => { stream with dropped := true } } := by
  cases event with
  | begin program =>
    obtain rfl := Option.some.inj hstep
    exact .inl ⟨rfl, rfl, id, fun _ _ => rfl⟩
  | poll i =>
    obtain ⟨task, htask, hpolled⟩ := Option.bind_eq_some_iff.mp hstep
    split at hpolled
    · cases hpolled
    · split at hpolled
      · cases hpolled
      · obtain rfl := Option.some.inj hpolled
        obtain ⟨hsubscribers, hpoisoned, hstreams⟩ := subscribers_ask i task _ _
        exact .inl ⟨hsubscribers, hstreams, hpoisoned.symm.trans, fun _ _ => rfl⟩
  | drop i =>
    obtain rfl := Option.some.inj hstep
    exact .inl ⟨rfl, rfl, id, fun _ _ => rfl⟩
  | complete_upload request_id cid =>
    obtain rfl := Option.some.inj hstep
    obtain ⟨hdelivery, hstreams⟩ := subscribers_complete_upload request_id cid
    rw [hdelivery, hstreams]
    exact .inl ⟨rfl, rfl, id, fun _ _ => rfl⟩
  | message_sent request_id message_hash =>
    obtain rfl := Option.some.inj hstep
    obtain ⟨hsubscribers, hstreams, hsound⟩ := subscribers_complete_publish request_id _
    exact .inl ⟨hsubscribers, hstreams, hsound, fun _ _ => rfl⟩
  | message_error request_id retryable message =>
    obtain rfl := Option.some.inj hstep
    obtain ⟨hsubscribers, hstreams, hsound⟩ := subscribers_complete_publish request_id _
    exact .inl ⟨hsubscribers, hstreams, hsound, fun _ _ => rfl⟩
  | subscribe topic =>
    obtain rfl := Option.some.inj hstep
    exact .inr (.inl ⟨topic, rfl, rfl⟩)
  | emit_received topic payload =>
    obtain rfl := Option.some.inj hstep
    exact .inr (.inr (.inl ⟨topic, payload, rfl, rfl⟩))
  | drop_stream j =>
    obtain rfl := Option.some.inj hstep
    exact .inr (.inr (.inr ⟨j, rfl, rfl⟩))

theorem Subscribed.step (hsubscribed : session.Subscribed) (hstep : session.step event = some next) :
    next.Subscribed := by
  obtain ⟨hsubscribers, hstreams, _, _⟩ | ⟨topic, _, rfl⟩ | ⟨topic, payload, _, rfl⟩ | ⟨j, _, rfl⟩ := step_cases hstep
  · exact hsubscribed.of_same hsubscribers hstreams
  · exact hsubscribed.subscribe topic
  · exact hsubscribed.emit_received topic payload
  · exact hsubscribed.drop_stream j

/-- A lock that is poisoned stays so. -/
theorem sound_of_step (hstep : session.step event = some next) (hsound : next.delivery.poisoned = false) :
    session.delivery.poisoned = false := by
  obtain ⟨_, _, hstays, _⟩ | ⟨topic, _, rfl⟩ | ⟨topic, payload, _, rfl⟩ | ⟨j, _, rfl⟩ := step_cases hstep
  · exact hstays hsound
  · rw [MockSession.subscribe] at hsound
    split at hsound <;> exact hsound
  · rw [MockSession.emit_received] at hsound
    split at hsound <;> exact hsound
  · exact hsound

theorem sound_of_run {events : List (MockEvent A)}
    (hrun : transition.run MockSession.step session events = some next) (hsound : next.delivery.poisoned = false) :
    session.delivery.poisoned = false := by
  induction events generalizing session with
  | nil =>
    cases hrun
    exact hsound
  | cons event rest ih =>
    obtain ⟨middle, hstep, hrest⟩ := transition.run_cons_eq_some.mp hrun
    exact sound_of_step hstep (ih hrest)

/-- A stream takes its next step. -/
theorem stream_step (hsubscribed : session.Subscribed) (hsound : session.delivery.poisoned = false)
    (hstep : session.step event = some next) (hstream : session.streams[j]? = some stream) :
    next.streams[j]? = some (stream.next j event) := by
  obtain ⟨_, hstreams, _, hsame⟩ | ⟨topic, rfl, rfl⟩ | ⟨topic, payload, rfl, rfl⟩ | ⟨other, rfl, rfl⟩ := step_cases hstep
  · rw [hstreams, hsame, hstream]
  · simp only [MockSession.subscribe, hsound, Bool.false_eq_true, if_false]
    rw [List.getElem?_append_left (List.getElem?_eq_some_iff.mp hstream).1, hstream]
    rfl
  · exact emitted_stream hsubscribed hsound topic payload hstream
  · dsimp only
    rw [List.getElem?_modify, hstream, Stream.next]
    split <;> rfl

end MockSession

/-- What is emitted on a topic. -/
def MockEvent.emission {A : Type} (topic : String) : MockEvent A → Option (List UInt8)
  | .emit_received other payload => if other = topic then some payload else none
  | _ => none

/-- The stream of a number is dropped. -/
def MockEvent.drops {A : Type} (j : Nat) : MockEvent A → Bool
  | .drop_stream other => other = j
  | _ => false

/-- What is emitted on a topic until the stream of a number is dropped. -/
def emissions {A : Type} (topic : String) (j : Nat) (events : List (MockEvent A)) : List (List UInt8) :=
  (events.takeWhile fun event => !event.drops j).filterMap (MockEvent.emission topic)

theorem emissions_cons_drop {A : Type} {topic : String} {j : Nat} {event : MockEvent A} (hdrops : event.drops j = true)
    (rest : List (MockEvent A)) : emissions topic j (event :: rest) = [] := by
  rw [emissions, List.takeWhile_cons_of_neg (by simp [hdrops]), List.filterMap_nil]

theorem emissions_cons {A : Type} {topic : String} {j : Nat} {event : MockEvent A} (hdrops : event.drops j = false)
    (rest : List (MockEvent A)) :
    emissions topic j (event :: rest) = (event.emission topic).toList ++ emissions topic j rest := by
  rw [emissions, List.takeWhile_cons_of_pos (by simp [hdrops]), List.filterMap_cons]
  cases event.emission topic <;> rfl

namespace MockSession

section

variable [Sha256] {A : Type} {session last : MockSession A} {j : Nat} {stream : Stream}

theorem dropped_of_run {events : List (MockEvent A)} (hsubscribed : session.Subscribed)
    (hrun : transition.run MockSession.step session events = some last) (hsound : last.delivery.poisoned = false)
    (hstream : session.streams[j]? = some stream) (hdropped : stream.dropped = true) :
    last.streams[j]? = some stream := by
  induction events generalizing session with
  | nil =>
    cases hrun
    exact hstream
  | cons event rest ih =>
    obtain ⟨middle, hstep, hrest⟩ := transition.run_cons_eq_some.mp hrun
    refine ih (hsubscribed.step hstep) hrest ?_
    rw [stream_step hsubscribed (sound_of_run hrun hsound) hstep hstream]
    cases event with
    | emit_received topic payload => simp [Stream.next, hdropped]
    | drop_stream other =>
      rw [Stream.next, ← hdropped]
      split <;> rfl
    | begin | poll | drop | complete_upload | message_sent | message_error | subscribe => rfl

/-- A stream receives what is emitted on its topic until it is dropped. -/
theorem received_of_run {events : List (MockEvent A)} (hsubscribed : session.Subscribed)
    (hrun : transition.run MockSession.step session events = some last) (hsound : last.delivery.poisoned = false)
    (hstream : session.streams[j]? = some stream) (hopen : stream.dropped = false) :
    ∃ later, last.streams[j]? = some later ∧ later.topic = stream.topic ∧
      later.received = stream.received ++
        (emissions stream.topic j events).map (received_envelope stream.topic) := by
  induction events generalizing session stream with
  | nil =>
    cases hrun
    exact ⟨stream, hstream, rfl, (List.append_nil _).symm⟩
  | cons event rest ih =>
    obtain ⟨middle, hstep, hrest⟩ := transition.run_cons_eq_some.mp hrun
    have hnext := stream_step hsubscribed (sound_of_run hrun hsound) hstep hstream
    have hmiddle := hsubscribed.step hstep
    have hunheard : event.drops j = false → event.emission stream.topic = none → stream.next j event = stream →
        ∃ later, last.streams[j]? = some later ∧ later.topic = stream.topic ∧ later.received = stream.received ++
          (emissions stream.topic j (event :: rest)).map (received_envelope stream.topic) := by
      intro hdrops hemission hsame
      rw [hsame] at hnext
      rw [emissions_cons hdrops, hemission]
      exact ih hmiddle hrest hnext hopen
    cases event with
    | emit_received topic payload =>
      by_cases htopic : topic = stream.topic
      · subst htopic
        have hpushed : stream.next j (.emit_received stream.topic payload : MockEvent A) =
            stream.push (received_envelope stream.topic payload) := if_pos ⟨rfl, hopen⟩
        have hemission : MockEvent.emission stream.topic (.emit_received stream.topic payload : MockEvent A) =
            some payload := if_pos rfl
        rw [hpushed] at hnext
        obtain ⟨later, hlater, hof, hreceived⟩ := ih hmiddle hrest hnext hopen
        refine ⟨later, hlater, hof, hreceived.trans ?_⟩
        rw [emissions_cons rfl, hemission, Option.toList_some, List.map_append, ← List.append_assoc]
        rfl
      · exact hunheard rfl (if_neg htopic) (if_neg fun hboth => htopic hboth.1)
    | drop_stream other =>
      by_cases hother : other = j
      · have hdropped : stream.next j (.drop_stream other : MockEvent A) = { stream with dropped := true } :=
          if_pos hother
        rw [hdropped] at hnext
        have hdrops : MockEvent.drops j (.drop_stream other : MockEvent A) = true := decide_eq_true hother
        refine ⟨_, dropped_of_run hmiddle hrest hsound hnext rfl, rfl, ?_⟩
        rw [emissions_cons_drop hdrops]
        exact (List.append_nil _).symm
      · exact hunheard (decide_eq_false hother) rfl (if_neg hother)
    | begin | poll | drop | complete_upload | message_sent | message_error | subscribe => exact hunheard rfl rfl rfl

omit [Sha256] in
theorem subscribed_default : (default : MockSession A).Subscribed :=
  ⟨fun _ => List.nodup_nil, (fun _ _ hnone => nomatch hnone), fun _ _ hnone => nomatch hnone⟩

end

section

variable [Sha256] {A : Type} {before last : MockSession A}

/-- As long as the delivery's lock is sound, a subscriber receives exactly what is emitted on its
    topic, in order, from its subscription until its stream is dropped, however many others
    subscribe, come and go. -/
theorem subscribers_hear_their_topic {earlier later : List (MockEvent A)}
    (hbefore : transition.run MockSession.step default earlier = some before) {topic : String}
    (hrun : transition.run MockSession.step before (.subscribe topic :: later) = some last)
    (hsound : last.delivery.poisoned = false) :
    ∃ stream, last.streams[before.streams.length]? = some stream ∧ stream.topic = topic ∧
      stream.received = (emissions topic before.streams.length later).map (received_envelope topic) := by
  have hsubscribed : before.Subscribed :=
    transition.run_preserves (fun _ _ _ hkept hstep => hkept.step hstep) subscribed_default hbefore
  obtain ⟨middle, hstep, hrest⟩ := transition.run_cons_eq_some.mp hrun
  have hstream : middle.streams[before.streams.length]? = some { topic, received := [], dropped := false } := by
    have hbefore_sound := sound_of_step hstep (sound_of_run hrest hsound)
    obtain rfl := Option.some.inj hstep
    simp only [MockSession.subscribe, hbefore_sound, Bool.false_eq_true, if_false]
    exact List.getElem?_concat_length
  obtain ⟨stream, hlast, hof, hreceived⟩ := received_of_run (hsubscribed.step hstep) hrest hsound hstream rfl
  exact ⟨stream, hlast, hof, hreceived⟩

end

/-- What happens after a subscription: another one subscribes, and both streams are dropped. -/
def comings : List (MockEvent Unit) :=
  [.subscribe "news", .emit_received "other" [1], .emit_received "news" [2], .drop_stream 2,
    .emit_received "news" [3, 4], .drop_stream 1, .emit_received "news" [5]]

theorem subscribers_hear_their_topic_comings :
    ∃ before last stream, transition.run MockSession.step (default : MockSession Unit) [.subscribe "other"] =
        some before ∧
      transition.run MockSession.step before (.subscribe "news" :: comings) = some last ∧
      last.streams[1]? = some stream ∧ stream.received.map ReceivedEnvelope.payload = [[2], [3, 4]] := by
  let before : MockSession Unit := default.subscribe "other"
  have hrun : (transition.run MockSession.step before (.subscribe "news" :: comings)).any (fun last =>
      !last.delivery.poisoned) = true := by
    decide
  obtain ⟨last, hlast, hsound⟩ := (Option.any_eq_true _ _).mp hrun
  have hbefore : transition.run MockSession.step (default : MockSession Unit) [.subscribe "other"] = some before := rfl
  obtain ⟨stream, hstream, _, hreceived⟩ := subscribers_hear_their_topic hbefore hlast (by simpa using hsound)
  refine ⟨before, last, stream, hbefore, hlast, hstream, ?_⟩
  rw [hreceived]
  decide

end MockSession

end whistleblower_mock_adapter
