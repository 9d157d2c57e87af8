import Whistleblower.Indexing.Publisher
import Whistleblower.Lez.Chained
import Whistleblower.Mock.Clients

open whistleblower_core document_indexing whistleblower_lez_adapter first_writer

namespace whistleblower_mock_adapter

/-- The registry's successful answer. -/
def anchored_one (cid : CanonicalCid) (metadata_hash : MetadataHash) (entry : AnchorEntry) : Exchange Adapters :=
  ⟨.anchor_one cid metadata_hash, (Except.ok entry : Except AdapterError AnchorEntry)⟩

namespace MockSession

section

variable [Sha256] {A : Type}

/-- What the program of a number is told is how its own requests were completed, and what the
    registry has from then on. -/
structure Truthful (session : MockSession A) (i : Nat) (exchange : Exchange Adapters) : Prop where
  upload : ∀ path receipt, exchange = uploaded path receipt →
    ∃ id, (id, i) ∈ session.uploads ∧ (id, receipt.cid) ∈ session.stored ∧ receipt.request_id = upload_id id
  publish : ∀ topic bytes receipt, exchange = published topic bytes receipt →
    ∃ id message_hash, (id, i) ∈ session.publishes ∧ (id, .ok message_hash) ∈ session.sent ∧
      receipt = sent_receipt (publish_id id) message_hash
  anchor : ∀ cid metadata_hash entry, exchange = anchored_one cid metadata_hash entry →
    session.registry.entries (cid_hash cid) = some entry

/-- A session in which more has happened. -/
structure Grows (session next : MockSession A) : Prop where
  uploads : ∀ upload ∈ session.uploads, upload ∈ next.uploads
  stored : ∀ completion ∈ session.stored, completion ∈ next.stored
  publishes : ∀ publish ∈ session.publishes, publish ∈ next.publishes
  sent : ∀ completion ∈ session.sent, completion ∈ next.sent
  registry : Extends session.registry.entries next.registry.entries

theorem Truthful.grows {session next : MockSession A} {i : Nat} {exchange : Exchange Adapters}
    (htruthful : session.Truthful i exchange) (hgrows : session.Grows next) : next.Truthful i exchange := by
  refine ⟨?upload, ?publish, ?anchor⟩
  case upload =>
    intro path receipt hexchange
    obtain ⟨id, hissued, hstored, hid⟩ := htruthful.upload path receipt hexchange
    exact ⟨id, hgrows.uploads _ hissued, hgrows.stored _ hstored, hid⟩
  case publish =>
    intro topic bytes receipt hexchange
    obtain ⟨id, message_hash, hissued, hsent, hreceipt⟩ := htruthful.publish topic bytes receipt hexchange
    exact ⟨id, message_hash, hgrows.publishes _ hissued, hgrows.sent _ hsent, hreceipt⟩
  case anchor =>
    intro cid metadata_hash entry hexchange
    exact hgrows.registry _ _ (htruthful.anchor cid metadata_hash entry hexchange)

/-- A program has run with the truth so far. -/
structure Honest (session : MockSession A) (i : Nat) (task : Task A) : Prop where
  ran : Async.Runs task.first task.calls task.program
  told : ∀ exchange ∈ task.calls, session.Truthful i exchange

/-- What holds at every point. -/
structure Invariant (session : MockSession A) : Prop where
  storage : session.storage.state.Kept session.uploads (session.stored.map Prod.fst)
  delivery : session.delivery.state.Kept session.publishes (session.sent.map Prod.fst)
  tasks : ∀ (i : Nat) (task : Task A), session.tasks[i]? = some task → session.Honest i task

variable {session next : MockSession A} {i : Nat} {task : Task A}

theorem Honest.grows (hhonest : session.Honest i task) (hgrows : session.Grows next) : next.Honest i task :=
  ⟨hhonest.ran, fun exchange hexchange => (hhonest.told exchange hexchange).grows hgrows⟩

omit [Sha256] in
/-- A program that has run goes on with one more answer. -/
theorem runs_snoc {first rest : Async Adapters A} {calls : List (Exchange Adapters)} (hruns : Async.Runs first calls rest)
    {request : AdapterCall} {resume : request.Response → Async Adapters A}
    (hrest : rest = .ask (I := Adapters) request resume) (response : request.Response) :
    Async.Runs first (calls ++ [⟨request, response⟩]) (resume response) := by
  induction hruns with
  | refl =>
    subst hrest
    exact .step (I := Adapters) response (.refl _)
  | step earlier _ ih => exact .step earlier (ih hrest)

theorem Honest.resumed (hhonest : session.Honest i task) (hgrows : session.Grows next) {request : AdapterCall}
    {resume : request.Response → Async Adapters A} (hprogram : task.program = .ask (I := Adapters) request resume)
    {response : request.Response} (htold : next.Truthful i ⟨request, response⟩) :
    next.Honest i (task.resumed resume response) := by
  obtain ⟨hran, hbefore⟩ := hhonest
  refine ⟨runs_snoc hran hprogram response, fun exchange hexchange => ?_⟩
  obtain hearlier | hlast := List.mem_append.mp hexchange
  · exact (hbefore exchange hearlier).grows hgrows
  · rw [List.mem_singleton.mp hlast]
    exact htold

/-- The tasks, of which one went on. -/
theorem honest_set {tasks : List (Task A)} (hgrows : session.Grows next)
    (hhonest : ∀ (j : Nat) (other : Task A), tasks[j]? = some other → session.Honest j other)
    (hreplaced : next.Honest i task) (j : Nat) (other : Task A) (hother : (tasks.set i task)[j]? = some other) :
    next.Honest j other := by
  obtain ⟨rfl, rfl⟩ | hother := getElem?_set_cases hother
  · exact hreplaced
  · exact (hhonest j other hother).grows hgrows

theorem honest_modify {tasks : List (Task A)} (hgrows : session.Grows next)
    (hhonest : ∀ (j : Nat) (other : Task A), tasks[j]? = some other → session.Honest j other)
    {change : Task A → Task A} (hchange : ∀ before, session.Honest i before → next.Honest i (change before))
    (j : Nat) (other : Task A) (hother : (tasks.modify i change)[j]? = some other) : next.Honest j other := by
  rw [List.getElem?_modify] at hother
  obtain ⟨before, hbefore, hsame⟩ := Option.map_eq_some_iff.mp hother
  split at hsame
  · rename_i hij
    subst hij hsame
    exact hchange before (hhonest _ before hbefore)
  · subst hsame
    exact (hhonest j before hbefore).grows hgrows

omit [Sha256] in
theorem Grows.of_same (hstorage : next.uploads = session.uploads) (hstored : next.stored = session.stored)
    (hpublishes : next.publishes = session.publishes) (hsent : next.sent = session.sent)
    (hregistry : Extends session.registry.entries next.registry.entries) : session.Grows next :=
  ⟨by simp [hstorage], by simp [hstored], by simp [hpublishes], by simp [hsent], hregistry⟩

/-- An answer that is no upload, no broadcast and no anchor. -/
theorem Truthful.of_other {request : AdapterCall} {response : request.Response}
    (hupload : ∀ path, request ≠ .upload_file path) (hpublish : ∀ topic bytes, request ≠ .publish topic bytes)
    (hanchor : ∀ cid metadata_hash, request ≠ .anchor_one cid metadata_hash) :
    session.Truthful i ⟨request, response⟩ := by
  refine ⟨?upload, ?publish, ?anchor⟩
  case upload =>
    intro path receipt hexchange
    exact absurd (congrArg Exchange.request hexchange) (hupload path)
  case publish =>
    intro topic bytes receipt hexchange
    exact absurd (congrArg Exchange.request hexchange) (hpublish topic bytes)
  case anchor =>
    intro cid metadata_hash entry hexchange
    exact absurd (congrArg Exchange.request hexchange) (hanchor cid metadata_hash)

/-- The task stays as far as it is. -/
theorem Invariant.stays (hinvariant : session.Invariant) (htask : session.tasks[i]? = some task) {same : Task A}
    (hfirst : same.first = task.first) (hcalls : same.calls = task.calls) (hprogram : same.program = task.program) :
    { session with tasks := session.tasks.set i same }.Invariant := by
  obtain ⟨hstorage, hdelivery, htasks⟩ := hinvariant
  have hgrows : session.Grows { session with tasks := session.tasks.set i same } := .of_same rfl rfl rfl rfl (.refl _)
  refine ⟨hstorage, hdelivery, honest_set hgrows htasks ?_⟩
  obtain ⟨hran, htold⟩ := (htasks i task htask).grows hgrows
  rw [← hfirst, ← hcalls, ← hprogram] at hran
  rw [← hcalls] at htold
  exact ⟨hran, htold⟩

/-- The task goes on with an answer that is at hand. -/
theorem Invariant.resumed (hinvariant : session.Invariant) (htask : session.tasks[i]? = some task)
    {request : AdapterCall} {resume : request.Response → Async Adapters A}
    (hprogram : task.program = .ask (I := Adapters) request resume) {response : request.Response}
    {registry : MockRegistryClient} (hextends : Extends session.registry.entries registry.entries)
    (htold : { session with registry, tasks := session.tasks.set i (task.resumed resume response) }.Truthful i
      ⟨request, response⟩) :
    { session with registry, tasks := session.tasks.set i (task.resumed resume response) }.Invariant := by
  obtain ⟨hstorage, hdelivery, htasks⟩ := hinvariant
  have hgrows : session.Grows { session with registry, tasks := session.tasks.set i (task.resumed resume response) } :=
    .of_same rfl rfl rfl rfl hextends
  exact ⟨hstorage, hdelivery, honest_set hgrows htasks ((htasks i task htask).resumed hgrows hprogram htold)⟩

/-- A program asks. -/
theorem Invariant.ask (hinvariant : session.Invariant) (htask : session.tasks[i]? = some task) {request : AdapterCall}
    {resume : request.Response → Async Adapters A} (hprogram : task.program = .ask (I := Adapters) request resume) :
    (session.ask i task request resume).Invariant := by
  cases request with
  | upload_file path =>
    rw [MockSession.ask]
    split
    · exact hinvariant.stays htask rfl rfl rfl
    · obtain ⟨hstorage, hdelivery, htasks⟩ := @Invariant.stays _ _ _ _ _ hinvariant htask
        { task with waiting := some session.storage.state.fresh } rfl rfl rfl
      refine ⟨hstorage.issue i, hdelivery, fun j other hother => (htasks j other hother).grows ?_⟩
      exact ⟨fun _ hupload => List.mem_append_left _ hupload, fun _ => id, fun _ => id, fun _ => id, .refl _⟩
  | publish topic bytes =>
    rw [MockSession.ask]
    split
    · exact hinvariant.stays htask rfl rfl rfl
    · obtain ⟨hstorage, hdelivery, htasks⟩ := @Invariant.stays _ _ _ _ _ hinvariant htask
        { task with waiting := some session.delivery.state.fresh } rfl rfl rfl
      refine ⟨hstorage, hdelivery.issue i, fun j other hother => (htasks j other hother).grows ?_⟩
      exact ⟨fun _ => id, fun _ => id, fun _ hpublish => List.mem_append_left _ hpublish, fun _ => id, .refl _⟩
  | anchor_one cid metadata_hash =>
    obtain ⟨entry, hone, hentry⟩ := session.registry.anchor_one_eq (cid, metadata_hash)
    rw [MockSession.ask, hone]
    refine hinvariant.resumed htask hprogram (extends_claim_all _ [_]) ⟨?_, ?_, ?_⟩
    · exact fun path receipt hexchange => nomatch congrArg Exchange.request hexchange
    · exact fun topic bytes receipt hexchange => nomatch congrArg Exchange.request hexchange
    · intro other other_hash found hexchange
      cases hexchange
      exact hentry
  | anchor_batch entries =>
    obtain ⟨found, hloop, _⟩ := MockRegistryClient.anchor_batch_loop_eq entries [] session.registry
    rw [MockSession.ask, MockRegistryClient.anchor_batch, hloop]
    exact hinvariant.resumed htask hprogram (extends_claim_all _ _)
      (.of_other (fun _ => nofun) (fun _ _ => nofun) fun _ _ => nofun)
  | query_by_cid_hash hash =>
    exact hinvariant.resumed htask hprogram (.refl _)
      (.of_other (fun _ => nofun) (fun _ _ => nofun) fun _ _ => nofun)
  | sink_send submission =>
    exact hinvariant.resumed htask hprogram (.refl _)
      (.of_other (fun _ => nofun) (fun _ _ => nofun) fun _ _ => nofun)
  | sleep duration =>
    exact hinvariant.resumed htask hprogram (.refl _)
      (.of_other (fun _ => nofun) (fun _ _ => nofun) fun _ _ => nofun)
  | panic message => exact hinvariant.stays htask rfl rfl rfl

/-- A program that is sent the receipt of its own upload. -/
theorem Honest.uploaded (hhonest : session.Honest i task) (hgrows : session.Grows next) {id : Nat}
    {receipt : UploadReceipt} (hissued : (id, i) ∈ next.uploads) (hstored : (id, receipt.cid) ∈ next.stored)
    (hname : receipt.request_id = upload_id id) : next.Honest i (task.uploaded id (.ok receipt)) := by
  rw [Task.uploaded]
  split
  · exact hhonest.grows hgrows
  · split
    · exact hhonest.grows hgrows
    · rename_i path resume hprogram
      refine hhonest.resumed hgrows hprogram ⟨?_, ?_, ?_⟩
      · intro other found hexchange
        cases hexchange
        exact ⟨id, hissued, hstored, hname⟩
      · exact fun topic bytes found hexchange => nomatch congrArg Exchange.request hexchange
      · exact fun cid metadata_hash entry hexchange => nomatch congrArg Exchange.request hexchange
    · exact hhonest.grows hgrows

/-- A program that is sent the outcome of its own broadcast. -/
theorem Honest.published (hhonest : session.Honest i task) (hgrows : session.Grows next) {id : Nat}
    {outcome : Except AdapterError String} (hissued : (id, i) ∈ next.publishes) (hsent : (id, outcome) ∈ next.sent) :
    next.Honest i (task.published id (outcome.map (sent_receipt (publish_id id)))) := by
  rw [Task.published]
  split
  · exact hhonest.grows hgrows
  · split
    · exact hhonest.grows hgrows
    · rename_i topic bytes resume hprogram
      refine hhonest.resumed hgrows hprogram ⟨?_, ?_, ?_⟩
      · exact fun path found hexchange => nomatch congrArg Exchange.request hexchange
      · intro other_topic other_bytes found hexchange
        cases outcome with
        | error e => cases hexchange
        | ok message_hash =>
          cases hexchange
          exact ⟨id, message_hash, hissued, hsent, rfl⟩
      · exact fun cid metadata_hash entry hexchange => nomatch congrArg Exchange.request hexchange
    · exact hhonest.grows hgrows

/-- Nothing is asked, answered or completed. -/
theorem Invariant.of_same (hinvariant : session.Invariant) (hstorage : next.storage.state = session.storage.state)
    (hdelivery : next.delivery.state = session.delivery.state) (htasks : next.tasks = session.tasks)
    (huploads : next.uploads = session.uploads) (hstored : next.stored = session.stored)
    (hpublishes : next.publishes = session.publishes) (hsent : next.sent = session.sent)
    (hregistry : next.registry = session.registry) : next.Invariant := by
  have hgrows : session.Grows next := .of_same huploads hstored hpublishes hsent (hregistry ▸ .refl _)
  refine ⟨?_, ?_, ?_⟩
  · rw [hstorage, huploads, hstored]
    exact hinvariant.storage
  · rw [hdelivery, hpublishes, hsent]
    exact hinvariant.delivery
  · rw [htasks]
    exact fun j other hother => (hinvariant.tasks j other hother).grows hgrows

/-- An upload is completed, for the one who waits for it. -/
theorem Invariant.complete_upload (hinvariant : session.Invariant) (request_id cid : String) :
    (session.complete_upload request_id cid).Invariant := by
  rw [MockSession.complete_upload]
  split
  · exact hinvariant
  · split
    · exact hinvariant.of_same rfl rfl rfl rfl rfl rfl rfl rfl
    · rename_i id i hfound
      obtain ⟨hpending, hname⟩ := correlation.Table.mem_of_find? hfound
      obtain ⟨hstorage, hdelivery, htasks⟩ := hinvariant
      have hissued := ((hstorage.pending id i).mp hpending).1
      have hgrows : session.Grows (session.send_receipt id i { request_id, cid }) :=
        ⟨fun _ h => h, fun _ => List.mem_append_left _, fun _ h => h, fun _ h => h, .refl _⟩
      refine ⟨?_, hdelivery, honest_modify hgrows htasks fun before hbefore => ?_⟩
      · rw [send_receipt, List.map_append]
        exact hstorage.remove hpending
      · exact hbefore.uploaded hgrows hissued (List.mem_append_right _ List.mem_cons_self) hname.symm

/-- A message is sent or fails, for the one who waits for it. -/
theorem Invariant.complete_publish (hinvariant : session.Invariant) (request_id : String)
    (outcome : Except AdapterError String) : (session.complete_publish request_id outcome).Invariant := by
  rw [MockSession.complete_publish]
  split
  · exact hinvariant
  · split
    · exact hinvariant.of_same rfl rfl rfl rfl rfl rfl rfl rfl
    · rename_i id i hfound
      obtain ⟨hpending, rfl⟩ := correlation.Table.mem_of_find? hfound
      obtain ⟨hstorage, hdelivery, htasks⟩ := hinvariant
      have hissued := ((hdelivery.pending id i).mp hpending).1
      have hgrows : session.Grows (session.send_outcome id i (publish_id id) outcome) :=
        ⟨fun _ h => h, fun _ h => h, fun _ h => h, fun _ => List.mem_append_left _, .refl _⟩
      refine ⟨hstorage, ?_, honest_modify hgrows htasks fun before hbefore => ?_⟩
      · rw [send_outcome, List.map_append]
        exact hdelivery.remove hpending
      · exact hbefore.published hgrows hissued (List.mem_append_right _ List.mem_cons_self)

theorem Invariant.step {event : MockEvent A} (hinvariant : session.Invariant)
    (hstep : session.step event = some next) : next.Invariant := by
  cases event with
  | begin program =>
    obtain rfl := Option.some.inj hstep
    have hgrows : session.Grows { session with tasks := session.tasks ++ [.begun program] } :=
      .of_same rfl rfl rfl rfl (.refl _)
    refine ⟨hinvariant.storage, hinvariant.delivery, fun j other hother => ?_⟩
    rw [List.getElem?_append] at hother
    split at hother
    · exact (hinvariant.tasks j other hother).grows hgrows
    · obtain rfl := List.mem_singleton.mp (List.mem_of_getElem? hother)
      exact ⟨.refl _, fun exchange hexchange => nomatch hexchange⟩
  | poll i =>
    obtain ⟨task, htask, hpolled⟩ := Option.bind_eq_some_iff.mp hstep
    split at hpolled
    · cases hpolled
    · split at hpolled
      · cases hpolled
      · rename_i request resume hprogram
        obtain rfl := Option.some.inj hpolled
        exact hinvariant.ask htask hprogram
  | drop i =>
    obtain rfl := Option.some.inj hstep
    have hgrows : session.Grows { session with tasks := session.tasks.modify i Task.halt } :=
      .of_same rfl rfl rfl rfl (.refl _)
    refine ⟨hinvariant.storage, hinvariant.delivery, honest_modify hgrows hinvariant.tasks fun before hbefore => ?_⟩
    obtain ⟨hran, htold⟩ := hbefore.grows hgrows
    exact ⟨hran, htold⟩
  | complete_upload request_id cid =>
    obtain rfl := Option.some.inj hstep
    exact hinvariant.complete_upload request_id cid
  | message_sent request_id message_hash =>
    obtain rfl := Option.some.inj hstep
    exact hinvariant.complete_publish request_id _
  | message_error request_id retryable message =>
    obtain rfl := Option.some.inj hstep
    exact hinvariant.complete_publish request_id _
  | subscribe topic =>
    obtain rfl := Option.some.inj hstep
    rw [MockSession.subscribe]
    split
    · exact hinvariant
    · exact hinvariant.of_same rfl rfl rfl rfl rfl rfl rfl rfl
  | emit_received topic payload =>
    obtain rfl := Option.some.inj hstep
    rw [MockSession.emit_received]
    split
    · exact hinvariant
    · exact hinvariant.of_same rfl rfl rfl rfl rfl rfl rfl rfl
  | drop_stream j =>
    obtain rfl := Option.some.inj hstep
    exact hinvariant.of_same rfl rfl rfl rfl rfl rfl rfl rfl

omit [Sha256] in
theorem firsts_set {tasks : List (Task A)} (htask : tasks[i]? = some task) {same : Task A}
    (hfirst : same.first = task.first) : (tasks.set i same).map Task.first = tasks.map Task.first := by
  obtain ⟨hlt, rfl⟩ := List.getElem?_eq_some_iff.mp htask
  have hmapped : i < (tasks.map Task.first).length := by rwa [List.length_map]
  rw [List.map_set, hfirst, ← List.getElem_map Task.first (h := hmapped), List.set_getElem_self]

omit [Sha256] in
theorem firsts_modify (tasks : List (Task A)) (i : Nat) {alter : Task A → Task A}
    (halter : ∀ before, (alter before).first = before.first) :
    (tasks.modify i alter).map Task.first = tasks.map Task.first := by
  apply List.ext_getElem?
  intro j
  rw [List.getElem?_map, List.getElem?_modify, List.getElem?_map]
  cases tasks[j]? with
  | none => rfl
  | some before =>
    have hsame : (if i = j then alter before else before).first = before.first := by
      split
      · exact halter before
      · rfl
    exact congrArg some hsame

omit [Sha256] in
theorem first_uploaded (task : Task A) (id : Nat) (result : Except AdapterError UploadReceipt) :
    (task.uploaded id result).first = task.first := by
  rw [Task.uploaded]
  split
  · rfl
  · split <;> rfl

omit [Sha256] in
theorem first_published (task : Task A) (id : Nat) (result : Except AdapterError PublishReceipt) :
    (task.published id result).first = task.first := by
  rw [Task.published]
  split
  · rfl
  · split <;> rfl

omit [Sha256] in
theorem firsts_complete_publish (request_id : String) (outcome : Except AdapterError String) :
    (session.complete_publish request_id outcome).tasks.map Task.first = session.tasks.map Task.first := by
  rw [MockSession.complete_publish]
  split
  · rfl
  · split
    · rfl
    · exact firsts_modify _ _ fun before => first_published before _ _

theorem firsts_ask (htask : session.tasks[i]? = some task) (request : AdapterCall)
    (resume : request.Response → Async Adapters A) :
    (session.ask i task request resume).tasks.map Task.first = session.tasks.map Task.first := by
  cases request with
  | upload_file path =>
    rw [MockSession.ask]
    split <;> exact firsts_set htask rfl
  | publish topic bytes =>
    rw [MockSession.ask]
    split <;> exact firsts_set htask rfl
  | anchor_one | anchor_batch | query_by_cid_hash | sink_send | sleep | panic => exact firsts_set htask rfl

/-- Programs begin in the order of their numbers. -/
theorem firsts_step {event : MockEvent A} (hstep : session.step event = some next) :
    next.tasks.map Task.first = session.tasks.map Task.first ++ event.begun.toList := by
  cases event with
  | begin program =>
    obtain rfl := Option.some.inj hstep
    rw [List.map_append]
    rfl
  | poll i =>
    obtain ⟨task, htask, hpolled⟩ := Option.bind_eq_some_iff.mp hstep
    split at hpolled
    · cases hpolled
    · split at hpolled
      · cases hpolled
      · obtain rfl := Option.some.inj hpolled
        exact (firsts_ask htask _ _).trans (List.append_nil _).symm
  | drop i =>
    obtain rfl := Option.some.inj hstep
    have hsame := firsts_modify session.tasks i fun before => (rfl : before.halt.first = before.first)
    exact hsame.trans (List.append_nil _).symm
  | complete_upload request_id cid =>
    obtain rfl := Option.some.inj hstep
    refine Eq.trans ?_ (List.append_nil _).symm
    rw [MockSession.complete_upload]
    split
    · rfl
    · split
      · rfl
      · exact firsts_modify _ _ fun before => first_uploaded before _ _
  | message_sent request_id message_hash =>
    obtain rfl := Option.some.inj hstep
    exact (firsts_complete_publish request_id _).trans (List.append_nil _).symm
  | message_error request_id retryable message =>
    obtain rfl := Option.some.inj hstep
    exact (firsts_complete_publish request_id _).trans (List.append_nil _).symm
  | subscribe topic =>
    obtain rfl := Option.some.inj hstep
    refine Eq.trans ?_ (List.append_nil _).symm
    rw [MockSession.subscribe]
    split <;> rfl
  | emit_received topic payload =>
    obtain rfl := Option.some.inj hstep
    refine Eq.trans ?_ (List.append_nil _).symm
    rw [MockSession.emit_received]
    split <;> rfl
  | drop_stream j =>
    obtain rfl := Option.some.inj hstep
    exact (List.append_nil _).symm

theorem firsts_run {events : List (MockEvent A)} (hrun : transition.run MockSession.step session events = some next) :
    next.tasks.map Task.first = session.tasks.map Task.first ++ events.filterMap MockEvent.begun := by
  induction events generalizing session with
  | nil =>
    cases hrun
    exact (List.append_nil _).symm
  | cons event rest ih =>
    obtain ⟨middle, hstep, hrest⟩ := transition.run_cons_eq_some.mp hrun
    rw [ih hrest, firsts_step hstep, List.append_assoc]
    cases hbegun : event.begun <;> simp [hbegun]

theorem invariant_default : (default : MockSession A).Invariant :=
  ⟨correlation.Table.kept_empty, correlation.Table.kept_empty, fun _ _ hnone => nomatch hnone⟩

theorem published_append {publisher : Publisher} {path : String} {inputs : MetadataInputs}
    {calls : List (Exchange Adapters)} {outcome : PublishOutcome}
    (hpublished : publisher.Published path inputs calls (.ok outcome)) (exchange : Exchange Adapters) :
    publisher.Published path inputs (calls ++ [exchange]) (.ok outcome) := by
  obtain ⟨upload, hupload, hcid, henvelope, hbytes, hhash, hsent⟩ := hpublished
  exact ⟨upload, List.mem_append_left _ hupload, hcid, henvelope, hbytes, hhash, List.mem_append_left _ hsent⟩

/-- What anchoring a published outcome was told when it succeeded. -/
theorem anchor_published_ensures {publisher : Publisher} {path : String} {inputs : MetadataInputs}
    {calls : List (Exchange Adapters)} {outcome : PublishOutcome}
    (hpublished : publisher.Published path inputs calls (.ok outcome)) :
    Async.Ensures (Async.recording Adapters) (fun _ _ => True)
      (fun calls result => ∀ entry, result = .ok entry → publisher.Published path inputs calls (.ok outcome) ∧
        anchored_one outcome.cid outcome.metadata_hash entry ∈ calls) (publisher.anchor_published outcome) calls := by
  have hcall : ∀ before, publisher.Published path inputs before (.ok outcome) →
      Async.Ensures (Async.recording Adapters) (fun _ _ => True)
        (OnResult (fun calls _ => publisher.Published path inputs calls (.ok outcome)) fun calls entry =>
          publisher.Published path inputs calls (.ok outcome) ∧
            anchored_one outcome.cid outcome.metadata_hash entry ∈ calls)
        (Async.call (I := Adapters) (.anchor_one outcome.cid outcome.metadata_hash)) before := by
    intro before hbefore
    refine @Async.Ensures.call Adapters _ _ (fun _ _ => True) (.anchor_one outcome.cid outcome.metadata_hash)
      (OnResult _ _) before ?_ ?_
    · exact fun _ _ => trivial
    · rintro _ (e | entry) _ _ rfl rfl rfl
      · exact published_append hbefore _
      · exact ⟨published_append hbefore _, List.mem_append_right _ List.mem_cons_self⟩
  have hanchor := @with_retry_records AnchorEntry (fun _ _ => True)
    (fun calls => publisher.Published path inputs calls (.ok outcome))
    (fun calls _ => publisher.Published path inputs calls (.ok outcome)) _ publisher.retry_policy _
    (fun _ _ hkept => hkept) (fun _ _ _ hkept => published_append hkept _) (fun _ _ _ => trivial)
    (fun _ _ _ => trivial) hcall calls hpublished
  refine hanchor.bind fun last anchored hanchored => ?_
  cases anchored with
  | error e => exact .ret fun _ _ _ hnone => nomatch hnone
  | ok entry =>
    refine .ret fun final hfinal found hfound => ?_
    cases hfound
    exact hanchored final hfinal

/-- What publishing and anchoring was told when it succeeded. -/
theorem publish_and_anchor_ensures (publisher : Publisher) (path : String) (inputs : MetadataInputs)
    (calls : List (Exchange Adapters)) :
    Async.Ensures (Async.recording Adapters) (fun _ _ => True)
      (fun calls result => ∀ outcome entry, result = .ok (outcome, entry) →
        publisher.Published path inputs calls (.ok outcome) ∧
          anchored_one outcome.cid outcome.metadata_hash entry ∈ calls)
      (publisher.publish_and_anchor path inputs) calls := by
  have hfile : Async.Ensures (Async.recording Adapters) (fun _ _ => True) (publisher.Published path inputs)
      (publisher.publish_file path inputs) calls :=
    (publisher.publish_file_ensures path inputs calls).weaken fun _ _ _ => trivial
  refine hfile.bind fun later result hresult => ?_
  cases result with
  | error e => exact .ret fun _ _ _ _ hnone => nomatch hnone
  | ok outcome =>
    refine (anchor_published_ensures (hresult later rfl)).bind fun last anchored hanchored => ?_
    cases anchored with
    | error e => exact .ret fun _ _ _ _ hnone => nomatch hnone
    | ok entry =>
      refine .ret fun final hfinal found found_entry hfound => ?_
      cases hfound
      exact hanchored final hfinal entry rfl

end

section

variable [Sha256] {session : MockSession (Except PublisherError (PublishOutcome × AnchorEntry))}

/-- A request of the mock clients is completed once, for the program that made it, and waits until
    then. However programs are polled, dropped and completed, one that has published and anchored
    a file did so with the CID and the message hash that its own requests were completed with, and
    with the entry that the registry has from then on. -/
theorem completions_reach_their_request
    {events : List (MockEvent (Except PublisherError (PublishOutcome × AnchorEntry)))}
    (hrun : transition.run MockSession.step default events = some session) :
    ((session.uploads.map Prod.fst).Nodup ∧ (session.stored.map Prod.fst).Nodup ∧
        ∀ ids, session.storage.pending_request_ids = some ids → ∀ request_id, request_id ∈ ids ↔
          ∃ id i, request_id = upload_id id ∧ (id, i) ∈ session.uploads ∧ id ∉ session.stored.map Prod.fst) ∧
      ((session.publishes.map Prod.fst).Nodup ∧ (session.sent.map Prod.fst).Nodup ∧
        ∀ ids, session.delivery.pending_request_ids = some ids → ∀ request_id, request_id ∈ ids ↔
          ∃ id i, request_id = publish_id id ∧ (id, i) ∈ session.publishes ∧ id ∉ session.sent.map Prod.fst) ∧
      ∀ i task publisher path inputs outcome entry, session.tasks[i]? = some task →
        (events.filterMap MockEvent.begun)[i]? = some (Publisher.publish_and_anchor publisher path inputs) →
        task.program = .ret (.ok (outcome, entry)) →
          (∃ id cid, (id, i) ∈ session.uploads ∧ (id, cid) ∈ session.stored ∧
            CanonicalCid.new cid = .ok outcome.cid) ∧
          (∃ id message_hash, (id, i) ∈ session.publishes ∧ (id, .ok message_hash) ∈ session.sent ∧
            outcome.publish_receipt = sent_receipt (publish_id id) message_hash) ∧
          outcome.envelope = inputs.envelope outcome.cid ∧
          outcome.envelope.canonical_json_bytes = .ok outcome.envelope_bytes ∧
          session.registry.entries (cid_hash outcome.cid) = some entry := by
  obtain ⟨hstorage, hdelivery, htasks⟩ : session.Invariant :=
    transition.run_preserves (fun _ _ _ hkept hstep => hkept.step hstep) invariant_default hrun
  refine ⟨⟨hstorage.nodup, hstorage.once, ?_⟩, ⟨hdelivery.nodup, hdelivery.once, ?_⟩, ?_⟩
  · intro ids hids request_id
    rw [MockStorageClient.pending_request_ids] at hids
    split at hids
    · cases hids
    · obtain rfl := Option.some.inj hids
      exact hstorage.mem_names_iff upload_id
  · intro ids hids request_id
    rw [MockDeliveryClient.pending_request_ids] at hids
    split at hids
    · cases hids
    · obtain rfl := Option.some.inj hids
      exact hdelivery.mem_names_iff publish_id
  · intro i task publisher path inputs outcome entry htask hbegun hdone
    have hfirst : (session.tasks.map Task.first)[i]? = some task.first := by rw [List.getElem?_map, htask, Option.map_some]
    rw [firsts_run hrun, default, List.map_nil, List.nil_append, hbegun] at hfirst
    obtain ⟨hran, htold⟩ := htasks i task htask
    rw [← Option.some.inj hfirst, hdone] at hran
    obtain ⟨⟨upload, hupload, hcid, henvelope, hbytes, _, hpublish⟩, hanchor⟩ :=
      (publish_and_anchor_ensures publisher path inputs []).returns hran outcome entry rfl
    obtain ⟨id, hissued, hstored, _⟩ := (htold _ hupload).upload path upload rfl
    exact ⟨⟨id, upload.cid, hissued, hstored, hcid⟩, (htold _ hpublish).publish _ _ _ rfl, henvelope, hbytes,
      (htold _ hanchor).anchor _ _ _ rfl⟩

end

/-- Two publishers, of which the second is served first, and the first has to send again. -/
def crossed : List (MockEvent (Except PublisherError (PublishOutcome × AnchorEntry))) :=
  let inputs : MetadataInputs := ⟨"Leaflet", "", "text/plain", 12, 7, []⟩
  [.begin (Publisher.new.publish_and_anchor "first.txt" inputs),
    .begin (Publisher.new.publish_and_anchor "second.txt" inputs), .poll 0, .poll 1,
    .complete_upload "upload-2" "zSecond", .complete_upload "upload-1" " zFirst", .poll 0, .poll 1,
    .message_sent "publish-2" "two", .message_error "publish-1" true "busy", .poll 0, .poll 0,
    .message_sent "publish-3" "three", .poll 1, .poll 0]

/-- What a program has returned, if it was a success. -/
def succeeded (task : Task (Except PublisherError (PublishOutcome × AnchorEntry))) :
    Option (PublishOutcome × AnchorEntry) :=
  match task.program with
  | .ret (.ok value) => some value
  | _ => none

theorem ret_of_succeeded {task : Task (Except PublisherError (PublishOutcome × AnchorEntry))}
    {value : PublishOutcome × AnchorEntry} (hsucceeded : succeeded task = some value) :
    task.program = .ret (.ok value) := by
  rw [succeeded] at hsucceeded
  split at hsucceeded
  · rename_i hprogram
    rw [hprogram, Option.some.inj hsucceeded]
  · cases hsucceeded

theorem completions_reach_their_request_crossed :
    ∃ session task outcome entry, transition.run MockSession.step default crossed = some session ∧
      session.tasks[0]? = some task ∧ succeeded task = some (outcome, entry) ∧
      (∃ id cid, (id, 0) ∈ session.uploads ∧ (id, cid) ∈ session.stored ∧ CanonicalCid.new cid = .ok outcome.cid) ∧
      session.registry.entries (cid_hash outcome.cid) = some entry := by
  have hrun : (transition.run MockSession.step default crossed).any (fun session =>
      (session.tasks[0]?).any fun task => (succeeded task).isSome) = true := by
    decide +kernel
  obtain ⟨session, hsession, htasks⟩ := (Option.any_eq_true _ _).mp hrun
  obtain ⟨task, htask, hsome⟩ := (Option.any_eq_true _ _).mp htasks
  obtain ⟨⟨outcome, entry⟩, hsucceeded⟩ := Option.isSome_iff_exists.mp hsome
  obtain ⟨_, _, hpublishers⟩ := completions_reach_their_request hsession
  obtain ⟨hupload, _, _, _, hentry⟩ := hpublishers 0 task _ _ _ outcome entry htask rfl (ret_of_succeeded hsucceeded)
  exact ⟨session, task, outcome, entry, hsession, htask, hsucceeded, hupload, hentry⟩

end MockSession

end whistleblower_mock_adapter
