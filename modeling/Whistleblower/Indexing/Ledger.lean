import Whistleblower.Lib.Transition
import Whistleblower.Indexing.Orchestration

namespace document_indexing

/-- A ledger file, the store of the process that has it open, if one runs, and the
    envelopes for which an ingest returned `New`. The last field only records. -/
structure Ledger where
  store : Option DurableDedupeStore
  file : File
  accepted : List ReceivedEnvelope

/-- What happens to a ledger: a process opens it, ingests an envelope, stops while
    the line of one is being written, or stops between two calls. -/
inductive LedgerAction where
  | reopen (fault : Option IoFault)
  | ingest (envelope : ReceivedEnvelope) (fault : Option IoFault)
  | crash (envelope : ReceivedEnvelope) (written : Nat)
  | stop

section

variable [Sha256]

namespace Ledger

/-- A ledger file that no process has open. -/
def closed (file : File) : Ledger := { store := none, file, accepted := [] }

def reopen (self : Ledger) (fault : Option IoFault) : Ledger :=
  let contents := match fault with
    | some e => .error e
    | none => .ok self.file
  { self with store := (DurableDedupeStore.open contents).toOption }

def ingest (self : Ledger) (envelope : ReceivedEnvelope) (fault : Option IoFault) : Option Ledger :=
  self.store.map fun store =>
    let (outcome, after, file) := store.ingest self.file fault envelope
    { store := some after
      file
      accepted := match outcome with
        | .ok (.New _) => self.accepted ++ [envelope]
        | _ => self.accepted }

/-- The bytes that reached the file stay in it. -/
def crash (self : Ledger) (envelope : ReceivedEnvelope) (written : Nat) : Option Ledger :=
  match self.store with
  | some store =>
    if envelope_hash envelope ∈ store.seen then none
    else some { self with
      store := none
      file := DurableDedupeStore.append self.file ((DurableDedupeStore.line (envelope_hash envelope)).take written) }
  | none => none

def step (self : Ledger) : LedgerAction → Option Ledger
  | .reopen fault => some (self.reopen fault)
  | .ingest envelope fault => self.ingest envelope fault
  | .crash envelope written => self.crash envelope written
  | .stop => some { self with store := none }

/-- The file is absent or empty, or ends with a line feed. -/
def Completed (file : File) : Prop := ∀ last ∈ (file.getD []).getLast?, last = 10

/-- An ingest that returns `New` finds every line of the file complete. -/
def Aligned (self : Ledger) : LedgerAction → Prop
  | .ingest envelope fault =>
    ∀ store ∈ self.store, envelope_hash envelope ∉ store.seen → fault = none → Completed self.file
  | _ => True

instance (file : File) : Decidable (Completed file) :=
  inferInstanceAs (Decidable (∀ last ∈ (file.getD []).getLast?, last = 10))

instance (self : Ledger) : (action : LedgerAction) → Decidable (self.Aligned action)
  | .ingest envelope fault =>
    have : Decidable (fault = none) := decidable_of_iff (fault.isNone = true) Option.isNone_iff_eq_none
    inferInstanceAs (Decidable (∀ store ∈ self.store,
      envelope_hash envelope ∉ store.seen → fault = none → Completed self.file))
  | .reopen _ | .crash _ _ | .stop => .isTrue trivial

/-- The hash stands on a line of its own among these bytes. -/
def OnLine (hash : String) (contents : List UInt8) : Prop :=
  ∃ front back, contents = front ++ text.bytes hash ++ 10 :: back ∧ ∀ last ∈ front.getLast?, last = 10

omit [Sha256] in
theorem OnLine.append {hash : String} {contents : List UInt8} (honline : OnLine hash contents)
    (more : List UInt8) : OnLine hash (contents ++ more) := by
  obtain ⟨front, back, rfl, hfront⟩ := honline
  refine ⟨front, back ++ more, ?_, hfront⟩
  rw [List.append_assoc, List.cons_append]

/-- A hash on a line of its own is read back from the file. -/
theorem OnLine.recorded {envelope : ReceivedEnvelope} {contents : String}
    (honline : OnLine (envelope_hash envelope) (text.bytes contents)) :
    envelope_hash envelope ∈ DurableDedupeStore.recorded contents := by
  obtain ⟨front, back, hbytes, hfront⟩ := honline
  have hplain : ∀ c ∈ (envelope_hash envelope).toList, text.is_whitespace c = false :=
    text.not_whitespace_hex_encode _
  have hnewline : '\n' ∉ (envelope_hash envelope).toList := fun h => by cases hplain _ h
  have hreturn : '\r' ∉ (envelope_hash envelope).toList := fun h => by cases hplain _ h
  have hline := text.mem_lines hbytes hfront hnewline hreturn
  have hnonempty : envelope_hash envelope ≠ "" := by
    intro hempty
    have hlength := text.length_bytes_hex_encode
      (Sha256.digest (text.bytes envelope.topic ++ 0 :: envelope.payload)).toList
    rw [Vector.length_toList] at hlength
    unfold envelope_hash at hempty
    rw [hempty] at hlength
    cases hlength
  rw [DurableDedupeStore.recorded, List.mem_toFinset, List.mem_filter, List.mem_map]
  exact ⟨⟨_, hline, text.trim_of_not_whitespace hplain⟩, by simpa using hnonempty⟩

/-- Every accepted envelope has its line in the file, and is known to a process that
    has the ledger open. -/
structure Kept (ledger : Ledger) : Prop where
  recorded : ∀ envelope ∈ ledger.accepted, OnLine (envelope_hash envelope) (ledger.file.getD [])
  known : ∀ store ∈ ledger.store, ∀ envelope ∈ ledger.accepted, envelope_hash envelope ∈ store.seen

theorem kept_closed (file : File) : (closed file).Kept where
  recorded := by rintro _ ⟨⟩
  known := by rintro _ ⟨⟩

/-- A process that opens the ledger knows whatever has a line in it. -/
theorem Kept.reopen {self : Ledger} (hkept : self.Kept) (fault : Option IoFault) : (self.reopen fault).Kept := by
  refine ⟨hkept.recorded, ?_⟩
  intro store hstore envelope henvelope
  unfold Ledger.reopen at hstore
  cases fault with
  | some e => cases hstore
  | none =>
    have honline := hkept.recorded envelope henvelope
    cases hfile : self.file with
    | none =>
      rw [hfile] at honline
      obtain ⟨front, back, hbytes, _⟩ := honline
      simp at hbytes
    | some bytes =>
      rw [hfile] at honline
      cases hcontents : text.from_utf8 bytes with
      | none => simp [hfile, DurableDedupeStore.open, hcontents, Except.toOption] at hstore
      | some contents =>
        rw [← text.bytes_of_from_utf8 hcontents] at honline
        simp [hfile, DurableDedupeStore.open, hcontents, Except.toOption] at hstore
        rw [← hstore]
        exact honline.recorded

omit [Sha256] in
theorem getD_append (file : File) (bytes : List UInt8) :
    (DurableDedupeStore.append file bytes).getD [] = file.getD [] ++ bytes := rfl

theorem Kept.crash {self next : Ledger} (hkept : self.Kept) {envelope : ReceivedEnvelope} {written : Nat}
    (hcrash : self.crash envelope written = some next) : next.Kept := by
  unfold Ledger.crash at hcrash
  split at hcrash
  · split at hcrash
    · cases hcrash
    · cases hcrash
      refine ⟨fun accepted haccepted => ?_, by rintro _ ⟨⟩⟩
      rw [getD_append]
      exact (hkept.recorded accepted haccepted).append _
  · cases hcrash

/-- Whatever an ingest does, the file only grows. -/
theorem ingest_grows (store : DurableDedupeStore) (file : File) (fault : Option IoFault)
    (envelope : ReceivedEnvelope) :
    ∃ more, (store.ingest file fault envelope).2.2.getD [] = file.getD [] ++ more := by
  by_cases hseen : envelope_hash envelope ∈ store.seen
  · rw [DurableDedupeStore.ingest_of_mem hseen]
    exact ⟨[], (List.append_nil _).symm⟩
  · rw [DurableDedupeStore.ingest, if_neg hseen]
    rcases fault with _ | (_ | _ | _ | _)
    · exact ⟨_, rfl⟩
    · exact ⟨[], (List.append_nil _).symm⟩
    · exact ⟨[], (List.append_nil _).symm⟩
    · exact ⟨_, rfl⟩
    · exact ⟨_, rfl⟩

theorem ingest_eq_new {store : DurableDedupeStore} {file : File} {fault : Option IoFault}
    {envelope : ReceivedEnvelope} {hash : String}
    (hnew : (store.ingest file fault envelope).1 = .ok (.New hash)) :
    envelope_hash envelope ∉ store.seen ∧ fault = none ∧
      (store.ingest file fault envelope).2.2.getD [] =
        file.getD [] ++ text.bytes (envelope_hash envelope) ++ [10] := by
  by_cases hseen : envelope_hash envelope ∈ store.seen
  · rw [DurableDedupeStore.ingest_of_mem hseen] at hnew
    cases hnew
  · refine ⟨hseen, ?_⟩
    cases fault with
    | none =>
      refine ⟨rfl, ?_⟩
      rw [DurableDedupeStore.ingest_of_not_mem hseen, getD_append, List.append_assoc]
      congr 1
      simp [DurableDedupeStore.line, text.bytes]
      decide
    | some e =>
      rw [DurableDedupeStore.ingest, if_neg hseen] at hnew
      cases e <;> cases hnew

theorem Kept.ingest {self next : Ledger} (hkept : self.Kept) {envelope : ReceivedEnvelope} {fault : Option IoFault}
    (haligned : self.Aligned (.ingest envelope fault)) (hingest : self.ingest envelope fault = some next) :
    next.Kept := by
  obtain ⟨store, hstore, hnext⟩ := Option.map_eq_some_iff.mp hingest
  obtain ⟨more, hmore⟩ := ingest_grows store self.file fault envelope
  have hseen := store.ingest_seen self.file fault envelope
  have hnew : ∀ hash, (store.ingest self.file fault envelope).1 = .ok (.New hash) →
      OnLine (envelope_hash envelope) ((store.ingest self.file fault envelope).2.2.getD []) := by
    intro hash hnew
    obtain ⟨hunseen, hfault, hfile⟩ := ingest_eq_new hnew
    exact ⟨self.file.getD [], [], hfile, haligned store hstore hunseen hfault⟩
  have hold : ∀ accepted ∈ self.accepted,
      OnLine (envelope_hash accepted) ((store.ingest self.file fault envelope).2.2.getD []) := by
    intro accepted haccepted
    rw [hmore]
    exact (hkept.recorded accepted haccepted).append more
  have hknown : ∀ accepted ∈ self.accepted,
      envelope_hash accepted ∈ (store.ingest self.file fault envelope).2.1.seen := by
    intro accepted haccepted
    rw [hseen]
    exact Finset.mem_insert_of_mem (hkept.known store hstore accepted haccepted)
  have hself : envelope_hash envelope ∈ (store.ingest self.file fault envelope).2.1.seen := by
    rw [hseen]
    exact Finset.mem_insert_self _ _
  generalize store.ingest self.file fault envelope = result at hnext hnew hold hknown hself
  obtain ⟨outcome, after, file⟩ := result
  have hstays : next = { store := some after, file, accepted := self.accepted } ∨
      next = { store := some after, file, accepted := self.accepted ++ [envelope] } ∧
        OnLine (envelope_hash envelope) (file.getD []) := by
    rw [← hnext]
    rcases outcome with e | (hash | hash)
    · exact .inl rfl
    · exact .inr ⟨rfl, hnew hash rfl⟩
    · exact .inl rfl
  obtain rfl | ⟨rfl, honline⟩ := hstays
  · exact ⟨hold, by rintro _ ⟨⟩; exact hknown⟩
  · constructor
    · intro accepted haccepted
      obtain hbefore | hnow := List.mem_append.mp haccepted
      · exact hold accepted hbefore
      · rwa [List.mem_singleton.mp hnow]
    · rintro _ ⟨⟩ accepted haccepted
      obtain hbefore | hnow := List.mem_append.mp haccepted
      · exact hknown accepted hbefore
      · rwa [List.mem_singleton.mp hnow]

theorem Kept.step {self next : Ledger} {action : LedgerAction} (haligned : self.Aligned action)
    (hkept : self.Kept) (hstep : self.step action = some next) : next.Kept := by
  cases action with
  | reopen fault =>
    cases hstep
    exact hkept.reopen fault
  | ingest envelope fault => exact hkept.ingest haligned hstep
  | crash envelope written => exact hkept.crash hstep
  | stop =>
    cases hstep
    exact ⟨hkept.recorded, by rintro _ ⟨⟩⟩

end Ledger

end

open Ledger transition

/-- Over every history of a ledger, with crashes and failures anywhere in a line: if
    each accepted envelope was written to a file whose lines were all complete, every
    later ingest of it, in the same process or after any restarts, finds a duplicate. -/
theorem accepted_stay_duplicates [Sha256] {file : File} {actions : List LedgerAction} {last : Ledger}
    (haligned : Along step Aligned (closed file) actions) (hrun : run step (closed file) actions = some last)
    {envelope : ReceivedEnvelope} (haccepted : envelope ∈ last.accepted) {later : ReceivedEnvelope}
    (htopic : later.topic = envelope.topic) (hpayload : later.payload = envelope.payload)
    {store : DurableDedupeStore} (hstore : last.store = some store) (fault : Option IoFault) :
    (store.ingest last.file fault later).1 = .ok (.Duplicate (envelope_hash envelope)) := by
  have hkept : last.Kept := run_preserves_along
    (fun _ _ _ haligned hkept hstep => Kept.step haligned hkept hstep) haligned (kept_closed file) hrun
  have hsame := envelope_hash_congr htopic hpayload
  have hseen : envelope_hash later ∈ store.seen := by
    rw [hsame]
    exact hkept.known store hstore envelope haccepted
  rw [DurableDedupeStore.ingest_of_mem hseen, hsame]

/-- Two envelopes on one topic. -/
def firstLeak : ReceivedEnvelope := { message_hash := "a", topic := "t", payload := [1], timestamp_ns := 1 }

def secondLeak : ReceivedEnvelope := { message_hash := "b", topic := "t", payload := [2], timestamp_ns := 2 }

/-- The process stops after some bytes of the first line, and another takes the second
    envelope, stops, and is followed by a third. -/
def crashHistory (written : Nat) : List LedgerAction :=
  [.reopen none, .crash firstLeak written, .reopen none, .ingest secondLeak none, .stop, .reopen none]

/-- After a whole line the second envelope stays known. -/
theorem accepted_stay_duplicates_whole_line :
    ∃ last store, run step (closed none) (crashHistory 65) = some last ∧ last.accepted = [secondLeak] ∧
      last.store = some store ∧
      (store.ingest last.file none secondLeak).1 = .ok (.Duplicate (envelope_hash secondLeak)) := by
  have haligned : Along step Aligned (closed none) (crashHistory 65) := by decide +kernel
  have hends : (run step (closed none) (crashHistory 65)).any (fun last =>
      last.accepted = [secondLeak] ∧ last.store.isSome) = true := by decide +kernel
  cases hrun : run step (closed none) (crashHistory 65) with
  | none =>
    rw [hrun] at hends
    cases hends
  | some last =>
    rw [hrun, Option.any_some, decide_eq_true_eq] at hends
    obtain ⟨haccepted, hopen⟩ := hends
    obtain ⟨store, hstore⟩ := Option.isSome_iff_exists.mp hopen
    have hmem : secondLeak ∈ last.accepted := by rw [haccepted]; exact List.mem_singleton_self _
    exact ⟨last, store, rfl, haccepted, hstore, accepted_stay_duplicates haligned hrun hmem rfl rfl hstore none⟩

/-- After a torn line the second envelope is forgotten: its hash was added to the line. -/
theorem torn_line_forgets :
    ¬∀ (file : File) (actions : List LedgerAction) (last : Ledger), run step (closed file) actions = some last →
      ∀ envelope ∈ last.accepted, ∀ store, last.store = some store →
        (store.ingest last.file none envelope).1 = .ok (.Duplicate (envelope_hash envelope)) := by
  intro hclaim
  have hforgets : (run step (closed none) (crashHistory 10)).any (fun last =>
      last.accepted = [secondLeak] ∧ last.store.any fun store =>
        (store.ingest last.file none secondLeak).1 = .ok (.New (envelope_hash secondLeak))) = true := by
    decide +kernel
  cases hrun : run step (closed none) (crashHistory 10) with
  | none =>
    rw [hrun] at hforgets
    cases hforgets
  | some last =>
    rw [hrun, Option.any_some, decide_eq_true_eq] at hforgets
    obtain ⟨haccepted, hany⟩ := hforgets
    cases hstore : last.store with
    | none =>
      rw [hstore] at hany
      cases hany
    | some store =>
      rw [hstore, Option.any_some, decide_eq_true_eq] at hany
      have hmem : secondLeak ∈ last.accepted := by rw [haccepted]; exact List.mem_singleton_self _
      rw [hclaim none _ last hrun secondLeak hmem store hstore] at hany
      cases hany

end document_indexing
