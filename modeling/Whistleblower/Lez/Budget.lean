import Mathlib.Algebra.BigOperators.Intervals
import Mathlib.Order.Bounds.Defs
import Mathlib.Tactic.Ring
import Whistleblower.Lez.Client
import Whistleblower.Lib.Credits

open nssa_core whistleblower_core document_indexing whistleblower_registry

namespace whistleblower_lez_adapter

/-- What is counted of a call: the requests of each kind, and the time slept. -/
structure Prices where
  now : Nat
  message : Nat
  send : Nat
  confirm : Nat
  read : Nat
  time : Nat
  deriving DecidableEq, Repr

namespace Prices

def price (self : Prices) : LezCall → Nat
  | .now => self.now
  | .try_new_message _ _ => self.message
  | .send_transaction _ => self.send
  | .get_transaction _ => self.confirm
  | .get_account_public _ => self.read
  | .sleep duration => self.time * duration
  | .panic _ => 0

/-- The price of the pause between two polls. -/
def pause (self : Prices) : Nat := self.time * poll_interval

/-- The price of a time stamp. -/
def stamp (self : Prices) : TimestampSource → Nat
  | .SystemTimeMs => self.now
  | .Fixed _ => 0

/-- The price of a submission, with all its confirmation polls in vain. -/
def submission (self : Prices) : Nat := self.message + self.send + 8 * (self.confirm + self.pause)

/-- The price of reading so many entries with so many polls, of which each finds its entry at
    the last poll, but for the last one that finds none. -/
def reading (self : Prices) : Nat → Nat → Nat
  | 0, _ => 0
  | _, 0 => 0
  | polls + 1, entries + 1 => (entries + 1) * ((polls + 1) * self.read + polls * self.pause) + self.pause

/-- A single entry is sought with all polls in vain. -/
theorem reading_one (self : Prices) (polls : Nat) : self.reading polls 1 = polls * (self.read + self.pause) := by
  cases polls with
  | zero => exact (Nat.zero_mul _).symm
  | succ polls =>
    rw [reading]
    ring

end Prices

namespace LezRegistryClient

/-- The most that anchoring so many entries can cost. -/
def worst (self : LezRegistryClient) (prices : Prices) (entries : Nat) : Nat :=
  prices.stamp self.timestamp_source + prices.submission + prices.reading self.max_attempts entries

end LezRegistryClient

section

variable [Sha256] [Nssa] {prices : Prices}

/-- A result that is found leaves a pause. -/
def spare {A : Type} (prices : Prices) : Except AdapterError A → Nat
  | .ok _ => prices.pause
  | .error _ => 0

namespace LezRegistryClient

omit [Sha256] in
theorem affords_next_timestamp (self : LezRegistryClient) (rest : Nat) :
    Async.Affords (I := LezIo) prices.price (fun _ => rest) self.next_timestamp
      (prices.stamp self.timestamp_source + rest) := by
  rw [next_timestamp]
  cases self.timestamp_source with
  | Fixed ts => exact .ret (Nat.le_add_left _ _)
  | SystemTimeMs => exact .call_bind (Nat.le_refl _) fun elapsed => .ret (Nat.le_refl _)

omit [Sha256] in
theorem affords_await_transaction (hash : TxHash) (left rest : Nat) :
    Async.Affords (I := LezIo) prices.price (fun _ => rest) (await_transaction hash left)
      (left * (prices.confirm + prices.pause) + rest) := by
  induction left with
  | zero => exact .ret (Nat.le_add_left _ _)
  | succ left ih =>
    rw [await_transaction]
    have hsplit : (left + 1) * (prices.confirm + prices.pause) + rest =
        prices.confirm + (prices.pause + (left * (prices.confirm + prices.pause) + rest)) := by ring
    rw [hsplit]
    refine .call_bind (Nat.le_refl _) fun found => ?_
    split
    · exact .ret (by omega)
    · exact .call_bind (Nat.le_refl _) fun _ => ih

omit [Sha256] in
theorem affords_submit_and_wait (account_ids : List AccountId) (instruction : RegistryInstruction) (label : String)
    (rest : Nat) :
    Async.Affords (I := LezIo) prices.price (fun _ => rest) (submit_and_wait account_ids instruction label)
      (prices.submission + rest) := by
  rw [submit_and_wait]
  cases instruction.to_vec with
  | none => exact .ret (Nat.le_add_left _ _)
  | some payload =>
    have hsplit : prices.submission + rest =
        prices.message + (prices.send + (8 * (prices.confirm + prices.pause) + rest)) := by
      rw [Prices.submission]
      omega
    rw [hsplit]
    refine .call_bind (Nat.le_refl _) fun built => ?_
    cases built with
    | error e => exact .ret (by omega)
    | ok _ =>
      refine .call_bind (Nat.le_refl _) fun sent => ?_
      cases sent with
      | error e => exact .ret (by omega)
      | ok hash => exact (affords_await_transaction hash 8 rest).bind fun _ => .ret (Nat.le_refl _)

omit [Sha256] in
theorem affords_read_entry (pda : AccountId) (rest : Nat) :
    Async.Affords (I := LezIo) prices.price (fun _ => rest) (read_entry pda) (prices.read + rest) := by
  rw [read_entry]
  refine .call_bind (Nat.le_refl _) fun fetched => ?_
  cases fetched with
  | error e => exact .ret (Nat.le_refl _)
  | ok account =>
    dsimp only
    split
    · exact .ret (Nat.le_refl _)
    · split <;> exact .ret (Nat.le_refl _)

omit [Sha256] in
/-- An entry that is found saves the pause after its poll. -/
theorem affords_read_entry_loop (self : LezRegistryClient) (pda : AccountId) (label : String) (left rest : Nat) :
    Async.Affords (I := LezIo) prices.price (fun result => spare prices result + rest)
      (self.read_entry_loop pda label left) (left * (prices.read + prices.pause) + rest) := by
  induction left with
  | zero => exact .ret (by simp [spare])
  | succ left ih =>
    rw [read_entry_loop]
    have hsplit : (left + 1) * (prices.read + prices.pause) + rest =
        prices.read + (prices.pause + (left * (prices.read + prices.pause) + rest)) := by ring
    rw [hsplit]
    refine (affords_read_entry pda _).bind fun found => ?_
    cases found with
    | error e => exact .ret (by simp only [spare]; omega)
    | ok entry =>
      cases entry with
      | some entry => exact .ret (by simp only [spare]; omega)
      | none => exact .call_bind (Nat.le_refl _) fun _ => ih

omit [Sha256] in
theorem affords_read_entries (self : LezRegistryClient) {polls : Nat} (hpolls : self.max_attempts = polls + 1)
    (pdas : List AccountId) (out : List AnchorEntry) :
    Async.Affords (I := LezIo) prices.price (spare prices) (self.read_entries pdas out)
      (pdas.length * ((polls + 1) * prices.read + polls * prices.pause) + prices.pause) := by
  induction pdas generalizing out with
  | nil => exact .ret (by simp [spare])
  | cons pda rest ih =>
    rw [read_entries]
    have hsplit : (pda :: rest).length * ((polls + 1) * prices.read + polls * prices.pause) + prices.pause =
        (polls + 1) * (prices.read + prices.pause) +
          rest.length * ((polls + 1) * prices.read + polls * prices.pause) := by
      rw [List.length_cons]
      ring
    rw [hsplit, read_entry_until, hpolls]
    refine (self.affords_read_entry_loop pda "anchor_batch" _ _).bind fun found => ?_
    cases found with
    | error e => exact .ret (Nat.zero_le _)
    | ok entry =>
      refine (ih (out ++ [entry])).mono (fun _ => Nat.le_refl _) ?_
      rw [spare, Nat.add_comm]

omit [Sha256] in
theorem affords_reading (self : LezRegistryClient) (pdas : List AccountId) :
    Async.Affords (I := LezIo) prices.price (fun _ => 0) (self.read_entries pdas [])
      (prices.reading self.max_attempts pdas.length) := by
  cases pdas with
  | nil => exact .ret (Nat.zero_le _)
  | cons pda rest =>
    cases hpolls : self.max_attempts with
    | zero =>
      rw [read_entries, read_entry_until, hpolls]
      exact .ret (Nat.zero_le _)
    | succ polls =>
      exact (self.affords_read_entries hpolls (pda :: rest) []).mono (fun _ => Nat.zero_le _) (Nat.le_refl _)

theorem affords_anchor_one (self : LezRegistryClient) (cid : CanonicalCid) (metadata_hash : MetadataHash) :
    Async.Affords (I := LezIo) prices.price (fun _ => 0) (self.anchor_one cid metadata_hash)
      (self.worst prices 1) := by
  rw [anchor_one, worst, Nat.add_assoc]
  refine (self.affords_next_timestamp _).bind fun timestamp => ?_
  refine (affords_submit_and_wait _ _ _ _).bind fun submitted => ?_
  cases submitted with
  | error e => exact .ret (Nat.zero_le _)
  | ok _ =>
    refine (self.affords_read_entry_loop _ "anchor_one" _ 0).mono (fun _ => Nat.zero_le _) (Nat.le_of_eq ?_)
    rw [prices.reading_one]
    ring

/-- Whatever the node does, a batch costs at most the worst case. -/
theorem affords_anchor_batch (self : LezRegistryClient) (entries : List Pair) :
    Async.Affords (I := LezIo) prices.price (fun _ => 0) (self.anchor_batch entries)
      (self.worst prices entries.length) := by
  rw [anchor_batch, worst, Nat.add_assoc]
  refine (self.affords_next_timestamp _).bind fun timestamp => ?_
  refine (affords_submit_and_wait _ _ _ _).bind fun submitted => ?_
  cases submitted with
  | error e => exact .ret (Nat.zero_le _)
  | ok _ =>
    have hreading := @affords_reading _ prices self (entries.map fun entry => self.entry_pda_for entry.1)
    rwa [List.length_map] at hreading

/-- Some return of a program costs exactly this. -/
def Reaches {A : Type} (prices : Prices) (program : Async LezIo A) (credits : Nat) (value : A) : Prop :=
  ∃ trace, program.Returns trace value ∧ Async.cost (I := LezIo) prices.price trace = credits

omit [Sha256] in
theorem Reaches.ret {A : Type} (value : A) : Reaches prices (.ret value) 0 value := ⟨[], .refl _, rfl⟩

omit [Sha256] in
theorem Reaches.bind {A B : Type} {program : Async LezIo A} {next : A → Async LezIo B} {first second : Nat}
    {value : A} {result : B} (hprogram : Reaches prices program first value)
    (hnext : Reaches prices (next value) second result) : Reaches prices (program >>= next) (first + second) result := by
  obtain ⟨front, hfront, rfl⟩ := hprogram
  obtain ⟨back, hback, rfl⟩ := hnext
  exact ⟨front ++ back, hfront.bind hback, Async.cost_append front back⟩

omit [Sha256] in
theorem Reaches.call (request : LezCall) (response : request.Response) :
    Reaches prices (Async.call (I := LezIo) request) (prices.price request) response :=
  ⟨[⟨request, response⟩], Async.returns_call_iff.mpr rfl, Nat.add_zero _⟩

omit [Sha256] in
theorem Reaches.finish {A B : Type} {program : Async LezIo A} {next : A → Async LezIo B} {credits : Nat} {value : A}
    {result : B} (hprogram : Reaches prices program credits value) (hnext : next value = .ret result) :
    Reaches prices (program >>= next) credits result := by
  have hrest : Reaches prices (next value) 0 result := by
    rw [hnext]
    exact .ret result
  exact hprogram.bind hrest

omit [Sha256] in
theorem reaches_next_timestamp (self : LezRegistryClient) :
    ∃ timestamp, Reaches prices self.next_timestamp (prices.stamp self.timestamp_source) timestamp := by
  rw [next_timestamp]
  cases self.timestamp_source with
  | Fixed ts => exact ⟨ts, .ret ts⟩
  | SystemTimeMs => exact ⟨_, (Reaches.call .now (none : Option Nat)).finish rfl⟩

omit [Sha256] in
/-- No confirmation is seen. -/
theorem reaches_await_transaction (hash : TxHash) (left : Nat) :
    Reaches prices (await_transaction hash left) (left * (prices.confirm + prices.pause)) () := by
  induction left with
  | zero =>
    rw [Nat.zero_mul]
    exact .ret ()
  | succ left ih =>
    have hsplit : (left + 1) * (prices.confirm + prices.pause) =
        prices.confirm + (prices.pause + left * (prices.confirm + prices.pause)) := by ring
    rw [await_transaction, hsplit]
    exact (Reaches.call (.get_transaction hash) (Except.ok none : Except String (Option Transaction))).bind
      ((Reaches.call (.sleep poll_interval) ()).bind ih)

omit [Sha256] in
theorem reaches_submit_and_wait {account_ids : List AccountId} {instruction : RegistryInstruction}
    (hencodes : instruction.to_vec.isSome = true) (label : String) :
    Reaches prices (submit_and_wait account_ids instruction label) prices.submission (.ok ()) := by
  obtain ⟨payload, hpayload⟩ := Option.isSome_iff_exists.mp hencodes
  have hsplit : prices.submission = prices.message + (prices.send + (8 * (prices.confirm + prices.pause) + 0)) := by
    rw [Prices.submission]
    omega
  rw [submit_and_wait, hpayload, hsplit]
  refine (Reaches.call (.try_new_message _ _) (Except.ok () : Except String Unit)).bind ?_
  refine (Reaches.call (.send_transaction _) (Except.ok (Vector.replicate 32 0) : Except String TxHash)).bind ?_
  exact (reaches_await_transaction _ 8).bind (.ret _)

omit [Sha256] in
/-- An account without data. -/
theorem reaches_read_entry_none (pda : AccountId) : Reaches prices (read_entry pda) prices.read (.ok none) := by
  let account : Account := ⟨Nssa.DEFAULT_PROGRAM_ID, 0, ⟨[], Nat.zero_le _⟩, 0⟩
  rw [read_entry]
  exact (Reaches.call (.get_account_public pda) (Except.ok account : Except String Account)).finish rfl

omit [Sha256] in
/-- An account with an entry, if accounts can hold the shortest one. -/
theorem reaches_read_entry_some (hholds : 76 ≤ Nssa.DATA_MAX_LENGTH) (pda : AccountId) :
    ∃ entry, Reaches prices (read_entry pda) prices.read (.ok (some entry)) := by
  let entry : AnchorEntry := ⟨⟨""⟩, ⟨Vector.replicate 32 0⟩, ⟨Vector.replicate 32 0⟩, 0⟩
  obtain ⟨bytes, hbytes, hlength⟩ := @AnchorEntry.to_vec_eq_some entry (by decide)
  have hfits : bytes.length ≤ Nssa.DATA_MAX_LENGTH := by
    rw [hlength]
    exact hholds
  let account : Account := ⟨Nssa.DEFAULT_PROGRAM_ID, 0, ⟨bytes, hfits⟩, 0⟩
  have hread : AnchorEntry.try_from_slice account.data.bytes = .ok entry := AnchorEntry.try_from_slice_to_vec hbytes
  have hdata : account.data.bytes ≠ [] := AnchorEntry.to_vec_ne_nil hbytes
  rw [read_entry]
  refine ⟨entry, (Reaches.call (.get_account_public pda) (Except.ok account : Except String Account)).finish ?_⟩
  dsimp only
  rw [if_neg hdata, hread]
  rfl

omit [Sha256] in
/-- No poll finds the entry. -/
theorem reaches_read_entry_loop_error (self : LezRegistryClient) (pda : AccountId) (label : String) (left : Nat) :
    ∃ e : AdapterError, e.kind = .Retryable ∧
      Reaches prices (self.read_entry_loop pda label left) (left * (prices.read + prices.pause)) (.error e) := by
  induction left with
  | zero =>
    rw [Nat.zero_mul]
    exact ⟨_, rfl, .ret _⟩
  | succ left ih =>
    obtain ⟨e, hkind, hreaches⟩ := ih
    have hsplit : (left + 1) * (prices.read + prices.pause) =
        prices.read + (prices.pause + left * (prices.read + prices.pause)) := by ring
    rw [read_entry_loop, hsplit]
    exact ⟨e, hkind, (reaches_read_entry_none pda).bind ((Reaches.call (.sleep poll_interval) ()).bind hreaches)⟩

omit [Sha256] in
/-- The last poll finds the entry. -/
theorem reaches_read_entry_loop_ok (hholds : 76 ≤ Nssa.DATA_MAX_LENGTH) (self : LezRegistryClient) (pda : AccountId)
    (label : String) (left : Nat) :
    ∃ entry, Reaches prices (self.read_entry_loop pda label (left + 1))
      ((left + 1) * prices.read + left * prices.pause) (.ok entry) := by
  induction left with
  | zero =>
    obtain ⟨entry, hreaches⟩ := reaches_read_entry_some hholds pda
    rw [read_entry_loop, Nat.zero_mul, Nat.add_zero, Nat.zero_add, Nat.one_mul]
    exact ⟨entry, hreaches.finish rfl⟩
  | succ left ih =>
    obtain ⟨entry, hreaches⟩ := ih
    have hsplit : (left + 1 + 1) * prices.read + (left + 1) * prices.pause =
        prices.read + (prices.pause + ((left + 1) * prices.read + left * prices.pause)) := by ring
    rw [read_entry_loop, hsplit]
    exact ⟨entry, (reaches_read_entry_none pda).bind ((Reaches.call (.sleep poll_interval) ()).bind hreaches)⟩

omit [Sha256] in
theorem reaches_read_entries (hholds : 76 ≤ Nssa.DATA_MAX_LENGTH) (self : LezRegistryClient) {pdas : List AccountId}
    (hpdas : pdas ≠ []) (out : List AnchorEntry) :
    ∃ e : AdapterError, e.kind = .Retryable ∧
      Reaches prices (self.read_entries pdas out) (prices.reading self.max_attempts pdas.length) (.error e) := by
  induction pdas generalizing out with
  | nil => exact absurd rfl hpdas
  | cons pda rest ih =>
    obtain ⟨e, hkind, hfailed⟩ := self.reaches_read_entry_loop_error pda "anchor_batch" self.max_attempts
    rw [read_entries, read_entry_until, List.length_cons]
    cases rest with
    | nil =>
      rw [List.length_nil, prices.reading_one]
      exact ⟨e, hkind, hfailed.finish rfl⟩
    | cons second others =>
      cases hpolls : self.max_attempts with
      | zero =>
        rw [hpolls, Nat.zero_mul] at hfailed
        exact ⟨e, hkind, hfailed.finish rfl⟩
      | succ polls =>
        obtain ⟨entry, hfound⟩ := self.reaches_read_entry_loop_ok hholds pda "anchor_batch" polls
        obtain ⟨other, hretryable, hrest⟩ := ih (List.cons_ne_nil second others) (out ++ [entry])
        rw [List.length_cons, hpolls, Prices.reading] at hrest
        have hsplit : ((second :: others).length + 1) * ((polls + 1) * prices.read + polls * prices.pause) +
              prices.pause =
            ((polls + 1) * prices.read + polls * prices.pause) +
              ((others.length + 1) * ((polls + 1) * prices.read + polls * prices.pause) + prices.pause) := by
          rw [List.length_cons]
          ring
        rw [Prices.reading, hsplit]
        exact ⟨other, hretryable, hfound.bind hrest⟩

/-- A batch that can be encoded can cost as much as the worst case, and then fails. -/
theorem reaches_anchor_batch (hholds : 76 ≤ Nssa.DATA_MAX_LENGTH) (self : LezRegistryClient) {entries : List Pair}
    (hentries : entries ≠ []) (hencodes : ∀ timestamp, (RegistryInstruction.AnchorBatch entries timestamp).to_vec.isSome) :
    ∃ e : AdapterError, e.kind = .Retryable ∧
      Reaches prices (self.anchor_batch entries) (self.worst prices entries.length) (.error e) := by
  obtain ⟨timestamp, hstamp⟩ := @reaches_next_timestamp _ prices self
  have hpdas : (entries.map fun entry => self.entry_pda_for entry.1) ≠ [] := by
    rwa [ne_eq, List.map_eq_nil_iff]
  obtain ⟨e, hkind, hreading⟩ := self.reaches_read_entries hholds hpdas []
  rw [List.length_map] at hreading
  refine ⟨e, hkind, ?_⟩
  rw [anchor_batch, worst, Nat.add_assoc]
  exact hstamp.bind ((reaches_submit_and_wait (hencodes timestamp) "anchor_batch").bind hreading)

theorem reaches_anchor_one (self : LezRegistryClient) {cid : CanonicalCid} {metadata_hash : MetadataHash}
    (hencodes : ∀ timestamp, (RegistryInstruction.AnchorOne cid metadata_hash timestamp).to_vec.isSome) :
    ∃ e : AdapterError, e.kind = .Retryable ∧
      Reaches prices (self.anchor_one cid metadata_hash) (self.worst prices 1) (.error e) := by
  obtain ⟨timestamp, hstamp⟩ := @reaches_next_timestamp _ prices self
  obtain ⟨e, hkind, hreading⟩ :=
    self.reaches_read_entry_loop_error (self.entry_pda_for cid) "anchor_one" self.max_attempts
  refine ⟨e, hkind, ?_⟩
  rw [anchor_one, worst, Nat.add_assoc, prices.reading_one]
  exact hstamp.bind ((reaches_submit_and_wait (hencodes timestamp) "anchor_one").bind hreading)

end LezRegistryClient

/-- The pauses of so many attempts that all fail. -/
def backoffs (policy : RetryPolicy) : Duration :=
  ∑ attempt ∈ Finset.Ico 1 policy.max_attempts.toNat, policy.backoff_for attempt

/-- The most that an operation can cost when it is retried. -/
def retried (prices : Prices) (policy : RetryPolicy) (credits : Nat) : Nat :=
  policy.max_attempts.toNat * credits + prices.time * backoffs policy

omit [Sha256] in
theorem affords_with_retry {T : Type} (policy : RetryPolicy) {op : Async LezIo (Except AdapterError T)} {credits : Nat}
    (hop : Async.Affords (I := LezIo) prices.price (fun _ => 0) op credits) :
    Async.Affords (I := LezIo) prices.price (fun _ => 0) (with_retry policy op) (retried prices policy credits) := by
  have hloop : ∀ left attempt last_err, attempt + left = policy.max_attempts.toNat + 1 →
      Async.Affords (I := LezIo) prices.price (fun _ => 0) (retry_loop policy op left attempt last_err)
        (left * credits + prices.time * ∑ k ∈ Finset.Ico attempt policy.max_attempts.toNat, policy.backoff_for k) := by
    intro left
    induction left with
    | zero =>
      intro attempt last_err _
      cases last_err with
      | none => exact ⟨Nat.zero_le _, fun response => nomatch response⟩
      | some e => exact .ret (Nat.zero_le _)
    | succ left ih =>
      intro attempt last_err hattempt
      have hsplit : ∀ rest, (left + 1) * credits + rest = credits + (left * credits + rest) := by
        intro rest
        ring
      rw [retry_loop, hsplit]
      refine (hop.frame _).bind fun result => ?_
      rw [Nat.zero_add]
      cases result with
      | ok value => exact .ret (Nat.zero_le _)
      | error e =>
        have hnext := ih (attempt + 1) (some e) (by omega)
        dsimp only
        split
        · exact .ret (Nat.zero_le _)
        · split
          · rename_i hmore
            refine .call_bind (Nat.le_of_eq ?_) fun _ => hnext
            rw [Finset.sum_eq_sum_Ico_succ_bot hmore]
            simp only [Prices.price]
            ring
          · rename_i hlast
            refine hnext.mono (fun _ => Nat.le_refl _) ?_
            rw [Finset.Ico_eq_empty_of_le (by omega), Finset.Ico_eq_empty_of_le (by omega)]
  exact hloop policy.max_attempts.toNat 1 none (by omega)

omit [Sha256] in
/-- Every attempt fails at its worst. -/
theorem reaches_with_retry {T : Type} {policy : RetryPolicy} (hattempts : 1 ≤ policy.max_attempts.toNat)
    {op : Async LezIo (Except AdapterError T)} {credits : Nat} {e : AdapterError} (hkind : e.kind = .Retryable)
    (hop : LezRegistryClient.Reaches prices op credits (.error e)) :
    LezRegistryClient.Reaches prices (with_retry policy op) (retried prices policy credits) (.error e) := by
  have hloop : ∀ left attempt, attempt + left = policy.max_attempts.toNat + 1 →
      LezRegistryClient.Reaches prices (retry_loop policy op left attempt (some e))
        (left * credits + prices.time * ∑ k ∈ Finset.Ico attempt policy.max_attempts.toNat, policy.backoff_for k)
        (.error e) := by
    intro left
    induction left with
    | zero =>
      intro attempt hattempt
      rw [Finset.Ico_eq_empty_of_le (by omega), Finset.sum_empty, Nat.mul_zero, Nat.zero_mul]
      exact .ret _
    | succ left ih =>
      intro attempt hattempt
      have hnext := ih (attempt + 1) (by omega)
      have hsplit : ∀ rest, (left + 1) * credits + rest = credits + (left * credits + rest) := by
        intro rest
        ring
      rw [retry_loop, hsplit]
      refine hop.bind ?_
      have hagain : ¬e.kind = .NonRetryable := by
        rw [hkind]
        decide
      dsimp only
      rw [if_neg hagain]
      split
      · rename_i hmore
        have hpause : left * credits +
              prices.time * ∑ k ∈ Finset.Ico attempt policy.max_attempts.toNat, policy.backoff_for k =
            prices.price (.sleep (policy.backoff_for attempt)) + (left * credits +
              prices.time * ∑ k ∈ Finset.Ico (attempt + 1) policy.max_attempts.toNat, policy.backoff_for k) := by
          rw [Finset.sum_eq_sum_Ico_succ_bot hmore]
          simp only [Prices.price]
          ring
        rw [hpause]
        exact (LezRegistryClient.Reaches.call (.sleep (policy.backoff_for attempt)) ()).bind hnext
      · rename_i hlast
        rw [Finset.Ico_eq_empty_of_le (by omega)] at hnext ⊢
        exact hnext
  obtain ⟨left, hleft⟩ := Nat.exists_eq_add_of_le' hattempts
  have hall := hloop policy.max_attempts.toNat 1 (by omega)
  rw [with_retry]
  rw [hleft] at hall ⊢
  rw [retried, backoffs, hleft]
  exact hall

/-- What the runs of a program can cost, finished or not. -/
def costs (prices : Prices) {A : Type} (program : Async LezIo A) : Set Nat :=
  { credits | ∃ trace rest, program.Runs trace rest ∧ Async.cost (I := LezIo) prices.price trace = credits }

omit [Sha256] in
theorem isGreatest_costs {A : Type} {program : Async LezIo A} {credits : Nat} {value : A}
    (haffords : Async.Affords (I := LezIo) prices.price (fun _ => 0) program credits)
    (hreaches : LezRegistryClient.Reaches prices program credits value) : IsGreatest (costs prices program) credits := by
  obtain ⟨trace, hreturns, hcost⟩ := hreaches
  refine ⟨⟨trace, _, hreturns, hcost⟩, ?_⟩
  rintro _ ⟨other, rest, hruns, rfl⟩
  exact (haffords.runs hruns).1

/-- The worst that anchoring can come to. Whatever the clock, the wallet and the sequencer
    answer, and however far the call gets, its requests and its pauses never cost more, and
    some answers make it cost as much. A retried batch asks for all its attempts, with one
    transaction and eight confirmation polls in each. -/
theorem anchoring_at_worst (hholds : 76 ≤ Nssa.DATA_MAX_LENGTH) (prices : Prices) (client : LezRegistryClient)
    {policy : RetryPolicy} (hattempts : 1 ≤ policy.max_attempts.toNat) :
    (∀ entries : List Pair, entries ≠ [] →
      (∀ timestamp, (RegistryInstruction.AnchorBatch entries timestamp).to_vec.isSome) →
      IsGreatest (costs prices (with_retry policy (client.anchor_batch entries)))
        (retried prices policy (client.worst prices entries.length))) ∧
      ∀ cid metadata_hash,
        (∀ timestamp, (RegistryInstruction.AnchorOne cid metadata_hash timestamp).to_vec.isSome) →
        IsGreatest (costs prices (with_retry policy (client.anchor_one cid metadata_hash)))
          (retried prices policy (client.worst prices 1)) := by
  constructor
  · intro entries hentries hencodes
    obtain ⟨e, hkind, hreaches⟩ := client.reaches_anchor_batch hholds hentries hencodes
    exact isGreatest_costs (affords_with_retry policy (client.affords_anchor_batch entries))
      (reaches_with_retry hattempts hkind hreaches)
  · intro cid metadata_hash hencodes
    obtain ⟨e, hkind, hreaches⟩ := client.reaches_anchor_one hencodes
    exact isGreatest_costs (affords_with_retry policy (client.affords_anchor_one cid metadata_hash))
      (reaches_with_retry hattempts hkind hreaches)

end

/-- With the tool's retries and the usual patience, anchoring one CID can take fifteen and a
    half minutes of pauses. -/
theorem anchoring_at_worst_patient :
    let prices : Prices := { now := 0, message := 0, send := 0, confirm := 0, read := 0, time := 1 }
    let client : LezRegistryClient :=
      { program_id := Vector.replicate 8 1, confirm_secs := 180, timestamp_source := .SystemTimeMs }
    IsGreatest (costs prices (with_retry .default (client.anchor_one ⟨"bafy-a"⟩ ⟨Vector.replicate 32 7⟩)))
      (Duration.from_millis 933000) := by
  intro prices client
  have hworst : retried prices .default (client.worst prices 1) = Duration.from_millis 933000 := by decide +kernel
  have hattempts : 1 ≤ RetryPolicy.default.max_attempts.toNat := by decide
  obtain ⟨_, hone⟩ := anchoring_at_worst (by decide) prices client hattempts
  rw [← hworst]
  have hshort : (text.bytes "bafy-a").length < 256 ^ 4 := by decide +kernel
  exact hone _ _ fun timestamp => (RegistryInstruction.isSome_to_vec _).mpr hshort

end whistleblower_lez_adapter
