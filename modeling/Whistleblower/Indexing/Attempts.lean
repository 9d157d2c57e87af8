import Mathlib.Algebra.Group.Action.Defs
import Mathlib.Algebra.GroupWithZero.Nat
import Mathlib.Algebra.Order.BigOperators.Group.List
import Mathlib.Algebra.Order.Group.Nat
import Mathlib.Data.Nat.Find
import Mathlib.Order.Bounds.Basic
import Whistleblower.Indexing.Retry

namespace document_indexing

/-- A result that is not retried. -/
def Settled {T : Type} : Except AdapterError T → Prop
  | .ok _ => True
  | .error e => e.kind = .NonRetryable

/-- The results of all attempts, in order: those before the last are retried, and the last
    is settled unless no attempt is left. -/
structure Attempts {T : Type} (max_attempts : Nat) (results : List (Except AdapterError T))
    (result : Except AdapterError T) : Prop where
  last : results.getLast? = some result
  retried : ∀ earlier ∈ results.dropLast, ¬ Settled earlier
  bounded : results.length ≤ max_attempts
  ended : Settled result ∨ results.length = max_attempts

theorem attempts_singleton_iff {T : Type} {left : Nat} {first result : Except AdapterError T} :
    Attempts (left + 1) [first] result ↔ first = result ∧ (Settled first ∨ left = 0) := by
  constructor
  · rintro ⟨hlast, _, _, hended⟩
    obtain rfl : first = result := Option.some.inj hlast
    exact ⟨rfl, hended.imp_right fun hlength => by simpa using hlength.symm⟩
  · rintro ⟨rfl, hended⟩
    refine ⟨rfl, fun earlier hearlier => (nomatch hearlier), by simp, ?_⟩
    exact hended.imp_right fun hzero => by simp [hzero]

theorem attempts_cons_iff {T : Type} {left : Nat} {first second result : Except AdapterError T}
    {rest : List (Except AdapterError T)} :
    Attempts (left + 1) (first :: second :: rest) result ↔
      ¬ Settled first ∧ Attempts left (second :: rest) result := by
  constructor
  · rintro ⟨hlast, hretried, hbounded, hended⟩
    rw [List.dropLast_cons_cons, List.forall_mem_cons] at hretried
    rw [List.length_cons] at hbounded hended
    exact ⟨hretried.1, by simpa using hlast, hretried.2, by omega, hended.imp_right fun h => by omega⟩
  · rintro ⟨hfirst, hlast, hretried, hbounded, hended⟩
    refine ⟨by simpa using hlast, ?_, by simpa using hbounded, hended.imp_right fun h => by simpa using h⟩
    rw [List.dropLast_cons_cons, List.forall_mem_cons]
    exact ⟨hfirst, hretried⟩

/-- A single call that can be retried, and what is exchanged by it and by a sleep. -/
structure Retried (I : Interface) [Runtime I] (T : Type) where
  op : Async I (Except AdapterError T)
  answer : Except AdapterError T → Exchange I
  pause : Duration → Exchange I
  op_returns : ∀ trace result, op.Returns trace result ↔ trace = [answer result]
  sleep_returns : ∀ duration trace slept, (Runtime.sleep duration : Async I Unit).Returns trace slept ↔
    trace = [pause duration]
  panic_returns : ∀ message trace (result : Except AdapterError T),
    ¬ (Runtime.panic message : Async I _).Returns trace result

namespace Retried

variable {I : Interface} [Runtime I] {T : Type}

/-- What is exchanged by attempts with these results, from the one with the given number
    on: they are separated by the waits of the policy. -/
def exchanges (self : Retried I T) (policy : RetryPolicy) : Nat → List (Except AdapterError T) → List (Exchange I)
  | _, [] => []
  | _, [result] => [self.answer result]
  | attempt, result :: next :: rest =>
    self.answer result :: self.pause (policy.backoff_for attempt) ::
      self.exchanges policy (attempt + 1) (next :: rest)

variable (self : Retried I T) {policy : RetryPolicy} {trace : List (Exchange I)} {result : Except AdapterError T}

/-- The last error matters only when no attempt is left. -/
theorem retry_loop_congr {op : Async I (Except AdapterError T)} {left attempt : Nat} (hleft : left ≠ 0)
    (first second : Option AdapterError) :
    retry_loop policy op left attempt first = retry_loop policy op left attempt second := by
  cases left with
  | zero => exact absurd rfl hleft
  | succ left => rfl

/-- One attempt: nothing follows a settled or a last result, and any other is followed by a
    wait and the attempts that are left. -/
theorem retry_loop_succ_iff {left attempt : Nat} {last_err : Option AdapterError}
    (hcount : attempt + left = policy.max_attempts.toNat) :
    (retry_loop policy self.op (left + 1) attempt last_err).Returns trace result ↔ ∃ first,
      ((Settled first ∨ left = 0) ∧ trace = [self.answer first] ∧ result = first) ∨
        (¬ Settled first ∧ left ≠ 0 ∧ ∃ rest,
          trace = self.answer first :: self.pause (policy.backoff_for attempt) :: rest ∧
          (retry_loop policy self.op left (attempt + 1) last_err).Returns rest result) := by
  rw [retry_loop, Async.returns_bind_iff]
  constructor
  · rintro ⟨first, front, back, rfl, hfirst, hback⟩
    obtain rfl := (self.op_returns _ _).mp hfirst
    refine ⟨first, ?_⟩
    cases first with
    | ok value =>
      obtain ⟨rfl, rfl⟩ := Async.returns_ret_iff.mp hback
      exact .inl ⟨.inl trivial, rfl, rfl⟩
    | error e =>
      dsimp only at hback
      split at hback
      · rename_i hkind
        obtain ⟨rfl, rfl⟩ := Async.returns_ret_iff.mp hback
        exact .inl ⟨.inl hkind, rfl, rfl⟩
      · rename_i hkind
        split at hback
        · rename_i hmore
          obtain ⟨slept, pauses, rest, rfl, hpause, hrest⟩ := Async.returns_bind_iff.mp hback
          obtain rfl := (self.sleep_returns _ _ _).mp hpause
          have hleft : left ≠ 0 := by omega
          rw [retry_loop_congr hleft _ last_err] at hrest
          exact .inr ⟨hkind, hleft, rest, rfl, hrest⟩
        · obtain rfl : left = 0 := by omega
          obtain ⟨rfl, rfl⟩ := Async.returns_ret_iff.mp hback
          exact .inl ⟨.inr rfl, rfl, rfl⟩
  · rintro ⟨first, ⟨hended, rfl, rfl⟩ | ⟨hretried, hleft, rest, rfl, hrest⟩⟩
    · refine ⟨result, [self.answer result], [], rfl, (self.op_returns _ _).mpr rfl, ?_⟩
      cases result with
      | ok value => exact .refl _
      | error e =>
        dsimp only
        split
        · exact .refl _
        · rename_i hkind
          obtain rfl : left = 0 := hended.resolve_left hkind
          rw [if_neg (by omega)]
          exact .refl _
    · cases first with
      | ok value => exact absurd trivial hretried
      | error e =>
        refine ⟨.error e, [self.answer (.error e)], _, rfl, (self.op_returns _ _).mpr rfl, ?_⟩
        dsimp only
        rw [if_neg (show ¬ e.kind = .NonRetryable from hretried), if_pos (by omega),
          retry_loop_congr hleft _ last_err]
        exact ((self.sleep_returns _ _ ()).mpr rfl).bind hrest

/-- The attempts that are left return with what attempts exchange, and only with that. -/
theorem retry_loop_returns_iff {left attempt : Nat} {last_err : Option AdapterError} (hleft : left ≠ 0)
    (hcount : attempt + left = policy.max_attempts.toNat + 1) :
    (retry_loop policy self.op left attempt last_err).Returns trace result ↔
      ∃ results, Attempts left results result ∧ trace = self.exchanges policy attempt results := by
  induction left generalizing attempt trace with
  | zero => exact absurd rfl hleft
  | succ left ih =>
    rw [self.retry_loop_succ_iff (by omega)]
    constructor
    · rintro ⟨first, ⟨hended, rfl, rfl⟩ | ⟨hretried, hmore, rest, rfl, hrest⟩⟩
      · exact ⟨[result], attempts_singleton_iff.mpr ⟨rfl, hended⟩, rfl⟩
      · obtain ⟨results, hattempts, rfl⟩ := (ih hmore (by omega)).mp hrest
        cases results with
        | nil => cases hattempts.last
        | cons second others => exact ⟨first :: second :: others, attempts_cons_iff.mpr ⟨hretried, hattempts⟩, rfl⟩
    · rintro ⟨results, hattempts, rfl⟩
      match results with
      | [] => cases hattempts.last
      | [first] =>
        obtain ⟨rfl, hended⟩ := attempts_singleton_iff.mp hattempts
        exact ⟨first, .inl ⟨hended, rfl, rfl⟩⟩
      | first :: second :: others =>
        obtain ⟨hretried, hrest⟩ := attempts_cons_iff.mp hattempts
        have hmore : left ≠ 0 := by
          rintro rfl
          cases hrest.bounded
        exact ⟨first, .inr ⟨hretried, hmore, _, rfl, (ih hmore (by omega)).mpr ⟨_, hrest, rfl⟩⟩⟩

/-- A call is retried with what attempts exchange, and only with that. -/
theorem with_retry_returns_iff (hattempts : 1 ≤ policy.max_attempts.toNat) :
    (with_retry policy self.op).Returns trace result ↔
      ∃ results, Attempts policy.max_attempts.toNat results result ∧ trace = self.exchanges policy 1 results :=
  self.retry_loop_returns_iff (Nat.ne_of_gt hattempts) (Nat.add_comm _ _)

end Retried

/-- What one operation that can have any results is asked, and the clock. -/
inductive OperationCall where
  | op
  | sleep (duration : Duration)
  | panic (message : String)
  deriving DecidableEq

def OperationCall.Response (T : Type) : OperationCall → Type
  | .op => Except AdapterError T
  | .sleep _ => Unit
  | .panic _ => Empty

def Operation (T : Type) : Interface where
  Request := OperationCall
  Response := OperationCall.Response T

instance (T : Type) : Runtime (Operation T) where
  sleep := fun duration => Async.call (I := Operation T) (.sleep duration)
  panic := fun message => .ask (I := Operation T) (.panic message) Empty.elim

/-- The operation, which may answer anything. -/
def operation (T : Type) : Retried (Operation T) T where
  op := Async.call (I := Operation T) .op
  answer := fun result => ⟨OperationCall.op, result⟩
  pause := fun duration => ⟨OperationCall.sleep duration, ()⟩
  op_returns := fun _ _ => Async.returns_call_iff
  sleep_returns := fun _ _ _ => Async.returns_call_iff
  panic_returns := by
    intro message trace result hreturns
    obtain ⟨response, _⟩ := Async.returns_ask_iff.mp hreturns
    exact response.elim

/-- The results of the operation, in order. -/
def called {T : Type} (trace : List (Exchange (Operation T))) : List (Except AdapterError T) :=
  trace.filterMap fun
    | ⟨OperationCall.op, result⟩ => some result
    | ⟨OperationCall.sleep _, _⟩ => none
    | ⟨OperationCall.panic _, _⟩ => none

/-- The durations of the waits, in order. -/
def slept {T : Type} (trace : List (Exchange (Operation T))) : List Duration :=
  trace.filterMap fun
    | ⟨OperationCall.op, _⟩ => none
    | ⟨OperationCall.sleep duration, _⟩ => some duration
    | ⟨OperationCall.panic _, _⟩ => none

theorem called_exchanges {T : Type} (policy : RetryPolicy) (attempt : Nat) (results : List (Except AdapterError T)) :
    called ((operation T).exchanges policy attempt results) = results := by
  induction attempt, results using Retried.exchanges.induct with
  | case1 => rfl
  | case2 attempt result => rfl
  | case3 attempt result next rest ih => exact congrArg (result :: ·) ih

theorem slept_exchanges {T : Type} (policy : RetryPolicy) (attempt : Nat) (results : List (Except AdapterError T)) :
    slept ((operation T).exchanges policy attempt results) =
      (List.range' attempt (results.length - 1)).map policy.backoff_for := by
  induction attempt, results using Retried.exchanges.induct with
  | case1 => rfl
  | case2 attempt result => rfl
  | case3 attempt result next rest ih => exact congrArg (policy.backoff_for attempt :: ·) ih

/-- The attempts on a sequence of results end with the first one that is settled or the last. -/
theorem attempts_range_iff {T : Type} {max_attempts k : Nat} {results : Nat → Except AdapterError T}
    {result : Except AdapterError T} :
    Attempts max_attempts ((List.range' 1 k).map results) result ↔
      IsLeast {i | 1 ≤ i ∧ i ≤ max_attempts ∧ (Settled (results i) ∨ i = max_attempts)} k ∧ result = results k := by
  cases k with
  | zero =>
    constructor
    · intro hattempts
      cases hattempts.last
    · rintro ⟨⟨⟨hpositive, _⟩, _⟩, _⟩
      cases hpositive
  | succ k =>
    rw [List.range'_1_concat, List.map_append, List.map_singleton, Nat.add_comm 1 k]
    constructor
    · rintro ⟨hlast, hretried, hbounded, hended⟩
      rw [List.getLast?_concat, Option.some.injEq] at hlast
      rw [List.dropLast_concat, List.forall_mem_map] at hretried
      rw [List.length_append, List.length_map, List.length_range', List.length_singleton] at hbounded hended
      subst hlast
      refine ⟨⟨⟨by omega, hbounded, hended⟩, ?_⟩, rfl⟩
      rintro i ⟨hpositive, _, hstops⟩
      by_contra hlt
      have hearlier := hretried i (List.mem_range'_1.mpr (by omega))
      obtain hsettled | hlast := hstops
      · exact hearlier hsettled
      · omega
    · rintro ⟨⟨⟨_, hle, hended⟩, hleast⟩, rfl⟩
      refine ⟨List.getLast?_concat, ?_, by simpa using hle, by simpa using hended⟩
      rw [List.dropLast_concat, List.forall_mem_map]
      intro i hi hsettled
      obtain ⟨hpositive, hlt⟩ := List.mem_range'_1.mp hi
      have hfirst := hleast ⟨hpositive, by omega, .inl hsettled⟩
      omega

/-- Retrying does what the policy says, for every sequence of results. -/
theorem with_retry_follows_policy {T : Type} {policy : RetryPolicy} (hattempts : 1 ≤ policy.max_attempts.toNat)
    (results : Nat → Except AdapterError T) :
    ∃ k trace, IsLeast {i | 1 ≤ i ∧ i ≤ policy.max_attempts.toNat ∧
        (Settled (results i) ∨ i = policy.max_attempts.toNat)} k ∧
      trace = (operation T).exchanges policy 1 ((List.range' 1 k).map results) ∧
      (with_retry policy (operation T).op).Returns trace (results k) ∧
      (∀ other result m, (with_retry policy (operation T).op).Returns other result →
        called other = (List.range' 1 m).map results → other = trace ∧ result = results k) ∧
      called trace = (List.range' 1 k).map results ∧
      slept trace = (List.range' 1 (k - 1)).map policy.backoff_for ∧
      (slept trace).sum ≤ (policy.max_attempts.toNat - 1) * policy.max_backoff := by
  obtain ⟨k, hleast⟩ : ∃ k, IsLeast {i | 1 ≤ i ∧ i ≤ policy.max_attempts.toNat ∧
      (Settled (results i) ∨ i = policy.max_attempts.toNat)} k := by
    classical
    have hexists : ∃ i, 1 ≤ i ∧ i ≤ policy.max_attempts.toNat ∧
        (Settled (results i) ∨ i = policy.max_attempts.toNat) := ⟨_, hattempts, Nat.le_refl _, .inr rfl⟩
    exact ⟨Nat.find hexists, Nat.find_spec hexists, fun i hi => Nat.find_min' hexists hi⟩
  have hcalls : Attempts policy.max_attempts.toNat ((List.range' 1 k).map results) (results k) :=
    attempts_range_iff.mpr ⟨hleast, rfl⟩
  have hreturns := ((operation T).with_retry_returns_iff hattempts).mpr ⟨_, hcalls, rfl⟩
  have hslept := slept_exchanges policy 1 ((List.range' 1 k).map results)
  rw [List.length_map, List.length_range'] at hslept
  refine ⟨k, _, hleast, rfl, hreturns, ?unique, called_exchanges policy 1 _, hslept, ?total⟩
  case unique =>
    intro other result m hother hcalled
    obtain ⟨answers, hanswers, rfl⟩ := ((operation T).with_retry_returns_iff hattempts).mp hother
    rw [called_exchanges] at hcalled
    subst hcalled
    obtain ⟨hleast', rfl⟩ := attempts_range_iff.mp hanswers
    obtain rfl := hleast'.unique hleast
    exact ⟨rfl, rfl⟩
  case total =>
    rw [hslept]
    have hbounded : ∀ duration ∈ (List.range' 1 (k - 1)).map policy.backoff_for, duration ≤ policy.max_backoff := by
      rw [List.forall_mem_map]
      exact fun attempt _ => policy.backoff_for_le_max attempt
    have hsum := List.sum_le_card_nsmul _ _ hbounded
    rw [List.length_map, List.length_range', smul_eq_mul] at hsum
    exact hsum.trans (Nat.mul_le_mul_right _ (Nat.sub_le_sub_right hleast.1.2.1 1))

/-- The second attempt succeeds, after one wait. -/
theorem with_retry_follows_policy_second :
    ∃ trace, (with_retry .default (operation Nat).op).Returns trace (.ok 7) ∧
      called trace = [.error (.retryable "not yet"), .ok 7] ∧ slept trace = [200000000] := by
  let results : Nat → Except AdapterError Nat := fun i => if i = 1 then .error (.retryable "not yet") else .ok 7
  have hattempts : 1 ≤ RetryPolicy.default.max_attempts.toNat := by decide
  obtain ⟨k, trace, hleast, _, hreturns, _, hcalled, hslept, _⟩ := with_retry_follows_policy hattempts results
  have hsecond : IsLeast {i | 1 ≤ i ∧ i ≤ RetryPolicy.default.max_attempts.toNat ∧
      (Settled (results i) ∨ i = RetryPolicy.default.max_attempts.toNat)} 2 := by
    refine ⟨⟨by decide, by decide, .inl trivial⟩, ?_⟩
    rintro i ⟨hpositive, _, hstops⟩
    by_contra hlt
    obtain rfl : i = 1 := by omega
    obtain hsettled | hlast := hstops
    · cases hsettled
    · cases hlast
  obtain rfl := hleast.unique hsecond
  exact ⟨trace, hreturns, hcalled, hslept⟩

end document_indexing
