import Whistleblower.Indexing.Traits

namespace document_indexing

structure RetryPolicy where
  max_attempts : UInt32
  initial_backoff : Duration
  backoff_multiplier : UInt32
  max_backoff : Duration
  deriving DecidableEq, Repr

namespace RetryPolicy

def default : RetryPolicy where
  max_attempts := 5
  initial_backoff := .from_millis 200
  backoff_multiplier := 2
  max_backoff := .from_millis 10000

/-- The wait after an attempt, with the power and the product saturating. -/
def backoff_for (self : RetryPolicy) (attempt : Nat) : Duration :=
  let exp := min (self.backoff_multiplier.toNat ^ (attempt - 1)) (2 ^ 32 - 1)
  let raw := min (self.initial_backoff * exp) Duration.MAX
  min raw self.max_backoff

theorem backoff_for_le_max (self : RetryPolicy) (attempt : Nat) : self.backoff_for attempt ≤ self.max_backoff :=
  Nat.min_le_right _ _

end RetryPolicy

section

variable {I : Interface} [Runtime I] {T : Type}

/-- The attempts that are left, the next of which has the given number. -/
def retry_loop (policy : RetryPolicy) (op : Async I (Except AdapterError T)) :
    Nat → Nat → Option AdapterError → Async I (Except AdapterError T)
  | 0, _, some last_err => pure (.error last_err)
  | 0, _, none => Runtime.panic "loop ran at least once when max_attempts >= 1"
  | left + 1, attempt, _ => do
    match ← op with
    | .ok value => pure (.ok value)
    | .error e =>
      if e.kind = .NonRetryable then pure (.error e)
      else do
        if attempt < policy.max_attempts.toNat then
          Runtime.sleep (policy.backoff_for attempt)
        retry_loop policy op left (attempt + 1) (some e)

/-- Returns the first success or the last error after `max_attempts`. -/
def with_retry (policy : RetryPolicy) (op : Async I (Except AdapterError T)) :
    Async I (Except AdapterError T) :=
  retry_loop policy op policy.max_attempts.toNat 1 none

/-- An operation that succeeds at once is not repeated. -/
theorem with_retry_of_ok {policy : RetryPolicy} (hattempts : 1 ≤ policy.max_attempts.toNat)
    {op : Async I (Except AdapterError T)} {trace : List (Exchange I)} {value : T}
    (hop : op.Returns trace (.ok value)) : (with_retry policy op).Returns trace (.ok value) := by
  obtain ⟨left, hleft⟩ := Nat.exists_eq_add_of_le' hattempts
  rw [with_retry, hleft, retry_loop, ← List.append_nil trace]
  exact hop.bind (.refl _)

/-- What is known of a result: `post` of a success, and `Failed` of an error. -/
def OnResult {W : Type} (Failed : W → AdapterError → Prop) (post : W → T → Prop) (world : W) :
    Except AdapterError T → Prop
  | .ok value => post world value
  | .error e => Failed world e

/-- What retrying ensures: a result is the result of one of the attempts. `V` is
    what the first attempt may rely on, and a failed one leaves in place. -/
theorem with_retry_ensures {W : Type} {env : Async.Environment I W} {asks : W → I.Request → Prop}
    {V : W → Prop} {F : W → AdapterError → Prop} {post : W → T → Prop} {policy : RetryPolicy}
    {op : Async I (Except AdapterError T)} (hvalid : ∀ world e, F world e → V world)
    (hmoves : ∀ world later e, F world e → env.moves world later → F later e)
    (hop : ∀ world, V world → Async.Ensures env asks (OnResult F post) op world)
    (hsleep : ∀ world duration e, F world e →
      Async.Ensures env asks (fun w _ => F w e) (Runtime.sleep duration) world)
    (hpanic : ∀ world message, V world →
      Async.Ensures env asks (OnResult F post) (Runtime.panic message) world)
    (world : W) (hworld : V world) :
    Async.Ensures env asks (OnResult F post) (with_retry policy op) world := by
  have hloop : ∀ left attempt last_err world, V world → (∀ e, last_err = some e → F world e) →
      Async.Ensures env asks (OnResult F post) (retry_loop policy op left attempt last_err) world := by
    intro left
    induction left with
    | zero =>
      intro attempt last_err world hworld hlast
      cases last_err with
      | none => exact hpanic world _ hworld
      | some e => exact .ret fun later hlater => hmoves world later e (hlast e rfl) hlater
    | succ left ih =>
      intro attempt last_err world hworld _
      refine (hop world hworld).bind ?_
      intro later result hresult
      cases result with
      | ok value => exact hresult
      | error e =>
        have hnext : ∀ last, F last e →
            Async.Ensures env asks (OnResult F post) (retry_loop policy op left (attempt + 1) (some e)) last := by
          intro last hfailed
          refine ih (attempt + 1) (some e) last (hvalid last e hfailed) ?_
          rintro _ ⟨⟩
          exact hfailed
        have hfailed : F later e := hresult later (env.moves_refl later)
        dsimp only
        split
        · exact hresult
        · split
          · refine (hsleep later _ e hfailed).bind ?_
            exact fun last _ hlast => hnext last (hlast last (env.moves_refl last))
          · exact hnext later hfailed
  refine hloop _ _ _ world hworld ?_
  rintro _ ⟨⟩

end

/-- The same of clients whose calls are recorded: only the requests themselves, the
    operation, and what a recorded sleep leaves in place need a look. -/
theorem with_retry_records {T : Type} {asks : List (Exchange Adapters) → AdapterCall → Prop}
    {V : List (Exchange Adapters) → Prop} {F : List (Exchange Adapters) → AdapterError → Prop}
    {post : List (Exchange Adapters) → T → Prop} {policy : RetryPolicy} {op : Async Adapters (Except AdapterError T)}
    (hvalid : ∀ calls e, F calls e → V calls)
    (hslept : ∀ calls e duration, F calls e → F (calls ++ [⟨AdapterCall.sleep duration, ()⟩]) e)
    (hsleep : ∀ calls duration, V calls → asks calls (.sleep duration))
    (hpanic : ∀ calls message, V calls → asks calls (.panic message))
    (hop : ∀ calls, V calls → Async.Ensures (Async.recording Adapters) asks (OnResult F post) op calls)
    (calls : List (Exchange Adapters)) (hcalls : V calls) :
    Async.Ensures (Async.recording Adapters) asks (OnResult F post) (with_retry policy op) calls := by
  refine with_retry_ensures hvalid ?_ hop ?_ ?_ calls hcalls
  · rintro before _ e hbefore rfl
    exact hbefore
  · intro before duration e hbefore
    refine .call ?_ ?_
    · rintro _ rfl
      exact hsleep before duration (hvalid before e hbefore)
    · rintro _ response _ _ rfl rfl rfl
      exact hslept before e duration hbefore
  · rintro before message hbefore _ rfl
    exact ⟨hpanic before message hbefore, fun response => Empty.elim response⟩

end document_indexing
