import Mathlib.Data.Nat.Init
import Whistleblower.Lib.Transition

namespace transition

variable {S A : Type} {step : S → A → Option S}

/-- The state after the first turns of an endless schedule. A disabled action passes its turn. -/
def follow (step : S → A → Option S) (schedule : Nat → A) (initial : S) : Nat → S
  | 0 => initial
  | time + 1 =>
    (step (follow step schedule initial time) (schedule time)).getD (follow step schedule initial time)

/-- Weak fairness: an action that stays enabled from some time on is taken later. -/
def Fair (step : S → A → Option S) (schedule : Nat → A) (initial : S) (action : A) : Prop :=
  ∀ start, (∀ time, start ≤ time → (step (follow step schedule initial time) action).isSome) →
    ∃ time, start ≤ time ∧ schedule time = action

variable {schedule : Nat → A} {initial : S}

theorem follow_succ (step : S → A → Option S) (schedule : Nat → A) (initial : S) (time : Nat) :
    follow step schedule initial (time + 1) = follow step schedule initial time ∨
      step (follow step schedule initial time) (schedule time) = some (follow step schedule initial (time + 1)) := by
  cases hstep : step (follow step schedule initial time) (schedule time) with
  | none => exact .inl (by rw [follow, hstep, Option.getD_none])
  | some next => exact .inr (by rw [follow, hstep, Option.getD_some])

/-- A predicate kept by every allowed step holds all along an allowed schedule. -/
theorem follow_preserves {Allowed : A → Prop} {P : S → Prop}
    (hstep : ∀ state action next, Allowed action → P state → step state action = some next → P next)
    (hallowed : ∀ time, Allowed (schedule time)) (hinitial : P initial) (time : Nat) :
    P (follow step schedule initial time) := by
  induction time with
  | zero => exact hinitial
  | succ time ih =>
    obtain hsame | hnext := follow_succ step schedule initial time
    · rwa [hsame]
    · exact hstep _ _ _ (hallowed time) ih hnext

/-- What an allowed schedule has followed so far is an allowed run. -/
theorem run_of_follow {Allowed : A → Prop} (hallowed : ∀ time, Allowed (schedule time)) (time : Nat) :
    ∃ actions, run step initial actions = some (follow step schedule initial time) ∧
      ∀ action ∈ actions, Allowed action := by
  induction time with
  | zero => exact ⟨[], rfl, fun action haction => by cases haction⟩
  | succ time ih =>
    obtain ⟨actions, hrun, hactions⟩ := ih
    obtain hsame | hnext := follow_succ step schedule initial time
    · exact ⟨actions, by rw [hsame, hrun], hactions⟩
    · refine ⟨actions ++ [schedule time], ?_, ?_⟩
      · rw [run_append_eq_some]
        exact ⟨_, hrun, run_cons_eq_some.mpr ⟨_, hnext, rfl⟩⟩
      · intro action haction
        obtain haction | haction := List.mem_append.mp haction
        · exact hactions action haction
        · rw [List.mem_singleton.mp haction]
          exact hallowed time

/-- What follows from some time on is what the rest of the schedule leads to from there. -/
theorem follow_add (step : S → A → Option S) (schedule : Nat → A) (initial : S) (start time : Nat) :
    follow step schedule initial (start + time) =
      follow step (fun later => schedule (start + later)) (follow step schedule initial start) time := by
  induction time with
  | zero => rfl
  | succ time ih => rw [← Nat.add_assoc, follow, follow, ih]

/-- The rest of a fair schedule is fair. -/
theorem Fair.later {action : A} (hfair : Fair step schedule initial action) (start : Nat) :
    Fair step (fun time => schedule (start + time)) (follow step schedule initial start) action := by
  intro since henabled
  obtain ⟨time, htime, htaken⟩ := hfair (start + since) (by
    intro time htime
    obtain ⟨passed, rfl⟩ := Nat.exists_eq_add_of_le (show start ≤ time by omega)
    rw [follow_add]
    exact henabled passed (by omega))
  obtain ⟨passed, rfl⟩ := Nat.exists_eq_add_of_le (show start ≤ time by omega)
  exact ⟨passed, by omega, htaken⟩

/-- A ranking argument: in every state that is not done some task can be taken, which lowers
    the rank, and whatever else is taken lowers the rank or leaves the tasks enabled. -/
structure Ranked (step : S → A → Option S) (Allowed Task : A → Prop) (P Done : S → Prop) (rank : S → Nat) : Prop where
  kept : ∀ state action next, Allowed action → P state → step state action = some next → P next
  progress : ∀ state, P state → ¬ Done state → ∃ task, Task task ∧ (step state task).isSome
  lowers : ∀ state task next, Task task → P state → step state task = some next → rank next < rank state
  undisturbed : ∀ state action next, Allowed action → P state → step state action = some next →
    rank next < rank state ∨
      (rank next = rank state ∧ ∀ task, Task task → (step state task).isSome → (step next task).isSome)

variable {Allowed Task : A → Prop} {P Done : S → Prop} {rank : S → Nat}

/-- While a task is enabled and the rank does not fall, both stay. -/
theorem Ranked.stays (hranked : Ranked step Allowed Task P Done rank) (hallowed : ∀ time, Allowed (schedule time))
    (hinitial : P initial) {start : Nat}
    (hnever : ∀ time, start ≤ time →
      ¬ rank (follow step schedule initial time) < rank (follow step schedule initial start))
    {task : A} (htask : Task task) (henabled : (step (follow step schedule initial start) task).isSome)
    {time : Nat} (htime : start ≤ time) :
    rank (follow step schedule initial time) = rank (follow step schedule initial start) ∧
      (step (follow step schedule initial time) task).isSome := by
  induction time, htime using Nat.le_induction with
  | base => exact ⟨rfl, henabled⟩
  | succ time htime ih =>
    obtain ⟨hrank, hstill⟩ := ih
    have hfollowed := follow_preserves hranked.kept hallowed hinitial time
    obtain hsame | hnext := follow_succ step schedule initial time
    · rw [hsame]
      exact ⟨hrank, hstill⟩
    · obtain hlower | ⟨hequal, hkept⟩ := hranked.undisturbed _ _ _ (hallowed time) hfollowed hnext
      · exact absurd (hrank ▸ hlower) (hnever (time + 1) (by omega))
      · exact ⟨hequal.trans hrank, hkept task htask hstill⟩

/-- Unless it is done, a fair schedule lowers the rank sooner or later. -/
theorem Ranked.falls (hranked : Ranked step Allowed Task P Done rank) (hallowed : ∀ time, Allowed (schedule time))
    (hfair : ∀ task, Task task → Fair step schedule initial task) (hinitial : P initial) {start : Nat}
    (hdone : ¬ Done (follow step schedule initial start)) :
    ∃ time, start ≤ time ∧ rank (follow step schedule initial time) < rank (follow step schedule initial start) := by
  by_contra hnone
  have hnever : ∀ time, start ≤ time →
      ¬ rank (follow step schedule initial time) < rank (follow step schedule initial start) :=
    fun time htime hlower => hnone ⟨time, htime, hlower⟩
  have hheld := follow_preserves hranked.kept hallowed hinitial
  obtain ⟨task, htask, henabled⟩ := hranked.progress _ (hheld start) hdone
  have hstays : ∀ time, start ≤ time →
      rank (follow step schedule initial time) = rank (follow step schedule initial start) ∧
        (step (follow step schedule initial time) task).isSome :=
    fun time htime => hranked.stays hallowed hinitial hnever htask henabled htime
  obtain ⟨time, htime, htaken⟩ := hfair task htask start fun time htime => (hstays time htime).2
  obtain ⟨hrank, hstill⟩ := hstays time htime
  obtain ⟨next, hnext⟩ := Option.isSome_iff_exists.mp hstill
  have hlower := hranked.lowers _ task next htask (hheld time) hnext
  have hfollowed : follow step schedule initial (time + 1) = next := by
    rw [follow, htaken, hnext, Option.getD_some]
  have hlast := hnever (time + 1) (by omega)
  rw [hfollowed] at hlast
  omega

/-- A fair schedule is done at some time. -/
theorem Ranked.eventually (hranked : Ranked step Allowed Task P Done rank)
    (hallowed : ∀ time, Allowed (schedule time)) (hfair : ∀ task, Task task → Fair step schedule initial task)
    (hinitial : P initial) : ∃ time, Done (follow step schedule initial time) := by
  by_contra hnone
  have hnever : ∀ time, ¬ Done (follow step schedule initial time) := fun time hdone => hnone ⟨time, hdone⟩
  have hbelow : ∀ bound time, rank (follow step schedule initial time) ≠ bound := by
    intro bound
    induction bound using Nat.strongRecOn with
    | ind bound ih =>
      rintro time rfl
      obtain ⟨later, _, hlower⟩ := hranked.falls hallowed hfair hinitial (hnever time)
      exact ih _ hlower later rfl
  exact hbelow _ 0 rfl

/-- The same from a later time on. -/
theorem Ranked.eventually_from (hranked : Ranked step Allowed Task P Done rank)
    (hallowed : ∀ time, Allowed (schedule time)) (hfair : ∀ task, Task task → Fair step schedule initial task)
    {start : Nat} (hstart : P (follow step schedule initial start)) :
    ∃ time, Done (follow step schedule initial (start + time)) := by
  obtain ⟨time, hdone⟩ := hranked.eventually (fun time => hallowed (start + time))
    (fun task htask => (hfair task htask).later start) hstart
  exact ⟨time, by rwa [follow_add]⟩

end transition
