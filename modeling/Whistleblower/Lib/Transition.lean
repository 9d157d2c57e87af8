import Mathlib.Tactic.Common

namespace transition

/-- Follow a schedule of actions, oldest first. A disabled action has no
    successor, and then neither does the whole schedule. -/
def run {S A : Type} (step : S → A → Option S) : S → List A → Option S
  | state, [] => some state
  | state, action :: rest => (step state action).bind fun next => run step next rest

theorem run_cons_eq_some {S A : Type} {step : S → A → Option S} {state last : S}
    {action : A} {rest : List A} :
    run step state (action :: rest) = some last ↔
      ∃ next, step state action = some next ∧ run step next rest = some last := by
  simp only [run, Option.bind_eq_some_iff]

theorem run_append_eq_some {S A : Type} {step : S → A → Option S} {state last : S} {front back : List A} :
    run step state (front ++ back) = some last ↔
      ∃ middle, run step state front = some middle ∧ run step middle back = some last := by
  induction front generalizing state with
  | nil => simp [run]
  | cons action rest ih =>
    simp only [List.cons_append, run_cons_eq_some, ih]
    constructor
    · rintro ⟨next, hnext, middle, hmiddle, hlast⟩
      exact ⟨middle, ⟨next, hnext, hmiddle⟩, hlast⟩
    · rintro ⟨middle, ⟨next, hnext, hmiddle⟩, hlast⟩
      exact ⟨next, hnext, middle, hmiddle, hlast⟩

/-- Every action of the schedule is taken in a state where `C` holds. -/
def Along {S A : Type} (step : S → A → Option S) (C : S → A → Prop) : S → List A → Prop
  | _, [] => True
  | state, action :: rest =>
    C state action ∧ ∀ next, step state action = some next → Along step C next rest

/-- A schedule whose condition can be checked at every step can be checked. -/
instance Along.decide {S A : Type} (step : S → A → Option S) (C : S → A → Prop)
    [∀ state action, Decidable (C state action)] :
    ∀ (state : S) (actions : List A), Decidable (Along step C state actions)
  | _, [] => .isTrue trivial
  | state, action :: rest =>
    match hstep : step state action with
    | none => decidable_of_iff (C state action) (by simp [Along, hstep])
    | some next =>
      have := Along.decide step C next rest
      decidable_of_iff (C state action ∧ Along step C next rest) (by simp [Along, hstep])

theorem Along.of_forall {S A : Type} {step : S → A → Option S} {C : S → A → Prop} {actions : List A}
    (hall : ∀ action ∈ actions, ∀ state, C state action) (state : S) : Along step C state actions := by
  induction actions generalizing state with
  | nil => trivial
  | cons action rest ih =>
    refine ⟨hall action List.mem_cons_self state, fun next _ => ih ?_ next⟩
    exact fun other hother => hall other (List.mem_cons_of_mem action hother)

/-- A condition holds along a schedule if it does at each place of it that is reached. -/
theorem along_iff_forall {S A : Type} {step : S → A → Option S} {C : S → A → Prop} {state : S} {actions : List A} :
    Along step C state actions ↔ ∀ front action back middle, actions = front ++ action :: back →
      run step state front = some middle → C middle action := by
  induction actions generalizing state with
  | nil =>
    refine ⟨fun _ front action back middle hsplit => ?_, fun _ => trivial⟩
    cases front <;> cases hsplit
  | cons first rest ih =>
    constructor
    · rintro ⟨hfirst, hrest⟩ front action back middle hsplit hfront
      cases front with
      | nil =>
        cases hsplit
        cases hfront
        exact hfirst
      | cons other front =>
        cases hsplit
        obtain ⟨next, hnext, hmiddle⟩ := run_cons_eq_some.mp hfront
        exact ih.mp (hrest next hnext) front action back middle rfl hmiddle
    · intro hall
      refine ⟨hall [] first rest state rfl rfl, fun next hnext => ih.mpr ?_⟩
      rintro front action back middle rfl hmiddle
      exact hall (first :: front) action back middle rfl (run_cons_eq_some.mpr ⟨next, hnext, hmiddle⟩)

/-- Conditions that say the same wherever an invariant holds say the same along a
    schedule. -/
theorem along_congr {S A : Type} {step : S → A → Option S} {P : S → Prop} {C D : S → A → Prop}
    (hstep : ∀ state action next, P state → step state action = some next → P next)
    (hsame : ∀ state action, P state → (C state action ↔ D state action)) {state : S} (hinitial : P state)
    (actions : List A) : Along step C state actions ↔ Along step D state actions := by
  induction actions generalizing state with
  | nil => exact Iff.rfl
  | cons action rest ih =>
    have hrest (next : S) (hnext : step state action = some next) :
        Along step C next rest ↔ Along step D next rest := ih (hstep state action next hinitial hnext)
    constructor
    · rintro ⟨hfirst, htail⟩
      exact ⟨(hsame state action hinitial).mp hfirst, fun next hnext => (hrest next hnext).mp (htail next hnext)⟩
    · rintro ⟨hfirst, htail⟩
      exact ⟨(hsame state action hinitial).mpr hfirst, fun next hnext => (hrest next hnext).mpr (htail next hnext)⟩

/-- A predicate kept by every allowed step is kept by every run whose steps
    are all allowed. -/
theorem run_preserves_along {S A : Type} {step : S → A → Option S} {C : S → A → Prop}
    {P : S → Prop}
    (hstep : ∀ state action next, C state action → P state →
      step state action = some next → P next)
    {state last : S} {actions : List A} (halong : Along step C state actions)
    (hinitial : P state) (hrun : run step state actions = some last) :
    P last := by
  induction actions generalizing state with
  | nil =>
    cases hrun
    exact hinitial
  | cons action rest ih =>
    obtain ⟨next, hnext, hrest⟩ := run_cons_eq_some.mp hrun
    obtain ⟨hallowed, htail⟩ := halong
    exact ih (htail next hnext) (hstep state action next hallowed hinitial hnext) hrest

/-- A predicate kept by every step is kept by every run. -/
theorem run_preserves {S A : Type} {step : S → A → Option S} {P : S → Prop}
    (hstep : ∀ state action next, P state → step state action = some next → P next)
    {state last : S} {actions : List A} (hinitial : P state)
    (hrun : run step state actions = some last) : P last :=
  run_preserves_along (C := fun _ _ => True)
    (fun state action next _ => hstep state action next)
    (Along.of_forall (fun _ _ _ => trivial) state) hinitial hrun

/-- A predicate that is never regained, and that a step keeps exactly where `C` holds,
    holds at the end of a run exactly if `C` held all along. -/
theorem along_iff {S A : Type} {step : S → A → Option S} {C : S → A → Prop} {P : S → Prop}
    (hback : ∀ state action next, step state action = some next → P next → P state)
    (hkept : ∀ state action next, step state action = some next → P state → (C state action ↔ P next))
    {state last : S} {actions : List A} (hinitial : P state) (hrun : run step state actions = some last) :
    Along step C state actions ↔ P last := by
  induction actions generalizing state with
  | nil =>
    cases hrun
    exact ⟨fun _ => hinitial, fun _ => trivial⟩
  | cons action rest ih =>
    obtain ⟨next, hnext, hrest⟩ := run_cons_eq_some.mp hrun
    have hiff := hkept state action next hnext hinitial
    constructor
    · rintro ⟨hallowed, htail⟩
      exact (ih (hiff.mp hallowed) hrest).mp (htail next hnext)
    · intro hlast
      have hregained : P next := by
        by_contra hlost
        exact run_preserves (P := fun state => ¬P state)
          (fun state action next hlost hstep h => hlost (hback state action next hstep h)) hlost hrest hlast
      refine ⟨hiff.mpr hregained, ?_⟩
      intro other hother
      rw [hnext] at hother
      cases hother
      exact (ih hregained hrest).mpr hlast

/-- A predicate that a step keeps exactly where `C` holds, holds in every state that a run
    reaches exactly if `C` holds all along. An invariant may be used. -/
theorem along_iff_reached {S A : Type} {step : S → A → Option S} {C : S → A → Prop} {I P : S → Prop}
    (hinv : ∀ state action next, I state → step state action = some next → I next)
    (hkept : ∀ state action next, step state action = some next → I state → P state → (C state action ↔ P next))
    {state last : S} {actions : List A} (hstart : I state) (hinitial : P state)
    (hrun : run step state actions = some last) :
    Along step C state actions ↔
      ∀ front back middle, actions = front ++ back → run step state front = some middle → P middle := by
  induction actions generalizing state with
  | nil =>
    refine ⟨fun _ front back middle hsplit hfront => ?_, fun _ => trivial⟩
    obtain ⟨rfl, _⟩ := List.append_eq_nil_iff.mp hsplit.symm
    cases hfront
    exact hinitial
  | cons action rest ih =>
    obtain ⟨next, hnext, hrest⟩ := run_cons_eq_some.mp hrun
    have hiff := hkept state action next hnext hstart hinitial
    have hstarts := hinv state action next hstart hnext
    constructor
    · rintro ⟨hallowed, htail⟩ front back middle hsplit hfront
      cases front with
      | nil =>
        cases hfront
        exact hinitial
      | cons first front =>
        cases hsplit
        obtain ⟨after, hafter, hmiddle⟩ := run_cons_eq_some.mp hfront
        rw [hnext] at hafter
        cases hafter
        exact (ih hstarts (hiff.mp hallowed) hrest).mp (htail next hnext) front back middle rfl hmiddle
    · intro hreached
      have hkeeps : P next := hreached [action] rest next rfl (run_cons_eq_some.mpr ⟨next, hnext, rfl⟩)
      refine ⟨hiff.mpr hkeeps, ?_⟩
      intro other hother
      rw [hnext] at hother
      cases hother
      refine (ih hstarts hkeeps hrest).mpr ?_
      rintro front back middle rfl hfront
      exact hreached (action :: front) back middle rfl (run_cons_eq_some.mpr ⟨next, hnext, hfront⟩)

/-- A reflexive, transitive relation that holds across every step holds across
    every run. -/
theorem run_relates {S A : Type} {step : S → A → Option S} {Related : S → S → Prop}
    (hrefl : ∀ state, Related state state)
    (htrans : ∀ first second third, Related first second → Related second third → Related first third)
    (hstep : ∀ state action next, step state action = some next → Related state next)
    {state last : S} {actions : List A} (hrun : run step state actions = some last) :
    Related state last :=
  run_preserves (P := Related state)
    (fun middle action next hmiddle hnext =>
      htrans state middle next hmiddle (hstep middle action next hnext))
    (hrefl state) hrun

end transition
