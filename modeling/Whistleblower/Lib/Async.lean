import Mathlib.Tactic.Common

/-- The questions a program may put to its surroundings, and what can come back
    for each of them. -/
structure Interface where
  Request : Type
  Response : Request → Type

/-- A program that runs until it awaits an answer, and resumes with it. -/
inductive Async (I : Interface) (A : Type) : Type where
  | ret (value : A)
  | ask (request : I.Request) (resume : I.Response request → Async I A)

/-- One question together with the answer it received. -/
structure Exchange (I : Interface) where
  request : I.Request
  response : I.Response request

namespace Async

protected def bind {I : Interface} {A B : Type} : Async I A → (A → Async I B) → Async I B
  | .ret value, next => next value
  | .ask request resume, next => .ask request fun response => (resume response).bind next

instance {I : Interface} : Monad (Async I) where
  pure := .ret
  bind := Async.bind

/-- Ask once and return the answer. -/
def call {I : Interface} (request : I.Request) : Async I (I.Response request) :=
  .ask request .ret

/-- Answer the pending question, if the exchange is an answer to it. -/
def resume? {I : Interface} [DecidableEq I.Request] {A : Type} :
    Async I A → Exchange I → Option (Async I A)
  | .ret _, _ => none
  | .ask request resume, exchange =>
    if h : exchange.request = request then some (resume (h ▸ exchange.response)) else none

/-- The program reaches `rest` after the listed exchanges, oldest first. -/
inductive Runs {I : Interface} {A : Type} : Async I A → List (Exchange I) → Async I A → Prop where
  | refl (program : Async I A) : Runs program [] program
  | step {request : I.Request} {resume : I.Response request → Async I A}
      (response : I.Response request) {trace : List (Exchange I)} {rest : Async I A}
      (tail : Runs (resume response) trace rest) :
      Runs (.ask request resume) (⟨request, response⟩ :: trace) rest

/-- The program returns `value` after the listed exchanges. -/
def Returns {I : Interface} {A : Type} (program : Async I A) (trace : List (Exchange I))
    (value : A) : Prop :=
  Runs program trace (.ret value)

theorem resume?_eq_some {I : Interface} [DecidableEq I.Request] {A : Type}
    {program rest : Async I A} {exchange : Exchange I}
    (hresume : program.resume? exchange = some rest) :
    ∃ next, program = .ask exchange.request next ∧ rest = next exchange.response := by
  cases program with
  | ret value => simp [resume?] at hresume
  | ask request next =>
    obtain ⟨actual, response⟩ := exchange
    simp only [resume?] at hresume
    split at hresume
    · rename_i heq
      subst heq
      cases hresume
      exact ⟨next, rfl, rfl⟩
    · cases hresume

theorem resume?_ask {I : Interface} [DecidableEq I.Request] {A : Type} {request : I.Request}
    (resume : I.Response request → Async I A) (response : I.Response request) :
    (Async.ask request resume).resume? ⟨request, response⟩ = some (resume response) := by
  simp [resume?]

theorem call_returns {I : Interface} (exchange : Exchange I) :
    (call exchange.request).Returns [exchange] exchange.response :=
  .step exchange.response (.refl _)

/-- The rest of a program runs once its beginning has returned. -/
theorem Returns.bind {I : Interface} {A B : Type} {program : Async I A} {next : A → Async I B}
    {rest : Async I B} {value : A} {first second : List (Exchange I)} (hreturns : Returns program first value)
    (hnext : Runs (next value) second rest) : Runs (program >>= next) (first ++ second) rest := by
  unfold Returns at hreturns
  generalize hend : Async.ret value = last at hreturns
  induction hreturns with
  | refl => cases hend; exact hnext
  | step response _ ih => exact .step response (ih hend)

theorem returns_ret_iff {I : Interface} {A : Type} {value result : A} {trace : List (Exchange I)} :
    (Async.ret value : Async I A).Returns trace result ↔ trace = [] ∧ result = value := by
  constructor
  · intro hreturns
    cases hreturns
    exact ⟨rfl, rfl⟩
  · rintro ⟨rfl, rfl⟩
    exact .refl _

theorem returns_ask_iff {I : Interface} {A : Type} {request : I.Request} {resume : I.Response request → Async I A}
    {result : A} {trace : List (Exchange I)} :
    (Async.ask request resume).Returns trace result ↔
      ∃ response rest, trace = ⟨request, response⟩ :: rest ∧ (resume response).Returns rest result := by
  constructor
  · intro hreturns
    cases hreturns with
    | step response tail => exact ⟨response, _, rfl, tail⟩
  · rintro ⟨response, rest, rfl, htail⟩
    exact .step response htail

theorem returns_call_iff {I : Interface} {request : I.Request} {response : I.Response request}
    {trace : List (Exchange I)} : (call request).Returns trace response ↔ trace = [⟨request, response⟩] := by
  rw [call, returns_ask_iff]
  constructor
  · rintro ⟨answer, rest, rfl, htail⟩
    obtain ⟨rfl, rfl⟩ := returns_ret_iff.mp htail
    rfl
  · rintro rfl
    exact ⟨response, [], rfl, .refl _⟩

/-- A sequence returns after what its beginning exchanges, followed by what the rest does. -/
theorem returns_bind_iff {I : Interface} {A B : Type} {program : Async I A} {next : A → Async I B} {result : B}
    {trace : List (Exchange I)} :
    (program >>= next).Returns trace result ↔ ∃ value first second, trace = first ++ second ∧
      program.Returns first value ∧ (next value).Returns second result := by
  constructor
  · intro hreturns
    induction program generalizing trace with
    | ret value => exact ⟨value, [], trace, rfl, .refl _, hreturns⟩
    | ask request resume ih =>
      obtain ⟨response, rest, rfl, htail⟩ := returns_ask_iff.mp hreturns
      obtain ⟨value, first, second, rfl, hfirst, hsecond⟩ := ih response htail
      exact ⟨value, ⟨request, response⟩ :: first, second, rfl, .step response hfirst, hsecond⟩
  · rintro ⟨value, first, second, rfl, hfirst, hsecond⟩
    exact hfirst.bind hsecond

/-- Every request the program can come to make satisfies `P`, whatever is answered. -/
def Asks {I : Interface} {A : Type} (P : I.Request → Prop) : Async I A → Prop
  | .ret _ => True
  | .ask request resume => P request ∧ ∀ response, Asks P (resume response)

theorem Asks.bind {I : Interface} {A B : Type} {P : I.Request → Prop} {program : Async I A} {next : A → Async I B}
    (hasks : Asks P program) (hnext : ∀ value, Asks P (next value)) : Asks P (program >>= next) := by
  induction program with
  | ret value => exact hnext value
  | ask request resume ih => exact ⟨hasks.1, fun response => ih response (hasks.2 response)⟩

theorem Asks.call {I : Interface} {P : I.Request → Prop} {request : I.Request} (hrequest : P request) :
    Asks P (Async.call request) := ⟨hrequest, fun _ => trivial⟩

theorem Asks.of_runs {I : Interface} {A : Type} {P : I.Request → Prop} {program rest : Async I A}
    {trace : List (Exchange I)} (hasks : Asks P program) (hruns : Runs program trace rest) : Asks P rest := by
  induction hruns with
  | refl => exact hasks
  | step response _ ih => exact ih (hasks.2 response)

/-- What the surroundings may do: move the world between two requests, and
    answer a request while changing the world with it. -/
structure Environment (I : Interface) (W : Type) where
  moves : W → W → Prop
  answers : W → (request : I.Request) → I.Response request → W → Prop
  moves_refl : ∀ world, moves world world
  moves_trans : ∀ first second third, moves first second → moves second third → moves first third

/-- From `world` on, whatever the environment does, every request the program
    makes satisfies `asks` in the world it is made in, and a returned value
    satisfies `post` in the world of its return and in all later ones. -/
def Ensures {I : Interface} {W A : Type} (env : Environment I W) (asks : W → I.Request → Prop)
    (post : W → A → Prop) : Async I A → W → Prop
  | .ret value, world => ∀ later, env.moves world later → post later value
  | .ask request resume, world => ∀ later, env.moves world later →
    asks later request ∧ ∀ response after, env.answers later request response after →
      Ensures env asks post (resume response) after

section Ensures

variable {I : Interface} {W A B : Type} {env : Environment I W} {asks : W → I.Request → Prop}

/-- What is ensured from a world is ensured from every world the environment
    can move it to. -/
theorem Ensures.moves {post : W → A → Prop} {program : Async I A} {world later : W}
    (hensures : Ensures env asks post program world) (hmoves : env.moves world later) :
    Ensures env asks post program later := by
  cases program with
  | ret value => exact fun last hlast => hensures last (env.moves_trans _ _ _ hmoves hlast)
  | ask request resume => exact fun last hlast => hensures last (env.moves_trans _ _ _ hmoves hlast)

theorem Ensures.mono {post weaker : W → A → Prop} (hpost : ∀ world value, post world value → weaker world value)
    {program : Async I A} {world : W} (hensures : Ensures env asks post program world) :
    Ensures env asks weaker program world := by
  induction program generalizing world with
  | ret value => exact fun later hlater => hpost later value (hensures later hlater)
  | ask request resume ih =>
    intro later hlater
    obtain ⟨hasks, hnext⟩ := hensures later hlater
    exact ⟨hasks, fun response after hafter => ih response (hnext response after hafter)⟩

/-- What a program asks may be told more loosely. -/
theorem Ensures.weaken {post : W → A → Prop} {looser : W → I.Request → Prop}
    (hasks : ∀ world request, asks world request → looser world request) {program : Async I A} {world : W}
    (hensures : Ensures env asks post program world) : Ensures env looser post program world := by
  induction program generalizing world with
  | ret value => exact hensures
  | ask request resume ih =>
    intro later hlater
    obtain ⟨hrequest, hnext⟩ := hensures later hlater
    exact ⟨hasks later request hrequest, fun response after hafter => ih response (hnext response after hafter)⟩

/-- Sequencing: the rest of the program may rely on what its beginning ensures,
    now and later. -/
theorem Ensures.bind {middle : W → A → Prop} {post : W → B → Prop} {program : Async I A}
    {next : A → Async I B} {world : W} (hensures : Ensures env asks middle program world)
    (hnext : ∀ later value, (∀ last, env.moves later last → middle last value) →
      Ensures env asks post (next value) later) :
    Ensures env asks post (program >>= next) world := by
  induction program generalizing world with
  | ret value => exact hnext world value hensures
  | ask request resume ih =>
    intro later hlater
    obtain ⟨hasks, hresume⟩ := hensures later hlater
    exact ⟨hasks, fun response after hafter => ih response (hresume response after hafter)⟩

/-- A fact that neither the environment's moves nor its answers destroy is still
    there when the program returns. -/
theorem Ensures.frame {K : W → Prop} {post : W → A → Prop}
    (hmoves : ∀ before after, K before → env.moves before after → K after)
    (hanswers : ∀ before request response after, K before →
      env.answers before request response after → K after)
    {program : Async I A} {world : W} (hkept : K world) (hensures : Ensures env asks post program world) :
    Ensures env asks (fun w value => K w ∧ post w value) program world := by
  induction program generalizing world with
  | ret value => exact fun later hlater => ⟨hmoves world later hkept hlater, hensures later hlater⟩
  | ask request resume ih =>
    intro later hlater
    obtain ⟨hasks, hnext⟩ := hensures later hlater
    refine ⟨hasks, fun response after hafter => ih response ?_ (hnext response after hafter)⟩
    exact hanswers later request response after (hmoves world later hkept hlater) hafter

theorem Ensures.ret {post : W → A → Prop} {value : A} {world : W}
    (hpost : ∀ later, env.moves world later → post later value) :
    Ensures env asks post (.ret value) world := hpost

theorem Ensures.call {request : I.Request} {post : W → I.Response request → Prop} {world : W}
    (hasks : ∀ later, env.moves world later → asks later request)
    (hpost : ∀ later response after last, env.moves world later →
      env.answers later request response after → env.moves after last → post last response) :
    Ensures env asks post (Async.call request) world := by
  intro later hlater
  refine ⟨hasks later hlater, ?_⟩
  intro response after hafter last hlast
  exact hpost later response after last hlater hafter hlast

/-- One answered request keeps the guarantee, in the world the answer leaves. -/
theorem Ensures.resume [DecidableEq I.Request] {post : W → A → Prop} {program rest : Async I A}
    {world after : W} {exchange : Exchange I} (hensures : Ensures env asks post program world)
    (hresume : program.resume? exchange = some rest)
    (hanswers : env.answers world exchange.request exchange.response after) :
    asks world exchange.request ∧ Ensures env asks post rest after := by
  obtain ⟨next, rfl, rfl⟩ := resume?_eq_some hresume
  obtain ⟨hasks, hnext⟩ := hensures world (env.moves_refl world)
  exact ⟨hasks, hnext exchange.response after hanswers⟩

/-- The environment answers the listed exchanges, oldest first, and takes one world to
    another with them. -/
inductive Answered (env : Environment I W) : W → List (Exchange I) → W → Prop where
  | nil {world later : W} (moved : env.moves world later) : Answered env world [] later
  | cons {world asked after last : W} {exchange : Exchange I} {trace : List (Exchange I)}
      (moved : env.moves world asked) (answered : env.answers asked exchange.request exchange.response after)
      (tail : Answered env after trace last) : Answered env world (exchange :: trace) last

/-- What is ensured holds of every return whose exchanges the environment answered. -/
theorem Ensures.answered {post : W → A → Prop} {program : Async I A} {world last : W} {trace : List (Exchange I)}
    {value : A} (hensures : Ensures env asks post program world) (hreturns : Returns program trace value)
    (hanswered : Answered env world trace last) : post last value := by
  induction program generalizing world trace with
  | ret result =>
    cases hreturns
    cases hanswered with
    | nil moved => exact hensures last moved
  | ask request resume ih =>
    cases hreturns with
    | step response tail =>
      cases hanswered with
      | cons moved answered rest =>
        obtain ⟨_, hnext⟩ := hensures _ moved
        exact ih response (hnext response _ answered) tail rest

/-- A program returns in an environment that has an answer to all it asks. -/
theorem Ensures.exists_returns {post : W → A → Prop}
    (htotal : ∀ world request, asks world request → ∃ response after, env.answers world request response after)
    {program : Async I A} {world : W} (hensures : Ensures env asks post program world) :
    ∃ trace value last, Returns program trace value ∧ Answered env world trace last := by
  induction program generalizing world with
  | ret value => exact ⟨[], value, world, .refl _, .nil (env.moves_refl world)⟩
  | ask request resume ih =>
    obtain ⟨hasks, hnext⟩ := hensures world (env.moves_refl world)
    obtain ⟨response, after, hanswers⟩ := htotal world request hasks
    obtain ⟨trace, value, last, hreturns, hanswered⟩ := ih response (hnext response after hanswers)
    exact ⟨⟨request, response⟩ :: trace, value, last, .step response hreturns,
      .cons (env.moves_refl world) hanswers hanswered⟩

end Ensures

/-- The environment whose world is the record of all exchanges so far: nothing
    else moves it, and any answer is possible. -/
def recording (I : Interface) : Environment I (List (Exchange I)) where
  moves := Eq
  answers := fun trace request response after => after = trace ++ [⟨request, response⟩]
  moves_refl := fun _ => rfl
  moves_trans := fun _ _ _ => Eq.trans

theorem Ensures.runs {I : Interface} {A : Type} {asks : List (Exchange I) → I.Request → Prop}
    {post : List (Exchange I) → A → Prop} {program rest : Async I A} {before trace : List (Exchange I)}
    (hensures : Ensures (recording I) asks post program before) (hruns : Runs program trace rest) :
    Ensures (recording I) asks post rest (before ++ trace) := by
  induction hruns generalizing before with
  | refl => simpa using hensures
  | step response _ ih =>
    obtain ⟨_, hnext⟩ := hensures before rfl
    simpa using ih (hnext response _ rfl)

/-- Every question of a run was one the program may ask, after the answers before it. -/
theorem Ensures.asked {I : Interface} {A : Type} {asks : List (Exchange I) → I.Request → Prop}
    {post : List (Exchange I) → A → Prop} {program rest : Async I A} {before trace : List (Exchange I)}
    (hensures : Ensures (recording I) asks post program before) (hruns : Runs program trace rest)
    {exchange : Exchange I} (hexchange : exchange ∈ trace) :
    ∃ front back, trace = front ++ exchange :: back ∧ asks (before ++ front) exchange.request := by
  induction hruns generalizing before with
  | refl => cases hexchange
  | @step request resume response trace rest _ ih =>
    obtain ⟨hasks, hnext⟩ := hensures before rfl
    rcases List.mem_cons.mp hexchange with rfl | hexchange
    · exact ⟨[], trace, rfl, by simpa using hasks⟩
    · obtain ⟨front, back, rfl, hlater⟩ := ih (hnext response _ rfl) hexchange
      exact ⟨⟨request, response⟩ :: front, back, rfl, by simpa using hlater⟩

/-- A guarantee about all traces holds of the trace of every return. -/
theorem Ensures.returns {I : Interface} {A : Type} {asks : List (Exchange I) → I.Request → Prop}
    {post : List (Exchange I) → A → Prop} {program : Async I A} {trace : List (Exchange I)} {value : A}
    (hensures : Ensures (recording I) asks post program []) (hreturns : Returns program trace value) :
    post trace value := by
  simpa using hensures.runs hreturns trace (by simp [recording])

end Async
