import Mathlib
import Whistleblower.Lib.Async

namespace Async

variable {I : Interface} {A B : Type} {price : I.Request → Nat}

/-- The price of all that was asked. -/
def cost (price : I.Request → Nat) (trace : List (Exchange I)) : Nat :=
  (trace.map fun exchange => price exchange.request).sum

@[simp] theorem cost_nil : cost price [] = 0 := rfl

@[simp] theorem cost_cons (exchange : Exchange I) (trace : List (Exchange I)) :
    cost price (exchange :: trace) = price exchange.request + cost price trace := rfl

@[simp] theorem cost_append (front back : List (Exchange I)) :
    cost price (front ++ back) = cost price front + cost price back := by
  simp [cost]

/-- With so many credits the program pays for all that it asks, whatever is answered, and
    has as many left at its end as its result is to leave. -/
def Affords (price : I.Request → Nat) (left : A → Nat) : Async I A → Nat → Prop
  | .ret value, credits => left value ≤ credits
  | .ask request resume, credits =>
    price request ≤ credits ∧ ∀ response, Affords price left (resume response) (credits - price request)

namespace Affords

theorem mono {left fewer : A → Nat} (hfewer : ∀ value, fewer value ≤ left value) {program : Async I A}
    {credits more : Nat} (hmore : credits ≤ more) (haffords : Affords price left program credits) :
    Affords price fewer program more := by
  induction program generalizing credits more with
  | ret value => exact Nat.le_trans (hfewer value) (Nat.le_trans haffords hmore)
  | ask request resume ih =>
    obtain ⟨hprice, hnext⟩ := haffords
    exact ⟨Nat.le_trans hprice hmore, fun response => ih response (Nat.sub_le_sub_right hmore _) (hnext response)⟩

theorem ret {left : A → Nat} {value : A} {credits : Nat} (hleft : left value ≤ credits) :
    Affords price left (.ret value) credits := hleft

/-- More credits are left if more are there. -/
theorem frame {left : A → Nat} {program : Async I A} {credits : Nat} (haffords : Affords price left program credits)
    (extra : Nat) : Affords price (fun value => left value + extra) program (credits + extra) := by
  induction program generalizing credits with
  | ret value => exact Nat.add_le_add_right haffords extra
  | ask request resume ih =>
    obtain ⟨hprice, hnext⟩ := haffords
    refine ⟨by omega, fun response => ?_⟩
    have hsplit : credits + extra - price request = credits - price request + extra := by omega
    rw [hsplit]
    exact ih response (hnext response)

/-- The rest of a program pays with what its beginning leaves. -/
theorem bind {left : A → Nat} {last : B → Nat} {program : Async I A} {next : A → Async I B} {credits : Nat}
    (haffords : Affords price left program credits) (hnext : ∀ value, Affords price last (next value) (left value)) :
    Affords price last (program >>= next) credits := by
  induction program generalizing credits with
  | ret value => exact (hnext value).mono (fun _ => Nat.le_refl _) haffords
  | ask request resume ih => exact ⟨haffords.1, fun response => ih response (haffords.2 response)⟩

/-- A question is paid for first. -/
theorem call_bind {last : B → Nat} {request : I.Request} {next : I.Response request → Async I B} {credits rest : Nat}
    (hcredits : price request + rest ≤ credits) (hnext : ∀ response, Affords price last (next response) rest) :
    Affords price last (Async.call request >>= next) credits := by
  refine ⟨by omega, fun response => (hnext response).mono (fun _ => Nat.le_refl _) ?_⟩
  omega

theorem runs {left : A → Nat} {program rest : Async I A} {trace : List (Exchange I)} {credits : Nat}
    (haffords : Affords price left program credits) (hruns : Runs program trace rest) :
    cost price trace ≤ credits ∧ Affords price left rest (credits - cost price trace) := by
  induction hruns generalizing credits with
  | refl => exact ⟨Nat.zero_le _, haffords⟩
  | step response _ ih =>
    obtain ⟨hprice, hnext⟩ := haffords
    obtain ⟨hcost, hrest⟩ := ih (hnext response)
    rw [cost_cons]
    refine ⟨by dsimp only; omega, ?_⟩
    rwa [Nat.sub_add_eq]

end Affords

/-- The fewest credits that are enough. -/
noncomputable def worst (price : I.Request → Nat) (program : Async I A) : Nat :=
  sInf {credits | Affords price (fun _ => 0) program credits}

theorem worst_le {program : Async I A} {credits : Nat} (haffords : Affords price (fun _ => 0) program credits) :
    worst price program ≤ credits := Nat.sInf_le haffords

theorem affords_worst {program : Async I A} {credits : Nat} (haffords : Affords price (fun _ => 0) program credits) :
    Affords price (fun _ => 0) program (worst price program) :=
  Nat.sInf_mem (s := {credits | Affords price (fun _ => 0) program credits}) ⟨credits, haffords⟩

/-- An answer leaves a program that needs fewer, by the price of the question. -/
theorem worst_resume {request : I.Request} {resume : I.Response request → Async I A} {credits : Nat}
    (haffords : Affords price (fun _ => 0) (.ask request resume) credits) (response : I.Response request) :
    price request + worst price (resume response) ≤ worst price (.ask request resume) := by
  obtain ⟨hprice, hnext⟩ := affords_worst haffords
  have hrest := worst_le (hnext response)
  omega

end Async
