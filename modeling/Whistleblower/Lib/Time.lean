import Mathlib.Algebra.Group.Nat.Defs
import Mathlib.Tactic.Common

namespace u32

def MAX : UInt32 := 4294967295

def saturating_sub (self rhs : UInt32) : UInt32 := if rhs ≤ self then self - rhs else 0

def checked_mul (self rhs : UInt32) : Option UInt32 :=
  if self.toNat * rhs.toNat < 2 ^ 32 then some (self * rhs) else none

/-- The product of `acc` and a power of `base`, by repeated squaring. The exponent is
    not zero, and halved as many times as rounds are given it is. -/
def checked_pow_loop : Nat → UInt32 → UInt32 → UInt32 → Option UInt32
  | 0, _, _, _ => none
  | rounds + 1, base, exp, acc => do
    let acc ← if exp % 2 = 1 then checked_mul acc base else some acc
    if exp = 1 then some acc
    else checked_pow_loop rounds (← checked_mul base base) (exp / 2) acc

def checked_pow (self exp : UInt32) : Option UInt32 :=
  if exp = 0 then some 1 else checked_pow_loop 32 self exp 1

def saturating_pow (self exp : UInt32) : UInt32 := (checked_pow self exp).getD MAX

theorem toNat_saturating_sub (self rhs : UInt32) : (saturating_sub self rhs).toNat = self.toNat - rhs.toNat := by
  rw [saturating_sub]
  split
  · rename_i hle
    exact UInt32.toNat_sub_of_le self rhs hle
  · rename_i hlt
    rw [UInt32.le_iff_toNat_le] at hlt
    change 0 = _
    omega

theorem checked_mul_eq_some {self rhs product : UInt32} :
    checked_mul self rhs = some product ↔ product.toNat = self.toNat * rhs.toNat := by
  rw [checked_mul]
  split
  · rename_i hfits
    have hproduct : (self * rhs).toNat = self.toNat * rhs.toNat := by
      rw [UInt32.toNat_mul, Nat.mod_eq_of_lt hfits]
    rw [Option.some.injEq, ← hproduct, UInt32.toNat_inj]
    exact eq_comm
  · rename_i hfits
    have hproduct := product.toNat_lt
    constructor
    · rintro ⟨⟩
    · intro h
      omega

theorem checked_mul_eq_none {self rhs : UInt32} :
    checked_mul self rhs = none ↔ 2 ^ 32 ≤ self.toNat * rhs.toNat := by
  rw [checked_mul]
  split <;> simp <;> omega

/-- One round: the odd power goes to the accumulator, the rest has half the exponent. -/
theorem pow_round (base exp : Nat) : base ^ exp = base ^ (exp % 2) * (base * base) ^ (exp / 2) := by
  rw [← Nat.pow_two, ← Nat.pow_mul, ← Nat.pow_add]
  congr 1
  omega

/-- A checked product and what follows it give a product with another factor. Where the
    first product does not fit, the whole one does not fit either. -/
theorem checked_mul_bind {self rhs power : UInt32} {next : UInt32 → Option UInt32} {rest : Nat}
    (hrest : self.toNat * rhs.toNat ≠ 0 → rest ≠ 0)
    (hnext : ∀ product : UInt32, product.toNat = self.toNat * rhs.toNat →
      (next product = some power ↔ power.toNat = product.toNat * rest)) :
    (checked_mul self rhs).bind next = some power ↔ power.toNat = self.toNat * rhs.toNat * rest := by
  cases hproduct : checked_mul self rhs with
  | none =>
    have hlarge := checked_mul_eq_none.mp hproduct
    have hle := Nat.le_mul_of_pos_right (self.toNat * rhs.toNat) (Nat.pos_of_ne_zero (hrest (by omega)))
    have hpower := power.toNat_lt
    constructor
    · rintro ⟨⟩
    · intro h
      omega
  | some product =>
    have hvalue := checked_mul_eq_some.mp hproduct
    rw [Option.bind_some, hnext product hvalue, hvalue]

theorem checked_pow_loop_eq_some {rounds : Nat} {base exp acc power : UInt32} (hexp : exp.toNat ≠ 0)
    (hrounds : exp.toNat < 2 ^ rounds) (hacc : base.toNat ≠ 0 → acc.toNat ≠ 0) :
    checked_pow_loop rounds base exp acc = some power ↔ power.toNat = acc.toNat * base.toNat ^ exp.toNat := by
  induction rounds generalizing base exp acc with
  | zero => omega
  | succ rounds ih =>
    have hhalf : (exp / 2).toNat = exp.toNat / 2 := UInt32.toNat_div exp 2
    have hodd : exp % 2 = 1 ↔ exp.toNat % 2 = 1 := by
      rw [← UInt32.toNat_inj, UInt32.toNat_mod]
      rfl
    have hlast : exp = 1 ↔ exp.toNat = 1 := UInt32.toNat_inj.symm
    have hrest : ∀ acc' : UInt32, (base.toNat ≠ 0 → acc'.toNat ≠ 0) →
        ((if exp = 1 then some acc'
          else (checked_mul base base).bind fun square => checked_pow_loop rounds square (exp / 2) acc') =
            some power ↔ power.toNat = acc'.toNat * (base.toNat * base.toNat) ^ (exp.toNat / 2)) := by
      intro acc' hacc'
      by_cases hone : exp.toNat = 1
      · rw [if_pos (hlast.mpr hone), hone, Option.some.injEq, ← UInt32.toNat_inj, eq_comm]
        simp
      · rw [if_neg fun h => hone (hlast.mp h)]
        obtain ⟨half, hhalved⟩ := Nat.exists_eq_succ_of_ne_zero (show exp.toNat / 2 ≠ 0 by omega)
        rw [hhalved, Nat.pow_succ', Nat.mul_left_comm]
        apply checked_mul_bind
        · intro hsquare
          exact Nat.mul_ne_zero (hacc' (Nat.ne_zero_of_mul_ne_zero_left hsquare))
            (Nat.ne_of_gt (Nat.pow_pos (Nat.pos_of_ne_zero hsquare)))
        · intro square hsquare
          have hacc_square : square.toNat ≠ 0 → acc'.toNat ≠ 0 := by
            rw [hsquare]
            exact fun h => hacc' (Nat.ne_zero_of_mul_ne_zero_left h)
          rw [ih (by omega) (by omega) hacc_square, hsquare, hhalf, hhalved, Nat.pow_succ', Nat.mul_left_comm]
    rw [checked_pow_loop, pow_round]
    by_cases hparity : exp.toNat % 2 = 1
    · rw [if_pos (hodd.mpr hparity), hparity, Nat.pow_one, ← Nat.mul_assoc]
      apply checked_mul_bind
      · intro hproduct
        have hbase := Nat.pos_of_ne_zero (Nat.ne_zero_of_mul_ne_zero_right hproduct)
        exact Nat.ne_of_gt (Nat.pow_pos (Nat.mul_pos hbase hbase))
      · intro acc' hvalue
        apply hrest
        intro hbase
        rw [hvalue]
        exact Nat.mul_ne_zero (hacc hbase) hbase
    · rw [if_neg fun h => hparity (hodd.mp h), show exp.toNat % 2 = 0 by omega, Nat.pow_zero, Nat.one_mul]
      exact hrest acc hacc

/-- The power saturates exactly where it does not fit. -/
theorem toNat_saturating_pow (self exp : UInt32) :
    (saturating_pow self exp).toNat = min (self.toNat ^ exp.toNat) (2 ^ 32 - 1) := by
  have hpow : ∀ power, checked_pow self exp = some power ↔ power.toNat = self.toNat ^ exp.toNat := by
    intro power
    rw [checked_pow]
    by_cases hzero : exp.toNat = 0
    · rw [if_pos (UInt32.toNat_inj.mp hzero), hzero, Option.some.injEq, ← UInt32.toNat_inj, eq_comm]
      simp
    · have hexp : exp ≠ 0 := fun h => hzero (by rw [h]; rfl)
      rw [if_neg hexp, checked_pow_loop_eq_some hzero exp.toNat_lt (fun _ => by decide)]
      simp
  rw [saturating_pow]
  cases hchecked : checked_pow self exp with
  | some power =>
    have hvalue := (hpow power).mp hchecked
    have hlt := power.toNat_lt
    rw [Option.getD_some, hvalue]
    omega
  | none =>
    have hlarge : ¬ self.toNat ^ exp.toNat < 2 ^ 32 := by
      intro hfits
      have hsome := (hpow (UInt32.ofNat (self.toNat ^ exp.toNat))).mpr (UInt32.toNat_ofNat_of_lt' hfits)
      rw [hchecked] at hsome
      cases hsome
    rw [Option.getD_none, Nat.min_eq_right (by omega)]
    rfl

end u32

namespace u64

/-- A product that panics if it overflows. -/
def mul (self rhs : UInt64) : Except String UInt64 :=
  if self.toNat * rhs.toNat < 2 ^ 64 then .ok (self * rhs) else .error "attempt to multiply with overflow"

def checked_mul (self rhs : UInt64) : Option UInt64 :=
  if self.toNat * rhs.toNat < 2 ^ 64 then some (self * rhs) else none

def checked_add (self rhs : UInt64) : Option UInt64 :=
  if self.toNat + rhs.toNat < 2 ^ 64 then some (self + rhs) else none

theorem mul_of_lt (self rhs : UInt64) (hfits : self.toNat * rhs.toNat < 2 ^ 64) :
    ∃ product, mul self rhs = .ok product ∧ product.toNat = self.toNat * rhs.toNat := by
  refine ⟨self * rhs, if_pos hfits, ?_⟩
  rw [UInt64.toNat_mul, Nat.mod_eq_of_lt hfits]

theorem checked_mul_cases (self rhs : UInt64) :
    (checked_mul self rhs = none ∧ 2 ^ 64 ≤ self.toNat * rhs.toNat) ∨
      ∃ product, checked_mul self rhs = some product ∧ product.toNat = self.toNat * rhs.toNat := by
  by_cases hfits : self.toNat * rhs.toNat < 2 ^ 64
  · refine .inr ⟨self * rhs, if_pos hfits, ?_⟩
    rw [UInt64.toNat_mul, Nat.mod_eq_of_lt hfits]
  · exact .inl ⟨if_neg hfits, by omega⟩

theorem checked_add_cases (self rhs : UInt64) :
    (checked_add self rhs = none ∧ 2 ^ 64 ≤ self.toNat + rhs.toNat) ∨
      ∃ total, checked_add self rhs = some total ∧ total.toNat = self.toNat + rhs.toNat := by
  by_cases hfits : self.toNat + rhs.toNat < 2 ^ 64
  · refine .inr ⟨self + rhs, if_pos hfits, ?_⟩
    rw [UInt64.toNat_add, Nat.mod_eq_of_lt hfits]
  · exact .inl ⟨if_neg hfits, by omega⟩

end u64

namespace time

/-- A span of time in seconds, and nanoseconds of a further second. -/
structure Duration where
  secs : UInt64
  nanos : UInt32
  nanos_lt : nanos.toNat < 1000000000
  deriving DecidableEq

namespace Duration

def MAX : Duration := { secs := 18446744073709551615, nanos := 999999999, nanos_lt := by decide }

def as_nanos (self : Duration) : Nat := self.secs.toNat * 1000000000 + self.nanos.toNat

/-- Whole seconds among the nanoseconds are carried over. -/
def new (secs : UInt64) (nanos : UInt32) : Except String Duration :=
  if hnanos : nanos.toNat < 1000000000 then .ok { secs, nanos, nanos_lt := hnanos }
  else
    match u64.checked_add secs (nanos / 1000000000).toUInt64 with
    | none => .error "overflow in Duration::new"
    | some secs => .ok { secs, nanos := nanos % 1000000000, nanos_lt := Nat.mod_lt _ (by decide) }

def checked_mul (self : Duration) (rhs : UInt32) : Except String (Option Duration) := do
  let total_nanos ← u64.mul self.nanos.toUInt64 rhs.toUInt64
  let extra_secs := total_nanos / 1000000000
  let nanos := (total_nanos % 1000000000).toUInt32
  match u64.checked_mul self.secs rhs.toUInt64 with
  | none => .ok none
  | some s =>
    match u64.checked_add s extra_secs with
    | none => .ok none
    | some secs => (new secs nanos).map some

def saturating_mul (self : Duration) (rhs : UInt32) : Except String Duration :=
  (self.checked_mul rhs).map fun product => product.getD MAX

/-- The order of the fields, seconds first. -/
def lt (self other : Duration) : Prop :=
  self.secs < other.secs ∨ self.secs = other.secs ∧ self.nanos < other.nanos

instance (self other : Duration) : Decidable (self.lt other) :=
  inferInstanceAs (Decidable (_ ∨ _ ∧ _))

def min (self other : Duration) : Duration := if other.lt self then other else self

theorem as_nanos_le_max (self : Duration) : self.as_nanos ≤ MAX.as_nanos := by
  have hsecs := self.secs.toNat_lt
  have hnanos := self.nanos_lt
  change self.secs.toNat * 1000000000 + self.nanos.toNat ≤ 18446744073709551615 * 1000000000 + 999999999
  omega

theorem lt_iff (self other : Duration) : self.lt other ↔ self.as_nanos < other.as_nanos := by
  have hself := self.nanos_lt
  have hother := other.nanos_lt
  rw [lt, UInt64.lt_iff_toNat_lt, ← UInt64.toNat_inj, UInt32.lt_iff_toNat_lt, as_nanos, as_nanos]
  omega

theorem as_nanos_min (self other : Duration) : (self.min other).as_nanos = Min.min self.as_nanos other.as_nanos := by
  rw [min]
  split
  · rename_i hlt
    rw [lt_iff] at hlt
    omega
  · rename_i hle
    rw [lt_iff] at hle
    omega

theorem new_of_lt (secs : UInt64) {nanos : UInt32} (hnanos : nanos.toNat < 1000000000) :
    new secs nanos = .ok { secs, nanos, nanos_lt := hnanos } := dif_pos hnanos

/-- The carried product, in nanoseconds. -/
theorem as_nanos_mul (self : Duration) (rhs : Nat) :
    self.as_nanos * rhs = (self.secs.toNat * rhs + self.nanos.toNat * rhs / 1000000000) * 1000000000 +
      self.nanos.toNat * rhs % 1000000000 := by
  rw [as_nanos, Nat.add_mul, Nat.add_mul, Nat.mul_right_comm]
  omega

/-- No step of the product panics, and there is none exactly where it does not fit. -/
theorem checked_mul_cases (self : Duration) (rhs : UInt32) :
    (self.checked_mul rhs = .ok none ∧ MAX.as_nanos < self.as_nanos * rhs.toNat) ∨
      ∃ product, self.checked_mul rhs = .ok (some product) ∧ product.as_nanos = self.as_nanos * rhs.toNat := by
  have hmax : MAX.as_nanos < 2 ^ 64 * 1000000000 := by decide
  have hsmall : self.nanos.toNat * rhs.toNat < 2 ^ 64 := by
    have hnanos := self.nanos_lt
    have hrhs := rhs.toNat_lt
    exact Nat.lt_of_le_of_lt (Nat.mul_le_mul (Nat.le_of_lt hnanos) (Nat.le_of_lt hrhs)) (by decide)
  obtain ⟨total_nanos, htotal, hvalue⟩ := u64.mul_of_lt self.nanos.toUInt64 rhs.toUInt64 hsmall
  change total_nanos.toNat = self.nanos.toNat * rhs.toNat at hvalue
  have hextra : (total_nanos / 1000000000).toNat = total_nanos.toNat / 1000000000 := UInt64.toNat_div _ _
  have hnanos : (total_nanos % 1000000000).toUInt32.toNat = total_nanos.toNat % 1000000000 := by
    have hmod : (total_nanos % 1000000000).toNat = total_nanos.toNat % 1000000000 := UInt64.toNat_mod _ _
    rw [UInt64.toNat_toUInt32, hmod]
    omega
  have hcarried : (total_nanos % 1000000000).toUInt32.toNat < 1000000000 := by omega
  have hnew := fun secs => new_of_lt secs hcarried
  rw [as_nanos_mul, ← hvalue, checked_mul, htotal]
  simp only [bind, Except.bind]
  obtain ⟨hsecs, hlarge⟩ | ⟨s, hsecs, hproduct⟩ := u64.checked_mul_cases self.secs rhs.toUInt64
  · refine .inl ⟨by rw [hsecs], ?_⟩
    change 2 ^ 64 ≤ self.secs.toNat * rhs.toNat at hlarge
    omega
  · change s.toNat = self.secs.toNat * rhs.toNat at hproduct
    rw [hsecs, ← hproduct, ← hextra, ← hnanos]
    dsimp only
    obtain ⟨hadd, hlarge⟩ | ⟨secs, hadd, htotal_secs⟩ := u64.checked_add_cases s (total_nanos / 1000000000)
    · refine .inl ⟨by rw [hadd], ?_⟩
      omega
    · refine .inr ⟨_, by rw [hadd]; exact congrArg (Except.map some) (hnew secs), ?_⟩
      rw [as_nanos, htotal_secs]

/-- The product saturates exactly where it does not fit. -/
theorem saturating_mul_eq (self : Duration) (rhs : UInt32) :
    ∃ product, self.saturating_mul rhs = .ok product ∧
      product.as_nanos = Min.min (self.as_nanos * rhs.toNat) MAX.as_nanos := by
  obtain ⟨hchecked, hlarge⟩ | ⟨product, hchecked, hvalue⟩ := self.checked_mul_cases rhs
  · refine ⟨MAX, by rw [saturating_mul, hchecked]; rfl, ?_⟩
    rw [Nat.min_eq_right (Nat.le_of_lt hlarge)]
  · refine ⟨product, by rw [saturating_mul, hchecked]; rfl, ?_⟩
    rw [← hvalue, Nat.min_eq_left product.as_nanos_le_max]

end Duration

end time
