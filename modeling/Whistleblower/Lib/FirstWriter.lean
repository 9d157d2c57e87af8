import Mathlib.Data.Finset.Card
import Mathlib.Tactic.Common

namespace first_writer

variable {K V : Type} [DecidableEq K]

/-- Write a key unless it has a value already. -/
def claim (store : K → Option V) (key : K) (value : V) : K → Option V :=
  if (store key).isSome then store else Function.update store key (some value)

/-- Claim a list of keys, first to last. -/
def claim_all (store : K → Option V) (writes : List (K × V)) : K → Option V :=
  writes.foldl (fun current write => claim current write.1 write.2) store

/-- The value of the first write of a key. -/
def first_write (writes : List (K × V)) (key : K) : Option V :=
  (writes.find? fun write => write.1 = key).map Prod.snd

/-- Every value of the old store is kept. -/
def Extends (old new : K → Option V) : Prop := ∀ key value, old key = some value → new key = some value

omit [DecidableEq K] in
theorem Extends.refl (store : K → Option V) : Extends store store := fun _ _ h => h

omit [DecidableEq K] in
theorem Extends.trans {first second third : K → Option V} (hfirst : Extends first second)
    (hsecond : Extends second third) : Extends first third :=
  fun key value h => hsecond key value (hfirst key value h)

omit [DecidableEq K] in
/-- Values that were all found under their keys are found there later. -/
theorem Extends.map_some {old new : K → Option V} (hextends : Extends old new) {keys : List K}
    {values : List V} (hfound : values.map some = keys.map old) : values.map some = keys.map new := by
  induction keys generalizing values with
  | nil => exact hfound
  | cons key rest ih =>
    cases values with
    | nil => cases hfound
    | cons value others =>
      rw [List.map_cons, List.map_cons, List.cons.injEq] at hfound ⊢
      exact ⟨(hextends key value hfound.1.symm).symm, ih hfound.2⟩

theorem claim_apply (store : K → Option V) (key : K) (value : V) (other : K) :
    claim store key value other = (store other).or (if key = other then some value else none) := by
  unfold claim
  by_cases hkey : key = other
  · subst hkey
    cases hstored : store key <;> simp [hstored]
  · cases hstored : store key with
    | none => simp [Function.update_of_ne (Ne.symm hkey), hkey]
    | some present => simp [hkey]

theorem claim_of_isSome {store : K → Option V} {key : K} (hstored : (store key).isSome) (value : V) :
    claim store key value = store := by
  rw [claim, if_pos hstored]

@[simp] theorem claim_all_nil (store : K → Option V) : claim_all store [] = store := rfl

@[simp] theorem claim_all_cons (store : K → Option V) (write : K × V) (rest : List (K × V)) :
    claim_all store (write :: rest) = claim_all (claim store write.1 write.2) rest := rfl

theorem claim_all_append (store : K → Option V) (first second : List (K × V)) :
    claim_all store (first ++ second) = claim_all (claim_all store first) second := by
  rw [claim_all, List.foldl_append]
  rfl

@[simp] theorem first_write_nil (key : K) : first_write ([] : List (K × V)) key = none := rfl

theorem first_write_cons (write : K × V) (rest : List (K × V)) (key : K) :
    first_write (write :: rest) key = if write.1 = key then some write.2 else first_write rest key := by
  by_cases hkey : write.1 = key <;> simp [first_write, hkey]

/-- After a list of claims a key has the value it had, or else that of its first
    write. -/
theorem claim_all_apply (store : K → Option V) (writes : List (K × V)) (key : K) :
    claim_all store writes key = (store key).or (first_write writes key) := by
  induction writes generalizing store with
  | nil => simp
  | cons write rest ih =>
    rw [claim_all_cons, ih, claim_apply, first_write_cons, Option.or_assoc]
    by_cases hkey : write.1 = key <;> simp [hkey]

theorem extends_claim_all (store : K → Option V) (writes : List (K × V)) :
    Extends store (claim_all store writes) := by
  intro key value hstored
  rw [claim_all_apply, hstored, Option.some_or]

/-- Claiming keys that all have values changes nothing. -/
theorem claim_all_of_isSome {store : K → Option V} {writes : List (K × V)}
    (hstored : ∀ write ∈ writes, (store write.1).isSome) : claim_all store writes = store := by
  induction writes with
  | nil => rfl
  | cons write rest ih =>
    rw [claim_all_cons, claim_of_isSome (hstored write List.mem_cons_self)]
    exact ih fun other hother => hstored other (List.mem_cons_of_mem write hother)

theorem isSome_claim_all {store : K → Option V} {writes : List (K × V)} {write : K × V} (hwrite : write ∈ writes) :
    (claim_all store writes write.1).isSome := by
  have hfirst : (first_write writes write.1).isSome := by
    rw [first_write, Option.isSome_map, List.find?_isSome]
    exact ⟨write, hwrite, by simp⟩
  rw [claim_all_apply, Option.isSome_or, hfirst, Bool.or_true]

theorem first_write_append (first second : List (K × V)) (key : K) :
    first_write (first ++ second) key = (first_write first key).or (first_write second key) := by
  rw [first_write, List.find?_append, Option.map_or]
  rfl

theorem first_write_eq_none {writes : List (K × V)} {key : K} (habsent : ∀ write ∈ writes, write.1 ≠ key) :
    first_write writes key = none := by
  rw [first_write, Option.map_eq_none_iff, List.find?_eq_none]
  intro write hwrite
  simpa using habsent write hwrite

theorem first_write_mem {writes : List (K × V)} {key : K} {value : V}
    (hfirst : first_write writes key = some value) : (key, value) ∈ writes := by
  obtain ⟨write, hfind, rfl⟩ := Option.map_eq_some_iff.mp hfirst
  have hkey := List.find?_some hfind
  have hmem := List.mem_of_find?_eq_some hfind
  rw [decide_eq_true_eq] at hkey
  rwa [← hkey]

theorem isSome_first_write {writes : List (K × V)} {key : K} :
    (first_write writes key).isSome ↔ key ∈ writes.map Prod.fst := by
  rw [first_write, Option.isSome_map, List.find?_isSome]
  simp

theorem first_write_map {W : Type} (f : V → W) (writes : List (K × V)) (key : K) :
    first_write (writes.map fun write => (write.1, f write.2)) key = (first_write writes key).map f := by
  induction writes with
  | nil => rfl
  | cons write rest ih =>
    rw [List.map_cons, first_write_cons, first_write_cons, ih]
    split <;> rfl

/-- Among different keys the first write of a key is its last one. -/
theorem first_write_reverse {writes : List (K × V)} (hnodup : (writes.map Prod.fst).Nodup) (key : K) :
    first_write writes.reverse key = first_write writes key := by
  induction writes with
  | nil => rfl
  | cons write rest ih =>
    obtain ⟨habsent, hrest⟩ := List.nodup_cons.mp hnodup
    rw [List.reverse_cons, first_write_append, ih hrest, first_write_cons write [], first_write_cons write rest]
    by_cases hkey : write.1 = key
    · have hnone : first_write rest key = none :=
        first_write_eq_none fun other hother h => habsent (hkey ▸ h ▸ List.mem_map_of_mem hother)
      rw [if_pos hkey, if_pos hkey, hnone, Option.none_or]
    · rw [if_neg hkey, if_neg hkey, first_write_nil, Option.or_none]

/-- Lists of claims on different keys may be made in either order. -/
theorem claim_all_comm (store : K → Option V) {first second : List (K × V)}
    (hdisjoint : ∀ write ∈ first, ∀ other ∈ second, write.1 ≠ other.1) :
    claim_all (claim_all store first) second = claim_all (claim_all store second) first := by
  funext key
  simp only [claim_all_apply, Option.or_assoc]
  by_cases hfirst : ∃ write ∈ first, write.1 = key
  · obtain ⟨write, hwrite, rfl⟩ := hfirst
    rw [first_write_eq_none fun other hother => (hdisjoint write hwrite other hother).symm]
    simp
  · push Not at hfirst
    rw [first_write_eq_none hfirst]
    simp

/-- The keys of a list that have no value yet. -/
def fresh (store : K → Option V) (keys : List K) : Finset K := keys.toFinset.filter fun key => store key = none

theorem mem_fresh {store : K → Option V} {keys : List K} {key : K} :
    key ∈ fresh store keys ↔ key ∈ keys ∧ store key = none := by
  rw [fresh, Finset.mem_filter, List.mem_toFinset]

theorem fresh_cons_of_isSome {store : K → Option V} {key : K} (hstored : (store key).isSome) (rest : List K) :
    fresh store (key :: rest) = fresh store rest := by
  ext other
  rw [mem_fresh, mem_fresh, List.mem_cons]
  constructor
  · rintro ⟨rfl | hother, hnone⟩
    · rw [hnone] at hstored
      cases hstored
    · exact ⟨hother, hnone⟩
  · rintro ⟨hother, hnone⟩
    exact ⟨Or.inr hother, hnone⟩

/-- Claiming the first of some keys leaves one fresh key less, repeats of it included. -/
theorem card_fresh_cons {store : K → Option V} {key : K} (hnone : store key = none) (value : V) (rest : List K) :
    (fresh store (key :: rest)).card = (fresh (claim store key value) rest).card + 1 := by
  have hclaimed : claim store key value key = some value := by
    rw [claim_apply, hnone, if_pos rfl, Option.none_or]
  have hnew : key ∉ fresh (claim store key value) rest := by
    rw [mem_fresh, hclaimed]
    rintro ⟨_, ⟨⟩⟩
  have hinsert : fresh store (key :: rest) = insert key (fresh (claim store key value) rest) := by
    ext other
    rw [Finset.mem_insert, mem_fresh, mem_fresh, List.mem_cons, claim_apply]
    by_cases hkey : key = other
    · subst hkey
      simp [hnone]
    · simp [hkey, Ne.symm hkey]
  rw [hinsert, Finset.card_insert_of_notMem hnew]

end first_writer
