import Mathlib.Data.List.Nodup
import Mathlib.Tactic.Common

namespace correlation

/-- Those who wait for a reply, each under a number that no one had before. -/
structure Table (W : Type) where
  next_id : Nat
  pending : List (Nat × W)

namespace Table

variable {W K : Type}

def empty : Table W := { next_id := 0, pending := [] }

/-- The number under which the next one waits. -/
def fresh (self : Table W) : Nat := self.next_id + 1

def issue (self : Table W) (waiting : W) : Table W where
  next_id := self.fresh
  pending := self.pending ++ [(self.fresh, waiting)]

/-- Who waits under a name that is made of its number. -/
def find? [DecidableEq K] (self : Table W) (name : Nat → K) (key : K) : Option (Nat × W) :=
  self.pending.find? fun entry => name entry.1 = key

def remove (self : Table W) (id : Nat) : Table W :=
  { self with pending := self.pending.filter fun entry => entry.1 ≠ id }

/-- Who was given a number, and which numbers were replied to, in order. -/
structure Kept (table : Table W) (issued : List (Nat × W)) (replied : List Nat) : Prop where
  ids : issued.map Prod.fst = List.range' 1 table.next_id
  pending (id : Nat) (waiting : W) : (id, waiting) ∈ table.pending ↔ (id, waiting) ∈ issued ∧ id ∉ replied
  once : replied.Nodup
  known : ∀ id ∈ replied, ∃ waiting, (id, waiting) ∈ issued

theorem kept_empty : (empty : Table W).Kept [] [] :=
  ⟨rfl, fun _ _ => by simp [empty], List.nodup_nil, fun _ hid => nomatch hid⟩

namespace Kept

variable {self : Table W} {issued : List (Nat × W)} {replied : List Nat}

theorem nodup (hkept : self.Kept issued replied) : (issued.map Prod.fst).Nodup :=
  hkept.ids ▸ List.nodup_range'

/-- A number belongs to one only. -/
theorem unique (hkept : self.Kept issued replied) {id : Nat} {first second : W} (hfirst : (id, first) ∈ issued)
    (hsecond : (id, second) ∈ issued) : first = second :=
  congrArg Prod.snd (List.inj_on_of_nodup_map hkept.nodup hfirst hsecond rfl)

theorem id_le (hkept : self.Kept issued replied) {id : Nat} {waiting : W} (hissued : (id, waiting) ∈ issued) :
    id ≤ self.next_id := by
  have hid : id ∈ List.range' 1 self.next_id := hkept.ids ▸ List.mem_map_of_mem hissued
  rw [List.mem_range'_1] at hid
  omega

theorem issue (hkept : self.Kept issued replied) (waiting : W) :
    (self.issue waiting).Kept (issued ++ [(self.fresh, waiting)]) replied := by
  have hfresh : self.fresh ∉ replied := by
    intro hreplied
    obtain ⟨other, hother⟩ := hkept.known _ hreplied
    have := hkept.id_le hother
    rw [fresh] at this
    omega
  refine ⟨?ids, ?pending, hkept.once, ?known⟩
  case ids => simp [Table.issue, fresh, hkept.ids, List.range'_1_concat, Nat.add_comm]
  case pending =>
    intro id other
    rw [Table.issue, List.mem_append, List.mem_append, hkept.pending, List.mem_singleton]
    constructor
    · rintro (⟨hissued, hopen⟩ | hnew)
      · exact ⟨.inl hissued, hopen⟩
      · cases hnew
        exact ⟨.inr rfl, hfresh⟩
    · rintro ⟨hissued | hnew, hopen⟩
      · exact .inl ⟨hissued, hopen⟩
      · exact .inr hnew
  case known =>
    intro id hid
    obtain ⟨other, hother⟩ := hkept.known id hid
    exact ⟨other, List.mem_append_left _ hother⟩

/-- One who waits is replied to, and waits no more. -/
theorem remove (hkept : self.Kept issued replied) {id : Nat} {waiting : W} (hpending : (id, waiting) ∈ self.pending) :
    (self.remove id).Kept issued (replied ++ [id]) := by
  obtain ⟨hissued, hopen⟩ := (hkept.pending id waiting).mp hpending
  refine ⟨hkept.ids, ?pending, ?once, ?known⟩
  case pending =>
    intro other holder
    rw [Table.remove, List.mem_filter, hkept.pending, List.mem_append, List.mem_singleton, decide_eq_true_eq, not_or,
      and_assoc]
  case once => exact List.nodup_append.mpr ⟨hkept.once, List.nodup_singleton id, by
    rintro other hother _ hid rfl
    exact hopen (List.mem_singleton.mp hid ▸ hother)⟩
  case known =>
    intro other hother
    obtain hother | hother := List.mem_append.mp hother
    · exact hkept.known other hother
    · exact ⟨waiting, List.mem_singleton.mp hother ▸ hissued⟩

/-- The names under which someone waits are those that were given and not replied to. -/
theorem mem_names_iff (hkept : self.Kept issued replied) (name : Nat → K) {key : K} :
    key ∈ self.pending.map (fun entry => name entry.1) ↔
      ∃ id waiting, key = name id ∧ (id, waiting) ∈ issued ∧ id ∉ replied := by
  rw [List.mem_map]
  constructor
  · rintro ⟨⟨id, waiting⟩, hentry, rfl⟩
    exact ⟨id, waiting, rfl, (hkept.pending id waiting).mp hentry⟩
  · rintro ⟨id, waiting, rfl, hopen⟩
    exact ⟨(id, waiting), (hkept.pending id waiting).mpr hopen, rfl⟩

end Kept

/-- The one who is found waits, under that name. -/
theorem mem_of_find? [DecidableEq K] {self : Table W} {name : Nat → K} {key : K} {id : Nat} {waiting : W}
    (hfound : self.find? name key = some (id, waiting)) : (id, waiting) ∈ self.pending ∧ name id = key :=
  have hname := List.find?_some hfound
  ⟨List.mem_of_find?_eq_some hfound, of_decide_eq_true hname⟩

end Table

end correlation
