import Mathlib.Data.List.Find
import Mathlib.Data.Set.Card
import Whistleblower.Core.Registry

namespace whistleblower_core

namespace RegistryState

open first_writer

variable [Sha256]

/-- Apply a sequence of instructions, first to last. -/
def apply_all (self : RegistryState) (instructions : List RegistryInstruction) : RegistryState :=
  instructions.foldl (fun state instruction => (state.apply instruction).2) self

@[simp] theorem apply_all_cons (self : RegistryState) (instruction : RegistryInstruction)
    (rest : List RegistryInstruction) :
    self.apply_all (instruction :: rest) = (self.apply instruction).2.apply_all rest := rfl

theorem apply_all_append (self : RegistryState) (first second : List RegistryInstruction) :
    self.apply_all (first ++ second) = (self.apply_all first).apply_all second := by
  rw [apply_all, List.foldl_append]
  rfl

theorem entries_apply (self : RegistryState) (instruction : RegistryInstruction) :
    (self.apply instruction).2.entries = claim_all self.entries instruction.writes := by
  obtain ⟨outcome, happly⟩ := self.apply_eq instruction
  rw [happly]

/-- A sequence of instructions claims what its instructions would write, in order. -/
theorem entries_apply_all (self : RegistryState) (instructions : List RegistryInstruction) :
    (self.apply_all instructions).entries =
      claim_all self.entries (instructions.flatMap RegistryInstruction.writes) := by
  induction instructions generalizing self with
  | nil => rfl
  | cons instruction rest ih =>
    rw [apply_all_cons, ih, entries_apply, List.flatMap_cons, claim_all_append]

theorem writes_flatMap (instructions : List RegistryInstruction) :
    instructions.flatMap RegistryInstruction.writes =
      (instructions.flatMap RegistryInstruction.new_entries).map fun entry => (entry.cid_hash, entry) := by
  rw [List.map_flatMap]
  rfl

theorem cid_hash_of_mem_flatMap {instructions : List RegistryInstruction} {entry : AnchorEntry}
    (hentry : entry ∈ instructions.flatMap RegistryInstruction.new_entries) :
    cid_hash entry.cid = entry.cid_hash := by
  obtain ⟨instruction, _, hnew⟩ := List.mem_flatMap.mp hentry
  exact RegistryInstruction.cid_hash_of_mem_new_entries hnew

/-- The first write of a hash is the first entry whose CID has that hash. -/
theorem first_write_flatMap (instructions : List RegistryInstruction) (hash : CidHash) :
    first_write (instructions.flatMap RegistryInstruction.writes) hash =
      (instructions.flatMap RegistryInstruction.new_entries).find? fun entry => cid_hash entry.cid = hash := by
  have hcongr : ((instructions.flatMap RegistryInstruction.new_entries).find? fun entry => entry.cid_hash = hash) =
      (instructions.flatMap RegistryInstruction.new_entries).find? fun entry => cid_hash entry.cid = hash :=
    List.find?_congr fun entry hentry => by rw [cid_hash_of_mem_flatMap hentry]
  rw [writes_flatMap, first_write, List.find?_map, Option.map_map, ← hcongr]
  exact Option.map_id'

/-- A hash has the entry it had, or else the first of the new entries for it. -/
theorem query_apply_all (self : RegistryState) (instructions : List RegistryInstruction) (hash : CidHash) :
    (self.apply_all instructions).query_by_cid_hash hash =
      .ok ((self.entries hash).or
        ((instructions.flatMap RegistryInstruction.new_entries).find? fun entry => cid_hash entry.cid = hash)) := by
  rw [query_by_cid_hash, entries_apply_all, claim_all_apply, first_write_flatMap]

/-- Every entry stands under its own hash, which is that of its CID. -/
def Keyed (self : RegistryState) : Prop :=
  ∀ hash entry, self.entries hash = some entry → entry.cid_hash = hash ∧ cid_hash entry.cid = hash

theorem Keyed.apply_all {self : RegistryState} (hkeyed : self.Keyed) (instructions : List RegistryInstruction) :
    (self.apply_all instructions).Keyed := by
  intro hash entry hentry
  rw [entries_apply_all, claim_all_apply, Option.or_eq_some_iff] at hentry
  obtain hstored | ⟨_, hwritten⟩ := hentry
  · exact hkeyed hash entry hstored
  · rw [first_write_flatMap] at hwritten
    have hhash := List.find?_some hwritten
    rw [decide_eq_true_eq] at hhash
    rw [← cid_hash_of_mem_flatMap (List.mem_of_find?_eq_some hwritten)]
    exact ⟨hhash, hhash⟩

theorem keyed_default : default.Keyed := by
  intro hash entry hentry
  cases hentry

/-- Nothing but the flattened sequence of new entries tells what instructions do. -/
theorem apply_all_congr (self : RegistryState) {first second : List RegistryInstruction}
    (hentries : first.flatMap RegistryInstruction.new_entries = second.flatMap RegistryInstruction.new_entries) :
    self.apply_all first = self.apply_all second := by
  apply RegistryState.ext
  rw [entries_apply_all, entries_apply_all, writes_flatMap, writes_flatMap, hentries]

theorem mem_cids_of_mem_writes {instruction : RegistryInstruction} {write : CidHash × AnchorEntry}
    (hwrite : write ∈ instruction.writes) : ∃ cid ∈ instruction.cids, cid_hash cid = write.1 := by
  obtain ⟨entry, hentry, rfl⟩ := List.mem_map.mp hwrite
  refine ⟨entry.cid, ?_, RegistryInstruction.cid_hash_of_mem_new_entries hentry⟩
  rw [← RegistryInstruction.map_cid_new_entries]
  exact List.mem_map_of_mem hentry

theorem mem_writes_of_mem_cids {instruction : RegistryInstruction} {cid : CanonicalCid}
    (hcid : cid ∈ instruction.cids) : ∃ entry, (cid_hash cid, entry) ∈ instruction.writes := by
  rw [← RegistryInstruction.map_cid_new_entries] at hcid
  obtain ⟨entry, hentry, rfl⟩ := List.mem_map.mp hcid
  rw [RegistryInstruction.cid_hash_of_mem_new_entries hentry]
  exact ⟨entry, List.mem_map_of_mem hentry⟩

/-- Every CID that was named in a sequence has an entry after it. -/
theorem isSome_apply_all (self : RegistryState) {instructions : List RegistryInstruction} {cid : CanonicalCid}
    (hcid : cid ∈ instructions.flatMap RegistryInstruction.cids) :
    ((self.apply_all instructions).entries (cid_hash cid)).isSome := by
  obtain ⟨instruction, hinstruction, hnamed⟩ := List.mem_flatMap.mp hcid
  obtain ⟨entry, hentry⟩ := mem_writes_of_mem_cids hnamed
  rw [entries_apply_all]
  exact isSome_claim_all (List.mem_flatMap.mpr ⟨instruction, hinstruction, hentry⟩)

/-- Instructions whose CIDs all have entries change nothing. -/
theorem apply_all_of_isSome {self : RegistryState} {instructions : List RegistryInstruction}
    (hstored : ∀ cid ∈ instructions.flatMap RegistryInstruction.cids, (self.entries (cid_hash cid)).isSome) :
    self.apply_all instructions = self := by
  apply RegistryState.ext
  rw [entries_apply_all]
  apply claim_all_of_isSome
  intro write hwrite
  obtain ⟨instruction, hinstruction, hin⟩ := List.mem_flatMap.mp hwrite
  obtain ⟨cid, hcid, hhash⟩ := mem_cids_of_mem_writes hin
  rw [← hhash]
  exact hstored cid (List.mem_flatMap.mpr ⟨instruction, hinstruction, hcid⟩)

/-- Instructions that share no hash may be applied in either order. -/
theorem apply_all_comm (self : RegistryState) {first second : List RegistryInstruction}
    (hdisjoint : ∀ cid ∈ first.flatMap RegistryInstruction.cids,
      ∀ other ∈ second.flatMap RegistryInstruction.cids, cid_hash cid ≠ cid_hash other) :
    self.apply_all (first ++ second) = self.apply_all (second ++ first) := by
  apply RegistryState.ext
  simp only [apply_all_append, entries_apply_all]
  apply claim_all_comm
  intro write hwrite other hother
  obtain ⟨instruction, hinstruction, hin⟩ := List.mem_flatMap.mp hwrite
  obtain ⟨instruction', hinstruction', hin'⟩ := List.mem_flatMap.mp hother
  obtain ⟨cid, hcid, hhash⟩ := mem_cids_of_mem_writes hin
  obtain ⟨cid', hcid', hhash'⟩ := mem_cids_of_mem_writes hin'
  rw [← hhash, ← hhash']
  exact hdisjoint cid (List.mem_flatMap.mpr ⟨instruction, hinstruction, hcid⟩)
    cid' (List.mem_flatMap.mpr ⟨instruction', hinstruction', hcid'⟩)

/-- Over whole runs the registry is a map whose first writer wins: a query finds the
    initial entry, or else that of the first pair for the hash under the timestamp of
    its instruction. Hence cutting the pairs into other batches, submitting anchored
    pairs again, and exchanging instructions with no hash in common change nothing. -/
theorem registry_first_writer_wins :
    (∀ (initial : RegistryState) (instructions : List RegistryInstruction) (hash : CidHash),
      (initial.apply_all instructions).query_by_cid_hash hash =
        .ok ((initial.entries hash).or
          ((instructions.flatMap RegistryInstruction.new_entries).find? fun entry => cid_hash entry.cid = hash))) ∧
    (∀ (instructions : List RegistryInstruction) (hash : CidHash) (entry : AnchorEntry),
      (default.apply_all instructions).entries hash = some entry →
      entry.cid_hash = hash ∧ cid_hash entry.cid = hash) ∧
    (∀ (initial : RegistryState) (cuts others : List (List (CanonicalCid × MetadataHash)))
      (anchor_timestamp : UInt64), cuts.flatten = others.flatten →
      initial.apply_all (cuts.map (RegistryInstruction.AnchorBatch · anchor_timestamp)) =
        initial.apply_all (others.map (RegistryInstruction.AnchorBatch · anchor_timestamp))) ∧
    (∀ (initial : RegistryState) (first second : List RegistryInstruction),
      first.flatMap RegistryInstruction.new_entries = second.flatMap RegistryInstruction.new_entries →
      initial.apply_all first = initial.apply_all second) ∧
    (∀ (initial : RegistryState) (instructions again : List RegistryInstruction),
      (∀ cid ∈ again.flatMap RegistryInstruction.cids,
        cid ∈ instructions.flatMap RegistryInstruction.cids ∨
          ((initial.apply_all instructions).entries (cid_hash cid)).isSome) →
      initial.apply_all (instructions ++ again) = initial.apply_all instructions) ∧
    (∀ (initial : RegistryState) (first second : List RegistryInstruction),
      (∀ cid ∈ first.flatMap RegistryInstruction.cids,
        ∀ other ∈ second.flatMap RegistryInstruction.cids, cid_hash cid ≠ cid_hash other) →
      initial.apply_all (first ++ second) = initial.apply_all (second ++ first)) := by
  refine ⟨query_apply_all, ?keyed, ?cut, fun initial _ _ => initial.apply_all_congr, ?again,
    fun initial _ _ => initial.apply_all_comm⟩
  case keyed =>
    intro instructions hash entry hentry
    exact keyed_default.apply_all instructions hash entry hentry
  case cut =>
    intro initial cuts others anchor_timestamp hflatten
    have hpairs : ∀ cuts : List (List (CanonicalCid × MetadataHash)),
        (cuts.map (RegistryInstruction.AnchorBatch · anchor_timestamp)).flatMap RegistryInstruction.new_entries =
          cuts.flatten.map fun entry => new_entry entry.1 entry.2 anchor_timestamp := by
      intro cuts
      rw [List.flatMap_map, List.map_flatten, List.flatMap_def]
      rfl
    apply apply_all_congr
    rw [hpairs, hpairs, hflatten]
  case again =>
    intro initial instructions again hstored
    rw [apply_all_append]
    apply apply_all_of_isSome
    intro cid hcid
    obtain hnamed | hentry := hstored cid hcid
    · exact initial.isSome_apply_all hnamed
    · exact hentry

/-- The hashes that have an entry. -/
def keys (self : RegistryState) : Set CidHash := {hash | (self.entries hash).isSome}

/-- The hashes of a batch. -/
def hashes (entries : List (CanonicalCid × MetadataHash)) : List CidHash := entries.map fun entry => cid_hash entry.1

/-- What the loop over a batch has collected when it ends: an entry for each pair, that
    of its hash by then, and a pair counted as inserted for each hash without one before. -/
theorem anchor_batch_loop_outcome (anchor_timestamp : UInt64) (entries : List (CanonicalCid × MetadataHash))
    (collected : AnchorBatchOutcome) (self : RegistryState) :
    ∃ outcome after found, anchor_batch_loop anchor_timestamp entries collected self = (.ok outcome, after) ∧
      after.entries = claim_all self.entries (RegistryInstruction.AnchorBatch entries anchor_timestamp).writes ∧
      outcome.entries = collected.entries ++ found ∧
      found.map some = (hashes entries).map after.entries ∧
      outcome.inserted = collected.inserted + (fresh self.entries (hashes entries)).card ∧
      outcome.inserted + outcome.skipped_existing =
        collected.inserted + collected.skipped_existing + entries.length := by
  induction entries generalizing collected self with
  | nil => exact ⟨collected, self, [], rfl, rfl, (List.append_nil _).symm, rfl, rfl, rfl⟩
  | cons entry rest ih =>
    obtain ⟨cid, metadata_hash⟩ := entry
    rw [anchor_batch_loop, anchor_one_eq]
    obtain ⟨outcome, after, found, hloop, hafter, hfound, hquery, hinserted, htotal⟩ := ih _ _
    refine ⟨outcome, after,
      (self.entries (cid_hash cid)).getD (new_entry cid metadata_hash anchor_timestamp) :: found,
      hloop, hafter, ?entries, ?query, ?inserted, ?total⟩
    case entries =>
      rw [hfound, List.append_assoc, List.singleton_append]
    case query =>
      have hkept : after.entries (cid_hash cid) =
          some ((self.entries (cid_hash cid)).getD (new_entry cid metadata_hash anchor_timestamp)) := by
        rw [hafter]
        apply extends_claim_all
        change claim self.entries (cid_hash cid) _ (cid_hash cid) = _
        rw [claim_apply, if_pos rfl]
        cases self.entries (cid_hash cid) <;> rfl
      change _ :: found.map some = after.entries (cid_hash cid) :: (hashes rest).map after.entries
      rw [hkept, hquery]
    case inserted =>
      rw [hinserted]
      change _ = _ + (fresh self.entries (cid_hash cid :: hashes rest)).card
      cases hstored : self.entries (cid_hash cid) with
      | none =>
        rw [card_fresh_cons hstored (new_entry cid metadata_hash anchor_timestamp)]
        simp only [Option.isNone_none, ↓reduceIte]
        omega
      | some stored =>
        have hisSome : (self.entries (cid_hash cid)).isSome := by rw [hstored]; rfl
        rw [fresh_cons_of_isSome hisSome, claim_of_isSome hisSome]
        simp
    case total =>
      rw [htotal, List.length_cons]
      cases self.entries (cid_hash cid) <;> simp <;> omega

theorem keys_of_claim_all {self after : RegistryState} {instruction : RegistryInstruction}
    (hafter : after.entries = claim_all self.entries instruction.writes) :
    after.keys = self.keys ∪ fresh self.entries (instruction.cids.map cid_hash) := by
  ext hash
  simp only [keys, Set.mem_ofPred_eq, Set.mem_union, Finset.mem_coe, mem_fresh, hafter]
  constructor
  · intro hfound
    rw [claim_all_apply, Option.isSome_or, Bool.or_eq_true] at hfound
    cases hstored : self.entries hash with
    | some entry => exact Or.inl rfl
    | none =>
      obtain hold | hnew := hfound
      · rw [hstored] at hold
        cases hold
      · obtain ⟨entry, hentry⟩ := Option.isSome_iff_exists.mp hnew
        obtain ⟨cid, hcid, hhash⟩ := mem_cids_of_mem_writes (first_write_mem hentry)
        exact Or.inr ⟨List.mem_map.mpr ⟨cid, hcid, hhash⟩, rfl⟩
  · rintro (hold | ⟨hnamed, _⟩)
    · rw [claim_all_apply, Option.isSome_or, hold, Bool.true_or]
    · obtain ⟨cid, hcid, rfl⟩ := List.mem_map.mp hnamed
      obtain ⟨entry, hentry⟩ := mem_writes_of_mem_cids hcid
      exact isSome_claim_all hentry

/-- A registry that started empty has finitely many entries. -/
theorem finite_keys_apply_all {self : RegistryState} (hfinite : self.keys.Finite)
    (instructions : List RegistryInstruction) : (self.apply_all instructions).keys.Finite := by
  induction instructions generalizing self with
  | nil => exact hfinite
  | cons instruction rest ih =>
    apply ih
    rw [keys_of_claim_all (self.entries_apply instruction)]
    exact hfinite.union (Finset.finite_toSet _)

/-- In every reachable state a batch succeeds and its outcome is exact: it returns for
    each pair the entry that stands under its hash afterwards, counts as inserted the
    hashes that the map gained, which are those of the batch without an entry before,
    and as skipped all other pairs, and leaves every older entry as it was. -/
theorem anchor_batch_outcome_exact (instructions : List RegistryInstruction)
    (entries : List (CanonicalCid × MetadataHash)) (anchor_timestamp : UInt64) :
    let before := default.apply_all instructions
    ∃ outcome after, before.anchor_batch entries anchor_timestamp = (.ok outcome, after) ∧
      outcome.entries.length = entries.length ∧
      (∀ (i : Nat) (entry : AnchorEntry) (pair : CanonicalCid × MetadataHash),
        outcome.entries[i]? = some entry → entries[i]? = some pair →
        after.query_by_cid_hash (cid_hash pair.1) = .ok (some entry)) ∧
      before.keys.Finite ∧ after.keys.ncard = before.keys.ncard + outcome.inserted ∧
      outcome.inserted = ((entries.map fun entry => cid_hash entry.1).toFinset.filter
        fun hash => before.entries hash = none).card ∧
      outcome.inserted + outcome.skipped_existing = entries.length ∧
      ∀ hash entry, before.entries hash = some entry → after.entries hash = some entry := by
  intro before
  obtain ⟨outcome, after, found, hloop, hafter, hfound, hquery, hinserted, htotal⟩ :=
    anchor_batch_loop_outcome anchor_timestamp entries { entries := [], inserted := 0, skipped_existing := 0 } before
  rw [List.nil_append] at hfound
  rw [Nat.zero_add] at hinserted
  have hfinite : before.keys.Finite := by
    apply finite_keys_apply_all
    convert Set.finite_empty
    ext hash
    simp [keys, default]
  have hlength : outcome.entries.length = entries.length := by
    have hlengths := congrArg List.length hquery
    simpa [hashes, hfound] using hlengths
  refine ⟨outcome, after, hloop, hlength, ?query, hfinite, ?keys, hinserted, ?total, ?kept⟩
  case query =>
    intro i entry pair hentry hpair
    have hpoint := congrArg (fun values => values[i]?) hquery
    simp only [hashes, List.getElem?_map, ← hfound, hentry, hpair, Option.map_some, Option.some.injEq] at hpoint
    rw [query_by_cid_hash, ← hpoint]
  case keys =>
    have hhashes : (RegistryInstruction.AnchorBatch entries anchor_timestamp).cids.map cid_hash = hashes entries :=
      List.map_map
    have hdisjoint : Disjoint before.keys (fresh before.entries (hashes entries) : Set CidHash) := by
      rw [Set.disjoint_left]
      intro hash hold hnew
      rw [Finset.mem_coe, mem_fresh] at hnew
      rw [keys, Set.mem_ofPred_eq, hnew.2] at hold
      cases hold
    rw [keys_of_claim_all hafter, hhashes, Set.ncard_union_eq hdisjoint hfinite (Finset.finite_toSet _),
      Set.ncard_coe_finset, hinserted]
  case total =>
    rw [htotal]
    exact Nat.zero_add _
  case kept =>
    intro hash entry hold
    rw [hafter]
    exact extends_claim_all _ _ hash entry hold

end RegistryState

end whistleblower_core
