import Whistleblower.Lez.Agreement

open nssa_core whistleblower_core document_indexing whistleblower_registry first_writer

namespace whistleblower_lez_adapter

/-- The element at a place of a list in which one was replaced. -/
theorem getElem?_set_cases {A : Type} {l : List A} {i j : Nat} {replaced other : A}
    (hother : (l.set i replaced)[j]? = some other) : (j = i ∧ other = replaced) ∨ l[j]? = some other := by
  rw [List.getElem?_set] at hother
  split at hother
  · rename_i hsame
    split at hother
    · exact .inl ⟨hsame.symm, (Option.some.inj hother).symm⟩
    · cases hother
  · exact .inr hother

variable [Sha256] [Nssa]

/-- The registry is what the executed transactions make of an empty one. -/
structure Chained (program_id : ProgramId) (world : World) : Prop where
  formed : WellFormed program_id world.chain
  replayed : entries_of program_id world = replay world.executed
  submitted : ∀ entry ∈ world.executed, entry ∈ world.pool
  distinct : ∀ entry ∈ world.executed, entry.2.account_ids.Nodup

theorem Chained.of_unused {program_id : ProgramId} {world : World} (hunused : Unused program_id world.chain)
    (hexecuted : world.executed = []) : Chained program_id world := by
  refine ⟨hunused.wellFormed, ?_, ?_, ?_⟩
  · funext hash
    rw [hexecuted]
    exact registry_eq_none (hunused hash)
  · rw [hexecuted]
    exact fun entry hentry => nomatch hentry
  · rw [hexecuted]
    exact fun entry hentry => nomatch hentry

/-- What others do keeps the registry's entries, and submits nothing in the name of a session. -/
theorem Chained.others {program_id : ProgramId} (hinjective : PdaInjective program_id) {world : World}
    (hchained : Chained program_id world) {next : System}
    (hstep : Step program_id { world, sessions := [] } next) :
    Chained program_id next.world ∧ Extends (entries_of program_id world) (entries_of program_id next.world) ∧
      ∀ i tx, (some i, tx) ∈ next.world.pool → (some i, tx) ∈ world.pool := by
  obtain ⟨hformed, hreplayed, hsubmitted, hnodup⟩ := hchained
  cases hstep with
  | submitted tx =>
    have hpooled : ∀ entry ∈ world.executed, entry ∈ world.pool ++ [(none, tx)] :=
      fun entry hentry => List.mem_append_left _ (hsubmitted entry hentry)
    refine ⟨⟨hformed, hreplayed, hpooled, hnodup⟩, .refl _, ?_⟩
    intro i other hother
    obtain hother | hother := List.mem_append.mp hother
    · exact hother
    · cases List.mem_singleton.mp hother
  | executed origin tx hpool hdistinct output hrun =>
    obtain ⟨instruction, hdecode, _, hafter, hformed'⟩ := submit_registry hinjective hformed hdistinct hrun
    have hclaims : (registry program_id (submit program_id world.chain tx)).entries =
        claim_all (entries_of program_id world) ((new_entries tx).map fun entry => (entry.cid_hash, entry)) := by
      rw [new_entries, hdecode]
      exact hafter
    refine ⟨⟨hformed', ?replayed, ?pooled, ?distinct⟩, ?grows, fun _ _ hother => hother⟩
    case replayed =>
      rw [replay_append, ← hreplayed]
      exact hclaims
    case pooled =>
      intro entry hentry
      obtain hentry | hentry := List.mem_append.mp hentry
      · exact hsubmitted entry hentry
      · rw [List.mem_singleton.mp hentry]
        exact hpool
    case distinct =>
      intro entry hentry
      obtain hentry | hentry := List.mem_append.mp hentry
      · exact hnodup entry hentry
      · rw [List.mem_singleton.mp hentry]
        exact hdistinct
    case grows =>
      change Extends _ (registry program_id (submit program_id world.chain tx)).entries
      rw [hclaims]
      exact extends_claim_all _ _
  | elsewhere chain hkept =>
    have hsame : entries_of program_id { world with chain } = entries_of program_id world := by
      funext hash
      exact congrArg decode_entry (hkept hash)
    refine ⟨⟨hformed.step hinjective (.elsewhere chain hkept), ?_, hsubmitted, hnodup⟩, ?_, fun _ _ hother => hother⟩
    · rw [hsame]
      exact hreplayed
    · rw [hsame]
      exact .refl _
  | replied index session hsession => cases hsession

/-- An answered request leaves the registry as it is. -/
theorem Chained.replied {program_id : ProgramId} {world after : World} (hchained : Chained program_id world)
    {i : Nat} {request : LezCall} {response : request.Response} (hreplied : Replied i world request response after) :
    Chained program_id after ∧ entries_of program_id after = entries_of program_id world := by
  obtain ⟨hchain, hexecuted, hkept, _⟩ := hreplied.spec program_id
  have hsame : entries_of program_id after = entries_of program_id world := by rw [entries_of, hchain, entries_of]
  refine ⟨⟨hchain ▸ hchained.formed, ?_, ?_, hexecuted ▸ hchained.distinct⟩, hsame⟩
  · rw [hsame, hexecuted]
    exact hchained.replayed
  · rw [hexecuted]
    exact fun entry hentry => hkept entry (hchained.submitted entry hentry)

/-- What is stored was written by a transaction that executed. -/
theorem Chained.stored {program_id : ProgramId} {world : World} (hchained : Chained program_id world)
    {hash : CidHash} {entry : AnchorEntry}
    (hentry : entries_of program_id world hash = some entry) :
    cid_hash entry.cid = hash ∧ ∃ origin tx, (origin, tx) ∈ world.executed ∧ entry ∈ new_entries tx := by
  rw [hchained.replayed] at hentry
  obtain ⟨hwritten, hhash⟩ := mem_of_replay hentry
  obtain ⟨⟨origin, tx⟩, hexecuted, hnew⟩ := List.mem_flatMap.mp hwritten
  exact ⟨hhash, origin, tx, hexecuted, hnew⟩

end whistleblower_lez_adapter
