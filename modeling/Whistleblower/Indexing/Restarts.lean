import Mathlib.Data.Set.Operations
import Whistleblower.Indexing.Ledger

namespace document_indexing.DurableDedupeStore

/-- What happens to a store: it ingests an envelope, or it is dropped and opened again. -/
inductive Event where
  | ingest (envelope : ReceivedEnvelope)
  | restart

/-- The envelopes that a history ingests. -/
def ingested (history : List Event) : List ReceivedEnvelope :=
  history.filterMap fun
    | .ingest envelope => some envelope
    | .restart => none

/-- What the ledger hashes of an envelope. -/
def framed (envelope : ReceivedEnvelope) : List UInt8 := text.bytes envelope.topic ++ 0 :: envelope.payload

/-- A zero byte ends the bytes of a text that has no such character. -/
theorem framed_injective {first second : ReceivedEnvelope} (hfirst : '\x00' ∉ first.topic.toList)
    (hsecond : '\x00' ∉ second.topic.toList) (hequal : framed first = framed second) :
    first.topic = second.topic ∧ first.payload = second.payload := by
  have hzero : ∀ s : String, '\x00' ∉ s.toList → 0 ∉ text.bytes s := by
    intro s hs hmem
    obtain ⟨c, hc, hbyte⟩ := List.mem_flatMap.mp hmem
    obtain rfl : c = '\x00' := Char.toNat_inj.mp (text.toNat_of_mem_encodeChar hbyte (by decide))
    exact hs hc
  have hsplit : ∀ first second before after : List UInt8, 0 ∉ first → 0 ∉ second →
      first ++ 0 :: before = second ++ 0 :: after → first = second ∧ before = after := by
    intro first
    induction first with
    | nil =>
      intro second before after _ hsecond hequal
      cases second with
      | nil => exact ⟨rfl, (List.cons.inj hequal).2⟩
      | cons b rest => exact absurd ((List.cons.inj hequal).1 ▸ List.mem_cons_self) hsecond
    | cons b rest ih =>
      intro second before after hfirst hsecond hequal
      cases second with
      | nil => exact absurd ((List.cons.inj hequal).1 ▸ List.mem_cons_self) hfirst
      | cons other others =>
        obtain ⟨rfl, hrest⟩ := List.cons.inj hequal
        rw [List.mem_cons, not_or] at hfirst hsecond
        obtain ⟨rfl, hafter⟩ := ih others before after hfirst.2 hsecond.2 hrest
        exact ⟨rfl, hafter⟩
  obtain ⟨htopic, hpayload⟩ := hsplit _ _ _ _ (hzero _ hfirst) (hzero _ hsecond) hequal
  refine ⟨?_, hpayload⟩
  have hread := text.from_utf8_bytes first.topic
  rw [htopic, text.from_utf8_bytes] at hread
  exact (Option.some.inj hread).symm

section

variable [Sha256]

/-- The outcomes of a history's ingests, none of which meets a failing file system. A restart
    reads the file as the store before it left it. -/
def outcomes (self : DurableDedupeStore) (file : File) :
    List Event → Except IoFault (List (Except IoFault IngestOutcome))
  | [] => .ok []
  | .ingest envelope :: rest =>
    let (outcome, after, file) := self.ingest file none envelope
    (after.outcomes file rest).map (outcome :: ·)
  | .restart :: rest =>
    match DurableDedupeStore.open (.ok file) with
    | .error e => .error e
    | .ok reopened => reopened.outcomes file rest

/-- A history of a ledger whose file does not exist at first. -/
def replay (history : List Event) : Except IoFault (List (Except IoFault IngestOutcome)) :=
  outcomes { seen := ∅ } none history

theorem framed_hash (envelope : ReceivedEnvelope) :
    envelope_hash envelope = text.hex_encode (Sha256.digest (framed envelope)).toList := rfl

/-- The text of a ledger that recorded these hashes, line by line. -/
def ledger (hashes : List String) : List Char := hashes.flatMap fun hash => hash.toList ++ ['\n']

/-- A store in step with its file: both hold the hashes of the envelopes ingested before. -/
structure Synced (store : DurableDedupeStore) (file : File) (earlier : List ReceivedEnvelope) : Prop where
  seen : store.seen = (earlier.map envelope_hash).toFinset
  written : ∃ hashes ⊆ earlier.map envelope_hash, store.seen = hashes.toFinset ∧
    file.getD [] = text.bytes (String.ofList (ledger hashes))

theorem hash_ne_empty (envelope : ReceivedEnvelope) : envelope_hash envelope ≠ "" := by
  intro hempty
  have hlength := text.length_bytes_hex_encode (Sha256.digest (framed envelope)).toList
  rw [Vector.length_toList, ← framed_hash, hempty] at hlength
  cases hlength

/-- The lines of a ledger are its hashes. -/
theorem lines_ledger {hashes : List String} (hhashes : ∀ hash ∈ hashes, ∃ envelope, envelope_hash envelope = hash) :
    text.lines (String.ofList (ledger hashes)) = hashes := by
  rw [text.lines, String.toList_ofList]
  induction hashes with
  | nil => rfl
  | cons hash rest ih =>
    obtain ⟨⟨envelope, rfl⟩, hrest⟩ := List.forall_mem_cons.mp hhashes
    have hplain : ∀ c ∈ (envelope_hash envelope).toList, text.is_whitespace c = false :=
      text.not_whitespace_hex_encode _
    have hline := text.lineChars_line (fun hmem => by cases hplain _ hmem) (fun hmem => by cases hplain _ hmem)
      (ledger rest)
    rw [ledger, List.flatMap_cons, List.append_assoc, List.singleton_append, ← ledger, hline, List.map_cons,
      ih hrest, String.ofList_toList]

theorem recorded_ledger {hashes : List String}
    (hhashes : ∀ hash ∈ hashes, ∃ envelope, envelope_hash envelope = hash) :
    recorded (String.ofList (ledger hashes)) = hashes.toFinset := by
  have htrim : hashes.map text.trim = hashes := by
    refine (List.map_congr_left fun hash hmem => ?_).trans hashes.map_id
    obtain ⟨envelope, rfl⟩ := hhashes hash hmem
    exact text.trim_of_not_whitespace (text.not_whitespace_hex_encode _)
  have hnonempty : hashes.filter (· ≠ "") = hashes := by
    rw [List.filter_eq_self]
    intro hash hmem
    obtain ⟨envelope, rfl⟩ := hhashes hash hmem
    simpa using hash_ne_empty envelope
  rw [recorded, lines_ledger hhashes, htrim, hnonempty]

theorem Synced.reopens {self : DurableDedupeStore} {file : File} {earlier : List ReceivedEnvelope}
    (hsynced : self.Synced file earlier) : DurableDedupeStore.open (.ok file) = .ok self := by
  obtain ⟨hashes, hsubset, hseen, hfile⟩ := hsynced.written
  have hhashes : ∀ hash ∈ hashes, ∃ envelope, envelope_hash envelope = hash := by
    intro hash hmem
    obtain ⟨envelope, _, heq⟩ := List.mem_map.mp (hsubset hmem)
    exact ⟨envelope, heq⟩
  have hrecorded := recorded_ledger hhashes
  cases file with
  | none =>
    have hempty : String.ofList (ledger hashes) = "" := by
      have hread := text.from_utf8_bytes (String.ofList (ledger hashes))
      rw [← hfile] at hread
      exact (Option.some.inj hread).symm
    rw [hempty, ← hseen] at hrecorded
    have hstore : self = { seen := ∅ } := congrArg DurableDedupeStore.mk hrecorded.symm
    rw [hstore]
    rfl
  | some bytes =>
    obtain rfl : bytes = text.bytes (String.ofList (ledger hashes)) := hfile
    simp only [DurableDedupeStore.open, text.from_utf8_bytes, hrecorded, ← hseen]

omit [Sha256] in
theorem toFinset_concat (hashes : List String) (hash : String) :
    (hashes ++ [hash]).toFinset = insert hash hashes.toFinset := by
  ext other
  simp

/-- An ingest keeps the store in step with its file, and is judged by the hashes before. -/
theorem Synced.ingest {self : DurableDedupeStore} {file : File} {earlier : List ReceivedEnvelope}
    (hsynced : self.Synced file earlier) (envelope : ReceivedEnvelope) :
    ∃ after written, self.ingest file none envelope =
        (if envelope_hash envelope ∈ earlier.map envelope_hash then .ok (.Duplicate (envelope_hash envelope))
          else .ok (.New (envelope_hash envelope)), after, written) ∧
      after.Synced written (earlier ++ [envelope]) := by
  have hmap : (earlier ++ [envelope]).map envelope_hash = earlier.map envelope_hash ++ [envelope_hash envelope] :=
    List.map_append
  by_cases hknown : envelope_hash envelope ∈ earlier.map envelope_hash
  · have hseen : envelope_hash envelope ∈ self.seen := by rwa [hsynced.seen, List.mem_toFinset]
    refine ⟨self, file, by rw [ingest_of_mem hseen, if_pos hknown], ?seen, ?written⟩
    case seen =>
      rw [hmap, toFinset_concat, ← hsynced.seen, Finset.insert_eq_of_mem hseen]
    case written =>
      obtain ⟨hashes, hsubset, hhashes, hfile⟩ := hsynced.written
      exact ⟨hashes, by rw [hmap]; exact List.subset_append_of_subset_left _ hsubset, hhashes, hfile⟩
  · have hunseen : envelope_hash envelope ∉ self.seen := by rwa [hsynced.seen, List.mem_toFinset]
    refine ⟨_, _, by rw [ingest_of_not_mem hunseen, if_neg hknown], ?seen, ?written⟩
    case seen =>
      rw [hmap, toFinset_concat, ← hsynced.seen]
    case written =>
      obtain ⟨hashes, hsubset, hhashes, hfile⟩ := hsynced.written
      refine ⟨hashes ++ [envelope_hash envelope], ?_, ?_, ?_⟩
      · rw [hmap]
        exact List.append_subset.mpr ⟨List.subset_append_of_subset_left _ hsubset, List.subset_append_right _ _⟩
      · rw [toFinset_concat, ← hhashes]
      · change file.getD [] ++ line (envelope_hash envelope) = _
        rw [hfile, line]
        simp [text.bytes, ledger]

/-- A history goes on as the envelopes ingested before decide. -/
theorem Synced.outcomes {self : DurableDedupeStore} {file : File} {earlier : List ReceivedEnvelope}
    (hsynced : self.Synced file earlier) (history : List Event) :
    self.outcomes file history = .ok ((ingested history).mapIdx fun i envelope =>
      if envelope_hash envelope ∈ (earlier ++ (ingested history).take i).map envelope_hash then
        .ok (.Duplicate (envelope_hash envelope))
      else .ok (.New (envelope_hash envelope))) := by
  induction history generalizing self file earlier with
  | nil => rfl
  | cons event rest ih =>
    cases event with
    | ingest envelope =>
      obtain ⟨after, written, hingest, hafter⟩ := hsynced.ingest envelope
      have hcons : ingested (.ingest envelope :: rest) = envelope :: ingested rest := rfl
      rw [DurableDedupeStore.outcomes, hingest]
      dsimp only
      rw [ih hafter, hcons, List.mapIdx_cons]
      simp only [Except.map, List.take_zero, List.append_nil, List.take_succ_cons, List.append_assoc,
        List.singleton_append]
      rfl
    | restart =>
      rw [DurableDedupeStore.outcomes, hsynced.reopens]
      exact ih hsynced

theorem synced_empty : Synced { seen := ∅ } none [] :=
  ⟨rfl, [], List.Subset.refl _, rfl, rfl⟩

/-- What an envelope is told when only the topics and payloads before it decide. -/
def verdict (earlier : List ReceivedEnvelope) (envelope : ReceivedEnvelope) : Except IoFault IngestOutcome :=
  if ∃ other ∈ earlier, other.topic = envelope.topic ∧ other.payload = envelope.payload then
    .ok (.Duplicate (envelope_hash envelope))
  else .ok (.New (envelope_hash envelope))

/-- Restarts do not show: every ingest is judged by the topics and payloads of all those
    before it, whichever process they were made in. -/
theorem restarts_invisible {history : List Event}
    (htopics : ∀ envelope ∈ ingested history, '\x00' ∉ envelope.topic.toList)
    (hcollision : Set.InjOn Sha256.digest {bytes | bytes ∈ (ingested history).map framed}) :
    replay history = .ok ((ingested history).mapIdx fun i envelope => verdict ((ingested history).take i) envelope) ∧
      replay history = replay ((ingested history).map .ingest) ∧
      ∀ first second : ReceivedEnvelope,
        (first.topic = second.topic → first.payload = second.payload → envelope_hash first = envelope_hash second) ∧
        ('\x00' ∉ first.topic.toList → '\x00' ∉ second.topic.toList → framed first = framed second →
          first.topic = second.topic ∧ first.payload = second.payload) := by
  have hjudged : ∀ i envelope, envelope ∈ ingested history →
      (envelope_hash envelope ∈ ((ingested history).take i).map envelope_hash ↔
        ∃ other ∈ (ingested history).take i, other.topic = envelope.topic ∧ other.payload = envelope.payload) := by
    intro i envelope henvelope
    rw [List.mem_map]
    refine exists_congr fun other => and_congr_right fun hother => ?_
    have hbefore := List.mem_of_mem_take hother
    constructor
    · intro hhash
      have hdigest : Sha256.digest (framed other) = Sha256.digest (framed envelope) :=
        Vector.toList_inj.mp (text.hex_encode_injective hhash)
      exact framed_injective (htopics other hbefore) (htopics envelope henvelope)
        (hcollision (List.mem_map_of_mem hbefore) (List.mem_map_of_mem henvelope) hdigest)
    · rintro ⟨htopic, hpayload⟩
      exact envelope_hash_congr htopic hpayload
  refine ⟨?verdicts, ?restarts, fun first second => ⟨envelope_hash_congr, framed_injective⟩⟩
  case verdicts =>
    rw [replay, synced_empty.outcomes]
    refine congrArg Except.ok (List.mapIdx_eq_mapIdx_iff.mpr fun i hi => ?_)
    simp only [List.nil_append, verdict, hjudged i _ (List.getElem_mem hi)]
  case restarts =>
    have hsame : ingested ((ingested history).map .ingest) = ingested history := by
      rw [ingested, List.filterMap_map]
      exact List.filterMap_some
    rw [replay, synced_empty.outcomes, replay, synced_empty.outcomes, hsame]

end

/-- The first leak again, in another message. -/
def relayedLeak : ReceivedEnvelope := { firstLeak with message_hash := "c", timestamp_ns := 3 }

def restartedHistory : List Event :=
  [.ingest firstLeak, .restart, .ingest secondLeak, .restart, .ingest relayedLeak]

theorem restarts_invisible_relayed :
    replay restartedHistory =
      .ok [.ok (.New (envelope_hash firstLeak)), .ok (.New (envelope_hash secondLeak)),
        .ok (.Duplicate (envelope_hash firstLeak))] := by
  have hdigests : Sha256.digest (framed firstLeak) ≠ Sha256.digest (framed secondLeak) := by decide +kernel
  have hcollision : Set.InjOn Sha256.digest {bytes | bytes ∈ (ingested restartedHistory).map framed} := by
    have hbytes : ∀ bytes ∈ (ingested restartedHistory).map framed,
        bytes = framed firstLeak ∨ bytes = framed secondLeak := by decide
    intro first hfirst second hsecond hdigest
    obtain rfl | rfl := hbytes first hfirst <;> obtain rfl | rfl := hbytes second hsecond
    · rfl
    · exact absurd hdigest hdigests
    · exact absurd hdigest.symm hdigests
    · rfl
  exact (restarts_invisible (by decide) hcollision).1

end document_indexing.DurableDedupeStore
