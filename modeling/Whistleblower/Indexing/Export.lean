import Whistleblower.Indexing.Batch
import Whistleblower.Indexing.FileDelivery
import Whistleblower.Indexing.Orchestration

open whistleblower_core

namespace document_indexing.FileDeliveryClient

/-- What stands on one line of an export: one record between spaces or tabs, or nothing but
    blanks and what a `#` after them begins. -/
inductive Row : List Char → List MetadataEnvelopeV1 → Prop where
  | record {before after : List Char} {envelope : MetadataEnvelopeV1} {record : String}
      (hrecord : envelope.canonical_json_bytes = .ok (text.bytes record))
      (hbefore : ∀ c ∈ before, c = ' ' ∨ c = '\t') (hafter : ∀ c ∈ after, c = ' ' ∨ c = '\t') :
      Row (before ++ record.toList ++ after) [envelope]
  | skipped {line : List Char} (hnewline : '\n' ∉ line)
      (hskipped : ∀ c ∈ (line.dropWhile text.is_whitespace).head?, c = '#') : Row line []

/-- A text that holds the records of envelopes in order. Every line ends with a line feed,
    before which a carriage return may stand, except that the last one may lack its end. -/
inductive Export : List Char → List MetadataEnvelopeV1 → Prop where
  | empty : Export [] []
  | last {line : List Char} {envelopes : List MetadataEnvelopeV1} (hrow : Row line envelopes) :
      Export line envelopes
  | row {line ending rest : List Char} {envelopes others : List MetadataEnvelopeV1} (hrow : Row line envelopes)
      (hending : ending = ['\n'] ∨ ending = ['\r', '\n']) (hrest : Export rest others) :
      Export (line ++ ending ++ rest) (envelopes ++ others)

/-- Spaces and tabs are white space. -/
theorem is_whitespace_of_blank {c : Char} (hblank : c = ' ' ∨ c = '\t') : text.is_whitespace c = true := by
  obtain rfl | rfl := hblank <;> decide

theorem newline_not_blank : ¬ ('\n' = ' ' ∨ '\n' = '\t') := by decide

section

variable {envelope : MetadataEnvelopeV1} {record : String}
  (hrecord : envelope.canonical_json_bytes = .ok (text.bytes record))

include hrecord

/-- The serialiser escapes every control character. -/
theorem not_control_of_mem_record {c : Char} (hc : c ∈ record.toList) : ¬ c.toNat < 0x20 := by
  intro hcontrol
  have hascii : ∀ n < 0x20, UInt8.ofNat n ∈ String.utf8EncodeChar (Char.ofNat n) := by decide +kernel
  have hmem := hascii c.toNat hcontrol
  rw [Char.ofNat_toNat] at hmem
  have hbytes : UInt8.ofNat c.toNat ∈ envelope.serialize.render := by
    rw [Except.ok.inj hrecord]
    exact List.mem_flatMap.mpr ⟨c, hc, hmem⟩
  refine json.Value.not_control_render _ envelope.written_serialize _ hbytes ?_
  rw [UInt8.lt_iff_toNat_lt, UInt8.toNat_ofNat_of_lt' (by omega : c.toNat < 256)]
  exact hcontrol

/-- A record stands between braces. -/
theorem ends_record : record.toList.head? = some '{' ∧ record.toList.getLast? = some '}' := by
  have hbytes : text.bytes record = envelope.serialize.render := (Except.ok.inj hrecord).symm
  have hfirst : (text.bytes record).head? = some 0x7b := by
    rw [hbytes]
    rfl
  have hlast : (text.bytes record).getLast? = some 0x7d := by
    rw [hbytes]
    exact json.Value.getLast?_render_object _
  obtain ⟨first, hhead, hopening⟩ := text.head?_of_bytes hfirst (by decide)
  obtain ⟨last, htail, hclosing⟩ := text.getLast?_of_bytes hlast (by decide)
  obtain rfl : first = '{' := Char.toNat_inj.mp hopening
  obtain rfl : last = '}' := Char.toNat_inj.mp hclosing
  exact ⟨hhead, htail⟩

theorem trimChars_record : text.trimChars record.toList = record.toList := by
  obtain ⟨hhead, hlast⟩ := ends_record hrecord
  apply text.trimChars_of_ends
  · intro c hc
    rw [hhead, Option.mem_some_iff] at hc
    subst hc
    decide
  · intro c hc
    rw [hlast, Option.mem_some_iff] at hc
    subst hc
    decide

end

/-- What a line stands for does not depend on the white space around it. -/
theorem record_congr {first second : List Char} (htrim : text.trimChars first = text.trimChars second) :
    record (String.ofList first) = record (String.ofList second) := by
  simp only [record, text.trim, String.toList_ofList, htrim]

theorem Row.newline {line : List Char} {envelopes : List MetadataEnvelopeV1} (hrow : Row line envelopes) :
    '\n' ∉ line := by
  cases hrow with
  | record hrecord hbefore hafter =>
    simp only [List.mem_append, not_or]
    refine ⟨⟨fun hmem => newline_not_blank (hbefore _ hmem), fun hmem => ?_⟩,
      fun hmem => newline_not_blank (hafter _ hmem)⟩
    exact not_control_of_mem_record hrecord hmem (by decide)
  | skipped hnewline => exact hnewline

/-- A line stands for the record on it. -/
theorem Row.reads {line : List Char} {envelopes : List MetadataEnvelopeV1} (hrow : Row line envelopes) :
    (FileDeliveryClient.record (String.ofList line)).toList.map .ok =
      envelopes.map MetadataEnvelopeV1.canonical_json_bytes := by
  cases hrow with
  | @record before after envelope contents hrecord hbefore hafter =>
    have htrim : text.trimChars (before ++ contents.toList ++ after) = text.trimChars contents.toList := by
      rw [text.trimChars_append_right fun c hc => is_whitespace_of_blank (hafter c hc),
        text.trimChars_append_left fun c hc => is_whitespace_of_blank (hbefore c hc)]
    obtain ⟨hhead, _⟩ := ends_record hrecord
    have hkept : text.trim contents = contents := by
      rw [text.trim, trimChars_record hrecord, String.ofList_toList]
    have hstarts : ¬ (contents = "" ∨ text.starts_with contents '#' = true) := by
      rw [text.starts_with, hhead]
      rintro (rfl | hcomment)
      · cases hhead
      · cases hcomment
    rw [record_congr htrim, String.ofList_toList, FileDeliveryClient.record, hkept, if_neg hstarts,
      List.map_singleton, hrecord]
    rfl
  | skipped hnewline hskipped =>
    have hblank : text.trim (String.ofList line) = "" ∨
        text.starts_with (text.trim (String.ofList line)) '#' = true := by
      simp only [text.trim, text.trimChars, String.toList_ofList, text.starts_with]
      cases hdropped : line.dropWhile text.is_whitespace with
      | nil => exact .inl rfl
      | cons first rest =>
        obtain rfl := hskipped first (by rw [hdropped]; rfl)
        have hprefix := List.rdropWhile_prefix text.is_whitespace ('#' :: rest)
        cases hkept : ('#' :: rest).rdropWhile text.is_whitespace with
        | nil =>
          have hall := List.rdropWhile_eq_nil_iff.mp hkept '#' List.mem_cons_self
          cases hall
        | cons kept others =>
          obtain ⟨_, hkept'⟩ := hkept ▸ hprefix
          rw [(List.cons.inj hkept').1]
          exact .inr rfl
    rw [FileDeliveryClient.record, if_pos hblank]
    rfl

/-- The records of an export are those of its envelopes, in order. -/
theorem Export.reads {chars : List Char} {envelopes : List MetadataEnvelopeV1} (hexport : Export chars envelopes) :
    ((text.lineChars [] chars).filterMap fun line => record (String.ofList line)).map .ok =
      envelopes.map MetadataEnvelopeV1.canonical_json_bytes := by
  induction hexport with
  | empty => rfl
  | @last line envelopes hrow =>
    have hreads := hrow.reads
    by_cases hempty : line = []
    · subst hempty
      exact hreads
    · rw [text.lineChars_end hrow.newline [] hempty, ← hreads]
      cases hrecord : record (String.ofList line) <;> simp [hrecord]
  | @row line ending rest envelopes others hrow hending _ ih =>
    have hbreak : ∃ kept, text.lineChars [] (line ++ ending ++ rest) = kept :: text.lineChars [] rest ∧
        text.trimChars kept = text.trimChars line := by
      have hreturn : text.is_whitespace '\r' = true := by decide
      obtain rfl | rfl := hending
      · obtain ⟨kept, hlines, hkept⟩ := text.lineChars_break hrow.newline [] rest
        refine ⟨kept, by rwa [List.append_assoc], ?_⟩
        rw [List.reverse_nil, List.nil_append] at hkept
        obtain rfl | rfl := hkept
        · rfl
        · rw [text.trimChars_concat hreturn]
      · have hnewline : '\n' ∉ line ++ ['\r'] := by simpa using hrow.newline
        obtain ⟨kept, hlines, hkept⟩ := text.lineChars_break hnewline [] rest
        refine ⟨kept, by simpa using hlines, ?_⟩
        rw [List.reverse_nil, List.nil_append] at hkept
        rw [← text.trimChars_concat hreturn line]
        obtain heq | heq := hkept
        · rw [heq]
        · rw [heq, text.trimChars_concat hreturn]
    obtain ⟨kept, hlines, htrim⟩ := hbreak
    rw [hlines, List.map_append, ← hrow.reads, ← ih, List.filterMap_cons, record_congr htrim]
    cases hrecord : record (String.ofList line) <;> simp

/-- A client of an exported text yields the envelopes' payloads, in order. -/
theorem Export.envelopes {contents : String} {envelopes : List MetadataEnvelopeV1}
    (hexport : Export contents.toList envelopes) :
    (from_jsonl contents).envelopes.map .ok = envelopes.map MetadataEnvelopeV1.canonical_json_bytes := by
  rw [envelopes_from_jsonl, text.lines, List.filterMap_map]
  exact hexport.reads

/-- Every list of envelopes can be exported. -/
theorem export_exists (envelopes : List MetadataEnvelopeV1) :
    ∃ contents : String, Export contents.toList envelopes := by
  induction envelopes with
  | nil => exact ⟨"", .empty⟩
  | cons envelope rest ih =>
    obtain ⟨others, hothers⟩ := ih
    obtain ⟨contents, hcontents⟩ := envelope.canonical_json_text
    have hrow : Row ([] ++ contents.toList ++ []) [envelope] := .record hcontents (by simp) (by simp)
    exact ⟨contents ++ "\n" ++ others, by simpa using Export.row hrow (.inl rfl) hothers⟩

/-- What is delivered for an envelope: its canonical form under the topic, which is read back,
    and which is told apart and hashed like the same payload in any other message. -/
structure Replays [Sha256] (topic : String) (envelope : MetadataEnvelopeV1) (received : ReceivedEnvelope) : Prop where
  topic_eq : received.topic = topic
  payload : envelope.canonical_json_bytes = .ok received.payload
  parsed : batch.parse_envelope received topic = .ok envelope
  hashed : envelope.metadata_hash = .ok ⟨Sha256.digest received.payload⟩
  live : ∀ live : ReceivedEnvelope, live.topic = topic → envelope.canonical_json_bytes = .ok live.payload →
    envelope_hash received = envelope_hash live ∧ batch.parse_envelope live topic = .ok envelope

theorem parse_envelope_canonical {envelope : MetadataEnvelopeV1} {received : ReceivedEnvelope} {topic : String}
    (htopic : received.topic = topic) (hpayload : envelope.canonical_json_bytes = .ok received.payload) :
    batch.parse_envelope received topic = .ok envelope := by
  rw [batch.parse_envelope, if_neg (fun hmismatch => hmismatch htopic),
    MetadataEnvelopeV1.from_slice_canonical hpayload]

theorem replays_item [Sha256] (topic : String) {envelope : MetadataEnvelopeV1} {payload : List UInt8}
    (hpayload : envelope.canonical_json_bytes = .ok payload) (i : Nat) :
    Replays topic envelope (item topic (payload, i)) where
  topic_eq := rfl
  payload := hpayload
  parsed := parse_envelope_canonical rfl hpayload
  hashed := by
    rw [envelope.metadata_hash_eq, Except.ok.inj hpayload]
    rfl
  live := by
    intro live htopic hlive
    have hsame : (item topic (payload, i)).payload = live.payload := Except.ok.inj (hpayload.symm.trans hlive)
    exact ⟨envelope_hash_congr htopic.symm hsame, parse_envelope_canonical htopic hlive⟩

theorem replays_items [Sha256] (topic : String) {envelopes : List MetadataEnvelopeV1} {payloads : List (List UInt8)}
    (hpayloads : payloads.map .ok = envelopes.map MetadataEnvelopeV1.canonical_json_bytes) (i : Nat) :
    List.Forall₂ (Replays topic) envelopes ((payloads.zipIdx i).map (item topic)) := by
  induction payloads generalizing envelopes i with
  | nil =>
    cases envelopes with
    | nil => exact .nil
    | cons envelope rest => cases hpayloads
  | cons payload others ih =>
    cases envelopes with
    | nil => cases hpayloads
    | cons envelope rest =>
      obtain ⟨hpayload, hothers⟩ := List.cons.inj hpayloads
      exact .cons (replays_item topic hpayload.symm i) (ih hothers (i + 1))

/-- Exporting envelopes and replaying the text loses nothing. -/
theorem export_replayed [Sha256] {contents : String} {envelopes : List MetadataEnvelopeV1}
    (hexport : Export contents.toList envelopes) (topic : String) :
    (from_jsonl contents).envelopes.map .ok = envelopes.map MetadataEnvelopeV1.canonical_json_bytes ∧
      ∃ items, (from_jsonl contents).subscribe topic = .ok (items.map .ok) ∧
        List.Forall₂ (Replays topic) envelopes items := by
  have hpayloads := hexport.envelopes
  refine ⟨hpayloads, (from_jsonl contents).envelopes.zipIdx.map (item topic), ?_, replays_items topic hpayloads 0⟩
  rw [subscribe, List.map_map]
  rfl

/-- A comment, a record after a tab whose title breaks the line, a blank line and a record on a
    line without an end. -/
theorem export_replayed_two_records :
    let first : MetadataEnvelopeV1 := ⟨1, ⟨"bafy-a"⟩, "#\n\"", "", "text/plain", 12, 7, ["\u2028"]⟩
    let second : MetadataEnvelopeV1 := ⟨1, ⟨"bafy-b"⟩, "", " ", "", 0, 0, []⟩
    ∃ first_record second_record : String,
      first.canonical_json_bytes = .ok (text.bytes first_record) ∧
      second.canonical_json_bytes = .ok (text.bytes second_record) ∧
      (from_jsonl ("# exported\r\n\t" ++ first_record ++ " \r\n \n" ++ second_record)).envelopes =
        [text.bytes first_record, text.bytes second_record] := by
  intro first second
  obtain ⟨first_record, hfirst⟩ := first.canonical_json_text
  obtain ⟨second_record, hsecond⟩ := second.canonical_json_text
  refine ⟨first_record, second_record, hfirst, hsecond, ?_⟩
  have hcomment : Row "# exported".toList [] := .skipped (by decide) (by simp [text.is_whitespace])
  have hrecord : Row ("\t".toList ++ first_record.toList ++ " ".toList) [first] :=
    .record hfirst (by simp) (by simp)
  have hblank : Row " ".toList [] := .skipped (by decide) (by simp [text.is_whitespace])
  have hlast : Row ([] ++ second_record.toList ++ []) [second] := .record hsecond (by simp) (by simp)
  have hexport : Export ("# exported\r\n\t" ++ first_record ++ " \r\n \n" ++ second_record).toList
      [first, second] := by
    simpa using Export.row hcomment (.inr rfl) (.row hrecord (.inr rfl) (.row hblank (.inl rfl) (.last hlast)))
  have hreplayed := (export_replayed hexport DEFAULT_CONTENT_TOPIC).1
  rw [List.map_cons, List.map_singleton, hfirst, hsecond] at hreplayed
  exact List.map_injective_iff.mpr (fun _ _ => Except.ok.inj) hreplayed

end document_indexing.FileDeliveryClient
