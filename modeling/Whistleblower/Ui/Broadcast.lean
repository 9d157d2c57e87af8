import Whistleblower.Ffi.Producers
import Whistleblower.Ui.Backend

open whistleblower_core whistleblower_ffi document_indexing

namespace whistleblower_ui

/-- Canonical bytes start with a brace. -/
theorem canonical_cons {envelope : MetadataEnvelopeV1} {bytes : List UInt8}
    (hbytes : envelope.canonical_json_bytes = .ok bytes) : ∃ rest, bytes = 0x7b :: rest := by
  rw [← Except.ok.inj hbytes]
  exact ⟨_, rfl⟩

/-- The Base64 text of canonical bytes starts with a letter. -/
theorem payload_cons {envelope : MetadataEnvelopeV1} {bytes : List UInt8}
    (hbytes : envelope.canonical_json_bytes = .ok bytes) :
    ∃ rest, text.bytes (String.ofList (base64.encode bytes)) = 0x65 :: rest := by
  obtain ⟨tail, rfl⟩ := canonical_cons hbytes
  obtain ⟨after, hencode⟩ := base64.encode_cons 0x7b tail
  have hletter : base64.letter ((0x7b : UInt8).toNat / 4) = 'e' := by decide
  have hascii : String.utf8EncodeChar 'e' = [0x65] := by decide
  rw [hencode, hletter, text.bytes, String.toList_ofList, List.flatMap_cons, hascii]
  exact ⟨_, rfl⟩

/-- The subscriber cannot read the Base64 text of an envelope. -/
theorem parse_envelope_payload {envelope : MetadataEnvelopeV1} {bytes : List UInt8}
    (hbytes : envelope.canonical_json_bytes = .ok bytes) {received : ReceivedEnvelope} {topic : String}
    (htopic : received.topic = topic)
    (hreceived : received.payload = text.bytes (String.ofList (base64.encode bytes))) :
    batch.parse_envelope received topic = .error (.decode .malformed) := by
  obtain ⟨rest, hpayload⟩ := payload_cons hbytes
  have hread : MetadataEnvelopeV1.from_slice received.payload = .error .malformed := by
    rw [hreceived, hpayload, MetadataEnvelopeV1.from_slice, json.from_slice, json.Value.parse_noStart (by decide)]
  rw [batch.parse_envelope, if_neg (fun h => h htopic), hread]

section

variable [Qt]

/-- What a broadcast sends if it can. -/
theorem broadcasts_broadcastEnvelope (hqt : Qt.Documented) {self : WhistleblowerBackend}
    (hdelivery : self.deliveryAvailable = true) (hpending : self.m_pendingPublishCallback = none) (topic : String)
    (envelopeBytes : List UInt8) :
    (self.broadcastEnvelope topic envelopeBytes).broadcasts =
      self.broadcasts ++ [{ topic, payload := String.ofList (base64.encode envelopeBytes) }] := by
  have hcodes : ∀ c ∈ base64.encode envelopeBytes, c.toNat < 256 := by
    intro c hc
    have := base64.encode_ascii envelopeBytes c hc
    omega
  have hpayload : fromLatin1 (Qt.toBase64 envelopeBytes) = String.ofList (base64.encode envelopeBytes) := by
    rw [hqt.toBase64, fromLatin1_codes hcodes]
  simp [WhistleblowerBackend.broadcastEnvelope, hdelivery, hpending, hpayload]

/-- A failure is recognised by the backend. -/
theorem toBool_error (hqt : Qt.Documented) (msg : String) :
    Qt.toBool (error_value msg).render "success" = false := by
  have hflat : Flat [("error", .of_string msg), ("success", .bool false)] := ⟨by simp, by simp⟩
  exact hqt.toBool hflat (by simp)

/-- The members of a success are read back, and with them the envelope's bytes. -/
theorem metadata_hash_read (hqt : Qt.Documented) (bytes : List UInt8) (metadata_hash : MetadataHash) :
    let answer := (metadata_hash_json bytes metadata_hash).render
    Qt.toBool answer "success" = true ∧
      Qt.toString? answer "metadata_hash_hex" = some (text.hex_encode metadata_hash.digest.toList) ∧
      ∃ b64, Qt.toString? answer "envelope_bytes_b64" = some b64 ∧ Qt.fromBase64 (text.bytes b64) = bytes := by
  intro answer
  have hflat : Flat [("envelope_bytes_b64", .of_string (base64_encode bytes)),
      ("metadata_hash_hex", .of_string (text.hex_encode metadata_hash.digest.toList)), ("success", .bool true)] :=
    ⟨by simp, by simp⟩
  refine ⟨hqt.toBool hflat (by simp), hqt.toString? hflat (by simp), base64_encode bytes,
    hqt.toString? hflat (by simp), ?_⟩
  rw [base64_encode_eq]
  exact hqt.fromBase64 (base64.decode_encode bytes)

theorem envelopeOf_of_answer [Sha256] (hqt : Qt.Documented) {cid : String} {metadata : Metadata} {now : Int}
    {bytes : List UInt8} {metadata_hash : MetadataHash}
    (hanswer : whistleblower_compute_metadata_hash (Qt.toJson (envelopeArgs cid metadata now)) =
      (metadata_hash_json bytes metadata_hash).render) :
    envelopeOf cid metadata now = .ok (text.hex_encode metadata_hash.digest.toList, bytes) := by
  obtain ⟨hsuccess, hhex, b64, hb64, hdecode⟩ := metadata_hash_read hqt bytes metadata_hash
  rw [envelopeOf, hanswer]
  simp only [hsuccess, hhex, hb64, ↓reduceIte, Option.getD_some, hdecode]

/-- The bytes that the backend takes from the FFI are the canonical form of an envelope,
    and the hash is theirs. -/
theorem envelopeOf_eq_ok [Sha256] (hqt : Qt.Documented) {cid metadataHashHex : String} {metadata : Metadata}
    {now : Int} {envelopeBytes : List UInt8}
    (henvelope : envelopeOf cid metadata now = .ok (metadataHashHex, envelopeBytes)) :
    ∃ envelope : MetadataEnvelopeV1, envelope.canonical_json_bytes = .ok envelopeBytes ∧
      whistleblower_compute_metadata_hash (Qt.toJson (envelopeArgs cid metadata now)) =
        (metadata_hash_json envelopeBytes ⟨Sha256.digest envelopeBytes⟩).render ∧
      metadataHashHex = text.hex_encode (Sha256.digest envelopeBytes).toList := by
  obtain ⟨envelope, bytes, hbytes, hanswer⟩ | ⟨msg, hanswer⟩ :=
    compute_metadata_hash_cases (Qt.toJson (envelopeArgs cid metadata now))
  · rw [envelopeOf_of_answer hqt hanswer] at henvelope
    obtain ⟨rfl, rfl⟩ := Prod.mk.inj (Except.ok.inj henvelope)
    exact ⟨envelope, hbytes, hanswer, rfl⟩
  · rw [envelopeOf] at henvelope
    simp [hanswer, toBool_error hqt msg] at henvelope

theorem envelopeOf_of_computeEnvelope [Sha256] {computing computed : WhistleblowerBackend}
    {cid metadataHashHex : String} {metadata : Metadata} {envelopeBytes : List UInt8}
    (hcompute : computing.computeEnvelope cid metadata = (computed, some (metadataHashHex, envelopeBytes))) :
    envelopeOf cid metadata computing.currentSecsSinceEpoch = .ok (metadataHashHex, envelopeBytes) := by
  rw [WhistleblowerBackend.computeEnvelope] at hcompute
  cases hof : envelopeOf cid metadata computing.currentSecsSinceEpoch with
  | error e => simp [hof] at hcompute
  | ok found =>
    rw [hof] at hcompute
    rw [Option.some.inj (Prod.mk.inj hcompute).2]

/-- The text of any bytes is padded Base64 that decodes to them, and the bytes that the
    backend recovers from the FFI's answer are those whose hash stands in it. -/
theorem base64_encode_inverted [Sha256] (hqt : Qt.Documented) :
    (∀ bytes : List UInt8, base64.Padded bytes.length (base64_encode bytes).toList ∧
      (∀ chunk ∈ chunks bytes,
        base64_chunk chunk = (base64_indexes chunk).map ALPHA_at ++ List.replicate (3 - chunk.length) '=' ∧
          ∀ index ∈ base64_indexes chunk, index.toNat < 64) ∧
      base64.decode (base64_encode bytes).toList = some bytes ∧
      Qt.fromBase64 (text.bytes (base64_encode bytes)) = bytes) ∧
    ∀ (computing computed : WhistleblowerBackend) (cid metadataHashHex : String) (metadata : Metadata)
      (envelopeBytes : List UInt8),
      computing.computeEnvelope cid metadata = (computed, some (metadataHashHex, envelopeBytes)) →
      whistleblower_compute_metadata_hash
          (Qt.toJson (envelopeArgs cid metadata computing.currentSecsSinceEpoch)) =
          (metadata_hash_json envelopeBytes ⟨Sha256.digest envelopeBytes⟩).render ∧
        metadataHashHex = text.hex_encode (Sha256.digest envelopeBytes).toList := by
  constructor
  · intro bytes
    refine ⟨?_, ?_, decode_base64_encode bytes, ?_⟩
    · rw [base64_encode_eq, String.toList_ofList]
      exact base64.padded_encode bytes
    · exact fun chunk hchunk => ⟨base64_chunk_eq hchunk, base64_indexes_lt chunk⟩
    · rw [base64_encode_eq]
      exact hqt.fromBase64 (base64.decode_encode bytes)
  · intro computing computed cid metadataHashHex metadata envelopeBytes hcompute
    obtain ⟨_, _, hanswer, hhash⟩ := envelopeOf_eq_ok hqt (envelopeOf_of_computeEnvelope hcompute)
    exact ⟨hanswer, hhash⟩

/-- Whenever the backend has got the bytes of an envelope from the FFI and hands them to
    the delivery module, the payload is not an envelope for the subscriber, who anchors
    nothing for it, and it is no payload that a publisher broadcasts. -/
theorem broadcast_is_no_envelope [Sha256] (hqt : Qt.Documented) {computing computed : WhistleblowerBackend}
    {cid metadataHashHex : String} {metadata : Metadata} {envelopeBytes : List UInt8}
    (hcompute : computing.computeEnvelope cid metadata = (computed, some (metadataHashHex, envelopeBytes))) :
    ∃ envelope : MetadataEnvelopeV1, envelope.canonical_json_bytes = .ok envelopeBytes ∧
      ∀ (sending : WhistleblowerBackend) (topic : String), sending.deliveryAvailable = true →
        sending.m_pendingPublishCallback = none →
        ∃ payload, (sending.broadcastEnvelope topic envelopeBytes).broadcasts =
            sending.broadcasts ++ [⟨topic, payload⟩] ∧
          (∀ received : ReceivedEnvelope, received.topic = topic → received.payload = text.bytes payload →
            batch.parse_envelope received topic = .error (.decode .malformed) ∧
              ∀ hash, batch.accept topic received (.ok (.New hash)) = none) ∧
          ∀ publisher path inputs trace result, (Publisher.publish_file publisher path inputs).Returns trace result →
            ∀ exchange ∈ trace, ∀ content_topic sent, exchange.request = AdapterCall.publish content_topic sent →
              sent ≠ text.bytes payload := by
  obtain ⟨envelope, hbytes, _⟩ := envelopeOf_eq_ok hqt (envelopeOf_of_computeEnvelope hcompute)
  obtain ⟨rest, hpayload⟩ := payload_cons hbytes
  refine ⟨envelope, hbytes, ?_⟩
  intro sending topic hdelivery hpending
  refine ⟨_, broadcasts_broadcastEnvelope hqt hdelivery hpending topic envelopeBytes, ?read, ?published⟩
  case read =>
    intro received htopic hreceived
    have hparse := parse_envelope_payload hbytes htopic hreceived
    refine ⟨hparse, fun hash => ?_⟩
    simp only [batch.accept, hparse]
  case published =>
    intro publisher path inputs trace result hreturns exchange hexchange content_topic sent hrequest hsent
    obtain ⟨_, _, _, hasks⟩ := (publisher.publish_file_ensures path inputs []).asked hreturns hexchange
    obtain ⟨_, _, _, _, _, hcanonical⟩ := hasks content_topic sent hrequest
    obtain ⟨tail, hbrace⟩ := canonical_cons hcanonical
    rw [hsent, hpayload] at hbrace
    have hheads : (0x65 : UInt8) = 0x7b := (List.cons.inj hbrace).1
    exact absurd hheads (by decide)

end

/-- A description of a file. -/
def leaflet : Metadata where
  title := "Leaflet"
  description := ""
  contentType := "text/plain"
  sizeBytes := 12
  tags := ["a"]

/-- The leaflet, published at a time. -/
def leafletInputs : document_indexing.MetadataInputs where
  title := "Leaflet"
  description := ""
  content_type := "text/plain"
  size_bytes := 12
  timestamp_unix := 7
  tags := ["a"]

def leafletEnvelope : MetadataEnvelopeV1 := leafletInputs.envelope ⟨"bafy-a"⟩

/-- The FFI's answer for the leaflet, as the backend reads it. -/
theorem computeEnvelope_leaflet :
    (WhistleblowerBackend.constructed true true 7).computeEnvelope "bafy-a" leaflet =
      (.constructed true true 7, some (text.hex_encode (Sha256.digest leafletEnvelope.serialize.render).toList,
        leafletEnvelope.serialize.render)) := by
  have hcid : CanonicalCid.new "bafy-a" = .ok ⟨"bafy-a"⟩ := by decide +kernel
  have hargs : cstr_to_str (Qt.toJson (envelopeArgs "bafy-a" leaflet 7)) =
      .ok (Qt.toJson (envelopeArgs "bafy-a" leaflet 7)) := by decide +kernel
  have hinputs : whistleblower_ffi.MetadataInputs.from_str (Qt.toJson (envelopeArgs "bafy-a" leaflet 7)) =
      .ok (.of_file "bafy-a" leafletInputs) := by decide +kernel
  have hanswer := whistleblower_compute_metadata_hash_of_ok hargs (compute_metadata_hash_eq hcid hinputs)
  have hclock : (WhistleblowerBackend.constructed true true 7).currentSecsSinceEpoch = 7 := rfl
  rw [WhistleblowerBackend.computeEnvelope, hclock, envelopeOf_of_answer Qt.documented_standard hanswer]
  rfl

theorem base64_encode_inverted_leaflet :
    base64.decode (base64_encode [0xfb, 0xff, 0xfe, 0x66]).toList = some [0xfb, 0xff, 0xfe, 0x66] ∧
      whistleblower_compute_metadata_hash (Qt.toJson (envelopeArgs "bafy-a" leaflet 7)) =
        (metadata_hash_json leafletEnvelope.serialize.render
          ⟨Sha256.digest leafletEnvelope.serialize.render⟩).render :=
  ⟨((base64_encode_inverted Qt.documented_standard).1 _).2.2.1,
    ((base64_encode_inverted Qt.documented_standard).2 _ _ _ _ _ _ computeEnvelope_leaflet).1⟩

theorem broadcast_is_no_envelope_leaflet :
    ∃ envelope : MetadataEnvelopeV1, envelope.canonical_json_bytes = .ok leafletEnvelope.serialize.render ∧
      ∀ (sending : WhistleblowerBackend) (topic : String), sending.deliveryAvailable = true →
        sending.m_pendingPublishCallback = none →
        ∃ payload, (sending.broadcastEnvelope topic leafletEnvelope.serialize.render).broadcasts =
            sending.broadcasts ++ [⟨topic, payload⟩] ∧
          (∀ received : ReceivedEnvelope, received.topic = topic → received.payload = text.bytes payload →
            batch.parse_envelope received topic = .error (.decode .malformed)) ∧
          ∀ publisher path inputs trace result, (Publisher.publish_file publisher path inputs).Returns trace result →
            ∀ exchange ∈ trace, ∀ content_topic sent, exchange.request = AdapterCall.publish content_topic sent →
              sent ≠ text.bytes payload := by
  obtain ⟨envelope, hbytes, hsends⟩ := broadcast_is_no_envelope Qt.documented_standard computeEnvelope_leaflet
  refine ⟨envelope, hbytes, ?_⟩
  intro sending topic hdelivery hpending
  obtain ⟨payload, hsent, hreceived, hpublished⟩ := hsends sending topic hdelivery hpending
  exact ⟨payload, hsent, fun received htopic hpayload => (hreceived received htopic hpayload).1, hpublished⟩

theorem broadcast_not_read :
    ¬∀ (computing computed sending : WhistleblowerBackend) (cid metadataHashHex topic payload : String)
      (metadata : Metadata) (envelopeBytes : List UInt8) (envelope : MetadataEnvelopeV1)
      (received : ReceivedEnvelope),
      computing.computeEnvelope cid metadata = (computed, some (metadataHashHex, envelopeBytes)) →
      envelope.canonical_json_bytes = .ok envelopeBytes →
      (sending.broadcastEnvelope topic envelopeBytes).broadcasts = sending.broadcasts ++ [⟨topic, payload⟩] →
      received.topic = topic → received.payload = text.bytes payload →
      batch.parse_envelope received topic = .ok envelope := by
  intro hclaim
  have hbytes : leafletEnvelope.canonical_json_bytes = .ok leafletEnvelope.serialize.render := rfl
  have hdelivery : (WhistleblowerBackend.constructed true true 7).deliveryAvailable = true := rfl
  have hsent := broadcasts_broadcastEnvelope Qt.documented_standard hdelivery rfl contentTopic
    leafletEnvelope.serialize.render
  generalize hpayload : String.ofList (base64.encode leafletEnvelope.serialize.render) = payload at hsent
  let received : ReceivedEnvelope := ⟨"", contentTopic, text.bytes payload, 0⟩
  have hread := hclaim _ _ _ _ _ contentTopic payload leaflet _ leafletEnvelope received computeEnvelope_leaflet
    hbytes hsent rfl rfl
  have hfails : batch.parse_envelope received contentTopic = .error (.decode .malformed) :=
    parse_envelope_payload hbytes rfl (by rw [hpayload])
  rw [hread] at hfails
  cases hfails

end whistleblower_ui
