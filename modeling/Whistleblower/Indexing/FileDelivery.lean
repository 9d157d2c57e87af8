import Whistleblower.Indexing.Traits

open whistleblower_core

namespace document_indexing

/-- A client that yields a fixed set of payloads once. -/
structure FileDeliveryClient where
  envelopes : List (List UInt8)

namespace FileDeliveryClient

/-- One record a line. Blank lines and comments are left out, nothing is parsed. -/
def from_jsonl (contents : String) : FileDeliveryClient where
  envelopes :=
    (((text.lines contents).map text.trim).filter fun l => l != "" && !text.starts_with l '#').map text.bytes

def publish (_ : FileDeliveryClient) (_topic : String) (_bytes : List UInt8) :
    Except AdapterError PublishReceipt :=
  .error (.non_retryable ("FileDeliveryClient is a read-only envelope replay source; publish is unsupported " ++
    "(use the Basecamp UI plugin / a live Delivery client to broadcast)"))

/-- What is delivered for a payload with its index. -/
def item (topic : String) (record : List UInt8 × Nat) : ReceivedEnvelope where
  message_hash := "file-" ++ toString record.2
  topic := topic
  payload := record.1
  timestamp_ns := UInt64.ofNat record.2 + 1

def subscribe (self : FileDeliveryClient) (topic : String) :
    Except AdapterError (List (Except AdapterError ReceivedEnvelope)) :=
  .ok (self.envelopes.zipIdx.map fun record => .ok (item topic record))

/-- The payload a line stands for, unless the line is blank or a comment. -/
def record (line : String) : Option (List UInt8) :=
  if text.trim line = "" ∨ text.starts_with (text.trim line) '#' then none else some (text.bytes (text.trim line))

theorem envelopes_from_jsonl (contents : String) :
    (from_jsonl contents).envelopes = (text.lines contents).filterMap record := by
  unfold from_jsonl
  dsimp only
  induction text.lines contents with
  | nil => rfl
  | cons line rest ih =>
    rw [List.map_cons, List.filter_cons, List.filterMap_cons, record]
    by_cases hblank : text.trim line = ""
    · rw [if_neg (by simp [hblank]), if_pos (.inl hblank)]
      exact ih
    · cases hcomment : text.starts_with (text.trim line) '#' with
      | true =>
        rw [if_neg (by simp), if_pos (.inr rfl)]
        exact ih
      | false =>
        rw [if_pos (by simp [hblank]), if_neg (by simp [hblank]), List.map_cons, ih]

/-- The envelope a line is read as. -/
def Reads (line : String) (envelope : MetadataEnvelopeV1) : Prop :=
  ∃ payload, record line = some payload ∧ MetadataEnvelopeV1.from_slice payload = .ok envelope

end FileDeliveryClient

end document_indexing
