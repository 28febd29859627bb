-- SUMMARY: The NATS marshaler: deduplication ids are scoped to a destination, so a copy for one topic never suppresses a copy for another.
import Go42.Lib.Codes
import Go42.Lib.GoError
import Mathlib.Logic.Function.Basic

/-!
# NATS messages

The message id that JetStream deduplicates by joins the topic and the UUID. Both may
hold any bytes, colons and digits included, so the id begins with the length of the topic.
-/

namespace Go42.Events.Nats

open Codes

/-- `message.Message`. -/
structure Message where
  uuid : Bytes
  metadata : List (Bytes × Bytes)
  payload : Bytes
deriving DecidableEq

/-- `natsgo.Header`. -/
abbrev Header := Bytes → List Bytes

def Header.set (h : Header) (key value : Bytes) : Header := Function.update h key [value]

def Header.get (h : Header) (key : Bytes) : Bytes := (h key).headD []

/-- `natsgo.Msg`. -/
structure Msg where
  subject : Bytes
  header : Header
  data : Bytes

/-- `_watermill_message_uuid`. -/
def watermillUUIDHdr : Bytes := [0x5f, 0x77, 0x61, 0x74, 0x65, 0x72, 0x6d, 0x69, 0x6c, 0x6c, 0x5f, 0x6d,
  0x65, 0x73, 0x73, 0x61, 0x67, 0x65, 0x5f, 0x75, 0x75, 0x69, 0x64]

/-- `Nats-Msg-Id`. -/
def msgIdHdr : Bytes := [0x4e, 0x61, 0x74, 0x73, 0x2d, 0x4d, 0x73, 0x67, 0x2d, 0x49, 0x64]

def colon : UInt8 := 0x3a

/-- `fmt.Sprintf("%d:%s:%s", len(topic), topic, id)`. -/
def deduplicationID (topic id : Bytes) : Bytes :=
  decimal topic.length ++ [colon] ++ topic ++ [colon] ++ id

theorem deduplicationID_inj {t₁ t₂ i₁ i₂ : Bytes} :
    deduplicationID t₁ i₁ = deduplicationID t₂ i₂ ↔ t₁ = t₂ ∧ i₁ = i₂ := by
  constructor
  case mp =>
    intro h
    -- The number ends at the first colon, and it says where the topic ends.
    have hnumber : SelfDelimiting (fun _ => True) fun n => decimal n ++ [colon] := by
      refine SelfDelimiting.terminated (fun m n => decimal_inj) fun n _ hmem => ?_
      exact absurd (lt_of_mem_decimal hmem) (by decide)
    obtain ⟨htopic, hrest⟩ := hnumber.lengthPrefixed (a := t₁) (b := t₂) trivial trivial
      (r := [colon] ++ i₁) (s := [colon] ++ i₂) (by simpa [deduplicationID] using h)
    exact ⟨htopic, List.append_cancel_left hrest⟩
  case mpr =>
    rintro ⟨rfl, rfl⟩
    rfl

section Marshal

variable (encode : Bytes → Message → Except GoError Msg)

/-- `marshaler.Marshal`, where `encode` is the embedded `wnats.NATSMarshaler`. -/
def marshal (topic : Bytes) (msg : Message) : Except GoError Msg := do
  let encoded ← encode topic msg
  let header := encoded.header.set watermillUUIDHdr msg.uuid
  return { encoded with header := header.set msgIdHdr (deduplicationID topic msg.uuid) }

variable {encode}

theorem marshal_msgId {topic : Bytes} {msg : Message} {m : Msg} (h : marshal encode topic msg = .ok m) :
    m.header.get msgIdHdr = deduplicationID topic msg.uuid := by
  unfold marshal at h
  cases hencode : encode topic msg with
  | error e =>
      rw [hencode] at h
      cases h
  | ok encoded =>
      rw [hencode] at h
      cases h
      simp [Header.get, Header.set]

/-- A broker that suppresses a message only for one with the same id in its window suppresses a
message of a topic only for one that was sent to that topic with the same UUID. -/
theorem deduplication_scoped {suppresses : List Msg → Msg → Prop}
    (hwindow : ∀ window m, suppresses window m →
      ∃ m' ∈ window, m'.header.get msgIdHdr = m.header.get msgIdHdr) :
    (∀ t₁ t₂ i₁ i₂, deduplicationID t₁ i₁ = deduplicationID t₂ i₂ ↔ t₁ = t₂ ∧ i₁ = i₂) ∧
    ∀ (sent : List (Bytes × Message)) (window : List Msg) topic msg m,
      (∀ m' ∈ window, ∃ p ∈ sent, marshal encode p.1 p.2 = .ok m') → marshal encode topic msg = .ok m →
        suppresses window m → ∃ msg', (topic, msg') ∈ sent ∧ msg'.uuid = msg.uuid := by
  refine ⟨fun t₁ t₂ i₁ i₂ => deduplicationID_inj, ?_⟩
  intro sent window topic msg m hsent hm hsuppressed
  obtain ⟨m', hm', hid⟩ := hwindow window m hsuppressed
  obtain ⟨⟨topic', msg'⟩, hmem, hmarshal⟩ := hsent m' hm'
  rw [marshal_msgId hmarshal, marshal_msgId hm] at hid
  obtain ⟨rfl, huuid⟩ := deduplicationID_inj.mp hid
  exact ⟨msg', hmem, huuid⟩

end Marshal

/-- Metadata as headers, the UUID beside them. -/
def natsMarshaler (topic : Bytes) (msg : Message) : Except GoError Msg :=
  .ok {
    subject := topic
    header := fun key => if key = watermillUUIDHdr then [msg.uuid]
      else (msg.metadata.filter fun e => e.1 = key).map Prod.snd
    data := msg.payload }

/-- A window of any age. -/
def sameId (window : List Msg) (m : Msg) : Prop :=
  ∃ m' ∈ window, m'.header.get msgIdHdr = m.header.get msgIdHdr

/-- The dead-letter copy of a message is stored beside the message. -/
theorem deduplication_scoped_dlq :
    ∃ stored m, marshal natsMarshaler [0x61] ⟨[0x31], [], []⟩ = .ok stored ∧
      marshal natsMarshaler [0x61, 0x5f] ⟨[0x31], [], []⟩ = .ok m ∧ ¬ sameId [stored] m := by
  refine ⟨_, _, rfl, rfl, fun hsuppressed => ?_⟩
  have hscoped := (@deduplication_scoped natsMarshaler sameId fun _ _ h => h).2
  obtain ⟨msg', hmem, -⟩ := hscoped [([0x61], ⟨[0x31], [], []⟩)] _ [0x61, 0x5f] ⟨[0x31], [], []⟩ _
    (fun m' hm' => ⟨_, List.mem_singleton_self _, by rw [List.mem_singleton.mp hm']; rfl⟩) rfl hsuppressed
  simp at hmem

end Go42.Events.Nats
