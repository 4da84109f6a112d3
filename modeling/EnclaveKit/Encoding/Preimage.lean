import EnclaveKit.Encoding.Action
import EnclaveKit.Foundation.Layout

/-!
# The bytes the enclave signs

A header of fixed size followed by the action. As everything before the action has a fixed size, the
whole preimage is read back from its bytes alone, field by field; nothing in it has to be known in
advance.

```text
offset  size  field
0       16    DOMAIN_TAG
16      32    program_id
48      32    wallet_id
80      8     nonce               u64 LE
88      8     expires_at          i64 LE
96      8     max_relayer_fee     u64 LE
104     n     action
```
-/

namespace EnclaveKit

open ByteCodec

namespace Encoding

/-- Protocol name and version, padded with zeros: `b"enclavekit:v1\0\0\0"`. -/
def DOMAIN_TAG : Vector UInt8 16 :=
  #v[0x65, 0x6e, 0x63, 0x6c, 0x61, 0x76, 0x65, 0x6b, 0x69, 0x74, 0x3a, 0x76, 0x31, 0, 0, 0]

/-- Size of every field before the action. -/
def HEADER_LEN : ℕ := 16 + 32 + 32 + 8 + 8 + 8

structure Preimage where
  programId : Vector UInt8 32
  walletId : WalletId
  nonce : UInt64
  expiresAt : Int64
  maxRelayerFee : UInt64
  action : Action
  deriving DecidableEq

namespace Preimage

def PROGRAM_ID_OFFSET : ℕ := 16

def WALLET_ID_OFFSET : ℕ := 48

def NONCE_OFFSET : ℕ := 80

def EXPIRES_AT_OFFSET : ℕ := 88

def MAX_RELAYER_FEE_OFFSET : ℕ := 96

def ACTION_OFFSET : ℕ := HEADER_LEN

def toBytes (p : Preimage) : List UInt8 :=
  DOMAIN_TAG.toList
    ++ p.programId.toList
    ++ p.walletId.toList
    ++ Codec.u64.encode p.nonce
    ++ Codec.i64.encode p.expiresAt
    ++ Codec.u64.encode p.maxRelayerFee
    ++ p.action.serialize

/-! ## Reading a preimage back

The fields in order, as one codec: the tag is a field like any other, so that a message under
another tag is seen to be different and not merely unreadable. -/

/-- The fields of a message, its tag included. -/
abbrev Fields :=
  Vector UInt8 16 × Vector UInt8 32 × WalletId × UInt64 × Int64 × UInt64 × Action

def fieldsCodec : Codec Fields :=
  (Codec.bytes 16).prod <| (Codec.bytes 32).prod <| (Codec.bytes 32).prod <| Codec.u64.prod <|
    Codec.i64.prod <| Codec.u64.prod Action.codec

/-- The fields of a preimage under the tag `tag`. -/
def fields (p : Preimage) (tag : Vector UInt8 16) : Fields :=
  (tag, p.programId, p.walletId, p.nonce, p.expiresAt, p.maxRelayerFee, p.action)

theorem toBytes_eq_encode (p : Preimage) :
    p.toBytes = fieldsCodec.encode (p.fields DOMAIN_TAG) := by
  simp only [toBytes, List.append_assoc]
  rfl

theorem fields_injective {p q : Preimage} {tag tag' : Vector UInt8 16}
    (h : p.fields tag = q.fields tag') : tag = tag' ∧ p = q := by
  cases p
  cases q
  simpa [fields] using h

/-- **A preimage is determined by its bytes.** -/
theorem toBytes_injective : Function.Injective toBytes := by
  intro p q h
  rw [toBytes_eq_encode, toBytes_eq_encode] at h
  exact (fields_injective (fieldsCodec.encode_injective h)).2

/-- The header has one size, whatever is signed. -/
private theorem exists_header (p : Preimage) :
    ∃ header, p.toBytes = header ++ p.action.serialize ∧ header.length = HEADER_LEN := by
  refine ⟨_, rfl, ?_⟩
  simp only [List.length_append, Vector.length_toList, Codec.sized_u64 _, Codec.sized_i64 _,
    HEADER_LEN]

theorem length_toBytes (p : Preimage) :
    p.toBytes.length = HEADER_LEN + p.action.serialize.length := by
  obtain ⟨header, hbytes, hlength⟩ := p.exists_header
  rw [hbytes, List.length_append, hlength]

/-- No message is longer than one that sets three guardians. -/
theorem length_toBytes_le (p : Preimage) :
    p.toBytes.length ≤ HEADER_LEN + (1 + MAX_GUARDIANS * (1 + COMPRESSED_PUBKEY_LEN)) := by
  rw [length_toBytes]
  exact Nat.add_le_add_left p.action.length_serialize_le _

/-! ## Reading at the offsets

The source gives the offsets and has no reader of messages. This one is what the offsets are enough
for: each field from its own bytes, and the action from all that is left. -/

/-- Each field of `p` has its bytes in `message` at the offset given for it, and the action the
rest. -/
structure FieldsAt (message : List UInt8) (p : Preimage) : Prop where
  domainTag : slice message 0 PROGRAM_ID_OFFSET = DOMAIN_TAG.toList
  programId : slice message PROGRAM_ID_OFFSET 32 = p.programId.toList
  walletId : slice message WALLET_ID_OFFSET 32 = p.walletId.toList
  nonce : slice message NONCE_OFFSET 8 = leBytes 8 p.nonce.toNat
  expiresAt : slice message EXPIRES_AT_OFFSET 8 = leBytes 8 p.expiresAt.toUInt64.toNat
  maxRelayerFee : slice message MAX_RELAYER_FEE_OFFSET 8 = leBytes 8 p.maxRelayerFee.toNat
  action : message.drop ACTION_OFFSET = p.action.serialize

/-- The preimage a message is the bytes of, if it is of one. -/
def ofBytes (message : List UInt8) : Option Preimage :=
  if slice message 0 PROGRAM_ID_OFFSET = DOMAIN_TAG.toList then do
    let programId ← (Codec.bytes 32).decodeAll (slice message PROGRAM_ID_OFFSET 32)
    let walletId ← (Codec.bytes 32).decodeAll (slice message WALLET_ID_OFFSET 32)
    let nonce ← Codec.u64.decodeAll (slice message NONCE_OFFSET 8)
    let expiresAt ← Codec.i64.decodeAll (slice message EXPIRES_AT_OFFSET 8)
    let maxRelayerFee ← Codec.u64.decodeAll (slice message MAX_RELAYER_FEE_OFFSET 8)
    let action ← Action.tryFromSlice (message.drop ACTION_OFFSET)
    pure ⟨programId, walletId, nonce, expiresAt, maxRelayerFee, action⟩
  else none

/-- **Every field sits at its offset.** -/
theorem toBytes_fieldsAt (p : Preimage) : FieldsAt p.toBytes p := by
  have start : fieldsCodec.At 0 fieldsCodec id := fun a ↦ ⟨[], [], by simp, rfl⟩
  have afterTag := start.next (Codec.sized_bytes _)
  have afterProgram := afterTag.next (Codec.sized_bytes _)
  have afterWallet := afterProgram.next (Codec.sized_bytes _)
  have afterNonce := afterWallet.next Codec.sized_u64
  have afterExpiry := afterNonce.next Codec.sized_i64
  have haction : p.toBytes.drop ACTION_OFFSET = p.action.serialize := by
    obtain ⟨header, hbytes, hlength⟩ := p.exists_header
    rw [hbytes]
    exact List.drop_left' hlength
  rw [toBytes_eq_encode] at haction ⊢
  exact {
    domainTag := start.head.slice_eq (Codec.sized_bytes _) (p.fields DOMAIN_TAG)
    programId := afterTag.head.slice_eq (Codec.sized_bytes _) (p.fields DOMAIN_TAG)
    walletId := afterProgram.head.slice_eq (Codec.sized_bytes _) (p.fields DOMAIN_TAG)
    nonce := afterWallet.head.slice_eq Codec.sized_u64 (p.fields DOMAIN_TAG)
    expiresAt := afterNonce.head.slice_eq Codec.sized_i64 (p.fields DOMAIN_TAG)
    maxRelayerFee := afterExpiry.head.slice_eq Codec.sized_u64 (p.fields DOMAIN_TAG)
    action := haction }

/-- Bytes with the fields of `p` are those of `p`. -/
theorem FieldsAt.eq_toBytes {message : List UInt8} {p : Preimage} (h : FieldsAt message p) :
    message = p.toBytes := by
  have hheader : slice message 0 HEADER_LEN
      = slice message 0 PROGRAM_ID_OFFSET
        ++ slice message PROGRAM_ID_OFFSET 32
        ++ slice message WALLET_ID_OFFSET 32
        ++ slice message NONCE_OFFSET 8
        ++ slice message EXPIRES_AT_OFFSET 8
        ++ slice message MAX_RELAYER_FEE_OFFSET 8 := by
    rw [HEADER_LEN, slice_add, slice_add, slice_add, slice_add, slice_add]
    rfl
  calc message = slice message 0 HEADER_LEN ++ message.drop ACTION_OFFSET :=
        (List.take_append_drop HEADER_LEN message).symm
    _ = p.toBytes := by
      rw [hheader, h.domainTag, h.programId, h.walletId, h.nonce, h.expiresAt, h.maxRelayerFee,
        h.action]
      rfl

/-- A message has the fields of one preimage at most, and is then its bytes. -/
theorem fieldsAt_iff {message : List UInt8} {p : Preimage} :
    FieldsAt message p ↔ p.toBytes = message := by
  constructor
  · intro h
    exact h.eq_toBytes.symm
  · rintro rfl
    exact p.toBytes_fieldsAt

private theorem ofBytes_eq_some_iff_fieldsAt {message : List UInt8} {p : Preimage} :
    ofBytes message = some p ↔ FieldsAt message p := by
  rw [ofBytes, Option.ite_none_right_eq_some]
  simp only [Option.bind_eq_bind, Option.bind_eq_some_iff, Codec.decodeAll_eq_some,
    Action.tryFromSlice_eq_some, Option.pure_def, Option.some_inj]
  constructor
  · rintro ⟨htag, programId, hprogram, walletId, hwallet, nonce, hnonce, expiresAt, hexpires,
      maxRelayerFee, hfee, action, haction, rfl⟩
    exact ⟨htag, hprogram.symm, hwallet.symm, hnonce.symm, hexpires.symm, hfee.symm, haction.symm⟩
  · intro h
    exact ⟨h.domainTag, _, h.programId.symm, _, h.walletId.symm, _, h.nonce.symm, _,
      h.expiresAt.symm, _, h.maxRelayerFee.symm, _, h.action.symm, rfl⟩

/-- **A message is read exactly when it is the bytes of a preimage**, as that preimage. -/
theorem ofBytes_eq_some {message : List UInt8} {p : Preimage} :
    ofBytes message = some p ↔ p.toBytes = message :=
  ofBytes_eq_some_iff_fieldsAt.trans fieldsAt_iff

end Preimage

end Encoding

end EnclaveKit
