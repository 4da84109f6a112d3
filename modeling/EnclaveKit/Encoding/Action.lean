import EnclaveKit.Foundation.Codec
import Mathlib.Algebra.Order.BigOperators.Group.List

/-!
# Actions

What a user signs, apart from the header: the crate shared by the program and the SDK encodes it
with borsh, one byte for the variant and then the fields in order. Integers are little-endian and
arrays have no length.

`Action.codec` packages the encoding with a decoder and the two laws relating them. That the action
is determined by its bytes is then `Codec.encode_injective`, including for the one variant whose
length varies: the three guardians are of two sizes, and each is told from its own tag.
-/

namespace EnclaveKit

/-! ## Constants -/

/-- Seed of the state PDA: `b"wallet"`. -/
def WALLET_SEED : List UInt8 := [0x77, 0x61, 0x6c, 0x6c, 0x65, 0x74]

/-- Seed of the vault PDA: `b"vault"`. -/
def VAULT_SEED : List UInt8 := [0x76, 0x61, 0x75, 0x6c, 0x74]

/-- Compressed SEC1 P-256 public key. -/
def COMPRESSED_PUBKEY_LEN : ℕ := 33

/-- Fixed guardian slot count. -/
def MAX_GUARDIANS : ℕ := 3

abbrev PublicKey := Vector UInt8 COMPRESSED_PUBKEY_LEN

abbrev WalletId := Vector UInt8 32

namespace Encoding

/-! ## Guardians -/

/-- A guardian as it is signed. -/
inductive Guardian where
  | none
  | p256 (key : PublicKey)
  | webAuthn (key : PublicKey)
  deriving DecidableEq

namespace Guardian

/-- The bytes of a key. -/
def keyCodec : Codec PublicKey := Codec.bytes COMPRESSED_PUBKEY_LEN

def serialize : Guardian → List UInt8
  | none => [0]
  | p256 key => 1 :: keyCodec.encode key
  | webAuthn key => 2 :: keyCodec.encode key

theorem length_serialize_le (guardian : Guardian) :
    guardian.serialize.length ≤ 1 + COMPRESSED_PUBKEY_LEN := by
  cases guardian <;> simp [serialize, keyCodec, Codec.bytes, Nat.add_comm]

def deserialize : List UInt8 → Option (Guardian × List UInt8)
  | 0 :: bytes => some (none, bytes)
  | 1 :: bytes => keyCodec.under p256 bytes
  | 2 :: bytes => keyCodec.under webAuthn bytes
  | _ => Option.none

theorem deserialize_of_unknown {tag : UInt8} (h : 3 ≤ tag) (bytes : List UInt8) :
    deserialize (tag :: bytes) = Option.none := by
  rw [deserialize.eq_def]
  split <;> simp_all

def codec : Codec Guardian where
  encode := serialize
  decode := deserialize
  decode_append guardian rest := by cases guardian <;> simp [serialize, deserialize]
  of_decode {bytes guardian rest} h := by
    rw [deserialize.eq_def] at h
    split at h
    · cases h
      rfl
    · obtain ⟨key, rfl, rfl⟩ := Codec.of_under h
      rfl
    · obtain ⟨key, rfl, rfl⟩ := Codec.of_under h
      rfl
    · cases h

end Guardian

/-! ## Actions -/

/-- What is authorised. The field `dest` is `to` in the source, which is a reserved word here. -/
inductive Action where
  | transferSol (dest : Vector UInt8 32) (lamports : UInt64)
  | transferToken (mint dest : Vector UInt8 32) (amount : UInt64)
  | proposeRotation (newKey : PublicKey)
  | cancelRotation
  | setGuardians (guardians : Vector Guardian MAX_GUARDIANS)
  | sweepVault (dest : Vector UInt8 32)
  | closeWallet (dest : Vector UInt8 32)
  deriving DecidableEq

namespace Action

/-- The bytes of an address. -/
def addressCodec : Codec (Vector UInt8 32) := Codec.bytes 32

/-- `to`, then `lamports`. -/
def transferSolCodec : Codec (Vector UInt8 32 × UInt64) := addressCodec.prod Codec.u64

/-- `mint`, `to`, then `amount`. -/
def transferTokenCodec : Codec (Vector UInt8 32 × Vector UInt8 32 × UInt64) :=
  addressCodec.prod (addressCodec.prod Codec.u64)

def guardiansCodec : Codec (Vector Guardian MAX_GUARDIANS) := Guardian.codec.vector MAX_GUARDIANS

def serialize : Action → List UInt8
  | transferSol dest lamports => 0 :: transferSolCodec.encode (dest, lamports)
  | transferToken mint dest amount => 1 :: transferTokenCodec.encode (mint, dest, amount)
  | proposeRotation newKey => 2 :: Guardian.keyCodec.encode newKey
  | cancelRotation => [3]
  | setGuardians guardians => 4 :: guardiansCodec.encode guardians
  | sweepVault dest => 5 :: addressCodec.encode dest
  | closeWallet dest => 6 :: addressCodec.encode dest

/-- The longest action is a list of keys. -/
theorem length_serialize_le (action : Action) :
    action.serialize.length ≤ 1 + MAX_GUARDIANS * (1 + COMPRESSED_PUBKEY_LEN) := by
  cases action with
  | setGuardians guardians =>
    have hsum : (guardians.toList.map fun g ↦ g.serialize.length).sum
        ≤ guardians.toList.length * (1 + COMPRESSED_PUBKEY_LEN) := by
      have hle := List.sum_le_card_nsmul (guardians.toList.map fun g ↦ g.serialize.length)
        (1 + COMPRESSED_PUBKEY_LEN) (by simpa using fun g _ ↦ g.length_serialize_le)
      simpa using hle
    rw [Vector.length_toList] at hsum
    rw [serialize, List.length_cons, guardiansCodec, Codec.vector, List.length_flatMap]
    exact (Nat.add_le_add_right hsum 1).trans_eq (Nat.add_comm _ _)
  | proposeRotation newKey =>
    simp only [serialize, List.length_cons, Guardian.keyCodec, Codec.bytes, Vector.length_toList]
    decide
  | transferSol | transferToken | cancelRotation | sweepVault | closeWallet =>
    simp [serialize, transferSolCodec, transferTokenCodec, addressCodec, Codec.prod, Codec.bytes,
      Codec.u64, Codec.word, MAX_GUARDIANS, COMPRESSED_PUBKEY_LEN]

def deserialize : List UInt8 → Option (Action × List UInt8)
  | 0 :: bytes => transferSolCodec.under (fun (dest, lamports) ↦ transferSol dest lamports) bytes
  | 1 :: bytes =>
    transferTokenCodec.under (fun (mint, dest, amount) ↦ transferToken mint dest amount) bytes
  | 2 :: bytes => Guardian.keyCodec.under proposeRotation bytes
  | 3 :: bytes => some (cancelRotation, bytes)
  | 4 :: bytes => guardiansCodec.under setGuardians bytes
  | 5 :: bytes => addressCodec.under sweepVault bytes
  | 6 :: bytes => addressCodec.under closeWallet bytes
  | _ => none

/-- **The action format is exact.** -/
def codec : Codec Action where
  encode := serialize
  decode := deserialize
  decode_append action rest := by cases action <;> simp [serialize, deserialize]
  of_decode {bytes action rest} h := by
    rw [deserialize.eq_def] at h
    split at h
    · obtain ⟨⟨dest, lamports⟩, rfl, rfl⟩ := Codec.of_under h
      rfl
    · obtain ⟨⟨mint, dest, amount⟩, rfl, rfl⟩ := Codec.of_under h
      rfl
    · obtain ⟨newKey, rfl, rfl⟩ := Codec.of_under h
      rfl
    · cases h
      rfl
    · obtain ⟨guardians, rfl, rfl⟩ := Codec.of_under h
      rfl
    · obtain ⟨dest, rfl, rfl⟩ := Codec.of_under h
      rfl
    · obtain ⟨dest, rfl, rfl⟩ := Codec.of_under h
      rfl
    · cases h

/-- `try_from_slice`: the whole byte string, or nothing. -/
def tryFromSlice (bytes : List UInt8) : Option Action := codec.decodeAll bytes

theorem tryFromSlice_eq_some {bytes : List UInt8} {action : Action} :
    tryFromSlice bytes = some action ↔ action.serialize = bytes := Codec.decodeAll_eq_some

theorem deserialize_of_unknown {tag : UInt8} (h : 7 ≤ tag) (bytes : List UInt8) :
    deserialize (tag :: bytes) = none := by
  rw [deserialize.eq_def]
  split <;> simp_all

/-- An unknown guardian makes the whole list unknown. -/
theorem deserialize_of_unknown_guardian {guardians : List Guardian} {tag : UInt8}
    (hlen : guardians.length < MAX_GUARDIANS) (h : 3 ≤ tag) (bytes : List UInt8) :
    deserialize (4 :: (guardians.flatMap Guardian.serialize ++ tag :: bytes)) = none := by
  have hguardian : Guardian.codec.decode (tag :: bytes) = none :=
    Guardian.deserialize_of_unknown h bytes
  have hguardians := Codec.vector_of_decode hlen hguardian
  calc deserialize (4 :: (guardians.flatMap Guardian.serialize ++ tag :: bytes))
      = guardiansCodec.under setGuardians (guardians.flatMap Guardian.serialize ++ tag :: bytes) :=
        rfl
    _ = none := by
      rw [Codec.under, Option.map_eq_none_iff]
      exact hguardians

end Action

end Encoding

end EnclaveKit
