import EnclaveKit.Encoding.State
import EnclaveKit.Foundation.Layout
import EnclaveKit.Program.State

/-!
# The wallet's account as bytes

The discriminator, then the fields of `SmartWallet` in borsh: in order, integers little-endian, a
flag or a kind one byte, arrays without a length. Nothing here mentions an offset but the
statements, which are about those of `Encoding.State`; they follow from the sizes of the fields, one
field after another.
-/

namespace EnclaveKit

open ByteCodec Codec Encoding

/-! ## The format -/

/-- One byte: 0 none, 1 P256, 2 WebAuthn. -/
def GuardianKind.toByte : GuardianKind → UInt8
  | none => 0
  | p256 => 1
  | webAuthn => 2

def GuardianKind.ofByte : UInt8 → Option GuardianKind
  | 0 => some none
  | 1 => some p256
  | 2 => some webAuthn
  | _ => Option.none

theorem GuardianKind.ofByte_eq_some (b : UInt8) (kind : GuardianKind) :
    ofByte b = some kind ↔ kind.toByte = b := by
  rw [ofByte.eq_def]
  split <;> cases kind <;> simp_all [toByte, eq_comm]

def GuardianKind.codec : Codec GuardianKind := byte toByte ofByte ofByte_eq_some

/-- The bytes of a key. -/
def keyCodec : Codec PublicKey := Codec.bytes COMPRESSED_PUBKEY_LEN

def GuardianSlot.codec : Codec GuardianSlot :=
  (GuardianKind.codec.prod (keyCodec.prod (Codec.bytes 32))).iso
    (fun slot ↦ (slot.kind, slot.key, slot.rpIdHash))
    (fun (kind, key, rpIdHash) ↦ ⟨kind, key, rpIdHash⟩) (fun _ ↦ rfl) fun _ ↦ rfl

def PendingRotation.codec : Codec PendingRotation :=
  (keyCodec.prod (i64.prod u8)).iso (fun p ↦ (p.newKey, p.proposedAt, p.proposedBy))
    (fun (newKey, proposedAt, proposedBy) ↦ ⟨newKey, proposedAt, proposedBy⟩) (fun _ ↦ rfl)
    fun _ ↦ rfl

def RotationSlot.codec : Codec RotationSlot :=
  (bool.prod PendingRotation.codec).iso (fun slot ↦ (slot.pending, slot.proposal))
    (fun (pending, proposal) ↦ ⟨pending, proposal⟩) (fun _ ↦ rfl) fun _ ↦ rfl

namespace SmartWallet

/-- The fields in order. -/
def codec : Codec SmartWallet :=
  ((Codec.bytes 32).prod <| keyCodec.prod <| u64.prod <| bool.prod <|
      (GuardianSlot.codec.vector MAX_GUARDIANS).prod <| RotationSlot.codec.prod <| u8.prod u8).iso
    (fun w ↦ (w.walletId, w.activeKey, w.nonce, w.attested, w.guardians, w.rotation, w.stateBump,
      w.vaultBump))
    (fun (walletId, activeKey, nonce, attested, guardians, rotation, stateBump, vaultBump) ↦
      ⟨walletId, activeKey, nonce, attested, guardians, rotation, stateBump, vaultBump⟩)
    (fun _ ↦ rfl) fun _ ↦ rfl

/-- Anchor's: the first bytes of the SHA-256 of `account:SmartWallet`. -/
def DISCRIMINATOR : Vector UInt8 DISCRIMINATOR_LEN :=
  #v[0x43, 0x3b, 0xdc, 0xb3, 0x29, 0x0a, 0x3c, 0xb1]

/-- The account's data. -/
def accountCodec : Codec SmartWallet := codec.tagged DISCRIMINATOR.toList

def data (wallet : SmartWallet) : List UInt8 := accountCodec.encode wallet

end SmartWallet

/-! ## Sizes -/

theorem sized_guardianSlot : GuardianSlot.codec.Sized GUARDIAN_SLOT_LEN :=
  ((sized_byte _).prod ((sized_bytes _).prod (sized_bytes _))).iso _ _

theorem sized_rotationSlot : RotationSlot.codec.Sized (STATE_BUMP_OFFSET - ROTATION_OFFSET) :=
  ((sized_byte _).prod
    (((sized_bytes _).prod (sized_i64.prod (sized_byte _))).iso _ _)).iso _ _

/-- **The size.** It is that of the crate, whatever the wallet holds. -/
theorem sized_account : SmartWallet.accountCodec.Sized STATE_LEN :=
  (((sized_bytes _).prod <| (sized_bytes _).prod <| sized_u64.prod <| (sized_byte _).prod <|
    (sized_guardianSlot.vector _).prod <| sized_rotationSlot.prod <|
      (sized_byte _).prod (sized_byte _)).iso _ _).tagged _

theorem SmartWallet.SPACE_eq : SmartWallet.SPACE = STATE_LEN := rfl

/-! ## Zeros

An empty slot is all zeros, and an account of zeros is the state `init_if_needed` hands over. -/

theorem encode_guardianSlot_EMPTY :
    GuardianSlot.codec.encode GuardianSlot.EMPTY = List.replicate GUARDIAN_SLOT_LEN 0 := rfl

theorem encode_rotationSlot_EMPTY : RotationSlot.codec.encode RotationSlot.EMPTY
    = List.replicate (STATE_BUMP_OFFSET - ROTATION_OFFSET) 0 := rfl

set_option maxRecDepth 2000 in
theorem SmartWallet.encode_zeroed :
    codec.encode zeroed = List.replicate (STATE_LEN - DISCRIMINATOR_LEN) 0 := rfl

/-! ## Offsets -/

/-- Each field of `wallet` has its bytes in `data` at the offset the crate gives for it. -/
structure FieldsAt (data : List UInt8) (wallet : SmartWallet) : Prop where
  discriminator : slice data 0 DISCRIMINATOR_LEN = SmartWallet.DISCRIMINATOR.toList
  walletId : slice data WALLET_ID_OFFSET 32 = wallet.walletId.toList
  activeKey : slice data ACTIVE_KEY_OFFSET COMPRESSED_PUBKEY_LEN = wallet.activeKey.toList
  nonce : slice data NONCE_OFFSET 8 = leBytes 8 wallet.nonce.toNat
  attested : slice data ATTESTED_OFFSET 1 = [if wallet.attested then 1 else 0]
  guardianKind : ∀ i (_ : i < MAX_GUARDIANS),
    slice data (guardianKindOffset i) 1 = [wallet.guardians[i].kind.toByte]
  guardianKey : ∀ i (_ : i < MAX_GUARDIANS),
    slice data (guardianKeyOffset i) COMPRESSED_PUBKEY_LEN = wallet.guardians[i].key.toList
  guardianRpIdHash : ∀ i (_ : i < MAX_GUARDIANS),
    slice data (guardianRpIdHashOffset i) 32 = wallet.guardians[i].rpIdHash.toList
  pending : slice data ROTATION_OFFSET 1 = [if wallet.rotation.pending then 1 else 0]
  newKey : slice data ROTATION_NEW_KEY_OFFSET COMPRESSED_PUBKEY_LEN
    = wallet.rotation.proposal.newKey.toList
  proposedAt : slice data ROTATION_PROPOSED_AT_OFFSET 8
    = leBytes 8 wallet.rotation.proposal.proposedAt.toUInt64.toNat
  proposedBy : slice data ROTATION_PROPOSED_BY_OFFSET 1 = [wallet.rotation.proposal.proposedBy]
  stateBump : slice data STATE_BUMP_OFFSET 1 = [wallet.stateBump]
  vaultBump : slice data VAULT_BUMP_OFFSET 1 = [wallet.vaultBump]

namespace SmartWallet

private theorem at_guardians : accountCodec.At GUARDIANS_OFFSET
    (GuardianSlot.codec.vector MAX_GUARDIANS) guardians :=
  (((((At.tagged _ codec).parts.next (sized_bytes _)).next (sized_bytes _)).next sized_u64).next
    (sized_byte _)).head

private theorem at_guardian {i : ℕ} (hi : i < MAX_GUARDIANS) :
    accountCodec.At (guardianKindOffset i) GuardianSlot.codec fun w ↦ w.guardians[i] :=
  at_guardians.element sized_guardianSlot hi

private theorem at_rest : accountCodec.At ROTATION_OFFSET
    (RotationSlot.codec.prod (u8.prod u8)) fun w ↦ (w.rotation, w.stateBump, w.vaultBump) :=
  (((((At.tagged _ codec).parts.next (sized_bytes _)).next (sized_bytes _)).next sized_u64).next
    (sized_byte _)).next (sized_guardianSlot.vector _)

/-- The bytes of all guardian slots. -/
theorem slice_guardians (wallet : SmartWallet) :
    slice wallet.data GUARDIANS_OFFSET (MAX_GUARDIANS * GUARDIAN_SLOT_LEN)
      = (GuardianSlot.codec.vector MAX_GUARDIANS).encode wallet.guardians :=
  at_guardians.slice_eq (sized_guardianSlot.vector _) wallet

/-- The bytes of a whole guardian slot. -/
theorem slice_guardian (wallet : SmartWallet) {i : ℕ} (hi : i < MAX_GUARDIANS) :
    slice wallet.data (guardianKindOffset i) GUARDIAN_SLOT_LEN
      = GuardianSlot.codec.encode wallet.guardians[i] :=
  (at_guardian hi).slice_eq sized_guardianSlot wallet

/-- The bytes of the whole rotation slot. -/
theorem slice_rotation (wallet : SmartWallet) :
    slice wallet.data ROTATION_OFFSET (STATE_BUMP_OFFSET - ROTATION_OFFSET)
      = RotationSlot.codec.encode wallet.rotation :=
  at_rest.head.slice_eq sized_rotationSlot wallet

/-- **Every field sits at its offset.** -/
theorem data_fieldsAt (wallet : SmartWallet) : FieldsAt wallet.data wallet := by
  have fields := (At.tagged DISCRIMINATOR.toList codec).parts
  have afterId := fields.next (sized_bytes _)
  have afterKey := afterId.next (sized_bytes _)
  have afterNonce := afterKey.next sized_u64
  have rotation := at_rest.head.parts
  have proposal := (rotation.next (sized_byte _)).parts
  have bumps := at_rest.next sized_rotationSlot
  exact {
    discriminator := slice_append [] DISCRIMINATOR.toList (codec.encode wallet)
    walletId := fields.head.slice_eq (sized_bytes _) wallet
    activeKey := afterId.head.slice_eq (sized_bytes _) wallet
    nonce := afterKey.head.slice_eq sized_u64 wallet
    attested := afterNonce.head.slice_eq (sized_byte _) wallet
    guardianKind := fun i hi ↦ (at_guardian hi).parts.head.slice_eq (sized_byte _) wallet
    guardianKey := fun i hi ↦
      ((at_guardian hi).parts.next (sized_byte _)).head.slice_eq (sized_bytes _) wallet
    guardianRpIdHash := fun i hi ↦
      (((at_guardian hi).parts.next (sized_byte _)).next (sized_bytes _)).slice_eq (sized_bytes _)
        wallet
    pending := rotation.head.slice_eq (sized_byte _) wallet
    newKey := proposal.head.slice_eq (sized_bytes _) wallet
    proposedAt := (proposal.next (sized_bytes _)).head.slice_eq sized_i64 wallet
    proposedBy := ((proposal.next (sized_bytes _)).next sized_i64).slice_eq (sized_byte _) wallet
    stateBump := bumps.head.slice_eq (sized_byte _) wallet
    vaultBump := (bumps.next (sized_byte _)).slice_eq (sized_byte _) wallet }

end SmartWallet

end EnclaveKit
