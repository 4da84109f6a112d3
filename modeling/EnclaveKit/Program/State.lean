import EnclaveKit.Encoding.Action
import EnclaveKit.Foundation.MachineInt
import Mathlib.Order.Bounds.Basic

/-!
# The wallet's state

The account the program keeps for each wallet, with the slots of its guardians and of a guardian's
proposal. Every field has a fixed size: an empty slot is all zeros, and never an absent one.

A guardian appears in two forms. `Guardian` is what `set_guardians` takes and what its event
reports; `GuardianSlot` is what is stored. The form that is signed is `Encoding.Guardian`.
-/

namespace EnclaveKit

open MachineInt

/-! ## Constants -/

/-- The two builds of the program. The devnet one shortens the rotation delay. -/
inductive Build where
  | default
  | devnet
  deriving DecidableEq

/-- Seconds a guardian's proposal must wait before it can be confirmed. -/
def ROTATION_DELAY : Build → Int64
  | .default => 72 * 60 * 60
  | .devnet => 60

/-- Seconds the proposal stays confirmable once the delay has passed. -/
def ROTATION_WINDOW : Int64 := 7 * 24 * 60 * 60

/-- `[0u8; COMPRESSED_PUBKEY_LEN]`. -/
def zeroKey : PublicKey := Vector.replicate COMPRESSED_PUBKEY_LEN 0

/-! ## Guardians -/

/-- A guardian as `set_guardians` takes it and as the user signs it. -/
inductive Guardian where
  | none
  | p256 (key : PublicKey)
  | webAuthn (key : PublicKey)
  deriving DecidableEq

/-- The preimage is built from the crate side. -/
def Guardian.toEncoding : Guardian → Encoding.Guardian
  | none => .none
  | p256 key => .p256 key
  | webAuthn key => .webAuthn key

theorem Guardian.toEncoding_injective : Function.Injective Guardian.toEncoding := by
  intro g g' h
  cases g <;> cases g' <;> simp_all [toEncoding]

inductive GuardianKind where
  | none
  | p256
  | webAuthn
  deriving DecidableEq

/-- A guardian as stored. -/
structure GuardianSlot where
  kind : GuardianKind
  key : PublicKey
  rpIdHash : Vector UInt8 32
  deriving DecidableEq

namespace GuardianSlot

def EMPTY : GuardianSlot where
  kind := .none
  key := zeroKey
  rpIdHash := Vector.replicate 32 0

/-- `From<Guardian>`. -/
def ofGuardian : Guardian → GuardianSlot
  | .none => EMPTY
  | .p256 key => { EMPTY with kind := .p256, key := key }
  | .webAuthn key => { EMPTY with kind := .webAuthn, key := key }

end GuardianSlot

/-- The three slots of a wallet. -/
abbrev GuardianSlots := Vector GuardianSlot MAX_GUARDIANS

/-- The first slot holding the P-256 guardian `key`. -/
def GuardianSlots.p256Guardian (guardians : GuardianSlots) (key : PublicKey) : Option ℕ :=
  guardians.toList.findIdx? fun slot ↦ decide (slot.kind = .p256 ∧ slot.key = key)

section Lookup

variable {guardians : GuardianSlots} {key : PublicKey} {i : ℕ}

/-- The lookup finds the first of the slots of a key. -/
theorem GuardianSlots.p256Guardian_eq_some_iff : guardians.p256Guardian key = some i ↔
    IsLeast {j | ∃ _ : j < MAX_GUARDIANS, guardians[j].kind = .p256 ∧ guardians[j].key = key}
      i := by
  rw [p256Guardian, List.findIdx?_eq_some_iff_getElem]
  constructor
  · rintro ⟨hi, hslot, hfirst⟩
    rw [Vector.length_toList] at hi
    refine ⟨⟨hi, by simpa using hslot⟩, ?_⟩
    rintro j ⟨hj, hslot'⟩
    by_contra hlt
    exact hfirst j (not_le.mp hlt) (by simpa using hslot')
  · rintro ⟨⟨hi, hslot⟩, hleast⟩
    refine ⟨by rwa [Vector.length_toList], by simpa using hslot, ?_⟩
    intro j hj hslot'
    exact absurd (hleast ⟨hj.trans hi, by simpa using hslot'⟩) (not_le.mpr hj)

theorem GuardianSlots.p256Guardian_eq_some (h : guardians.p256Guardian key = some i) :
    ∃ hi : i < MAX_GUARDIANS, guardians[i].kind = .p256 ∧ guardians[i].key = key :=
  (p256Guardian_eq_some_iff.mp h).1

theorem GuardianSlots.p256Guardian_isSome (hi : i < MAX_GUARDIANS)
    (hkind : guardians[i].kind = .p256) (hkey : guardians[i].key = key) :
    (guardians.p256Guardian key).isSome := by
  rw [p256Guardian, List.findIdx?_isSome, List.any_eq_true]
  exact ⟨guardians[i], by simp, by simp [hkind, hkey]⟩

theorem GuardianSlots.p256Guardian_eq_none_iff : guardians.p256Guardian key = none ↔
    ∀ j (_ : j < MAX_GUARDIANS), ¬(guardians[j].kind = .p256 ∧ guardians[j].key = key) := by
  constructor
  · intro hnone j hj hslot
    have hsome := p256Guardian_isSome hj hslot.1 hslot.2
    rw [hnone] at hsome
    cases hsome
  · intro hother
    rw [Option.eq_none_iff_forall_ne_some]
    intro j hsome
    obtain ⟨hj, hslot⟩ := p256Guardian_eq_some hsome
    exact hother j hj hslot

end Lookup

/-! ## The rotation slot -/

structure PendingRotation where
  newKey : PublicKey
  proposedAt : Int64
  proposedBy : UInt8
  deriving DecidableEq

namespace PendingRotation

variable (build : Build) (p : PendingRotation)

/-- First second at which `confirm_rotation` accepts it. -/
def opensAt : Int64 := saturatingAdd p.proposedAt (ROTATION_DELAY build)

/-- Last second at which `confirm_rotation` accepts it. -/
def closesAt : Int64 := saturatingAdd (p.opensAt build) ROTATION_WINDOW

/-- Past its window. -/
def isExpired (now : Int64) : Bool := decide (p.closesAt build < now)

/-- The opening is exact but for the end of time. -/
theorem toInt_opensAt : (p.opensAt build).toInt
    = min (2 ^ 63 - 1) (p.proposedAt.toInt + (ROTATION_DELAY build).toInt) := by
  have hdelay : 0 ≤ (ROTATION_DELAY build).toInt := by cases build <;> decide
  have hmin := p.proposedAt.le_toInt
  rw [opensAt, toInt_saturatingAdd]
  omega

/-- So is the closing: saturating twice is saturating once. -/
theorem toInt_closesAt : (p.closesAt build).toInt = min (2 ^ 63 - 1)
    (p.proposedAt.toInt + (ROTATION_DELAY build).toInt + ROTATION_WINDOW.toInt) := by
  have hdelay : 0 ≤ (ROTATION_DELAY build).toInt := by cases build <;> decide
  have hwindow : 0 ≤ ROTATION_WINDOW.toInt := by decide
  have hmin := p.proposedAt.le_toInt
  rw [closesAt, toInt_saturatingAdd, toInt_opensAt]
  omega

@[simp] theorem isExpired_eq_true {now : Int64} :
    p.isExpired build now = true ↔ p.closesAt build < now := decide_eq_true_iff

@[simp] theorem isExpired_eq_false {now : Int64} :
    p.isExpired build now = false ↔ now ≤ p.closesAt build := by
  rw [isExpired, decide_eq_false_iff_not, Int64.not_lt]

end PendingRotation

/-- A guardian's proposal, or all zeros. -/
structure RotationSlot where
  pending : Bool
  proposal : PendingRotation
  deriving DecidableEq

namespace RotationSlot

def EMPTY : RotationSlot where
  pending := false
  proposal := { newKey := zeroKey, proposedAt := 0, proposedBy := 0 }

def new (proposal : PendingRotation) : RotationSlot := { pending := true, proposal := proposal }

def get (slot : RotationSlot) : Option PendingRotation :=
  if slot.pending then some slot.proposal else none

/-- What the slot held, and the slot emptied. -/
def take (slot : RotationSlot) : Option PendingRotation × RotationSlot := (slot.get, EMPTY)

@[simp] theorem get_EMPTY : EMPTY.get = none := rfl

@[simp] theorem get_new (proposal : PendingRotation) : (new proposal).get = some proposal := rfl

end RotationSlot

/-! ## The wallet -/

structure SmartWallet where
  /-- SHA-256 of the initial key. -/
  walletId : WalletId
  activeKey : PublicKey
  nonce : UInt64
  attested : Bool
  guardians : GuardianSlots
  rotation : RotationSlot
  stateBump : UInt8
  vaultBump : UInt8
  deriving DecidableEq

namespace SmartWallet

/-- The account's size: the discriminator, then the fields in order. -/
def SPACE : ℕ :=
  8 + (32 + COMPRESSED_PUBKEY_LEN + 8 + 1 + MAX_GUARDIANS * (1 + COMPRESSED_PUBKEY_LEN + 32)
    + (1 + (COMPRESSED_PUBKEY_LEN + 8 + 1)) + 1 + 1)

/-- What `init_if_needed` hands over: an account of zeros, decoded. -/
def zeroed : SmartWallet where
  walletId := Vector.replicate 32 0
  activeKey := zeroKey
  nonce := 0
  attested := false
  guardians := Vector.replicate MAX_GUARDIANS GuardianSlot.EMPTY
  rotation := RotationSlot.EMPTY
  stateBump := 0
  vaultBump := 0

/-- The state `init_if_needed` just made: the first action fills it. -/
def isNew (wallet : SmartWallet) : Bool := decide (wallet.activeKey = zeroKey)

/-- Slot of the P-256 guardian `key`, if the wallet names it. -/
def p256Guardian (wallet : SmartWallet) (key : PublicKey) : Option ℕ :=
  wallet.guardians.p256Guardian key

/-- The wallet under another key: nothing attests it yet, and no proposal outlives the change. -/
def rekeyed (wallet : SmartWallet) (newKey : PublicKey) : SmartWallet :=
  { wallet with activeKey := newKey, attested := false, rotation := RotationSlot.EMPTY }

@[simp] theorem isNew_eq_true {wallet : SmartWallet} :
    wallet.isNew = true ↔ wallet.activeKey = zeroKey := decide_eq_true_iff

@[simp] theorem isNew_eq_false {wallet : SmartWallet} :
    wallet.isNew = false ↔ wallet.activeKey ≠ zeroKey := decide_eq_false_iff_not

@[simp] theorem isNew_zeroed : zeroed.isNew = true := decide_eq_true rfl

end SmartWallet

end EnclaveKit
