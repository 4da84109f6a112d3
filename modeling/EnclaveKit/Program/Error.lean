import EnclaveKit.Foundation.Fallible
import EnclaveKit.Program.State
import EnclaveKit.Solana.Platform

/-!
# Errors and events

How an instruction ends: with one of the errors below, in which case the runtime undoes all it did,
or with events. Every event names the wallet it is about.
-/

namespace EnclaveKit

open Solana

/-! ## Errors -/

inductive EnclaveKitError where
  | precompileProgramMismatch
  | precompileUnexpectedAccounts
  | precompileDataTooShort
  | precompileSignatureCountMismatch
  | precompileLayoutMismatch
  | precompileMessageSizeMismatch
  | walletIdMismatch
  | keyMismatch
  | nonceMismatch
  | authorizationExpired
  | preimageMismatch
  | webAuthnGuardianUnsupported
  | noPendingRotation
  | notAGuardian
  | rotationSlotTaken
  | invalidNewKey
  | rotationTooEarly
  | rotationExpired
  | insufficientVaultBalance
  deriving DecidableEq

/-- The account checks Anchor generates from the accounts structs. -/
inductive AccountError where
  | constraintSeeds
  | constraintRentExempt
  | constraintClose
  | accountNotInitialized
  | accountNotSystemOwned
  | accountOwnedByWrongProgram
  | accountNotSigner
  | tryingToInitPayerAsProgramAccount
  deriving DecidableEq

inductive Error where
  | enclaveKit (error : EnclaveKitError)
  | account (error : AccountError)
  | system (error : SystemError)
  /-- `ProgramError::ArithmeticOverflow`. -/
  | arithmeticOverflow
  /-- A CPI asks for a signature the program cannot give. -/
  | privilegeEscalation
  /-- The sysvar holds no instruction before this one. -/
  | noPreviousInstruction
  /-- No bump gives an address, or an index is out of bounds. -/
  | panic
  /-- An operation the source leaves unchecked overflows. -/
  | overflow
  deriving DecidableEq

instance : Coe EnclaveKitError Error := ⟨.enclaveKit⟩

instance : Coe AccountError Error := ⟨.account⟩

/-- A System call as the program sees it fail. -/
def liftSystem {α : Type} : Except SystemError α → Except Error α
  | .ok a => .ok a
  | .error e => .error (.system e)

@[simp] theorem liftSystem_eq_ok {α : Type} {x : Except SystemError α} {a : α} :
    liftSystem x = .ok a ↔ x = .ok a := by
  cases x <;> simp [liftSystem]

/-! ## Events -/

structure WalletCreated where
  walletId : WalletId
  key : PublicKey
  deriving DecidableEq

structure SolTransferred where
  walletId : WalletId
  dest : Pubkey
  lamports : UInt64
  relayerFee : UInt64
  deriving DecidableEq

structure VaultSwept where
  walletId : WalletId
  dest : Pubkey
  lamports : UInt64
  relayerFee : UInt64
  deriving DecidableEq

structure WalletClosed where
  walletId : WalletId
  dest : Pubkey
  lamports : UInt64
  relayerFee : UInt64
  deriving DecidableEq

structure GuardiansSet where
  walletId : WalletId
  guardians : Vector Guardian MAX_GUARDIANS
  deriving DecidableEq

structure RotationProposed where
  walletId : WalletId
  newKey : PublicKey
  guardian : PublicKey
  opensAt : Int64
  deriving DecidableEq

structure RotationCancelled where
  walletId : WalletId
  newKey : PublicKey
  deriving DecidableEq

structure KeyRotated where
  walletId : WalletId
  newKey : PublicKey
  recovery : Bool
  deriving DecidableEq

/-- Whatever `emit_cpi!` sends. -/
inductive Event where
  | walletCreated (event : WalletCreated)
  | solTransferred (event : SolTransferred)
  | vaultSwept (event : VaultSwept)
  | walletClosed (event : WalletClosed)
  | guardiansSet (event : GuardiansSet)
  | rotationProposed (event : RotationProposed)
  | rotationCancelled (event : RotationCancelled)
  | keyRotated (event : KeyRotated)
  deriving DecidableEq

/-- The field an indexer filters on. -/
def Event.walletId : Event → WalletId
  | walletCreated e => e.walletId
  | solTransferred e => e.walletId
  | vaultSwept e => e.walletId
  | walletClosed e => e.walletId
  | guardiansSet e => e.walletId
  | rotationProposed e => e.walletId
  | rotationCancelled e => e.walletId
  | keyRotated e => e.walletId

end EnclaveKit
