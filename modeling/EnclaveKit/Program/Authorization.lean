import EnclaveKit.Encoding.Preimage
import EnclaveKit.Program.Precompile

/-!
# Authorization

The helpers every signed instruction goes through: checking what the enclave signed, checking who
signed it, and paying from the vault.

Verification returns the signer without asking whether it is anyone's key. It may also *open* the
wallet, when the account was created in this very instruction: it then trusts the signer whose hash
is the wallet's id. `Verified` records everything a successful verification establishes, and is what
the instructions are reasoned about with.
-/

namespace EnclaveKit

open Solana MachineInt Fallible

/-- `dG4h3aizVEW1bKjzkGsfk6zqcfa2MVn2DjavPniesSY`. -/
def ID : Pubkey :=
  #v[0x09, 0x49, 0xf1, 0x0e, 0x58, 0x96, 0x43, 0xe6, 0xe6, 0x9b, 0x01, 0x23, 0x74, 0x5a, 0x51, 0x51,
    0xbf, 0x9c, 0x87, 0xc5, 0x58, 0x22, 0x40, 0xb2, 0x01, 0xc0, 0x3b, 0x5b, 0x4e, 0xd4, 0xe6, 0x49]

/-- A build of the program, on a platform. -/
structure Deployment extends Platform where
  build : Build

/-- All accounts, with the program's states decoded. -/
abbrev Chain := Ledger SmartWallet

/-- What an instruction reads of the sysvars. -/
structure Sysvars where
  /-- The instruction before this one, if any. -/
  previous : Option Instruction
  unixTimestamp : Int64

/-- The signed header. -/
structure Authorization where
  walletId : WalletId
  nonce : UInt64
  expiresAt : Int64
  maxRelayerFee : UInt64
  deriving DecidableEq

/-- The preimage the program expects to have been signed. -/
def Authorization.preimage (auth : Authorization) (action : Encoding.Action) :
    Encoding.Preimage where
  programId := ID
  walletId := auth.walletId
  nonce := auth.nonce
  expiresAt := auth.expiresAt
  maxRelayerFee := auth.maxRelayerFee
  action := action

/-- The bumps of the state and of the vault. -/
structure Bumps where
  wallet : UInt8
  vault : UInt8

/-- The state the first action writes. -/
def SmartWallet.created (walletId : WalletId) (key : PublicKey) (bumps : Bumps) :
    SmartWallet where
  walletId := walletId
  activeKey := key
  nonce := 0
  attested := false
  guardians := Vector.replicate MAX_GUARDIANS GuardianSlot.EMPTY
  rotation := RotationSlot.EMPTY
  stateBump := bumps.wallet
  vaultBump := bumps.vault

/-! ## Verification -/

/-- The wallet, initialised if it is new. -/
def openWallet (D : Deployment) (wallet : SmartWallet) (auth : Authorization) (pubkey : PublicKey)
    (bumps : Bumps) : Except Error SmartWallet :=
  if wallet.isNew then do
    require (D.sha256 pubkey.toList = auth.walletId) EnclaveKitError.walletIdMismatch
    pure (SmartWallet.created auth.walletId pubkey bumps)
  else
    pure wallet

/-- Returns the wallet with its nonce spent, and the key that signed. -/
def verifyEnclaveAuthorization (D : Deployment) (sysvars : Sysvars) (wallet : SmartWallet)
    (auth : Authorization) (action : Encoding.Action) (bumps : Bumps) :
    Except Error (SmartWallet × PublicKey) := do
  let payload ← loadSecp256r1Payload sysvars.previous
  let wallet ← openWallet D wallet auth payload.pubkey bumps
  require (auth.nonce = wallet.nonce) EnclaveKitError.nonceMismatch
  require (sysvars.unixTimestamp < auth.expiresAt) EnclaveKitError.authorizationExpired
  require ((auth.preimage action).toBytes = payload.message) EnclaveKitError.preimageMismatch
  let nonce ← okOr (checkedAdd wallet.nonce 1) .arithmeticOverflow
  pure ({ wallet with nonce := nonce }, payload.pubkey)

/-- The wallet verification checks the header against. -/
def opened (wallet : SmartWallet) (auth : Authorization) (pubkey : PublicKey) (bumps : Bumps) :
    SmartWallet :=
  if wallet.isNew then SmartWallet.created auth.walletId pubkey bumps else wallet

theorem opened_of_isNew {wallet : SmartWallet} (h : wallet.isNew = true) (auth : Authorization)
    (pubkey : PublicKey) (bumps : Bumps) :
    opened wallet auth pubkey bumps = SmartWallet.created auth.walletId pubkey bumps := if_pos h

theorem opened_of_not_isNew {wallet : SmartWallet} (h : wallet.isNew = false)
    (auth : Authorization) (pubkey : PublicKey) (bumps : Bumps) :
    opened wallet auth pubkey bumps = wallet := by
  rw [opened, h, if_neg Bool.false_ne_true]

theorem openWallet_eq_ok {D : Deployment} {wallet after : SmartWallet} {auth : Authorization}
    {pubkey : PublicKey} {bumps : Bumps} :
    openWallet D wallet auth pubkey bumps = .ok after ↔
      (wallet.isNew = true → D.sha256 pubkey.toList = auth.walletId) ∧
        opened wallet auth pubkey bumps = after := by
  rw [openWallet, opened]
  split_ifs with h
  · simp only [bind_eq_ok, require_eq_ok, pure_eq_ok, exists_const, h, forall_const]
  · simp [pure_eq_ok, h]

/-- Everything a successful verification establishes. -/
structure Verified (D : Deployment) (sysvars : Sysvars) (wallet : SmartWallet)
    (auth : Authorization) (action : Encoding.Action) (bumps : Bumps) (after : SmartWallet)
    (signer : PublicKey) : Prop where
  /-- The key and the message are the precompile's, and the message is the one expected. -/
  payload :
    loadSecp256r1Payload sysvars.previous = .ok ⟨signer, (auth.preimage action).toBytes⟩
  /-- A wallet is opened only by the key its id is the hash of. -/
  creator : wallet.isNew = true → D.sha256 signer.toList = auth.walletId
  nonce_eq : auth.nonce = (opened wallet auth signer bumps).nonce
  unexpired : sysvars.unixTimestamp < auth.expiresAt
  nonce_after : after.nonce.toNat = (opened wallet auth signer bumps).nonce.toNat + 1
  after_eq : after = { opened wallet auth signer bumps with nonce := after.nonce }

/-- **Verification.** It succeeds exactly when all of this holds. -/
theorem verifyEnclaveAuthorization_eq_ok {D : Deployment} {sysvars : Sysvars}
    {wallet after : SmartWallet} {auth : Authorization} {action : Encoding.Action} {bumps : Bumps}
    {signer : PublicKey} :
    verifyEnclaveAuthorization D sysvars wallet auth action bumps = .ok (after, signer) ↔
      Verified D sysvars wallet auth action bumps after signer := by
  simp only [verifyEnclaveAuthorization, bind_eq_ok, okOr_eq_ok, require_eq_ok, pure_eq_ok,
    exists_const, openWallet_eq_ok, checkedAdd_eq_some, Prod.mk.injEq]
  constructor
  · rintro ⟨⟨pubkey, message⟩, hload, w, ⟨hcreator, rfl⟩, hnonce, hexp, rfl, nonce, hsucc, rfl, rfl⟩
    exact ⟨hload, hcreator, hnonce, hexp, hsucc, rfl⟩
  · intro h
    exact ⟨_, h.payload, _, ⟨h.creator, rfl⟩, h.nonce_eq, h.unexpired, rfl, _, h.nonce_after,
      h.after_eq.symm, rfl⟩

/-- For instructions only the active key may authorise. -/
def requireActiveKey (wallet : SmartWallet) (signer : PublicKey) : Except Error Unit :=
  require (signer = wallet.activeKey) EnclaveKitError.keyMismatch

@[simp] theorem requireActiveKey_eq_ok {wallet : SmartWallet} {signer : PublicKey} {u : Unit} :
    requireActiveKey wallet signer = .ok u ↔ signer = wallet.activeKey := require_eq_ok

/-! ## Payments -/

/-- Moves lamports out of the vault, signed with its seeds. -/
def transferFromVault (D : Deployment) (chain : Chain) (wallet : SmartWallet)
    (vault dest : Pubkey) (lamports : UInt64) : Except Error Chain := do
  require
    (D.createProgramAddress [VAULT_SEED, wallet.walletId.toList, [wallet.vaultBump]] ID
      = some vault)
    .privilegeEscalation
  liftSystem (chain.transfer vault dest lamports)

/-- Pays the relayer back from the vault, never more than the enclave signed. Returns what it
paid. -/
def refundRelayer (D : Deployment) (chain : Chain) (wallet : SmartWallet)
    (vault relayer : Pubkey) (relayerFee maxRelayerFee : UInt64) :
    Except Error (Chain × UInt64) := do
  let refund := min relayerFee maxRelayerFee
  let chain ← transferFromVault D chain wallet vault relayer refund
  pure (chain, refund)

/-- A payment out of the vault moves exactly the amount, and touches nothing but balances. -/
structure Paid (D : Deployment) (wallet : SmartWallet) (chain : Chain) (vault dest : Pubkey)
    (lamports : UInt64) (after : Chain) : Prop where
  /-- The program signs for the vault of the wallet it holds. -/
  seeds : D.createProgramAddress [VAULT_SEED, wallet.walletId.toList, [wallet.vaultBump]] ID
    = some vault
  covered : lamports.toNat ≤ chain.balance vault
  moved : chain.Moved [⟨vault, dest, lamports.toNat⟩] after
  holding : ∀ a, (after a).holding = (chain a).holding

theorem paid_of_transferFromVault {D : Deployment} {chain after : Chain} {wallet : SmartWallet}
    {vault dest : Pubkey} {lamports : UInt64}
    (h : transferFromVault D chain wallet vault dest lamports = .ok after) :
    Paid D wallet chain vault dest lamports after := by
  simp only [transferFromVault, bind_eq_ok, require_eq_ok, exists_const, liftSystem_eq_ok] at h
  obtain ⟨-, hcovered, hmoved, hholding⟩ := Ledger.transfer_eq_ok h.2
  exact ⟨h.1, hcovered, hmoved, hholding⟩

theorem paid_of_refundRelayer {D : Deployment} {chain after : Chain} {wallet : SmartWallet}
    {vault relayer : Pubkey} {relayerFee maxRelayerFee refund : UInt64}
    (h : refundRelayer D chain wallet vault relayer relayerFee maxRelayerFee
      = .ok (after, refund)) :
    refund = min relayerFee maxRelayerFee ∧ Paid D wallet chain vault relayer refund after := by
  simp only [refundRelayer, bind_eq_ok, pure_eq_ok, Prod.mk.injEq] at h
  obtain ⟨_, htransfer, rfl, rfl⟩ := h
  exact ⟨rfl, paid_of_transferFromVault htransfer⟩

end EnclaveKit
