import EnclaveKit.Program.Accounts

/-!
# The instructions

The seven handlers, one section for each, and the entry points that emit their events. A handler
takes the context its accounts struct made and returns what it leaves in memory: the wallet, the
ledger, and its event. The entry point then emits the events, `WalletCreated` first where the
account was new, and writes the wallet back. Only `close_wallet` gives the account up instead.

`execute` is one instruction of a transaction: it fails and changes nothing, or it succeeds and the
ledger and the events are these.
-/

namespace EnclaveKit

open Solana MachineInt Fallible

/-- What a handler leaves. -/
structure Outcome (ε : Type) where
  wallet : SmartWallet
  chain : Chain
  event : ε

/-! ## `transfer_sol` -/

def TransferSol.transfer (D : Deployment) (sysvars : Sysvars) (accounts : Accounts) (ctx : Context)
    (authorization : Authorization) (dest : Pubkey) (lamports relayerFee : UInt64) :
    Except Error (Outcome SolTransferred) := do
  let action := Encoding.Action.transferSol dest lamports
  let (wallet, signer) ←
    verifyEnclaveAuthorization D sysvars ctx.wallet authorization action ctx.bumps
  requireActiveKey wallet signer
  -- Against the cap the user signed, not the refund the relayer asks.
  let rent := D.minimumBalance 0
  let required ← okOr
    (do checkedAdd (← checkedAdd lamports authorization.maxRelayerFee) rent) .arithmeticOverflow
  require (required ≤ (ctx.chain accounts.vault).lamports)
    EnclaveKitError.insufficientVaultBalance
  let chain ← transferFromVault D ctx.chain wallet accounts.vault dest lamports
  let (chain, refund) ← refundRelayer D chain wallet accounts.vault accounts.relayer relayerFee
    authorization.maxRelayerFee
  pure {
    wallet := wallet
    chain := chain
    event := {
      walletId := wallet.walletId, dest := dest, lamports := lamports, relayerFee := refund } }

/-! ## `sweep_vault` -/

def SweepVault.sweep (D : Deployment) (sysvars : Sysvars) (accounts : Accounts) (ctx : Context)
    (authorization : Authorization) (dest : Pubkey) (relayerFee : UInt64) :
    Except Error (Outcome VaultSwept) := do
  let action := Encoding.Action.sweepVault dest
  let (wallet, signer) ←
    verifyEnclaveAuthorization D sysvars ctx.wallet authorization action ctx.bumps
  requireActiveKey wallet signer
  let refund := min relayerFee authorization.maxRelayerFee
  let balance := (ctx.chain accounts.vault).lamports
  require (refund ≤ balance) EnclaveKitError.insufficientVaultBalance
  let lamports ← okOr (checkedSub balance refund) .overflow
  let chain ← transferFromVault D ctx.chain wallet accounts.vault dest lamports
  let (chain, _) ← refundRelayer D chain wallet accounts.vault accounts.relayer relayerFee
    authorization.maxRelayerFee
  pure {
    wallet := wallet
    chain := chain
    event := {
      walletId := wallet.walletId, dest := dest, lamports := lamports, relayerFee := refund } }

/-! ## `set_guardians` -/

def Guardian.isWebAuthn : Guardian → Bool
  | webAuthn _ => true
  | _ => false

def SetGuardians.setGuardians (D : Deployment) (sysvars : Sysvars) (accounts : Accounts)
    (ctx : Context) (authorization : Authorization) (guardians : Vector Guardian MAX_GUARDIANS)
    (relayerFee : UInt64) : Except Error (Outcome GuardiansSet) := do
  let action := Encoding.Action.setGuardians (guardians.map Guardian.toEncoding)
  let (wallet, signer) ←
    verifyEnclaveAuthorization D sysvars ctx.wallet authorization action ctx.bumps
  requireActiveKey wallet signer
  require (guardians.any Guardian.isWebAuthn = false) EnclaveKitError.webAuthnGuardianUnsupported
  -- The whole list is replaced, and the rotation goes with it.
  let wallet := {
    wallet with guardians := guardians.map GuardianSlot.ofGuardian, rotation := RotationSlot.EMPTY }
  let (chain, _) ← refundRelayer D ctx.chain wallet accounts.vault accounts.relayer relayerFee
    authorization.maxRelayerFee
  pure {
    wallet := wallet
    chain := chain
    event := { walletId := wallet.walletId, guardians := guardians } }

/-! ## `cancel_rotation` -/

def CancelRotation.cancel (D : Deployment) (sysvars : Sysvars) (accounts : Accounts) (ctx : Context)
    (authorization : Authorization) (relayerFee : UInt64) :
    Except Error (Outcome RotationCancelled) := do
  let action := Encoding.Action.cancelRotation
  let (wallet, signer) ←
    verifyEnclaveAuthorization D sysvars ctx.wallet authorization action ctx.bumps
  requireActiveKey wallet signer
  let (taken, rotation) := wallet.rotation.take
  let wallet := { wallet with rotation := rotation }
  let cancelled ← okOr taken (EnclaveKitError.noPendingRotation : Error)
  let (chain, _) ← refundRelayer D ctx.chain wallet accounts.vault accounts.relayer relayerFee
    authorization.maxRelayerFee
  pure {
    wallet := wallet
    chain := chain
    event := { walletId := wallet.walletId, newKey := cancelled.newKey } }

/-! ## `propose_rotation` -/

/-- What a proposal did, depending on who signed it. -/
inductive Proposal where
  /-- The active key moved the wallet at once. -/
  | rotated (event : KeyRotated)
  /-- A guardian started the timelock. -/
  | pending (event : RotationProposed)

/-- A guardian may replace its own proposal, never another's, unless that one ran out of its
window. -/
def mayPropose (D : Deployment) (wallet : SmartWallet) (slot : ℕ) (now : Int64) : Bool :=
  wallet.rotation.get.all fun pending ↦
    pending.proposedBy.toNat = slot || pending.isExpired D.build now

theorem mayPropose_eq_true {D : Deployment} {wallet : SmartWallet} {slot : ℕ} {now : Int64} :
    mayPropose D wallet slot now = true ↔ ∀ pending, wallet.rotation.get = some pending →
      pending.proposedBy.toNat = slot ∨ pending.closesAt D.build < now := by
  rw [mayPropose, Option.all_eq_true]
  simp

/-- The two branches of a proposal, after verification. -/
def ProposeRotation.decide (D : Deployment) (sysvars : Sysvars) (wallet : SmartWallet)
    (signer newKey : PublicKey) : Except Error (SmartWallet × Proposal) :=
  if signer = wallet.activeKey then
    -- The owner still holds the key: no timelock.
    pure (
      { wallet with activeKey := newKey, attested := false, rotation := RotationSlot.EMPTY },
      .rotated { walletId := wallet.walletId, newKey := newKey, recovery := false })
  else do
    let slot ← okOr (wallet.p256Guardian signer) (EnclaveKitError.notAGuardian : Error)
    let now := sysvars.unixTimestamp
    require (mayPropose D wallet slot now = true) EnclaveKitError.rotationSlotTaken
    let pending := { newKey := newKey, proposedAt := now, proposedBy := UInt8.ofNat slot }
    pure (
      { wallet with rotation := RotationSlot.new pending },
      .pending {
        walletId := wallet.walletId
        newKey := newKey
        guardian := signer
        opensAt := pending.opensAt D.build })

def ProposeRotation.propose (D : Deployment) (sysvars : Sysvars) (accounts : Accounts)
    (ctx : Context) (authorization : Authorization) (newKey : PublicKey) (relayerFee : UInt64) :
    Except Error (Outcome Proposal) := do
  -- An all-zero active key means "never used" to verification.
  require (newKey ≠ zeroKey) EnclaveKitError.invalidNewKey
  let action := Encoding.Action.proposeRotation newKey
  let (wallet, signer) ←
    verifyEnclaveAuthorization D sysvars ctx.wallet authorization action ctx.bumps
  let (wallet, proposal) ← ProposeRotation.decide D sysvars wallet signer newKey
  let (chain, _) ← refundRelayer D ctx.chain wallet accounts.vault accounts.relayer relayerFee
    authorization.maxRelayerFee
  pure { wallet := wallet, chain := chain, event := proposal }

/-! ## `confirm_rotation` -/

/-- Permissionless: no precompile, no signed preimage, no nonce, no refund. -/
def ConfirmRotation.confirm (D : Deployment) (sysvars : Sysvars) (wallet : SmartWallet) :
    Except Error (SmartWallet × KeyRotated) := do
  let pending ← okOr wallet.rotation.get (EnclaveKitError.noPendingRotation : Error)
  let now := sysvars.unixTimestamp
  require (pending.opensAt D.build ≤ now) EnclaveKitError.rotationTooEarly
  require (pending.isExpired D.build now = false) EnclaveKitError.rotationExpired
  let wallet := {
    wallet with activeKey := pending.newKey, attested := false, rotation := RotationSlot.EMPTY }
  pure (wallet, { walletId := wallet.walletId, newKey := pending.newKey, recovery := true })

/-! ## `close_wallet` -/

def CloseWallet.close (D : Deployment) (sysvars : Sysvars) (accounts : Accounts) (ctx : Context)
    (authorization : Authorization) (dest : Pubkey) (relayerFee : UInt64) :
    Except Error (Outcome WalletClosed) := do
  let action := Encoding.Action.closeWallet dest
  let (wallet, signer) ←
    verifyEnclaveAuthorization D sysvars ctx.wallet authorization action ctx.bumps
  requireActiveKey wallet signer
  -- Capped by the balance too, unlike any other action.
  let balance := (ctx.chain accounts.vault).lamports
  let refund := min (min relayerFee authorization.maxRelayerFee) balance
  let lamports ← okOr (checkedSub balance refund) .overflow
  let chain ← transferFromVault D ctx.chain wallet accounts.vault dest lamports
  let chain ← transferFromVault D chain wallet accounts.vault accounts.relayer refund
  pure {
    wallet := wallet
    chain := chain
    event := {
      walletId := wallet.walletId, dest := dest, lamports := lamports, relayerFee := refund } }

/-! ## Entry points -/

/-- An instruction with its arguments. The account `to` is the argument `dest` of those that take
it. -/
inductive Call where
  | transferSol (authorization : Authorization) (dest : Pubkey) (lamports relayerFee : UInt64)
  | setGuardians (authorization : Authorization) (guardians : Vector Guardian MAX_GUARDIANS)
      (relayerFee : UInt64)
  | cancelRotation (authorization : Authorization) (relayerFee : UInt64)
  | proposeRotation (authorization : Authorization) (newKey : PublicKey) (relayerFee : UInt64)
  | confirmRotation (walletId : WalletId)
  | sweepVault (authorization : Authorization) (dest : Pubkey) (relayerFee : UInt64)
  | closeWallet (authorization : Authorization) (dest : Pubkey) (relayerFee : UInt64)
  deriving DecidableEq

/-- One instruction as the runtime hands it to the program. -/
structure Invocation where
  call : Call
  accounts : Accounts
  sysvars : Sysvars

/-- The account goes out as the handler left it. -/
def writeBack (accounts : Accounts) (chain : Chain) (wallet : SmartWallet) : Chain :=
  chain.setHolding accounts.wallet (.owned wallet)

/-- `WalletCreated`, when the account was new. -/
def createdEvents (created : Bool) (walletId : WalletId) (wallet : SmartWallet) : List Event :=
  if created then [.walletCreated { walletId := walletId, key := wallet.activeKey }] else []

/-- One instruction. -/
def execute (D : Deployment) (inv : Invocation) (chain : Chain) :
    Except Error (Chain × List Event) :=
  let accounts := inv.accounts
  let sysvars := inv.sysvars
  match inv.call with
  | .transferSol authorization dest lamports relayerFee => do
    let ctx ← accounts.initialized D authorization.walletId chain
    let created := ctx.wallet.isNew
    let out ←
      TransferSol.transfer D sysvars accounts ctx authorization dest lamports relayerFee
    pure (writeBack accounts out.chain out.wallet,
      createdEvents created authorization.walletId out.wallet ++ [.solTransferred out.event])
  | .setGuardians authorization guardians relayerFee => do
    let ctx ← accounts.initialized D authorization.walletId chain
    let created := ctx.wallet.isNew
    let out ←
      SetGuardians.setGuardians D sysvars accounts ctx authorization guardians relayerFee
    pure (writeBack accounts out.chain out.wallet,
      createdEvents created authorization.walletId out.wallet ++ [.guardiansSet out.event])
  | .cancelRotation authorization relayerFee => do
    let ctx ← accounts.existing D authorization.walletId chain
    let out ← CancelRotation.cancel D sysvars accounts ctx authorization relayerFee
    pure (writeBack accounts out.chain out.wallet, [.rotationCancelled out.event])
  | .proposeRotation authorization newKey relayerFee => do
    let ctx ← accounts.existing D authorization.walletId chain
    let out ← ProposeRotation.propose D sysvars accounts ctx authorization newKey relayerFee
    match out.event with
    | .rotated event => pure (writeBack accounts out.chain out.wallet, [.keyRotated event])
    | .pending event => pure (writeBack accounts out.chain out.wallet, [.rotationProposed event])
  | .confirmRotation walletId => do
    let wallet ← accounts.confirming D walletId chain
    let (wallet, event) ← ConfirmRotation.confirm D sysvars wallet
    pure (writeBack accounts chain wallet, [.keyRotated event])
  | .sweepVault authorization dest relayerFee => do
    let ctx ← accounts.initialized D authorization.walletId chain
    let created := ctx.wallet.isNew
    let out ← SweepVault.sweep D sysvars accounts ctx authorization dest relayerFee
    pure (writeBack accounts out.chain out.wallet,
      createdEvents created authorization.walletId out.wallet ++ [.vaultSwept out.event])
  | .closeWallet authorization dest relayerFee => do
    let ctx ← accounts.closing D authorization.walletId chain
    let out ← CloseWallet.close D sysvars accounts ctx authorization dest relayerFee
    let chain ← liftSystem (out.chain.close accounts.wallet accounts.relayer)
    pure (chain, [.walletClosed out.event])

/-! ## Reading an instruction -/

namespace Call

/-- The signed header; `confirm_rotation` has none. -/
def authorization : Call → Option Authorization
  | transferSol auth _ _ _ => some auth
  | setGuardians auth _ _ => some auth
  | cancelRotation auth _ => some auth
  | proposeRotation auth _ _ => some auth
  | confirmRotation _ => none
  | sweepVault auth _ _ => some auth
  | closeWallet auth _ _ => some auth

/-- The action the handler expects to have been signed. -/
def action : Call → Option Encoding.Action
  | transferSol _ dest lamports _ => some (.transferSol dest lamports)
  | setGuardians _ guardians _ => some (.setGuardians (guardians.map Guardian.toEncoding))
  | cancelRotation _ _ => some .cancelRotation
  | proposeRotation _ newKey _ => some (.proposeRotation newKey)
  | confirmRotation _ => none
  | sweepVault _ dest _ => some (.sweepVault dest)
  | closeWallet _ dest _ => some (.closeWallet dest)

/-- The bytes that have to be signed. -/
def message (call : Call) : Option (List UInt8) := do
  let auth ← call.authorization
  let action ← call.action
  some (auth.preimage action).toBytes

/-- The argument every instruction has. -/
def walletId : Call → WalletId
  | confirmRotation walletId => walletId
  | transferSol auth _ _ _ => auth.walletId
  | setGuardians auth _ _ => auth.walletId
  | cancelRotation auth _ => auth.walletId
  | proposeRotation auth _ _ => auth.walletId
  | sweepVault auth _ _ => auth.walletId
  | closeWallet auth _ _ => auth.walletId

/-- The account `to` of an instruction that pays to one. -/
def dest : Call → Option Pubkey
  | transferSol _ dest _ _ => some dest
  | sweepVault _ dest _ => some dest
  | closeWallet _ dest _ => some dest
  | _ => none

/-- What the relayer asks to be paid. -/
def relayerFee : Call → UInt64
  | transferSol _ _ _ fee => fee
  | setGuardians _ _ fee => fee
  | cancelRotation _ fee => fee
  | proposeRotation _ _ fee => fee
  | confirmRotation _ => 0
  | sweepVault _ _ fee => fee
  | closeWallet _ _ fee => fee

/-- Whether the accounts struct has `init_if_needed`. -/
def mayCreate : Call → Bool
  | transferSol _ _ _ _ | setGuardians _ _ _ | sweepVault _ _ _ => true
  | _ => false

theorem walletId_of_authorization {call : Call} {auth : Authorization}
    (h : call.authorization = some auth) : call.walletId = auth.walletId := by
  cases call <;> cases h <;> rfl

end Call

/-- What the precompile verified for a signed instruction. -/
def Invocation.payload (inv : Invocation) : Option SignedPayload :=
  match inv.call.authorization, loadSecp256r1Payload inv.sysvars.previous with
  | some _, .ok payload => some payload
  | _, _ => none

/-- The verified key. -/
def Invocation.signer (inv : Invocation) : Option PublicKey := inv.payload.map (·.pubkey)

theorem Invocation.signed_of_payload {inv : Invocation} {payload : SignedPayload}
    (h : inv.payload = some payload) : inv.call.authorization ≠ none := by
  intro hnone
  rw [Invocation.payload, hnone] at h
  cases h

theorem Invocation.signer_of_payload {inv : Invocation} {payload : SignedPayload}
    (h : inv.payload = some payload) : inv.signer = some payload.pubkey := by
  rw [Invocation.signer, h, Option.map_some]

end EnclaveKit
