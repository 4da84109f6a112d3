import EnclaveKit.Chain.Transaction

/-!
# Requests

The client's side: one call, what the enclave signs for it, and what the relayer sends. A request is
a plain record; `EnclaveRequest` says what it signs and how it is sent, and the signed pair comes
for free. That the three belong together is `LawfulEnclaveRequest`: the instruction is that of one
call, whose header and action are what is signed.

The client finds the addresses itself. It has no instruction where a search for a bump fails.
-/

namespace EnclaveKit

open Solana

/-! ## Keys -/

/-- A P-256 key standing in for the Secure Enclave. Its signatures have a low `s`. -/
structure EnclaveKey where
  compressedPubkey : PublicKey
  sign : List UInt8 → Vector UInt8 P256_SIGNATURE_LEN

namespace EnclaveKey

/-- The wallet identity the program expects on first use. -/
def walletId (D : Deployment) (key : EnclaveKey) : WalletId := D.sha256 key.compressedPubkey.toList

/-- Signs a message and wraps it in the precompile instruction. -/
def precompileInstruction (key : EnclaveKey) (message : List UInt8) : TransactionInstruction where
  programId := SECP256R1_PROGRAM_ID
  accounts := []
  data := (newSecp256r1Instruction message (key.sign message) key.compressedPubkey).data

/-- The precompile accepts the signature of a message. -/
def SignsFor (D : Deployment) (key : EnclaveKey) (message : List UInt8) : Prop :=
  D.verifySecp256r1 key.compressedPubkey.toList (key.sign message).toList message = true

end EnclaveKey

/-! ## Instructions -/

/-- The instruction of a call, to the wallet's own addresses and with the relayer as a signer. -/
def requestInstruction (D : Deployment) (relayer : Pubkey) (call : Call) :
    Option TransactionInstruction := do
  let wallet ← walletAddress D call.walletId
  let vault ← vaultAddress D call.walletId
  let authority ← eventAuthority D
  some (call.instruction ⟨wallet, vault, relayer, true⟩ authority)

/-- `confirm_rotation` alone: nothing to sign, anyone may send it. -/
def confirmRotationInstruction (D : Deployment) (walletId : WalletId) :
    Option TransactionInstruction := do
  let wallet ← walletAddress D walletId
  let authority ← eventAuthority D
  some ((Call.confirmRotation walletId).instruction ⟨wallet, wallet, wallet, false⟩ authority)

/-! ## From an action

The generator of the published vectors starts from what is signed. -/

/-- The call that executes an action under a header. No instruction performs a token transfer. -/
def Call.ofAction (auth : Authorization) (relayerFee : UInt64) : Encoding.Action → Option Call
  | .transferSol dest lamports => some (.transferSol auth dest lamports relayerFee)
  | .transferToken _ _ _ => none
  | .proposeRotation newKey => some (.proposeRotation auth newKey relayerFee)
  | .cancelRotation => some (.cancelRotation auth relayerFee)
  | .setGuardians guardians =>
    some (.setGuardians auth (guardians.map Guardian.ofEncoding) relayerFee)
  | .sweepVault dest => some (.sweepVault auth dest relayerFee)
  | .closeWallet dest => some (.closeWallet auth dest relayerFee)

/-- The instruction that executes an action, signed under a header. -/
def programInstruction (D : Deployment) (relayer : Pubkey) (auth : Authorization)
    (relayerFee : UInt64) (action : Encoding.Action) : Option TransactionInstruction :=
  (Call.ofAction auth relayerFee action).bind (requestInstruction D relayer)

/-- **A call is its header, its action and what the relayer asks.** -/
theorem Call.ofAction_eq_some {auth : Authorization} {relayerFee : UInt64}
    {action : Encoding.Action} {call : Call} :
    ofAction auth relayerFee action = some call ↔
      call.authorization = some auth ∧ call.action = some action ∧
        call.relayerFee = relayerFee := by
  have hguardians : ∀ guardians : Vector Guardian MAX_GUARDIANS,
      (guardians.map Guardian.toEncoding).map Guardian.ofEncoding = guardians := by
    intro guardians
    rw [Vector.map_map]
    refine (Vector.map_congr_left fun g _ ↦ Guardian.ofEncoding_toEncoding g).trans ?_
    exact Vector.map_id' guardians
  have hguardians' : ∀ guardians : Vector Encoding.Guardian MAX_GUARDIANS,
      (guardians.map Guardian.ofEncoding).map Guardian.toEncoding = guardians := by
    intro guardians
    rw [Vector.map_map]
    refine (Vector.map_congr_left fun g _ ↦ Guardian.toEncoding_ofEncoding g).trans ?_
    exact Vector.map_id' guardians
  constructor
  · intro h
    cases action <;> cases h <;> simp [authorization, Call.action, Call.relayerFee, hguardians']
  · rintro ⟨hauth, haction, rfl⟩
    cases call <;> cases hauth <;> cases haction <;> simp [ofAction, Call.relayerFee, hguardians]

/-! ## Requests -/

/-- One enclave-authorised call: what the enclave signs and what the relayer sends. -/
class EnclaveRequest (ρ : Type) where
  /-- The signed header: wallet, nonce, expiry, fee cap. -/
  authorization : ρ → Authorization
  /-- The action the enclave signs, as the program will rebuild it. -/
  action : ρ → Encoding.Action
  /-- The program instruction alone. -/
  instruction : Deployment → ρ → Pubkey → Option TransactionInstruction

namespace EnclaveRequest

variable {ρ : Type} [EnclaveRequest ρ]

/-- The bytes the enclave signs. -/
def preimage (request : ρ) : List UInt8 :=
  let auth := authorization request
  ({ programId := ID
     walletId := auth.walletId
     nonce := auth.nonce
     expiresAt := auth.expiresAt
     maxRelayerFee := auth.maxRelayerFee
     action := action request } : Encoding.Preimage).toBytes

theorem length_preimage_lt (request : ρ) : (preimage request).length < 65536 :=
  (Encoding.Preimage.length_toBytes_le _).trans_lt (by decide)

/-- The pair a transaction carries: precompile first, program second. -/
def sign (D : Deployment) (request : ρ) (key : EnclaveKey) (relayer : Pubkey) :
    Option (List TransactionInstruction) :=
  (instruction D request relayer).map fun ix ↦
    [key.precompileInstruction (preimage request), ix]

end EnclaveRequest

/-- The instruction is that of one call, and the call is what is signed. -/
class LawfulEnclaveRequest (ρ : Type) [EnclaveRequest ρ] where
  call : ρ → Call
  call_authorization : ∀ request : ρ,
    (call request).authorization = some (EnclaveRequest.authorization request)
  call_action : ∀ request : ρ, (call request).action = some (EnclaveRequest.action request)
  instruction_eq : ∀ (D : Deployment) (request : ρ) (relayer : Pubkey),
    EnclaveRequest.instruction D request relayer = requestInstruction D relayer (call request)

/-- Everything one `transfer_sol` call needs. -/
structure TransferSolRequest where
  walletId : WalletId
  dest : Pubkey
  lamports : UInt64
  nonce : UInt64
  expiresAt : Int64
  maxRelayerFee : UInt64
  /-- Asked by the relayer, outside the signed bytes. -/
  relayerFee : UInt64

instance : EnclaveRequest TransferSolRequest where
  authorization r := ⟨r.walletId, r.nonce, r.expiresAt, r.maxRelayerFee⟩
  action r := .transferSol r.dest r.lamports
  instruction D r relayer := requestInstruction D relayer <|
    .transferSol ⟨r.walletId, r.nonce, r.expiresAt, r.maxRelayerFee⟩ r.dest r.lamports r.relayerFee

instance : LawfulEnclaveRequest TransferSolRequest where
  call r :=
    .transferSol ⟨r.walletId, r.nonce, r.expiresAt, r.maxRelayerFee⟩ r.dest r.lamports r.relayerFee
  call_authorization _ := rfl
  call_action _ := rfl
  instruction_eq _ _ _ := rfl

/-- Everything one `set_guardians` call needs. -/
structure SetGuardiansRequest where
  walletId : WalletId
  guardians : Vector Guardian MAX_GUARDIANS
  nonce : UInt64
  expiresAt : Int64
  maxRelayerFee : UInt64
  /-- Asked by the relayer, outside the signed bytes. -/
  relayerFee : UInt64

instance : EnclaveRequest SetGuardiansRequest where
  authorization r := ⟨r.walletId, r.nonce, r.expiresAt, r.maxRelayerFee⟩
  action r := .setGuardians (r.guardians.map Guardian.toEncoding)
  instruction D r relayer := requestInstruction D relayer <|
    .setGuardians ⟨r.walletId, r.nonce, r.expiresAt, r.maxRelayerFee⟩ r.guardians r.relayerFee

instance : LawfulEnclaveRequest SetGuardiansRequest where
  call r :=
    .setGuardians ⟨r.walletId, r.nonce, r.expiresAt, r.maxRelayerFee⟩ r.guardians r.relayerFee
  call_authorization _ := rfl
  call_action _ := rfl
  instruction_eq _ _ _ := rfl

/-- Everything one `cancel_rotation` call needs. -/
structure CancelRotationRequest where
  walletId : WalletId
  nonce : UInt64
  expiresAt : Int64
  maxRelayerFee : UInt64
  /-- Asked by the relayer, outside the signed bytes. -/
  relayerFee : UInt64

instance : EnclaveRequest CancelRotationRequest where
  authorization r := ⟨r.walletId, r.nonce, r.expiresAt, r.maxRelayerFee⟩
  action _ := .cancelRotation
  instruction D r relayer := requestInstruction D relayer <|
    .cancelRotation ⟨r.walletId, r.nonce, r.expiresAt, r.maxRelayerFee⟩ r.relayerFee

instance : LawfulEnclaveRequest CancelRotationRequest where
  call r := .cancelRotation ⟨r.walletId, r.nonce, r.expiresAt, r.maxRelayerFee⟩ r.relayerFee
  call_authorization _ := rfl
  call_action _ := rfl
  instruction_eq _ _ _ := rfl

/-- Everything one `propose_rotation` call needs. -/
structure ProposeRotationRequest where
  walletId : WalletId
  newKey : PublicKey
  nonce : UInt64
  expiresAt : Int64
  maxRelayerFee : UInt64
  /-- Asked by the relayer, outside the signed bytes. -/
  relayerFee : UInt64

instance : EnclaveRequest ProposeRotationRequest where
  authorization r := ⟨r.walletId, r.nonce, r.expiresAt, r.maxRelayerFee⟩
  action r := .proposeRotation r.newKey
  instruction D r relayer := requestInstruction D relayer <|
    .proposeRotation ⟨r.walletId, r.nonce, r.expiresAt, r.maxRelayerFee⟩ r.newKey r.relayerFee

instance : LawfulEnclaveRequest ProposeRotationRequest where
  call r :=
    .proposeRotation ⟨r.walletId, r.nonce, r.expiresAt, r.maxRelayerFee⟩ r.newKey r.relayerFee
  call_authorization _ := rfl
  call_action _ := rfl
  instruction_eq _ _ _ := rfl

/-- Everything one `sweep_vault` call needs. -/
structure SweepVaultRequest where
  walletId : WalletId
  dest : Pubkey
  nonce : UInt64
  expiresAt : Int64
  maxRelayerFee : UInt64
  /-- Asked by the relayer, outside the signed bytes. -/
  relayerFee : UInt64

instance : EnclaveRequest SweepVaultRequest where
  authorization r := ⟨r.walletId, r.nonce, r.expiresAt, r.maxRelayerFee⟩
  action r := .sweepVault r.dest
  instruction D r relayer := requestInstruction D relayer <|
    .sweepVault ⟨r.walletId, r.nonce, r.expiresAt, r.maxRelayerFee⟩ r.dest r.relayerFee

instance : LawfulEnclaveRequest SweepVaultRequest where
  call r := .sweepVault ⟨r.walletId, r.nonce, r.expiresAt, r.maxRelayerFee⟩ r.dest r.relayerFee
  call_authorization _ := rfl
  call_action _ := rfl
  instruction_eq _ _ _ := rfl

/-- Everything one `close_wallet` call needs. -/
structure CloseWalletRequest where
  walletId : WalletId
  dest : Pubkey
  nonce : UInt64
  expiresAt : Int64
  maxRelayerFee : UInt64
  /-- Asked by the relayer, outside the signed bytes. -/
  relayerFee : UInt64

instance : EnclaveRequest CloseWalletRequest where
  authorization r := ⟨r.walletId, r.nonce, r.expiresAt, r.maxRelayerFee⟩
  action r := .closeWallet r.dest
  instruction D r relayer := requestInstruction D relayer <|
    .closeWallet ⟨r.walletId, r.nonce, r.expiresAt, r.maxRelayerFee⟩ r.dest r.relayerFee

instance : LawfulEnclaveRequest CloseWalletRequest where
  call r := .closeWallet ⟨r.walletId, r.nonce, r.expiresAt, r.maxRelayerFee⟩ r.dest r.relayerFee
  call_authorization _ := rfl
  call_action _ := rfl
  instruction_eq _ _ _ := rfl

end EnclaveKit
