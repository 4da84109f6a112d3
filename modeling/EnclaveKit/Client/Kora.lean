import EnclaveKit.Chain.Wallet
import EnclaveKit.Client.Request

/-!
# A transfer by way of a relayer node

The repository's example of a whole client: a script that has one transfer sent by Kora, a node that
signs as the relayer. It reads the state, works out what the relayer will advance, has the vault
topped up to a sum of its own reckoning, and signs for the next two minutes.

The chain goes on while the script runs. A `Session` is its part up to the signature, with the steps
of others between its readings; what the node then does with the signed pair is a transaction.
-/

namespace EnclaveKit

open Solana

/-- Steps of others: a run in which the wallet does nothing. -/
def Others (D : Deployment) (w : WalletId) (chain chain' : Chain) : Prop :=
  ∃ tr, (system D).Run chain tr chain' ∧ ∀ label ∈ tr, label.walletId ≠ some w

namespace Kora

open MachineInt

/-- What the wallet sends. -/
def LAMPORTS : UInt64 := 10000000

/-- Left in the vault after the run, above the rent-exempt minimum of an empty account. -/
def VAULT_RESERVE : UInt64 := 5000000

/-- 5000 lamports per signature: the fee payer's and the one the precompile verifies. -/
def TRANSACTION_FEE : UInt64 := 10000

def AUTHORIZATION_TTL : Int64 := 120

/-- `nonce` of the wallet, `none` when the state account does not exist yet. An account that exists
and is no state is an error. -/
def walletNonce (account : Account SmartWallet) : Option (Option UInt64) :=
  match account.holding with
  | .owned state => some (some state.nonce)
  | .system => if account.lamports = 0 then some none else none
  | .foreign => none

/-- What the script reckons with once it has read the state. -/
structure Quote where
  nonce : UInt64
  /-- What the relayer advances: the fee, and the rent of the state on first use. -/
  relayerFee : UInt64
  /-- What the vault has to hold. -/
  needed : UInt64
  deriving DecidableEq

/-- The sums are checked: one that overflows is the end of the script. -/
def quote (D : Deployment) (account : Account SmartWallet) : Option Quote := do
  let nonce ← walletNonce account
  let rent := match nonce with
    | some _ => 0
    | none => D.minimumBalance SmartWallet.SPACE
  let relayerFee ← checkedAdd rent TRANSACTION_FEE
  let spent ← checkedAdd LAMPORTS relayerFee
  let needed ← checkedAdd spent VAULT_RESERVE
  some ⟨nonce.getD 0, relayerFee, needed⟩

/-- What the vault is missing, if anything. -/
def Quote.missing (q : Quote) (held : UInt64) : Option UInt64 :=
  if held < q.needed then some (q.needed - held) else none

/-- System transfer signed by `funder`. -/
def fund (chain : Chain) (funder vault : Pubkey) (lamports : UInt64) : Except SystemError Chain :=
  chain.transfer funder vault lamports

/-- What the enclave signs, at the script's clock. -/
def Quote.request (q : Quote) (D : Deployment) (key : EnclaveKey) (dest : Pubkey) (now : Int64) :
    Option TransferSolRequest :=
  if now.toInt + AUTHORIZATION_TTL.toInt < 2 ^ 63 then
    some {
      walletId := key.walletId D
      dest := dest
      lamports := LAMPORTS
      nonce := q.nonce
      expiresAt := now + AUTHORIZATION_TTL
      maxRelayerFee := q.relayerFee
      relayerFee := q.relayerFee }
  else none

/-- The script up to the signature, among the steps of others. -/
structure Session (D : Deployment) (key : EnclaveKey) (funder dest : Pubkey) (start : Chain) where
  wallet : Pubkey
  vault : Pubkey
  wallet_eq : walletAddress D (key.walletId D) = some wallet
  vault_eq : vaultAddress D (key.walletId D) = some vault
  quote : Quote
  quote_eq : Kora.quote D (start wallet) = some quote
  /-- Where the vault is read. -/
  read : Chain
  reading : Others D (key.walletId D) start read
  /-- Where the vault is funded. -/
  before : Chain
  waiting : Others D (key.walletId D) read before
  funded : Chain
  funding : match quote.missing (read vault).lamports with
    | some lamports => fund before funder vault lamports = .ok funded
    | none => funded = before
  now : Int64
  request : TransferSolRequest
  request_eq : quote.request D key dest now = some request

end Kora

end EnclaveKit
