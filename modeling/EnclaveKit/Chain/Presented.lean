import EnclaveKit.Chain.Vault

/-!
# Instructions as a client presents them

What a client does right, for a wallet that exists: it names the wallet's accounts, signs the stored
nonce and the action, and sends it before it expires. `Presented` says so in terms of the chain,
with no reference to any check of the program. That all checks before an effect are then passed is
where the invariants meet: the stored bumps are those of the addresses, the stored id is that of the
accounts, the active key is not the sentinel, and the vault is System's.

What is left for an instruction to be accepted is that its effect has a rule.
-/

namespace EnclaveKit

open Solana MachineInt Fallible

/-- A signed instruction for wallet `w`, stored as `wallet`, the way a client presents it. -/
structure Presented (D : Deployment) (w : WalletId) (wallet : SmartWallet) (inv : Invocation)
    (auth : Authorization) (signer : PublicKey) : Prop where
  wallet_eq : walletAddress D w = some inv.accounts.wallet
  vault_eq : vaultAddress D w = some inv.accounts.vault
  relayerIsSigner : inv.accounts.relayerIsSigner = true
  call_authorization : inv.call.authorization = some auth
  walletId : auth.walletId = w
  nonce : auth.nonce = wallet.nonce
  unexpired : inv.sysvars.unixTimestamp < auth.expiresAt
  /-- The precompile verified the bytes of the call under the key. -/
  signed : ∃ message, inv.call.message = some message ∧ inv.payload = some ⟨signer, message⟩

/-- The wallet with its nonce spent. -/
def SmartWallet.spend (wallet : SmartWallet) : SmartWallet :=
  { wallet with nonce := wallet.nonce + 1 }

/-- What the account checks make of a wallet that is there. -/
def foundContext (chain : Chain) (wallet : SmartWallet) : Context :=
  ⟨chain, wallet, ⟨wallet.stateBump, wallet.vaultBump⟩⟩

/-! ## No refund -/

theorem refundOf_eq_zero {call : Call} {auth : Authorization} (h : call.relayerFee = 0) :
    refundOf call auth = 0 := by
  rw [← UInt64.toNat_inj, refundOf, toNat_min, h]
  exact Nat.zero_min _

/-- A refund of nothing moves nothing. -/
theorem refundMove_eq_nothing {accounts : Accounts} {refund : UInt64} (h : refund = 0) :
    ¬∃ m ∈ [refundMove accounts refund], m.lamports ≠ 0 := by
  rintro ⟨m, hm, hne⟩
  rw [List.mem_singleton] at hm
  rw [hm, h] at hne
  exact hne rfl

section Presented

variable {D : Deployment} {w : WalletId} {chain : Chain} {wallet : SmartWallet} {inv : Invocation}
  {auth : Authorization} {signer : PublicKey}

/-- What is stored of a wallet is well formed, and carries its id. -/
theorem wellFormed_of_stored {a : Pubkey} (hzero : NoZeroKey D) (hdist : DistinctAddresses D w)
    (hreach : (system D).Reachable chain) (ha : walletAddress D w = some a)
    (hstored : stored D chain w = some wallet) :
    (chain a).holding = .owned wallet ∧ WellFormed D a wallet ∧ wallet.walletId = w := by
  rw [stored_eq_stateAt ha, stateAt_eq_some] at hstored
  have hwellFormed := invariant_of_reachable hzero hreach a wallet hstored
  obtain ⟨_, hseeds⟩ := createProgramAddress_of_walletAddress ha
  exact ⟨hstored, hwellFormed, hwellFormed.walletId_eq hdist hseeds⟩

namespace Presented

variable (h : Presented D w wallet inv auth signer)

include h

/-- **Verification is passed.** -/
theorem verified {action : Encoding.Action} (haction : inv.call.action = some action)
    (hkey : wallet.activeKey ≠ zeroKey) (hnonce : wallet.nonce.toNat + 1 < 2 ^ 64)
    (bumps : Bumps) :
    Verified D inv.sysvars wallet auth action bumps wallet.spend signer := by
  have hopened : wallet.isNew = false := SmartWallet.isNew_eq_false.mpr hkey
  obtain ⟨message, hmessage, hpayload⟩ := h.signed
  have hbytes : (auth.preimage action).toBytes = message := by
    simpa [Call.message, h.call_authorization, haction] using hmessage
  rw [← hbytes] at hpayload
  constructor
  · rw [Invocation.payload, h.call_authorization] at hpayload
    split at hpayload
    · rename_i hload
      rw [Option.some_inj] at hpayload
      rw [hload, hpayload]
    · cases hpayload
  · intro hnew
    rw [hopened] at hnew
    cases hnew
  · rw [opened_of_not_isNew hopened]
    exact h.nonce
  · exact h.unexpired
  · rw [opened_of_not_isNew hopened, SmartWallet.spend, UInt64.toNat_add]
    exact Nat.mod_eq_of_lt hnonce
  · rw [opened_of_not_isNew hopened]
    rfl

/-- The seeds the program signs for the vault with. -/
theorem seeds (hwellFormed : WellFormed D inv.accounts.wallet wallet) (hid : wallet.walletId = w) :
    D.createProgramAddress [VAULT_SEED, wallet.walletId.toList, [wallet.vaultBump]] ID
      = some inv.accounts.vault := by
  obtain ⟨v, hv⟩ := hwellFormed.vault
  have haddress : vaultAddress D w = some v := by
    rw [← hid]
    exact vaultAddress_eq_some.mpr ⟨_, hv⟩
  obtain rfl := Option.some_inj.mp (haddress.symm.trans h.vault_eq)
  exact Platform.createProgramAddress_of_find hv

/-- The relayer signs, and nobody signs for a wallet's address. -/
theorem wallet_ne_relayer (hadmitted : Admitted D inv) :
    inv.accounts.wallet ≠ inv.accounts.relayer := by
  intro heq
  obtain ⟨_, hseeds⟩ := createProgramAddress_of_walletAddress h.wallet_eq
  rw [heq] at hseeds
  exact hadmitted.signer h.relayerIsSigner ⟨_, hseeds⟩

/-- **The account checks are passed**, those of the structs that need the wallet there. -/
theorem loads (hadmitted : Admitted D inv) (hcreate : inv.call.mayCreate = false)
    (hfound : (chain inv.accounts.wallet).holding = .owned wallet)
    (hwellFormed : WellFormed D inv.accounts.wallet wallet) (hid : wallet.walletId = w)
    (hsystem : (chain inv.accounts.vault).holding = .system) :
    Loads D inv chain (foundContext chain wallet) := by
  have hwallet := Platform.createProgramAddress_of_find hwellFormed.address
  have hvault := h.seeds hwellFormed hid
  rw [hid, ← h.walletId] at hwallet hvault
  have hexisting : inv.accounts.existing D auth.walletId chain = .ok (foundContext chain wallet) :=
    existing_eq_ok.mpr ⟨wallet, hfound, hsystem, h.relayerIsSigner, hwallet, hvault, rfl⟩
  exact (loads_iff h.call_authorization).mpr
    (.inr ⟨hcreate, hexisting, fun _ _ _ ↦ h.wallet_ne_relayer hadmitted⟩)

/-- **What has an effect is accepted.** An instruction for a wallet that exists, as a client
presents it, is accepted when its effect has a rule. -/
theorem accepts (hzero : NoZeroKey D) (hdist : DistinctAddresses D w)
    (hreach : (system D).Reachable chain) (hstored : stored D chain w = some wallet)
    (hnonce : wallet.nonce.toNat + 1 < 2 ^ 64) (hadmitted : Admitted D inv)
    (hcreate : inv.call.mayCreate = false) {after : Option SmartWallet} {moves : List Move}
    {event : Event} (henacts : Enacts D inv auth chain wallet.spend signer after moves event)
    (hfits : (∃ m ∈ moves, m.lamports ≠ 0) → chain.SupplyFits) :
    EnclaveKit.accepts D chain inv = true := by
  obtain ⟨hfound, hwellFormed, hid⟩ := wellFormed_of_stored hzero hdist hreach h.wallet_eq hstored
  have hsystem := system_of_stored hzero hdist h.vault_eq hreach hstored
  obtain ⟨action, haction⟩ : ∃ action, inv.call.action = some action := by
    obtain ⟨message, hmessage, -⟩ := h.signed
    simp only [Call.message, Option.bind_eq_bind, Option.bind_eq_some_iff] at hmessage
    obtain ⟨_, -, action, haction, -⟩ := hmessage
    exact ⟨action, haction⟩
  have henabled : Enabled D inv chain (foundContext chain wallet) auth action wallet.spend signer
      after moves event := {
    call_action := haction
    loads := h.loads hadmitted hcreate hfound hwellFormed hid hsystem
    verified := h.verified haction hwellFormed.activeKey hnonce _
    enacts := henacts
    seeds := h.seeds hwellFormed hid
    system := hsystem
    fits := hfits }
  obtain ⟨chain', haccepted, -⟩ := henabled.execute
  rw [EnclaveKit.accepts, haccepted]

/-- **A guardian's proposal**, for nothing, is accepted when the slot is free for it. Where the
guardian's key is the active key, it is a rotation, and the slot does not matter. -/
theorem accepts_propose (hzero : NoZeroKey D) (hdist : DistinctAddresses D w)
    (hreach : (system D).Reachable chain) (hstored : stored D chain w = some wallet)
    (hnonce : wallet.nonce.toNat + 1 < 2 ^ 64) (hadmitted : Admitted D inv) {newKey : PublicKey}
    (call : inv.call = .proposeRotation auth newKey 0) (hnonzero : newKey ≠ zeroKey) {slot : ℕ}
    (hslot : wallet.p256Guardian signer = some slot)
    (hfree : mayPropose D wallet slot inv.sysvars.unixTimestamp = true) :
    EnclaveKit.accepts D chain inv = true := by
  have hrefund : refundOf inv.call auth = 0 := refundOf_eq_zero (by rw [call]; rfl)
  have hcovered : (refundOf inv.call auth).toNat ≤ chain.balance inv.accounts.vault := by
    rw [hrefund]
    exact Nat.zero_le _
  have hcreate : inv.call.mayCreate = false := by rw [call]; rfl
  by_cases howner : signer = wallet.activeKey
  · exact h.accepts hzero hdist hreach hstored hnonce hadmitted hcreate
      (.rotate call hnonzero howner hcovered)
      fun hsome ↦ absurd hsome (refundMove_eq_nothing hrefund)
  · exact h.accepts hzero hdist hreach hstored hnonce hadmitted hcreate
      (.propose call hnonzero howner hslot hfree rfl hcovered)
      fun hsome ↦ absurd hsome (refundMove_eq_nothing hrefund)

end Presented

end Presented

end EnclaveKit
