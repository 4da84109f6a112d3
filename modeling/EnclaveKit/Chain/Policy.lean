import EnclaveKit.Chain.Presented
import EnclaveKit.Chain.Rent

/-!
# The policy of a wallet

What a wallet is for, said without the program: who may order what (`Entitles`), and what the vault
has to hold for it (`Covers`). The program's own account of the same is `Enacts`, one rule for each
thing a handler does. `exists_enacts_iff` says that the two agree: an effect has a rule exactly when
the policy allows it.

The rest of the module is about what comes before the effect, for the instructions that may create
the wallet. `Presented` is what a client does right for a wallet that is there; `First` is the same
for one that is not.
-/

namespace EnclaveKit

open Solana MachineInt Fallible

/-! ## What is allowed -/

/-- Who may order an instruction of a wallet, at a time. -/
def Entitles (D : Deployment) (call : Call) (wallet : SmartWallet) (signer : PublicKey)
    (now : Int64) : Prop :=
  match call with
  | .transferSol _ _ _ _ | .sweepVault _ _ _ | .closeWallet _ _ _ => signer = wallet.activeKey
  | .setGuardians _ guardians _ =>
    signer = wallet.activeKey ∧ guardians.any Guardian.isWebAuthn = false
  | .cancelRotation _ _ =>
    signer = wallet.activeKey ∧ ∃ pending, wallet.rotation.get = some pending
  | .proposeRotation _ newKey _ =>
    newKey ≠ zeroKey ∧ (signer = wallet.activeKey ∨
      ∃ slot, wallet.p256Guardian signer = some slot ∧ mayPropose D wallet slot now = true)
  | .confirmRotation _ => False

/-- What the vault has to hold for an instruction. A transfer leaves the vault rent-exempt and is
measured against the cap; a closing is content with whatever there is. -/
def Covers (D : Deployment) (call : Call) (auth : Authorization) (balance : ℕ) : Prop :=
  match call with
  | .transferSol _ _ lamports _ =>
    lamports.toNat + auth.maxRelayerFee.toNat + (D.minimumBalance 0).toNat ≤ balance
  | .closeWallet _ _ _ => True
  | _ => (refundOf call auth).toNat ≤ balance

section Effects

variable {D : Deployment} {inv : Invocation} {auth : Authorization} {chain : Chain}
  {wallet : SmartWallet} {signer : PublicKey}

/-- An effect is entitled and covered. -/
theorem Enacts.allowed {after : Option SmartWallet} {moves : List Move} {event : Event}
    (h : Enacts D inv auth chain wallet signer after moves event) :
    Entitles D inv.call wallet signer inv.sysvars.unixTimestamp ∧
      Covers D inv.call auth (chain.balance inv.accounts.vault) := by
  cases h with
  | transferSol call owner covered =>
    rw [call]
    exact ⟨owner, covered⟩
  | sweepVault call owner whole =>
    have hcovered : (refundOf inv.call auth).toNat ≤ chain.balance inv.accounts.vault := by omega
    rw [call] at hcovered ⊢
    exact ⟨owner, hcovered⟩
  | setGuardians call owner supported covered =>
    rw [call] at covered ⊢
    exact ⟨⟨owner, supported⟩, covered⟩
  | cancelRotation call owner pending covered =>
    rw [call] at covered ⊢
    exact ⟨⟨owner, _, pending⟩, covered⟩
  | rotate call nonzero owner covered =>
    rw [call] at covered ⊢
    exact ⟨⟨nonzero, .inl owner⟩, covered⟩
  | propose call nonzero _ guardian free _ covered =>
    rw [call] at covered ⊢
    exact ⟨⟨nonzero, .inr ⟨_, guardian, free⟩⟩, covered⟩
  | closeWallet call owner =>
    rw [call]
    exact ⟨owner, trivial⟩

/-- Only a closing pays a refund it was not measured against. -/
theorem Covers.refund_le {balance : ℕ} (h : Covers D inv.call auth balance)
    (hopen : ∀ auth' dest relayerFee, inv.call ≠ .closeWallet auth' dest relayerFee) :
    (refundOf inv.call auth).toNat ≤ balance := by
  have hcap : (refundOf inv.call auth).toNat ≤ auth.maxRelayerFee.toNat := by
    rw [refundOf, toNat_min]
    exact Nat.min_le_right _ _
  cases hcall : inv.call with
  | transferSol =>
    rw [hcall] at h hcap
    have hsum : _ + _ + _ ≤ balance := h
    omega
  | closeWallet => exact absurd hcall (hopen _ _ _)
  | setGuardians | cancelRotation | proposeRotation | confirmRotation | sweepVault =>
    rw [hcall] at h
    exact h

/-- What is left of a balance, as a word. -/
private theorem exists_rest {v : Pubkey} {refund : UInt64}
    (h : refund.toNat ≤ chain.balance v) :
    ∃ lamports : UInt64, chain.balance v = refund.toNat + lamports.toNat :=
  ⟨(chain v).lamports - refund, by
    have hle : refund ≤ (chain v).lamports := UInt64.le_iff_toNat_le.mpr h
    rw [UInt64.toNat_sub_of_le _ _ hle, Ledger.balance]
    rw [Ledger.balance] at h
    omega⟩

/-- A closing that empties the vault finds rent to return, wherever the payments go. -/
private theorem exists_rent {dest : Pubkey} {lamports refund : UInt64}
    (hne : inv.accounts.vault ≠ inv.accounts.wallet) :
    ∃ rent : ℕ, (rent : ℤ) = chain.balance inv.accounts.wallet
      + netChange [vaultMove inv.accounts dest lamports, refundMove inv.accounts refund]
        inv.accounts.wallet := by
  have hnet : 0 ≤ netChange [vaultMove inv.accounts dest lamports,
      refundMove inv.accounts refund] inv.accounts.wallet := by
    refine netChange_nonneg fun m hm ↦ ?_
    simp only [List.mem_cons, List.not_mem_nil, or_false] at hm
    rcases hm with rfl | rfl
    · exact hne
    · exact hne
  exact ⟨_, Int.toNat_of_nonneg (by omega)⟩

/-- **The rules are the policy.** A signed instruction has an effect exactly when the wallet
entitles the signer to it and the vault covers it. -/
theorem exists_enacts_iff (hauth : inv.call.authorization = some auth)
    (hvault : inv.accounts.vault ≠ inv.accounts.wallet)
    (hrelayer : inv.accounts.wallet ≠ inv.accounts.relayer) :
    (∃ after moves event, Enacts D inv auth chain wallet signer after moves event) ↔
      Entitles D inv.call wallet signer inv.sysvars.unixTimestamp ∧
        Covers D inv.call auth (chain.balance inv.accounts.vault) := by
  constructor
  · rintro ⟨after, moves, event, h⟩
    exact h.allowed
  · rintro ⟨hentitled, hcovered⟩
    cases hcall : inv.call with
    | confirmRotation =>
      rw [hcall] at hauth
      cases hauth
    | transferSol auth' dest lamports fee =>
      rw [hcall] at hauth hentitled hcovered
      cases hauth
      exact ⟨_, _, _, .transferSol hcall hentitled hcovered⟩
    | sweepVault auth' dest fee =>
      rw [hcall] at hauth hentitled
      cases hauth
      have hrefund := hcovered.refund_le (by simp [hcall])
      obtain ⟨lamports, hwhole⟩ := exists_rest hrefund
      exact ⟨_, _, _, .sweepVault hcall hentitled hwhole⟩
    | setGuardians auth' guardians fee =>
      rw [hcall] at hauth hentitled
      cases hauth
      have hrefund := hcovered.refund_le (by simp [hcall])
      exact ⟨_, _, _, .setGuardians hcall hentitled.1 hentitled.2 hrefund⟩
    | cancelRotation auth' fee =>
      rw [hcall] at hauth hentitled
      cases hauth
      have hrefund := hcovered.refund_le (by simp [hcall])
      obtain ⟨howner, pending, hpending⟩ := hentitled
      exact ⟨_, _, _, .cancelRotation hcall howner hpending hrefund⟩
    | proposeRotation auth' newKey fee =>
      rw [hcall] at hauth hentitled
      cases hauth
      have hrefund := hcovered.refund_le (by simp [hcall])
      obtain ⟨hnonzero, howner⟩ := hentitled
      -- A key that is both the owner's and a guardian's rotates.
      by_cases hsigner : signer = wallet.activeKey
      · exact ⟨_, _, _, .rotate hcall hnonzero hsigner hrefund⟩
      · rcases howner with howner | ⟨slot, hslot, hfree⟩
        · exact absurd howner hsigner
        · exact ⟨_, _, _, .propose hcall hnonzero hsigner hslot hfree rfl hrefund⟩
    | closeWallet auth' dest fee =>
      rw [hcall] at hauth hentitled
      cases hauth
      have hcapped : (min (refundOf inv.call auth) (chain inv.accounts.vault).lamports).toNat
          = min (refundOf inv.call auth).toNat (chain.balance inv.accounts.vault) := by
        rw [toNat_min]
        rfl
      have hrefund : (min (refundOf inv.call auth) (chain inv.accounts.vault).lamports).toNat
          ≤ chain.balance inv.accounts.vault := by
        rw [hcapped]
        exact Nat.min_le_right _ _
      obtain ⟨lamports, hwhole⟩ := exists_rest hrefund
      obtain ⟨rent, hrent⟩ := exists_rent hvault
      exact ⟨_, _, _, .closeWallet hcall hentitled hcapped hwhole hrelayer hrent⟩

end Effects

/-! ## The accounts of an instruction that may create -/

/-- What the relayer still has to advance of the rent. -/
def lack (D : Deployment) (accounts : Accounts) (chain : Chain) : UInt64 :=
  saturatingSub (D.minimumBalance SmartWallet.SPACE) (chain accounts.wallet).lamports

/-- The relayer can advance it. -/
def Advances (D : Deployment) (accounts : Accounts) (chain : Chain) : Prop :=
  lack D accounts chain ≠ 0 → (chain accounts.relayer).holding = .system ∧
    (lack D accounts chain).toNat ≤ chain.balance accounts.relayer

/-- A first action as a client presents it: to the wallet it creates. -/
structure First (D : Deployment) (w : WalletId) (inv : Invocation) (auth : Authorization)
    (signer : PublicKey) (bumps : Bumps) (chain : Chain) : Prop
    extends Presented D w (SmartWallet.created w signer bumps) inv auth signer where
  mayCreate : inv.call.mayCreate = true
  creator : D.sha256 signer.toList = w
  walletFound : D.findProgramAddress [WALLET_SEED, w.toList] ID
    = some (inv.accounts.wallet, bumps.wallet)
  vaultFound : D.findProgramAddress [VAULT_SEED, w.toList] ID
    = some (inv.accounts.vault, bumps.vault)
  /-- Nobody has a state there. Lamports may be there already. -/
  vacant : (chain inv.accounts.wallet).holding = .system
  vaultSystem : (chain inv.accounts.vault).holding = .system
  advances : Advances D inv.accounts chain

section Loading

variable {D : Deployment} {w : WalletId} {chain : Chain} {inv : Invocation} {auth : Authorization}
  {signer : PublicKey}

/-- An account is made when the relayer is another and can advance what is missing. -/
theorem createAccount_eq_ok_iff {accounts : Accounts} {chain' : Chain} :
    createAccount D chain accounts.relayer accounts.wallet = .ok chain' ↔
      accounts.relayer ≠ accounts.wallet ∧ ∃ paid,
        (if lack D accounts chain = 0 then paid = chain
          else chain.transfer accounts.relayer accounts.wallet (lack D accounts chain) = .ok paid) ∧
        paid.setHolding accounts.wallet (.owned SmartWallet.zeroed) = chain' := by
  simp only [createAccount, bind_eq_ok, require_eq_ok, exists_const, lack]
  refine and_congr_right fun _ ↦ ?_
  split_ifs with hlack
  · simp [hlack, pure_eq_ok]
  · simp only [hlack, bind_eq_ok, liftSystem_eq_ok, pure_eq_ok, ↓reduceIte]

/-- An account that can be made is made. -/
theorem exists_createAccount {accounts : Accounts} (hne : accounts.relayer ≠ accounts.wallet)
    (hadvances : Advances D accounts chain) (hfits : chain.SupplyFits) :
    ∃ chain', createAccount D chain accounts.relayer accounts.wallet = .ok chain' := by
  by_cases hlack : lack D accounts chain = 0
  · exact ⟨_, createAccount_eq_ok_iff.mpr ⟨hne, chain, by rw [if_pos hlack], rfl⟩⟩
  · obtain ⟨hsystem, hcovered⟩ := hadvances hlack
    obtain ⟨after, htransfer⟩ :=
      Ledger.transfer_of_covered accounts.wallet hsystem hcovered fun _ ↦ hfits
    exact ⟨_, createAccount_eq_ok_iff.mpr ⟨hne, after, by rw [if_neg hlack, htransfer], rfl⟩⟩

/-- What made an account was advanced. -/
theorem advances_of_createAccount {accounts : Accounts} {chain' : Chain}
    (h : createAccount D chain accounts.relayer accounts.wallet = .ok chain') :
    Advances D accounts chain := by
  intro hlack
  obtain ⟨-, paid, htransfer, -⟩ := createAccount_eq_ok_iff.mp h
  rw [if_neg hlack] at htransfer
  obtain ⟨hsystem, hcovered, -⟩ := Ledger.transfer_eq_ok htransfer
  exact ⟨hsystem, hcovered⟩

theorem advances_of_initialized {accounts : Accounts} {walletId : WalletId} {ctx : Context}
    (h : accounts.initialized D walletId chain = .ok ctx)
    (hvacant : (chain accounts.wallet).holding = .system) : Advances D accounts chain := by
  simp only [Accounts.initialized, initIfNeeded, bind_eq_ok, require_eq_ok, exists_const,
    okOr_eq_ok, pure_eq_ok, hvacant] at h
  obtain ⟨-, -, _, ⟨_, -, -, _, hcreate, -⟩, -⟩ := h
  exact advances_of_createAccount hcreate

/-- The account checks of a wallet that is there. -/
theorem Presented.initialized {wallet : SmartWallet} (h : Presented D w wallet inv auth signer)
    (hfound : (chain inv.accounts.wallet).holding = .owned wallet)
    (hwellFormed : WellFormed D inv.accounts.wallet wallet) (hid : wallet.walletId = w)
    (hsystem : (chain inv.accounts.vault).holding = .system)
    (hrent : RentExempt D inv.accounts.wallet chain) :
    inv.accounts.initialized D auth.walletId chain = .ok (foundContext chain wallet) := by
  have haddress := hwellFormed.address
  obtain ⟨v, hv⟩ := hwellFormed.vault
  rw [hid, ← h.walletId] at haddress hv
  have hvault : vaultAddress D auth.walletId = some v := vaultAddress_eq_some.mpr ⟨_, hv⟩
  rw [h.walletId, h.vault_eq] at hvault
  obtain rfl := Option.some_inj.mp hvault
  have hminimum : D.minimumBalance SmartWallet.SPACE ≤ (chain inv.accounts.wallet).lamports :=
    UInt64.le_iff_toNat_le.mpr (hrent wallet hfound)
  simp only [Accounts.initialized, initIfNeeded, bind_eq_ok, require_eq_ok, exists_const,
    okOr_eq_ok, pure_eq_ok, hfound]
  exact ⟨hsystem, h.relayerIsSigner, _, ⟨_, haddress, rfl, hminimum, rfl⟩, _, hv, rfl, rfl⟩

/-- The account checks of a first action, which make the account. -/
theorem First.initialized {bumps : Bumps} (h : First D w inv auth signer bumps chain)
    (hadmitted : Admitted D inv) (hfits : chain.SupplyFits) :
    ∃ chain₁, inv.accounts.initialized D auth.walletId chain
      = .ok ⟨chain₁, SmartWallet.zeroed, bumps⟩ := by
  have hne := (h.wallet_ne_relayer hadmitted).symm
  obtain ⟨chain₁, hcreate⟩ := exists_createAccount hne h.advances hfits
  have hwallet := h.walletFound
  have hvault := h.vaultFound
  rw [← h.walletId] at hwallet hvault
  refine ⟨chain₁, ?_⟩
  simp only [Accounts.initialized, initIfNeeded, bind_eq_ok, require_eq_ok, exists_const,
    okOr_eq_ok, pure_eq_ok, h.vacant]
  exact ⟨h.vaultSystem, h.relayerIsSigner, _, ⟨_, hwallet, rfl, _, hcreate, rfl⟩, _, hvault, rfl,
    rfl⟩

end Loading

end EnclaveKit
