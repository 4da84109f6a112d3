import EnclaveKit.Program.Authorization

/-!
# Account checks

What stands before a handler: the accounts it is given, checked against the constraints of its
accounts struct. The structs come in two families.

- `transfer_sol`, `sweep_vault` and `set_guardians` may find no wallet. They recompute both bumps,
  and `init_if_needed` makes the account, at the relayer's expense.
- `cancel_rotation`, `propose_rotation` and `close_wallet` need the wallet there, and take both
  bumps from it. So does `confirm_rotation`, which has no other account.

`Loaded` says what both families establish, with the lamports a creation moved.
-/

namespace EnclaveKit

open Solana MachineInt Fallible

/-- The accounts given to an instruction, other than the programs, the sysvar and `to`. -/
structure Accounts where
  wallet : Pubkey
  vault : Pubkey
  relayer : Pubkey
  /-- Whether the transaction carries the relayer's signature. -/
  relayerIsSigner : Bool

/-- What the account checks hand to a handler. -/
structure Context where
  chain : Chain
  wallet : SmartWallet
  bumps : Bumps

/-! ## A wallet that may be new -/

/-- The payer brings the account to the rent-exempt minimum; System then gives it to the program,
which finds zeros in it. -/
def createAccount (D : Deployment) (chain : Chain) (payer wallet : Pubkey) :
    Except Error Chain := do
  require (payer ≠ wallet) AccountError.tryingToInitPayerAsProgramAccount
  let lack := saturatingSub (D.minimumBalance SmartWallet.SPACE) (chain wallet).lamports
  let chain ← if lack = 0 then pure chain else liftSystem (chain.transfer payer wallet lack)
  pure (chain.setHolding wallet (.owned SmartWallet.zeroed))

/-- `init_if_needed`, for the account the wallet's id derives to. -/
def initIfNeeded (D : Deployment) (accounts : Accounts) (walletId : WalletId) (chain : Chain) :
    Except Error (Chain × SmartWallet × UInt8) := do
  let (address, bump) ← okOr (D.findProgramAddress [WALLET_SEED, walletId.toList] ID) .panic
  require (accounts.wallet = address) AccountError.constraintSeeds
  match (chain accounts.wallet).holding with
  | .system => do
    let chain ← createAccount D chain accounts.relayer accounts.wallet
    pure (chain, SmartWallet.zeroed, bump)
  | .owned wallet => do
    require (D.minimumBalance SmartWallet.SPACE ≤ (chain accounts.wallet).lamports)
      AccountError.constraintRentExempt
    pure (chain, wallet, bump)
  | .foreign => .error AccountError.accountOwnedByWrongProgram

/-- The accounts of `transfer_sol`, `sweep_vault` and `set_guardians`. -/
def Accounts.initialized (D : Deployment) (accounts : Accounts) (walletId : WalletId)
    (chain : Chain) : Except Error Context := do
  require ((chain accounts.vault).holding = .system) AccountError.accountNotSystemOwned
  require (accounts.relayerIsSigner = true) AccountError.accountNotSigner
  let (chain, wallet, walletBump) ← initIfNeeded D accounts walletId chain
  let (vault, vaultBump) ← okOr (D.findProgramAddress [VAULT_SEED, walletId.toList] ID) .panic
  require (accounts.vault = vault) AccountError.constraintSeeds
  pure { chain := chain, wallet := wallet, bumps := { wallet := walletBump, vault := vaultBump } }

/-! ## A wallet that must be there -/

/-- `Account<SmartWallet>`. -/
def loadWallet (accounts : Accounts) (chain : Chain) : Except Error SmartWallet :=
  match (chain accounts.wallet).holding with
  | .owned wallet => .ok wallet
  | .system =>
    if (chain accounts.wallet).lamports = 0 then .error AccountError.accountNotInitialized
    else .error AccountError.accountOwnedByWrongProgram
  | .foreign => .error AccountError.accountOwnedByWrongProgram

/-- An address recomputed from a stored bump. -/
def checkSeeds (D : Deployment) (seed : List UInt8) (walletId : WalletId) (bump : UInt8)
    (address : Pubkey) : Except Error Unit :=
  require (D.createProgramAddress [seed, walletId.toList, [bump]] ID = some address)
    AccountError.constraintSeeds

/-- The accounts of `cancel_rotation` and `propose_rotation`, and of `close_wallet` but for its own
check. -/
def Accounts.existing (D : Deployment) (accounts : Accounts) (walletId : WalletId)
    (chain : Chain) : Except Error Context := do
  let wallet ← loadWallet accounts chain
  require ((chain accounts.vault).holding = .system) AccountError.accountNotSystemOwned
  require (accounts.relayerIsSigner = true) AccountError.accountNotSigner
  checkSeeds D WALLET_SEED walletId wallet.stateBump accounts.wallet
  checkSeeds D VAULT_SEED walletId wallet.vaultBump accounts.vault
  pure {
    chain := chain
    wallet := wallet
    bumps := { wallet := wallet.stateBump, vault := wallet.vaultBump } }

/-- The accounts of `close_wallet`, whose relayer receives the rent. -/
def Accounts.closing (D : Deployment) (accounts : Accounts) (walletId : WalletId)
    (chain : Chain) : Except Error Context := do
  let ctx ← accounts.existing D walletId chain
  require (accounts.wallet ≠ accounts.relayer) AccountError.constraintClose
  pure ctx

/-- The one account of `confirm_rotation`. -/
def Accounts.confirming (D : Deployment) (accounts : Accounts) (walletId : WalletId)
    (chain : Chain) : Except Error SmartWallet := do
  let wallet ← loadWallet accounts chain
  checkSeeds D WALLET_SEED walletId wallet.stateBump accounts.wallet
  pure wallet

/-! ## What the checks establish -/

/-- The relayer's part in a creation: what the account lacks. -/
def creationMove (D : Deployment) (accounts : Accounts) (chain : Chain) : Move where
  source := accounts.relayer
  dest := accounts.wallet
  lamports := (D.minimumBalance SmartWallet.SPACE).toNat - chain.balance accounts.wallet

/-- The handler's context, and the moves made to obtain it. Only the first family may create. -/
inductive Loaded (D : Deployment) (accounts : Accounts) (walletId : WalletId) (chain : Chain) :
    Bool → Context → List Move → Prop where
  | found {mayCreate : Bool} {wallet : SmartWallet} {bumps : Bumps}
      (holding : (chain accounts.wallet).holding = .owned wallet)
      (signer : accounts.relayerIsSigner = true)
      (walletSeeds : D.createProgramAddress [WALLET_SEED, walletId.toList, [bumps.wallet]] ID
        = some accounts.wallet)
      (vaultSeeds : D.createProgramAddress [VAULT_SEED, walletId.toList, [bumps.vault]] ID
        = some accounts.vault) :
      Loaded D accounts walletId chain mayCreate ⟨chain, wallet, bumps⟩ []
  | created {chain₁ : Chain} {bumps : Bumps}
      (holding : (chain accounts.wallet).holding = .system)
      (signer : accounts.relayerIsSigner = true)
      (walletFound : D.findProgramAddress [WALLET_SEED, walletId.toList] ID
        = some (accounts.wallet, bumps.wallet))
      (vaultFound : D.findProgramAddress [VAULT_SEED, walletId.toList] ID
        = some (accounts.vault, bumps.vault))
      (moved : chain.Moved [creationMove D accounts chain] chain₁)
      (holding_after : ∀ a, (chain₁ a).holding
        = if a = accounts.wallet then .owned SmartWallet.zeroed else (chain a).holding) :
      Loaded D accounts walletId chain true ⟨chain₁, SmartWallet.zeroed, bumps⟩
        [creationMove D accounts chain]

theorem createAccount_eq_ok {D : Deployment} {accounts : Accounts} {chain chain' : Chain}
    (h : createAccount D chain accounts.relayer accounts.wallet = .ok chain') :
    chain.Moved [creationMove D accounts chain] chain' ∧
      ∀ a, (chain' a).holding
        = if a = accounts.wallet then .owned SmartWallet.zeroed else (chain a).holding := by
  simp only [createAccount, bind_eq_ok, require_eq_ok, exists_const] at h
  obtain ⟨-, h⟩ := h
  have hlack : (saturatingSub (D.minimumBalance SmartWallet.SPACE)
      (chain accounts.wallet).lamports).toNat = (creationMove D accounts chain).lamports :=
    toNat_saturatingSub _ _
  split_ifs at h with hzero
  · cases h
    rw [hzero, UInt64.toNat_zero] at hlack
    refine ⟨fun a ↦ ?_, fun a ↦ Ledger.holding_setHolding _ _ _ _⟩
    rw [Ledger.balance_setHolding, netChange_cons, netChange_nil, Move.net, ← hlack]
    simp
  · simp only [bind_eq_ok, liftSystem_eq_ok, pure_eq_ok] at h
    obtain ⟨_, htransfer, rfl⟩ := h
    obtain ⟨-, -, hmoved, hholding⟩ := Ledger.transfer_eq_ok htransfer
    rw [hlack] at hmoved
    refine ⟨hmoved.setHolding _ _, fun a ↦ ?_⟩
    rw [Ledger.holding_setHolding, hholding]

theorem loadWallet_eq_ok {accounts : Accounts} {chain : Chain} {wallet : SmartWallet} :
    loadWallet accounts chain = .ok wallet ↔
      (chain accounts.wallet).holding = .owned wallet := by
  rw [loadWallet]
  split <;> simp_all
  split_ifs <;> simp

@[simp] theorem checkSeeds_eq_ok {D : Deployment} {seed : List UInt8} {walletId : WalletId}
    {bump : UInt8} {address : Pubkey} {u : Unit} :
    checkSeeds D seed walletId bump address = .ok u ↔
      D.createProgramAddress [seed, walletId.toList, [bump]] ID = some address := require_eq_ok

/-- **The first family finds a wallet or creates one.** -/
theorem loaded_of_initialized {D : Deployment} {accounts : Accounts} {walletId : WalletId}
    {chain : Chain} {ctx : Context} (h : accounts.initialized D walletId chain = .ok ctx) :
    ∃ creation, Loaded D accounts walletId chain true ctx creation := by
  simp only [Accounts.initialized, bind_eq_ok, require_eq_ok, exists_const, okOr_eq_ok,
    pure_eq_ok] at h
  obtain ⟨-, hsigner, ⟨chain₁, wallet, walletBump⟩, hinit, ⟨vault, vaultBump⟩, hvault, rfl,
    rfl⟩ := h
  simp only [initIfNeeded, bind_eq_ok, okOr_eq_ok, require_eq_ok, exists_const] at hinit
  obtain ⟨⟨address, bump⟩, hfind, rfl, hinit⟩ := hinit
  split at hinit
  · rename_i hsystem
    simp only [bind_eq_ok, pure_eq_ok, Prod.mk.injEq] at hinit
    obtain ⟨_, hcreate, rfl, rfl, rfl⟩ := hinit
    obtain ⟨hmoved, hholding⟩ := createAccount_eq_ok hcreate
    exact ⟨_, .created hsystem hsigner hfind hvault hmoved hholding⟩
  · rename_i found howned
    simp only [bind_eq_ok, require_eq_ok, exists_const, pure_eq_ok, Prod.mk.injEq] at hinit
    obtain ⟨-, rfl, rfl, rfl⟩ := hinit
    exact ⟨_, .found howned hsigner (Platform.createProgramAddress_of_find hfind)
      (Platform.createProgramAddress_of_find hvault)⟩
  · cases hinit

/-- The first family recomputes the addresses, and their bumps. -/
theorem find_of_initialized {D : Deployment} {accounts : Accounts} {walletId : WalletId}
    {chain : Chain} {ctx : Context} (h : accounts.initialized D walletId chain = .ok ctx) :
    D.findProgramAddress [WALLET_SEED, walletId.toList] ID
        = some (accounts.wallet, ctx.bumps.wallet) ∧
      D.findProgramAddress [VAULT_SEED, walletId.toList] ID
        = some (accounts.vault, ctx.bumps.vault) := by
  simp only [Accounts.initialized, initIfNeeded, bind_eq_ok, require_eq_ok, exists_const,
    okOr_eq_ok, pure_eq_ok] at h
  obtain ⟨-, -, ⟨chain₁, wallet, bump⟩, ⟨⟨address, found⟩, hfind, rfl, hinit⟩, ⟨vault, vaultBump⟩,
    hvault, rfl, rfl⟩ := h
  refine ⟨?_, hvault⟩
  split at hinit
  · simp only [bind_eq_ok, pure_eq_ok, Prod.mk.injEq] at hinit
    obtain ⟨_, -, -, -, rfl⟩ := hinit
    exact hfind
  · simp only [bind_eq_ok, require_eq_ok, exists_const, pure_eq_ok, Prod.mk.injEq] at hinit
    obtain ⟨-, -, -, rfl⟩ := hinit
    exact hfind
  · cases hinit

theorem existing_eq_ok {D : Deployment} {accounts : Accounts} {walletId : WalletId}
    {chain : Chain} {ctx : Context} :
    accounts.existing D walletId chain = .ok ctx ↔
      ∃ wallet, (chain accounts.wallet).holding = .owned wallet ∧
        (chain accounts.vault).holding = .system ∧ accounts.relayerIsSigner = true ∧
        D.createProgramAddress [WALLET_SEED, walletId.toList, [wallet.stateBump]] ID
          = some accounts.wallet ∧
        D.createProgramAddress [VAULT_SEED, walletId.toList, [wallet.vaultBump]] ID
          = some accounts.vault ∧
        ⟨chain, wallet, ⟨wallet.stateBump, wallet.vaultBump⟩⟩ = ctx := by
  simp only [Accounts.existing, bind_eq_ok, loadWallet_eq_ok, require_eq_ok, exists_const,
    checkSeeds_eq_ok, pure_eq_ok]

/-- **The second family finds a wallet.** -/
theorem loaded_of_existing {D : Deployment} {accounts : Accounts} {walletId : WalletId}
    {chain : Chain} {ctx : Context} (h : accounts.existing D walletId chain = .ok ctx) :
    Loaded D accounts walletId chain false ctx [] := by
  obtain ⟨wallet, howned, -, hsigner, hwallet, hvault, rfl⟩ := existing_eq_ok.mp h
  exact .found howned hsigner hwallet hvault

theorem system_of_initialized {D : Deployment} {accounts : Accounts} {walletId : WalletId}
    {chain : Chain} {ctx : Context} (h : accounts.initialized D walletId chain = .ok ctx) :
    (chain accounts.vault).holding = .system := by
  simp only [Accounts.initialized, bind_eq_ok, require_eq_ok, exists_const] at h
  exact h.1

theorem system_of_existing {D : Deployment} {accounts : Accounts} {walletId : WalletId}
    {chain : Chain} {ctx : Context} (h : accounts.existing D walletId chain = .ok ctx) :
    (chain accounts.vault).holding = .system := by
  obtain ⟨_, -, hsystem, -⟩ := existing_eq_ok.mp h
  exact hsystem

theorem closing_eq_ok {D : Deployment} {accounts : Accounts} {walletId : WalletId}
    {chain : Chain} {ctx : Context} :
    accounts.closing D walletId chain = .ok ctx ↔
      accounts.existing D walletId chain = .ok ctx ∧ accounts.wallet ≠ accounts.relayer := by
  simp only [Accounts.closing, bind_eq_ok, require_eq_ok, exists_const, pure_eq_ok]
  constructor
  · rintro ⟨_, hexisting, hne, rfl⟩
    exact ⟨hexisting, hne⟩
  · rintro ⟨hexisting, hne⟩
    exact ⟨ctx, hexisting, hne, rfl⟩

theorem loaded_of_closing {D : Deployment} {accounts : Accounts} {walletId : WalletId}
    {chain : Chain} {ctx : Context} (h : accounts.closing D walletId chain = .ok ctx) :
    Loaded D accounts walletId chain false ctx [] ∧ accounts.wallet ≠ accounts.relayer := by
  obtain ⟨hexisting, hne⟩ := closing_eq_ok.mp h
  exact ⟨loaded_of_existing hexisting, hne⟩

theorem confirming_eq_ok {D : Deployment} {accounts : Accounts} {walletId : WalletId}
    {chain : Chain} {wallet : SmartWallet} :
    accounts.confirming D walletId chain = .ok wallet ↔
      (chain accounts.wallet).holding = .owned wallet ∧
        D.createProgramAddress [WALLET_SEED, walletId.toList, [wallet.stateBump]] ID
          = some accounts.wallet := by
  simp only [Accounts.confirming, bind_eq_ok, loadWallet_eq_ok, checkSeeds_eq_ok, exists_const,
    pure_eq_ok]
  constructor
  · rintro ⟨_, howned, hseeds, rfl⟩
    exact ⟨howned, hseeds⟩
  · rintro ⟨howned, hseeds⟩
    exact ⟨wallet, howned, hseeds, rfl⟩

namespace Loaded

variable {D : Deployment} {accounts : Accounts} {walletId : WalletId} {chain : Chain}
  {mayCreate : Bool} {ctx : Context} {creation : List Move}
  (h : Loaded D accounts walletId chain mayCreate ctx creation)

include h

theorem relayerIsSigner : accounts.relayerIsSigner = true := by
  cases h <;> assumption

theorem walletSeeds :
    D.createProgramAddress [WALLET_SEED, walletId.toList, [ctx.bumps.wallet]] ID
      = some accounts.wallet := by
  cases h with
  | found _ _ walletSeeds => exact walletSeeds
  | created _ _ walletFound => exact Platform.createProgramAddress_of_find walletFound

theorem vaultSeeds :
    D.createProgramAddress [VAULT_SEED, walletId.toList, [ctx.bumps.vault]] ID
      = some accounts.vault := by
  cases h with
  | found _ _ _ vaultSeeds => exact vaultSeeds
  | created _ _ _ vaultFound => exact Platform.createProgramAddress_of_find vaultFound

theorem holding_of_ne {a : Pubkey} (ha : a ≠ accounts.wallet) :
    (ctx.chain a).holding = (chain a).holding := by
  cases h with
  | found => rfl
  | created _ _ _ _ _ holding_after => rw [holding_after, if_neg ha]

theorem moved : chain.Moved creation ctx.chain := by
  cases h with
  | found => exact Ledger.Moved.refl _
  | created _ _ _ _ moved => exact moved

end Loaded

end EnclaveKit
