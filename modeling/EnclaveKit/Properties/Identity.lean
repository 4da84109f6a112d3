import EnclaveKit.Chain.Invariant
import EnclaveKit.Chain.Vectors

/-!
# Identity

A wallet is created once in a life and keeps its name. The invariant says that the sentinel marks
exactly the accounts `init_if_needed` just made; what follows from it here is about time. Between
its creation and its closing a wallet `Continues`: no instruction resets its nonce, its guardians or
its bumps. Its id is the hash of the key that created it, whatever key it is under now.
-/

namespace EnclaveKit

open Solana Fallible TransitionSystem

/-! ## The sentinel -/

/-- The first family's wallet is new exactly when the account was not there. -/
theorem isNew_initialized_iff {D : Deployment} {chain : Chain} (hinv : Invariant D chain)
    {accounts : Accounts} {walletId : WalletId} {ctx : Context}
    (h : accounts.initialized D walletId chain = .ok ctx) :
    ctx.wallet.isNew = true ↔ (chain accounts.wallet).holding = .system := by
  obtain ⟨creation, hloaded⟩ := loaded_of_initialized h
  cases hloaded with
  | found holding =>
    have hkey := (hinv _ _ holding).activeKey
    simp [holding, hkey]
  | created holding => simp [holding]

/-- The second family's wallet never is. -/
theorem isNew_existing {D : Deployment} {chain : Chain} (hinv : Invariant D chain)
    {accounts : Accounts} {walletId : WalletId} {ctx : Context}
    (h : accounts.existing D walletId chain = .ok ctx) : ctx.wallet.isNew = false := by
  cases loaded_of_existing h with
  | found holding => exact SmartWallet.isNew_eq_false.mpr (hinv _ _ holding).activeKey

theorem isNew_closing {D : Deployment} {chain : Chain} (hinv : Invariant D chain)
    {accounts : Accounts} {walletId : WalletId} {ctx : Context}
    (h : accounts.closing D walletId chain = .ok ctx) : ctx.wallet.isNew = false := by
  simp only [Accounts.closing, bind_eq_ok, require_eq_ok, exists_const, pure_eq_ok] at h
  obtain ⟨ctx', hexisting, -, rfl⟩ := h
  exact isNew_existing hinv hexisting

/-! ## A life -/

/-- What a step leaves of a wallet it does not close. -/
structure Continues (label : Label) (before after : SmartWallet) : Prop where
  walletId : after.walletId = before.walletId
  stateBump : after.stateBump = before.stateBump
  vaultBump : after.vaultBump = before.vaultBump
  nonce : after.nonce = before.nonce ∨ after.nonce.toNat = before.nonce.toNat + 1
  /-- Only the signed list replaces the guardians. -/
  guardians : after.guardians = before.guardians ∨
    ∃ inv events auth guardians relayerFee, label = .invoke inv events ∧
      inv.call = .setGuardians auth guardians relayerFee ∧
      after.guardians = guardians.map GuardianSlot.ofGuardian

theorem Continues.refl (label : Label) (wallet : SmartWallet) : Continues label wallet wallet :=
  ⟨rfl, rfl, rfl, .inl rfl, .inl rfl⟩

/-- A signed instruction continues the wallet verification left, nonce included. -/
theorem Enacts.continues {D : Deployment} {inv : Invocation} {auth : Authorization}
    {chain : Chain} {wallet after : SmartWallet} {signer : PublicKey} {moves : List Move}
    {event : Event} (events : List Event)
    (h : Enacts D inv auth chain wallet signer (some after) moves event) :
    Continues (.invoke inv events) wallet after ∧ after.nonce = wallet.nonce := by
  cases h with
  | setGuardians call =>
    exact ⟨⟨rfl, rfl, rfl, .inl rfl, .inr ⟨_, _, _, _, _, rfl, call, rfl⟩⟩, rfl⟩
  | transferSol | sweepVault | cancelRotation | rotate | propose =>
    exact ⟨⟨rfl, rfl, rfl, .inl rfl, .inl rfl⟩, rfl⟩

/-- **Continuity.** A wallet there before a step and after it is the same wallet. -/
theorem Step.continues {D : Deployment} {chain chain' : Chain} {label : Label}
    (hinv : Invariant D chain) (h : Step D chain label chain') {a : Pubkey}
    {before after : SmartWallet} (hbefore : (chain a).holding = .owned before)
    (hafter : (chain' a).holding = .owned after) : Continues label before after := by
  cases h with
  | external external =>
    rw [external.owned, hbefore] at hafter
    cases hafter
    exact .refl _ _
  | @invoke inv events _ admitted accepted =>
    by_cases ha : a = inv.accounts.wallet
    · subst ha
      rcases effect_of_execute accepted with ⟨⟨h⟩⟩ | ⟨⟨h⟩⟩
      · have hstored : h.after = some after := by
          rw [← stateAt_of_holdingOf h.holding_wallet, stateAt_eq_some, hafter]
        have henacts := h.enacts
        rw [hstored] at henacts
        obtain ⟨hcontinues, hnonce⟩ := henacts.continues events
        cases h.origin hinv with
        | found holding _ _ _ nonce_succ spent_eq =>
          rw [hbefore] at holding
          cases holding
          have hspent : h.spent.nonce = after.nonce := hnonce.symm
          rw [spent_eq] at hcontinues
          refine ⟨hcontinues.walletId, hcontinues.stateBump, hcontinues.vaultBump, .inr ?_,
            hcontinues.guardians⟩
          rw [← hspent, nonce_succ]
        | created holding =>
          -- The wallet was there, so nothing created it.
          rw [hbefore] at holding
          cases holding
      · have hwallet := h.found
        rw [hbefore] at hwallet
        cases hwallet
        rw [h.holding_wallet] at hafter
        cases hafter
        exact ⟨rfl, rfl, rfl, .inl rfl, .inl rfl⟩
    · rw [holding_of_execute accepted ha, hbefore] at hafter
      cases hafter
      exact .refl _ _

/-- There is a wallet at `a`. -/
def Exists (a : Pubkey) (chain : Chain) : Prop := ∃ wallet, (chain a).holding = .owned wallet

/-- A wallet keeps its id as long as it exists. -/
theorem walletId_of_life {D : Deployment} {a : Pubkey} {chain chain' : Chain} {tr : List Label}
    (hzero : NoZeroKey D) (hinv : Invariant D chain)
    (h : ((system D).within (Exists a)).Run chain tr chain') {before after : SmartWallet}
    (hbefore : (chain a).holding = .owned before) (hafter : (chain' a).holding = .owned after) :
    after.walletId = before.walletId := by
  induction h generalizing after with
  | nil =>
    rw [hbefore] at hafter
    cases hafter
    rfl
  | snoc run last ih =>
    obtain ⟨⟨wallet, hwallet⟩, hstep, -⟩ := last
    have hinv' := run.of_within.invariant hinv fun _ _ _ hinv hstep ↦ hinv.step hzero hstep
    rw [(hstep.continues hinv' hwallet hafter).walletId, ih hwallet]

/-- The step that creates the wallet at `a`, for a key that hashes to its id. -/
structure Creates (D : Deployment) (a : Pubkey) (chain : Chain) (label : Label) (chain' : Chain)
    (walletId : WalletId) (key : PublicKey) : Prop where
  instruction : ∃ inv events, label = .invoke inv events ∧ inv.accounts.wallet = a ∧
    inv.call.mayCreate = true ∧ inv.signer = some key
  before : (chain a).holding = .system
  after : ∃ wallet, (chain' a).holding = .owned wallet ∧ wallet.walletId = walletId ∧
    wallet.activeKey = key
  hash : D.sha256 key.toList = walletId

/-- A step after which there is a wallet where there was none creates it. -/
theorem Step.creates {D : Deployment} {chain chain' : Chain} {label : Label}
    (hinv : Invariant D chain) (h : Step D chain label chain') {a : Pubkey}
    (hbefore : ¬Exists a chain) (hafter : Exists a chain') :
    ∃ walletId key, Creates D a chain label chain' walletId key := by
  obtain ⟨wallet, hwallet⟩ := hafter
  cases h with
  | external external => exact absurd ⟨wallet, (external.owned a wallet).mp hwallet⟩ hbefore
  | @invoke inv events _ admitted accepted =>
    by_cases ha : a = inv.accounts.wallet
    · subst ha
      rcases effect_of_execute accepted with ⟨⟨h⟩⟩ | ⟨⟨h⟩⟩
      · cases h.origin hinv with
        | found holding => exact absurd ⟨_, holding⟩ hbefore
        | created holding _ mayCreate _ _ creator _ spent_eq =>
          have hstored : h.after = some wallet := by
            rw [← stateAt_of_holdingOf h.holding_wallet, stateAt_eq_some, hwallet]
          have henacts := h.enacts
          rw [hstored] at henacts
          have hid := (henacts.continues events).1.walletId
          obtain ⟨_, hsame, hkey⟩ := henacts.after_of_mayCreate mayCreate
          obtain rfl := Option.some_inj.mp hsame
          rw [spent_eq] at hid hkey
          exact ⟨h.auth.walletId, h.signer, ⟨_, _, rfl, rfl, mayCreate, h.signer_eq⟩, holding,
            ⟨wallet, hwallet, hid, hkey⟩, creator⟩
      · exact absurd ⟨_, h.found⟩ hbefore
    · rw [holding_of_execute accepted ha] at hwallet
      exact absurd ⟨wallet, hwallet⟩ hbefore

/-- **The name of a wallet.** A wallet there at the end of a run was created in it and has existed
since, and its id is the hash of the key that created it. -/
theorem created_of_run {D : Deployment} (hzero : NoZeroKey D) {chain₀ chain : Chain}
    {tr : List Label} (hinit : (system D).init chain₀) (h : (system D).Run chain₀ tr chain)
    {a : Pubkey} {wallet : SmartWallet} (hwallet : (chain a).holding = .owned wallet) :
    ∃ past label life chain₁ chain₂ key, tr = past ++ label :: life ∧
      (system D).Run chain₀ past chain₁ ∧ Creates D a chain₁ label chain₂ wallet.walletId key ∧
      ((system D).within (Exists a)).Run chain₂ life chain := by
  obtain ⟨past, label, life, chain₁, chain₂, rfl, hpast, hnone, hstep, hsome, hlife⟩ :=
    h.since (P := Exists a) (fun ⟨wallet, hwallet⟩ ↦ hinit a wallet hwallet) ⟨wallet, hwallet⟩
  have hinv₁ := invariant_of_reachable hzero ⟨_, _, hinit, hpast⟩
  obtain ⟨walletId, key, hcreates⟩ := hstep.creates hinv₁ hnone hsome
  obtain ⟨created, hcreated, hid, -⟩ := hcreates.after
  have hname := walletId_of_life hzero (hinv₁.step hzero hstep) hlife hcreated hwallet
  rw [hname, hid]
  exact ⟨past, label, life, chain₁, chain₂, key, rfl, hpast, hcreates, hlife⟩

/-- **No re-initialisation, stable identity.** In every reachable state a stored wallet has a key
and proposes one; a wallet is new exactly when its account was not there; a step that leaves a
wallet continues it; and its id is the one its address is derived from and the hash of the key that
created it. -/
theorem identity_of_run {D : Deployment} (hzero : NoZeroKey D) {chain₀ chain : Chain}
    {tr : List Label} (hinit : (system D).init chain₀) (h : (system D).Run chain₀ tr chain) :
    (∀ a wallet, (chain a).holding = .owned wallet →
      wallet.activeKey ≠ zeroKey ∧
      (∀ proposal, wallet.rotation.get = some proposal → proposal.newKey ≠ zeroKey) ∧
      D.findProgramAddress [WALLET_SEED, wallet.walletId.toList] ID = some (a, wallet.stateBump) ∧
      ∃ past label life chain₁ chain₂ key, tr = past ++ label :: life ∧
        (system D).Run chain₀ past chain₁ ∧ Creates D a chain₁ label chain₂ wallet.walletId key ∧
        ((system D).within (Exists a)).Run chain₂ life chain) ∧
    (∀ (accounts : Accounts) (walletId : WalletId) (ctx : Context),
      (accounts.initialized D walletId chain = .ok ctx →
        (ctx.wallet.isNew = true ↔ (chain accounts.wallet).holding = .system)) ∧
      (accounts.existing D walletId chain = .ok ctx → ctx.wallet.isNew = false) ∧
      (accounts.closing D walletId chain = .ok ctx → ctx.wallet.isNew = false)) ∧
    ∀ label chain' a before after, Step D chain label chain' →
      (chain a).holding = .owned before → (chain' a).holding = .owned after →
        Continues label before after := by
  have hinv := invariant_of_reachable hzero ⟨_, _, hinit, h⟩
  refine ⟨fun a wallet hwallet ↦ ?_, fun accounts walletId ctx ↦ ?_, ?_⟩
  · have hformed := hinv a wallet hwallet
    exact ⟨hformed.activeKey, hformed.newKey, hformed.address,
      created_of_run hzero hinit h hwallet⟩
  · exact ⟨isNew_initialized_iff hinv, isNew_existing hinv, isNew_closing hinv⟩
  · exact fun label chain' a before after hstep ↦ hstep.continues hinv

/-- After the device handed over to the next, the wallet still has the name the first gave it. -/
theorem identity_of_run_rotated : Vectors.rotatedWallet.activeKey ≠ zeroKey ∧
    ∃ label chain₁ chain₂ key, Creates Vectors.deployment Vectors.wallet chain₁ label chain₂
      Vectors.rotatedWallet.walletId key := by
  obtain ⟨hstored, -, -⟩ :=
    identity_of_run Vectors.deployment_noZeroKey Vectors.genesis_init Vectors.handedOver.run
  obtain ⟨hnonzero, -, -, _, label, _, chain₁, chain₂, key, -, -, hcreates, -⟩ :=
    hstored _ _ (stateAt_eq_some.mp Vectors.handedOver.stateAt_eq)
  exact ⟨hnonzero, label, chain₁, chain₂, key, hcreates⟩

end EnclaveKit
