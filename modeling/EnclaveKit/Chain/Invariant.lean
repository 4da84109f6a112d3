import EnclaveKit.Chain.System

/-!
# The invariant

Existence is encoded by a sentinel: a wallet whose active key is all zeros is one that
`init_if_needed` just made. `WellFormed` is what a stored wallet satisfies so that the encoding
means what it should, and so that the address it lies at, its id, and its bumps belong together.

`Origin` is the form in which later results use it. The wallet a signed instruction works on is
either the one that was there, or one this instruction creates; verification never opens a wallet
that was there.
-/

namespace EnclaveKit

open Solana Fallible

/-- What a wallet stored at `a` satisfies. -/
structure WellFormed (D : Deployment) (a : Pubkey) (wallet : SmartWallet) : Prop where
  address : D.findProgramAddress [WALLET_SEED, wallet.walletId.toList] ID
    = some (a, wallet.stateBump)
  vault : ∃ v, D.findProgramAddress [VAULT_SEED, wallet.walletId.toList] ID
    = some (v, wallet.vaultBump)
  activeKey : wallet.activeKey ≠ zeroKey
  newKey : ∀ proposal, wallet.rotation.get = some proposal → proposal.newKey ≠ zeroKey

/-- Every stored wallet is well formed. -/
def Invariant (D : Deployment) (chain : Chain) : Prop :=
  ∀ a wallet, (chain a).holding = .owned wallet → WellFormed D a wallet

/-! ## Where a wallet comes from -/

/-- Where the wallet a signed instruction works on comes from. -/
inductive Origin {D : Deployment} {inv : Invocation} {chain chain' : Chain} {events : List Event}
    (h : Accepted D inv chain chain' events) : Prop where
  /-- It was there. -/
  | found {wallet : SmartWallet}
      (holding : (chain inv.accounts.wallet).holding = .owned wallet)
      (opened : h.ctx.wallet.isNew = false)
      (nothing : h.creation = [])
      (nonce_eq : h.auth.nonce = wallet.nonce)
      (nonce_succ : h.spent.nonce.toNat = wallet.nonce.toNat + 1)
      (spent_eq : h.spent = { wallet with nonce := h.spent.nonce })
  /-- The instruction creates it, for the key its id is the hash of. -/
  | created {bumps : Bumps}
      (holding : (chain inv.accounts.wallet).holding = .system)
      (opened : h.ctx.wallet.isNew = true)
      (mayCreate : inv.call.mayCreate = true)
      (walletFound : D.findProgramAddress [WALLET_SEED, h.auth.walletId.toList] ID
        = some (inv.accounts.wallet, bumps.wallet))
      (vaultFound : D.findProgramAddress [VAULT_SEED, h.auth.walletId.toList] ID
        = some (inv.accounts.vault, bumps.vault))
      (creator : D.sha256 h.signer.toList = h.auth.walletId)
      (nonce_eq : h.auth.nonce = 0)
      (spent_eq : h.spent = { SmartWallet.created h.auth.walletId h.signer bumps with nonce := 1 })

/-- **Existence is what the sentinel says.** Under the invariant, verification opens the wallet
exactly when the instruction creates it. -/
theorem Accepted.origin {D : Deployment} {inv : Invocation} {chain chain' : Chain}
    {events : List Event} (h : Accepted D inv chain chain' events) (hinv : Invariant D chain) :
    Origin h := by
  obtain ⟨auth, action, ctx, creation, spent, signer, _, _, _, _, _, loaded, verified⟩ := h
  have hloaded := loaded
  generalize hcreate : inv.call.mayCreate = mayCreate at hloaded
  cases hloaded with
  | @found _ wallet bumps holding =>
    have hopened : wallet.isNew = false := by
      rw [SmartWallet.isNew_eq_false]
      exact (hinv _ _ holding).activeKey
    have hnonce := verified.nonce_eq
    have hsucc := verified.nonce_after
    have hspent := verified.after_eq
    rw [opened_of_not_isNew hopened] at hnonce hsucc hspent
    exact .found holding hopened rfl hnonce hsucc hspent
  | @created chain₁ bumps holding _ walletFound vaultFound =>
    have hopened : SmartWallet.zeroed.isNew = true := SmartWallet.isNew_zeroed
    have hnonce := verified.nonce_eq
    have hsucc := verified.nonce_after
    have hspent := verified.after_eq
    rw [opened_of_isNew hopened] at hnonce hsucc hspent
    have hone : spent.nonce = 1 := UInt64.toNat_inj.mp hsucc
    rw [hone] at hspent
    exact .created holding hopened hcreate walletFound vaultFound (verified.creator hopened) hnonce
      hspent

/-! ## Preservation -/

/-- What verification leaves is well formed. -/
theorem Origin.wellFormed {D : Deployment} {inv : Invocation} {chain chain' : Chain}
    {events : List Event} {h : Accepted D inv chain chain' events} (horigin : Origin h)
    (hinv : Invariant D chain) (hsigner : h.signer ≠ zeroKey) :
    WellFormed D inv.accounts.wallet h.spent := by
  cases horigin with
  | found holding _ _ _ _ spent_eq =>
    have hwallet := hinv _ _ holding
    rw [spent_eq]
    exact ⟨hwallet.address, hwallet.vault, hwallet.activeKey, hwallet.newKey⟩
  | created _ _ _ walletFound vaultFound _ _ spent_eq =>
    rw [spent_eq]
    exact ⟨walletFound, ⟨_, vaultFound⟩, hsigner, fun proposal h ↦ by cases h⟩

/-- The effect of an instruction keeps a wallet well formed. -/
theorem Enacts.wellFormed {D : Deployment} {inv : Invocation} {auth : Authorization}
    {chain : Chain} {wallet after : SmartWallet} {signer : PublicKey} {moves : List Move}
    {event : Event} {a : Pubkey}
    (h : Enacts D inv auth chain wallet signer (some after) moves event)
    (hwallet : WellFormed D a wallet) : WellFormed D a after := by
  cases h with
  | transferSol => exact hwallet
  | sweepVault => exact hwallet
  | setGuardians | cancelRotation =>
    exact ⟨hwallet.address, hwallet.vault, hwallet.activeKey, fun proposal h ↦ by cases h⟩
  | rotate _ nonzero =>
    exact ⟨hwallet.address, hwallet.vault, nonzero, fun proposal h ↦ by cases h⟩
  | propose _ nonzero _ _ _ proposal_eq =>
    refine ⟨hwallet.address, hwallet.vault, hwallet.activeKey, fun proposal h ↦ ?_⟩
    obtain rfl := Option.some_inj.mp h
    rw [proposal_eq]
    exact nonzero

theorem Confirmed.wellFormed {D : Deployment} {inv : Invocation} {chain chain' : Chain}
    {events : List Event} (h : Confirmed D inv chain chain' events) (hinv : Invariant D chain) :
    WellFormed D inv.accounts.wallet (h.wallet.rekeyed h.proposal.newKey) := by
  have hwallet := hinv _ _ h.found
  exact ⟨hwallet.address, hwallet.vault, hwallet.newKey _ h.pending, fun proposal h ↦ by cases h⟩

/-- **Preservation.** Every step keeps the invariant. -/
theorem Invariant.step {D : Deployment} (hzero : NoZeroKey D) {chain chain' : Chain}
    {label : Label} (hinv : Invariant D chain) (h : Step D chain label chain') :
    Invariant D chain' := by
  intro a wallet hwallet
  cases h with
  | external external => exact hinv a wallet ((external.owned a wallet).mp hwallet)
  | @invoke inv events _ admitted accepted =>
    -- Only the account the instruction runs on has a new state.
    by_cases ha : a = inv.accounts.wallet
    · subst ha
      rcases effect_of_execute accepted with ⟨⟨h⟩⟩ | ⟨⟨h⟩⟩
      · have hspent := (h.origin hinv).wellFormed hinv (h.signer_ne_zeroKey hzero admitted)
        have hafter : h.after = some wallet := by
          rw [← stateAt_of_holdingOf h.holding_wallet, stateAt_eq_some, hwallet]
        have henacts := h.enacts
        rw [hafter] at henacts
        exact henacts.wellFormed hspent
      · have hconfirmed := h.wellFormed hinv
        rw [h.chain_eq, Ledger.holding_setHolding_self] at hwallet
        cases hwallet
        exact hconfirmed
    · rw [holding_of_execute accepted ha] at hwallet
      exact hinv a wallet hwallet

theorem Invariant.next {D : Deployment} {chain : Chain} {inv : Invocation} (hzero : NoZeroKey D)
    (hinv : Invariant D chain) (hadmitted : Admitted D inv) : Invariant D (next D chain inv) := by
  by_cases haccepts : accepts D chain inv = true
  · exact hinv.step hzero (.invoke hadmitted (execute_of_accepts haccepts))
  · rwa [next_of_refused (Bool.eq_false_iff.mpr haccepts)]

/-- **The invariant holds in every reachable state.** -/
theorem invariant_of_reachable {D : Deployment} (hzero : NoZeroKey D) {chain : Chain}
    (h : (system D).Reachable chain) : Invariant D chain :=
  h.invariant (fun _ hinit a wallet hwallet ↦ absurd hwallet (hinit a wallet))
    fun _ _ _ hinv hstep ↦ hinv.step hzero hstep

end EnclaveKit
