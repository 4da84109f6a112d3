import EnclaveKit.Program.Enabled

/-!
# What an instruction depends on

An instruction reads little of the ledger: its state account, its vault and, where it has to make
the state account, whether the relayer can pay for it. `SameView` says that two ledgers agree on
that much. An instruction accepted on one is then accepted on the other, with the same events, the
same moves and the same state written.

The accounts it pays to are not in the view. They are never read but for the room there has to be
for a payment, and there is room wherever the supply fits. Nor is the relayer's balance, which the
refund of another instruction may have raised: what is asked of it is only that it covers the rent.
-/

namespace EnclaveKit

open Solana MachineInt Fallible

/-- What an instruction reads of `chain` is the same in `chain'`. -/
structure SameView (D : Deployment) (inv : Invocation) (chain chain' : Chain) : Prop where
  wallet : chain' inv.accounts.wallet = chain inv.accounts.wallet
  /-- A confirmation has no vault. -/
  vault : inv.call.authorization ≠ none → chain' inv.accounts.vault = chain inv.accounts.vault
  /-- A relayer that has to make the account can pay for it. -/
  payer : inv.call.mayCreate = true → (chain inv.accounts.wallet).holding = .system →
    (chain' inv.accounts.relayer).holding = (chain inv.accounts.relayer).holding ∧
      (creationMove D inv.accounts chain).lamports ≤ chain'.balance inv.accounts.relayer
  fits : chain'.SupplyFits

/-! ## The account checks -/

section Checks

variable {D : Deployment} {inv : Invocation} {chain chain' : Chain}

/-- What an account lacks of its rent does not depend on the rest of the ledger. -/
theorem creationMove_eq {accounts : Accounts}
    (h : chain' accounts.wallet = chain accounts.wallet) :
    creationMove D accounts chain' = creationMove D accounts chain := by
  rw [creationMove, creationMove, Ledger.balance, Ledger.balance, h]

/-- Two contexts of one instruction come from the same creation. -/
theorem Loaded.creation_eq {accounts : Accounts} {walletId : WalletId} {mayCreate : Bool}
    {ctx ctx' : Context} {creation creation' : List Move}
    (h : Loaded D accounts walletId chain mayCreate ctx creation)
    (h' : Loaded D accounts walletId chain' mayCreate ctx' creation')
    (hwallet : chain' accounts.wallet = chain accounts.wallet) : creation' = creation := by
  cases h with
  | found holding =>
    cases h' with
    | found => rfl
    | created holding' =>
      rw [hwallet, holding] at holding'
      cases holding'
  | created holding =>
    cases h' with
    | found holding' =>
      rw [hwallet, holding] at holding'
      cases holding'
    | created => rw [creationMove_eq hwallet]

namespace SameView

variable (h : SameView D inv chain chain')

include h

theorem createAccount {chain₁ : Chain} (hcreate : inv.call.mayCreate = true)
    (hsystem : (chain inv.accounts.wallet).holding = .system)
    (hcreated : EnclaveKit.createAccount D chain inv.accounts.relayer inv.accounts.wallet
      = .ok chain₁) :
    ∃ chain₁', EnclaveKit.createAccount D chain' inv.accounts.relayer inv.accounts.wallet
      = .ok chain₁' := by
  obtain ⟨hpayer, hcovered⟩ := h.payer hcreate hsystem
  simp only [EnclaveKit.createAccount, bind_eq_ok, require_eq_ok, exists_const,
    h.wallet] at hcreated ⊢
  obtain ⟨hne, hcreated⟩ := hcreated
  have hlack : (saturatingSub (D.minimumBalance SmartWallet.SPACE)
      (chain inv.accounts.wallet).lamports).toNat = (creationMove D inv.accounts chain).lamports :=
    toNat_saturatingSub _ _
  -- The lack is the same on both, so System is asked for the same transfer or for none.
  split_ifs at hcreated ⊢ with hzero
  · exact ⟨_, hne, rfl⟩
  · simp only [bind_eq_ok, liftSystem_eq_ok] at hcreated ⊢
    obtain ⟨_, hpaid, -⟩ := hcreated
    rw [← hlack] at hcovered
    obtain ⟨paid, hpaid'⟩ := Ledger.transfer_of_covered inv.accounts.wallet
      (hpayer.trans (Ledger.transfer_eq_ok hpaid).1) hcovered fun _ ↦ h.fits
    exact ⟨_, hne, paid, hpaid', rfl⟩

theorem initIfNeeded {walletId : WalletId} {chain₁ : Chain} {wallet : SmartWallet} {bump : UInt8}
    (hcreate : inv.call.mayCreate = true)
    (hinit : EnclaveKit.initIfNeeded D inv.accounts walletId chain = .ok (chain₁, wallet, bump)) :
    ∃ chain₁', EnclaveKit.initIfNeeded D inv.accounts walletId chain'
      = .ok (chain₁', wallet, bump) := by
  simp only [EnclaveKit.initIfNeeded, bind_eq_ok, okOr_eq_ok, require_eq_ok, exists_const,
    h.wallet] at hinit ⊢
  obtain ⟨found, hfind, hwallet, hinit⟩ := hinit
  cases hholding : (chain inv.accounts.wallet).holding with
  | system =>
    simp only [hholding, bind_eq_ok, pure_eq_ok, Prod.mk.injEq] at hinit ⊢
    obtain ⟨created, hcreated, -, hzeroed, hbump⟩ := hinit
    obtain ⟨created', hcreated'⟩ := h.createAccount hcreate hholding hcreated
    exact ⟨created', found, hfind, hwallet, created', hcreated', rfl, hzeroed, hbump⟩
  | owned =>
    simp only [hholding, bind_eq_ok, require_eq_ok, exists_const, pure_eq_ok,
      Prod.mk.injEq] at hinit ⊢
    obtain ⟨hrent, -, hstate, hbump⟩ := hinit
    exact ⟨chain', found, hfind, hwallet, hrent, rfl, hstate, hbump⟩
  | foreign =>
    simp only [hholding] at hinit
    cases hinit

theorem initialized {walletId : WalletId} {ctx : Context} (hcreate : inv.call.mayCreate = true)
    (hsigned : inv.call.authorization ≠ none)
    (hctx : inv.accounts.initialized D walletId chain = .ok ctx) :
    ∃ ctx', inv.accounts.initialized D walletId chain' = .ok ctx' ∧
      ctx'.wallet = ctx.wallet ∧ ctx'.bumps = ctx.bumps := by
  simp only [Accounts.initialized, bind_eq_ok, require_eq_ok, exists_const, okOr_eq_ok,
    pure_eq_ok, h.vault hsigned] at hctx ⊢
  obtain ⟨hsystem, hsigner, ⟨chain₁, wallet, bump⟩, hinit, vault, hvault, heq, rfl⟩ := hctx
  obtain ⟨chain₁', hinit'⟩ := h.initIfNeeded hcreate hinit
  exact ⟨_, ⟨hsystem, hsigner, _, hinit', vault, hvault, heq, rfl⟩, rfl, rfl⟩

theorem existing {walletId : WalletId} {ctx : Context}
    (hsigned : inv.call.authorization ≠ none)
    (hctx : inv.accounts.existing D walletId chain = .ok ctx) :
    ∃ ctx', inv.accounts.existing D walletId chain' = .ok ctx' ∧
      ctx'.wallet = ctx.wallet ∧ ctx'.bumps = ctx.bumps := by
  obtain ⟨wallet, howned, hsystem, hsigner, hwallet, hvault, rfl⟩ := existing_eq_ok.mp hctx
  rw [← h.wallet] at howned
  rw [← h.vault hsigned] at hsystem
  exact ⟨_, existing_eq_ok.mpr ⟨wallet, howned, hsystem, hsigner, hwallet, hvault, rfl⟩, rfl, rfl⟩

/-- **The account checks** pass on both, with the same wallet and the same bumps. -/
theorem loads {ctx : Context} (hctx : Loads D inv chain ctx) :
    ∃ ctx', Loads D inv chain' ctx' ∧ ctx'.wallet = ctx.wallet ∧ ctx'.bumps = ctx.bumps := by
  obtain ⟨auth, hauth⟩ := hctx.authorization
  have hsigned : inv.call.authorization ≠ none := by
    rw [hauth]
    exact Option.some_ne_none _
  rcases (loads_iff hauth).mp hctx with ⟨hcreate, hctx⟩ | ⟨hcreate, hctx, hne⟩
  · obtain ⟨ctx', hctx', heq⟩ := h.initialized hcreate hsigned hctx
    exact ⟨ctx', (loads_iff hauth).mpr (.inl ⟨hcreate, hctx'⟩), heq⟩
  · obtain ⟨ctx', hctx', heq⟩ := h.existing hsigned hctx
    exact ⟨ctx', (loads_iff hauth).mpr (.inr ⟨hcreate, hctx', hne⟩), heq⟩

end SameView

end Checks

/-! ## The effect -/

section Effect

variable {D : Deployment} {inv : Invocation} {chain chain' after : Chain} {events : List Event}

/-- An effect depends on no balance but those of the vault and of the state account. -/
theorem Enacts.congr {auth : Authorization} {wallet : SmartWallet} {signer : PublicKey}
    {state : Option SmartWallet} {moves : List Move} {event : Event}
    (h : Enacts D inv auth chain wallet signer state moves event)
    (hvault : chain'.balance inv.accounts.vault = chain.balance inv.accounts.vault)
    (hwallet : chain'.balance inv.accounts.wallet = chain.balance inv.accounts.wallet) :
    Enacts D inv auth chain' wallet signer state moves event := by
  cases h with
  | transferSol call owner covered =>
    rw [← hvault] at covered
    exact .transferSol call owner covered
  | sweepVault call owner whole =>
    rw [← hvault] at whole
    exact .sweepVault call owner whole
  | setGuardians call owner supported covered =>
    rw [← hvault] at covered
    exact .setGuardians call owner supported covered
  | cancelRotation call owner pending covered =>
    rw [← hvault] at covered
    exact .cancelRotation call owner pending covered
  | rotate call nonzero owner covered =>
    rw [← hvault] at covered
    exact .rotate call nonzero owner covered
  | propose call nonzero not_owner guardian free proposal_eq covered =>
    rw [← hvault] at covered
    exact .propose call nonzero not_owner guardian free proposal_eq covered
  | closeWallet call owner capped whole relayer_ne emptied =>
    rw [← hvault] at capped whole
    rw [← hwallet] at emptied
    exact .closeWallet call owner capped whole relayer_ne emptied

/-- What is accepted on one ledger does on the other: the same events, the same moves, the same
state written. -/
structure SameEffect (D : Deployment) (inv : Invocation) (chain chain' after : Chain)
    (events : List Event) (after' : Chain) : Prop where
  accepted : execute D inv chain' = .ok (after', events)
  moved : ∃ moves, chain.Moved moves after ∧ chain'.Moved moves after'
  holding : (after' inv.accounts.wallet).holding = (after inv.accounts.wallet).holding

theorem Executed.sameEffect (h : Executed D inv chain after events)
    (hview : SameView D inv chain chain') (hne : inv.accounts.vault ≠ inv.accounts.wallet) :
    ∃ after', SameEffect D inv chain chain' after events after' := by
  have hsigned : inv.call.authorization ≠ none := by
    rw [h.call_authorization]
    exact Option.some_ne_none _
  obtain ⟨ctx', hloads, hwallet, hbumps⟩ := hview.loads h.loads
  obtain ⟨creation, hloaded⟩ := hloads.loaded h.call_authorization
  obtain rfl := h.loaded.creation_eq hloaded hview.wallet
  -- The creation is one list of moves, and keeps the balances that agree in agreement.
  have hbalance : ∀ a, chain' a = chain a → ctx'.chain.balance a = h.ctx.chain.balance a := by
    intro a ha
    have hmoved := h.loaded.moved a
    have hmoved' := hloaded.moved a
    rw [Ledger.balance, Ledger.balance, ha] at hmoved'
    rw [Ledger.balance, Ledger.balance] at hmoved ⊢
    omega
  have hverified := h.verified
  rw [← hwallet, ← hbumps] at hverified
  have hsystem : (ctx'.chain inv.accounts.vault).holding = .system := by
    rw [hloaded.holding_of_ne hne, hview.vault hsigned]
    exact h.loads.system
  have henabled : Enabled D inv chain' ctx' h.auth h.action h.spent h.signer h.after h.moves
      h.event := {
    call_action := h.call_action
    loads := hloads
    verified := hverified
    enacts := h.enacts.congr (hbalance _ (hview.vault hsigned)) (hbalance _ hview.wallet)
    seeds := h.seeds
    system := hsystem
    fits := fun _ ↦ hloaded.moved.supplyFits hview.fits }
  obtain ⟨after', haccepted, hmoved, hholding⟩ := henabled.execute
  rw [hwallet, ← h.events_eq] at haccepted
  refine ⟨after', haccepted, ⟨_, h.moved_all, hloaded.moved.trans hmoved⟩, ?_⟩
  rw [hholding, if_pos rfl, h.holding_wallet]

theorem Confirmed.sameEffect (h : Confirmed D inv chain after events)
    (hview : SameView D inv chain chain') :
    ∃ after', SameEffect D inv chain chain' after events after' := by
  have hfound := h.found
  rw [← hview.wallet] at hfound
  have haccepted := execute_of_confirmable h.call hfound h.seeds h.pending h.opened h.unexpired
  rw [← h.events_eq] at haccepted
  refine ⟨_, haccepted, ⟨[], ?_, (Ledger.Moved.refl _).setHolding _ _⟩, ?_⟩
  · intro a
    rw [h.balance_eq, netChange_nil, add_zero]
  · rw [Ledger.holding_setHolding_self, h.holding_wallet]
    rfl

/-- **What an instruction does not read does not matter.** -/
theorem sameEffect_of_execute (h : execute D inv chain = .ok (after, events))
    (hview : SameView D inv chain chain')
    (hne : inv.call.authorization ≠ none → inv.accounts.vault ≠ inv.accounts.wallet) :
    ∃ after', SameEffect D inv chain chain' after events after' := by
  rcases executed_of_execute h with ⟨⟨h⟩⟩ | ⟨⟨h⟩⟩
  · refine h.sameEffect hview (hne ?_)
    rw [h.call_authorization]
    exact Option.some_ne_none _
  · exact h.sameEffect hview

end Effect

end EnclaveKit
