import EnclaveKit.Chain.Vault
import EnclaveKit.Chain.Vectors
import EnclaveKit.Program.Frame

/-!
# Wallets do not interfere

The id of a wallet reaches an instruction three times: as the argument its accounts are derived
from, in the signed header, and in the stored state the program signs for the vault with. The bumps
come by two routes. `OwnAccounts` and `OwnBumps` say that all of it leads to one pair of addresses,
those of the wallet the instruction is for.

So two instructions for different wallets meet only where they pay, and in their relayers.
`Concurrent` says when that does no harm. Neither pays to the other's accounts, and every relayer
can pay what rent the two may ask of it. Each then has the same view of the ledger before and after
the other, and what they do adds up to the same ledger in either order.

Accepted is accepted by the program. To the runtime's rule on rent the order may matter, for an
account that both pay to and that only one of them brings to the rent-exempt minimum by itself.
-/

namespace EnclaveKit

open Solana Fallible

/-! ## The accounts of an instruction -/

/-- The accounts of an instruction are those of wallet `w`, and its relayer is none of the
program's. -/
structure OwnAccounts (D : Deployment) (w : WalletId) (inv : Invocation) : Prop where
  wallet : walletAddress D w = some inv.accounts.wallet
  /-- A confirmation has no vault. -/
  vault : inv.call.authorization ≠ none → vaultAddress D w = some inv.accounts.vault
  relayer : inv.call.authorization ≠ none → ¬D.IsDerived ID inv.accounts.relayer

/-- Both routes lead to the bumps of wallet `w`. -/
structure OwnBumps (D : Deployment) (w : WalletId) (inv : Invocation) (chain : Chain) : Prop where
  /-- The bumps the account checks make, recomputed or read. -/
  loaded : ∀ ctx, Loads D inv chain ctx →
    D.findProgramAddress [WALLET_SEED, w.toList] ID
        = some (inv.accounts.wallet, ctx.bumps.wallet) ∧
      D.findProgramAddress [VAULT_SEED, w.toList] ID = some (inv.accounts.vault, ctx.bumps.vault)
  /-- The id and the bumps of the state that is there. -/
  stored : ∀ wallet, stored D chain w = some wallet → wallet.walletId = w ∧
    D.findProgramAddress [WALLET_SEED, w.toList] ID
        = some (inv.accounts.wallet, wallet.stateBump) ∧
      ∃ v, D.findProgramAddress [VAULT_SEED, w.toList] ID = some (v, wallet.vaultBump)

section Own

variable {D : Deployment} {w : WalletId} {inv : Invocation} {chain chain' : Chain}
  {events : List Event}

theorem ownAccounts_of_execute (hinv : Invariant D chain) (hdist : DistinctAddresses D w)
    (hadmitted : Admitted D inv) (h : execute D inv chain = .ok (chain', events))
    (hw : inv.call.walletId = w) : OwnAccounts D w inv := by
  rcases effect_of_execute h with ⟨⟨h⟩⟩ | ⟨⟨h⟩⟩
  · rw [h.walletId_eq] at hw
    subst hw
    exact ⟨h.walletAddress_eq hinv hdist, fun _ ↦ h.vaultAddress_eq hinv hdist,
      fun _ ↦ hadmitted.signer h.loaded.relayerIsSigner⟩
  · subst hw
    have hnone : inv.call.authorization = none := by
      rw [h.call]
      rfl
    exact ⟨h.walletAddress_eq hinv hdist, fun hsome ↦ absurd hnone hsome,
      fun hsome ↦ absurd hnone hsome⟩

/-- A stored wallet carries its own id and the bumps of its own addresses. -/
theorem Invariant.bumps {a : Pubkey} (hinv : Invariant D chain) (hdist : DistinctAddresses D w)
    (ha : walletAddress D w = some a) {wallet : SmartWallet}
    (howned : (chain a).holding = .owned wallet) : wallet.walletId = w ∧
      D.findProgramAddress [WALLET_SEED, w.toList] ID = some (a, wallet.stateBump) ∧
        ∃ v, D.findProgramAddress [VAULT_SEED, w.toList] ID = some (v, wallet.vaultBump) := by
  obtain ⟨_, hseeds⟩ := createProgramAddress_of_walletAddress ha
  have hwellFormed := hinv a wallet howned
  obtain rfl := hwellFormed.walletId_eq hdist hseeds
  exact ⟨rfl, hwellFormed.address, hwellFormed.vault⟩

/-- The second family of account checks reads the bumps, and they are the ones the first would
find. -/
theorem find_of_existing (hinv : Invariant D chain) (hdist : DistinctAddresses D w)
    {accounts : Accounts} {ctx : Context} (ha : walletAddress D w = some accounts.wallet)
    (h : accounts.existing D w chain = .ok ctx) :
    D.findProgramAddress [WALLET_SEED, w.toList] ID = some (accounts.wallet, ctx.bumps.wallet) ∧
      D.findProgramAddress [VAULT_SEED, w.toList] ID = some (accounts.vault, ctx.bumps.vault) := by
  obtain ⟨wallet, howned, -, -, -, hvault, rfl⟩ := existing_eq_ok.mp h
  obtain ⟨-, hfind, v, hv⟩ := hinv.bumps hdist ha howned
  obtain rfl := Option.some_inj.mp ((Platform.createProgramAddress_of_find hv).symm.trans hvault)
  exact ⟨hfind, hv⟩

theorem OwnAccounts.bumps (h : OwnAccounts D w inv) (hinv : Invariant D chain)
    (hdist : DistinctAddresses D w) (hw : inv.call.walletId = w) : OwnBumps D w inv chain := by
  subst hw
  refine ⟨fun ctx hctx ↦ ?_, fun wallet hstored ↦ ?_⟩
  · obtain ⟨auth, hauth⟩ := hctx.authorization
    have ha := h.wallet
    rw [Call.walletId_of_authorization hauth] at hdist ha ⊢
    rcases (loads_iff hauth).mp hctx with ⟨-, hctx⟩ | ⟨-, hctx, -⟩
    · exact find_of_initialized hctx
    · exact find_of_existing hinv hdist ha hctx
  · rw [stored_eq_stateAt h.wallet, stateAt_eq_some] at hstored
    exact hinv.bumps hdist h.wallet hstored

end Own

/-! ## What an instruction leaves alone -/

section Others

variable {D : Deployment} {w : WalletId} {inv : Invocation} {chain chain' : Chain}
  {events : List Event}

/-- **An account of another wallet is left alone**, if it is not paid to. -/
theorem account_eq_of_execute (hdist : DistinctAddresses D w) (hadmitted : Admitted D inv)
    (hw : inv.call.walletId ≠ w) (h : execute D inv chain = .ok (chain', events)) {a : Pubkey}
    (ha : walletAddress D w = some a ∨ vaultAddress D w = some a)
    (hdest : inv.call.dest ≠ some a) : chain' a = chain a := by
  have hwallet : a ≠ inv.accounts.wallet := by
    rcases ha with ha | ha
    · exact walletAddress_ne hdist h hw ha
    · exact vault_ne_account hdist ha h
  refine Ledger.account_eq ?_ (holding_of_execute h hwallet)
  rcases effect_of_execute h with ⟨⟨h⟩⟩ | ⟨⟨h⟩⟩
  · rw [h.walletId_eq] at hw
    obtain ⟨seed, hseed, bump, hseeds⟩ : ∃ seed ∈ [WALLET_SEED, VAULT_SEED], ∃ bump,
        D.createProgramAddress [seed, w.toList, [bump]] ID = some a := by
      rcases ha with ha | ha
      · exact ⟨_, by simp, createProgramAddress_of_walletAddress ha⟩
      · exact ⟨_, by simp, createProgramAddress_of_vaultAddress ha⟩
    have hvault : a ≠ inv.accounts.vault := by
      rintro rfl
      exact hw (hdist seed hseed _ (by simp) _ _ _ _ hseeds h.loaded.vaultSeeds).2
    have hrelayer := h.ne_relayer hadmitted hseeds
    -- No move ends here: vault and state account are another wallet's, and the relayer signs.
    have hnet : netChange (h.creation ++ h.moves) a = 0 := by
      refine netChange_eq_zero fun m hm ↦ ⟨?_, ?_⟩
      · rcases h.source_cases m hm with hsource | hsource | hsource <;> rw [hsource]
        · exact hvault.symm
        · exact hrelayer.symm
        · exact hwallet.symm
      · rcases h.dest_cases m hm with hpaid | hpaid | hpaid
        · rintro rfl
          exact hdest hpaid
        · rw [hpaid]
          exact hrelayer.symm
        · rw [hpaid]
          exact hwallet.symm
    have hmoved := h.moved_all a
    omega
  · exact h.balance_eq a

/-- The rent an instruction may ask of `r`. -/
def rentDue (D : Deployment) (chain : Chain) (inv : Invocation) (r : Pubkey) : ℕ :=
  if inv.call.mayCreate = true ∧ inv.accounts.relayer = r ∧
      (chain inv.accounts.wallet).holding = .system
    then (creationMove D inv.accounts chain).lamports else 0

/-- A creation takes its rent from the relayer, and nothing from anybody else. -/
theorem Loaded.neg_rentDue_le {walletId : WalletId} {ctx : Context} {creation : List Move}
    (h : Loaded D inv.accounts walletId chain inv.call.mayCreate ctx creation) (r : Pubkey) :
    -(rentDue D chain inv r : ℤ) ≤ netChange creation r := by
  rw [rentDue]
  generalize inv.call.mayCreate = mayCreate at h
  cases h with
  | found =>
    rw [netChange_nil]
    omega
  | created holding =>
    rw [netChange_cons, netChange_nil, Move.net]
    -- What the state account receives can only add to it, should it be `r`.
    by_cases hr : inv.accounts.relayer = r
    · rw [if_pos ⟨rfl, hr, holding⟩]
      split_ifs <;> omega
    · have hsource : r ≠ (creationMove D inv.accounts chain).source := fun heq ↦ hr heq.symm
      rw [if_neg fun hdue ↦ hr hdue.2.1, if_neg hsource]
      split_ifs <;> omega

/-- Nobody loses more to an instruction than its rent, the program's addresses apart. -/
theorem le_balance_of_execute (h : execute D inv chain = .ok (chain', events)) {r : Pubkey}
    (hr : ¬D.IsDerived ID r) :
    chain.balance r ≤ rentDue D chain inv r + chain'.balance r := by
  rcases effect_of_execute h with ⟨⟨h⟩⟩ | ⟨⟨h⟩⟩
  · have hmoves : 0 ≤ netChange h.moves r := by
      refine netChange_nonneg fun m hm hsource ↦ hr ?_
      rcases h.enacts.source_cases m hm with hvault | hwallet
      · exact ⟨_, h.loaded.vaultSeeds.trans (congrArg some (hvault.symm.trans hsource))⟩
      · exact ⟨_, h.loaded.walletSeeds.trans (congrArg some (hwallet.symm.trans hsource))⟩
    have hcreation := h.loaded.neg_rentDue_le r
    have hmoved := h.moved_all r
    rw [netChange_append] at hmoved
    omega
  · rw [h.balance_eq]
    exact Nat.le_add_left _ _

end Others

/-! ## Two instructions -/

/-- An instruction for wallet `w` and one for `w'`, apart but for where they pay and who sends
them. -/
structure Concurrent (D : Deployment) (chain : Chain) (w w' : WalletId) (inv inv' : Invocation) :
    Prop where
  admitted : Admitted D inv
  admitted' : Admitted D inv'
  walletId : inv.call.walletId = w
  walletId' : inv'.call.walletId = w'
  /-- Neither pays to an account of the other's wallet. -/
  elsewhere : ∀ a, walletAddress D w' = some a ∨ vaultAddress D w' = some a →
    inv.call.dest ≠ some a
  elsewhere' : ∀ a, walletAddress D w = some a ∨ vaultAddress D w = some a →
    inv'.call.dest ≠ some a
  /-- Whatever rent the two ask of a relayer, it can pay. -/
  canPay : ∀ r, rentDue D chain inv r + rentDue D chain inv' r ≤ chain.balance r
  fits : chain.SupplyFits

section Commutation

variable {D : Deployment} {w w' : WalletId} {inv inv' : Invocation} {chain : Chain}

theorem Concurrent.symm (h : Concurrent D chain w w' inv inv') :
    Concurrent D chain w' w inv' inv where
  admitted := h.admitted'
  admitted' := h.admitted
  walletId := h.walletId'
  walletId' := h.walletId
  elsewhere := h.elsewhere'
  elsewhere' := h.elsewhere
  canPay r := by
    rw [Nat.add_comm]
    exact h.canPay r
  fits := h.fits

namespace Concurrent

variable (h : Concurrent D chain w w' inv inv') (hne : w' ≠ w) (hdist : DistinctAddresses D w)

include h hne hdist

/-- The other instruction leaves the accounts of this wallet alone. -/
theorem next_eq {a : Pubkey} (ha : walletAddress D w = some a ∨ vaultAddress D w = some a) :
    next D chain inv' a = chain a := by
  by_cases haccepts : accepts D chain inv' = true
  · have hw : inv'.call.walletId ≠ w := by
      rw [h.walletId']
      exact hne
    exact account_eq_of_execute hdist h.admitted' hw (execute_of_accepts haccepts) ha
      (h.elsewhere' a ha)
  · rw [next_of_refused (Bool.eq_false_iff.mpr haccepts)]

omit hne hdist in
/-- The other instruction leaves a relayer what it needs for this one. -/
theorem relayer_next {r : Pubkey} (hr : ¬D.IsDerived ID r) :
    (next D chain inv' r).holding = (chain r).holding ∧
      rentDue D chain inv r ≤ (next D chain inv').balance r := by
  have hpays := h.canPay r
  by_cases haccepts : accepts D chain inv' = true
  · have hexecute := execute_of_accepts haccepts
    have hwallet : r ≠ inv'.accounts.wallet := by
      rintro rfl
      rcases effect_of_execute hexecute with ⟨⟨h⟩⟩ | ⟨⟨h⟩⟩
      · exact hr ⟨_, h.loaded.walletSeeds⟩
      · exact hr ⟨_, h.seeds⟩
    have hleft := le_balance_of_execute hexecute hr
    exact ⟨holding_of_execute hexecute hwallet, by omega⟩
  · rw [next_of_refused (Bool.eq_false_iff.mpr haccepts)]
    exact ⟨rfl, by omega⟩

/-- **One view.** An instruction on its own accounts sees the same before the other and after it. -/
theorem sameView (hown : OwnAccounts D w inv) :
    SameView D inv chain (next D chain inv') ∧ SameView D inv (next D chain inv') chain := by
  have hwallet := h.next_eq hne hdist (.inl hown.wallet)
  have hvault := fun hsigned ↦ h.next_eq hne hdist (.inr (hown.vault hsigned))
  have hsigned : inv.call.mayCreate = true → inv.call.authorization ≠ none := by
    intro hcreate hnone
    cases hcall : inv.call <;> rw [hcall] at hcreate hnone <;> cases hnone
    cases hcreate
  have hdue : inv.call.mayCreate = true → (chain inv.accounts.wallet).holding = .system →
      rentDue D chain inv inv.accounts.relayer = (creationMove D inv.accounts chain).lamports :=
    fun hcreate hsystem ↦ if_pos ⟨hcreate, rfl, hsystem⟩
  constructor
  · refine ⟨hwallet, hvault, fun hcreate hsystem ↦ ?_, supplyFits_next h.fits⟩
    rw [← hdue hcreate hsystem]
    exact h.relayer_next (hown.relayer (hsigned hcreate))
  · refine ⟨hwallet.symm, fun hs ↦ (hvault hs).symm, fun hcreate hsystem ↦ ?_, h.fits⟩
    rw [hwallet] at hsystem
    rw [creationMove_eq hwallet, ← hdue hcreate hsystem]
    have hpays := h.canPay inv.accounts.relayer
    exact ⟨(h.relayer_next (hown.relayer (hsigned hcreate))).1.symm, by omega⟩

omit hne in
/-- What is accepted on one ledger is accepted on another of the same view, to the same effect. -/
theorem sameEffect {before before' : Chain} (hinv : Invariant D before)
    (hview : OwnAccounts D w inv → SameView D inv before before')
    (haccepts : accepts D before inv = true) :
    accepts D before' inv = true ∧
      SameEffect D inv before before' (next D before inv) (emitted D before inv)
        (next D before' inv) := by
  have hexecute := execute_of_accepts haccepts
  have hown := ownAccounts_of_execute hinv hdist h.admitted hexecute h.walletId
  obtain ⟨after', heffect⟩ := sameEffect_of_execute hexecute (hview hown)
    fun hsigned ↦ vault_ne_account hdist (hown.vault hsigned) hexecute
  have hnext : next D before' inv = after' := by rw [next, heffect.accepted]
  rw [hnext]
  exact ⟨by rw [accepts, heffect.accepted], heffect⟩

/-- **The same acceptances.** -/
theorem accepts_eq (hzero : NoZeroKey D) (hinv : Invariant D chain) :
    accepts D (next D chain inv') inv = accepts D chain inv := by
  -- Views are the same both ways, so an acceptance on either side gives one on the other.
  rw [Bool.eq_iff_iff]
  constructor
  · intro haccepts
    exact (h.sameEffect hdist (hinv.next hzero h.admitted')
      (fun hown ↦ (h.sameView hne hdist hown).2) haccepts).1
  · intro haccepts
    exact (h.sameEffect hdist hinv (fun hown ↦ (h.sameView hne hdist hown).1) haccepts).1

/-- **The same ledger**, when both are accepted. -/
theorem next_next_of_accepts (hdist' : DistinctAddresses D w') (hinv : Invariant D chain)
    (haccepts : accepts D chain inv = true) (haccepts' : accepts D chain inv' = true) :
    next D (next D chain inv) inv' = next D (next D chain inv') inv := by
  have heffect := (h.sameEffect hdist hinv
    (fun hown ↦ (h.sameView hne hdist hown).1) haccepts).2
  have heffect' := (h.symm.sameEffect hdist' hinv
    (fun hown ↦ (h.symm.sameView hne.symm hdist' hown).1) haccepts').2
  have hexecute := execute_of_accepts haccepts
  have hexecute' := execute_of_accepts haccepts'
  have hown := ownAccounts_of_execute hinv hdist h.admitted hexecute h.walletId
  have hapart : inv.accounts.wallet ≠ inv'.accounts.wallet := by
    refine walletAddress_ne hdist hexecute' ?_ hown.wallet
    rw [h.walletId']
    exact hne
  obtain ⟨moves, hmoved, hmoved₂⟩ := heffect.moved
  obtain ⟨moves', hmoved', hmoved₂'⟩ := heffect'.moved
  funext a
  refine Ledger.account_eq ?_ ?_
  · -- Either way both lists of moves are made.
    have hfirst := hmoved a
    have hthen := hmoved₂' a
    have hfirst' := hmoved' a
    have hthen' := hmoved₂ a
    omega
  · by_cases ha : a = inv.accounts.wallet
    · rw [ha, holding_of_execute heffect'.accepted hapart, heffect.holding]
    · rw [holding_of_execute heffect.accepted ha]
      by_cases ha' : a = inv'.accounts.wallet
      · rw [ha', heffect'.holding]
      · rw [holding_of_execute heffect'.accepted ha', holding_of_execute hexecute ha,
          holding_of_execute hexecute' ha']

/-- **The same ledger.** -/
theorem next_next (hzero : NoZeroKey D) (hdist' : DistinctAddresses D w')
    (hinv : Invariant D chain) :
    next D (next D chain inv) inv' = next D (next D chain inv') inv := by
  by_cases haccepts : accepts D chain inv = true
  · by_cases haccepts' : accepts D chain inv' = true
    · exact h.next_next_of_accepts hne hdist hdist' hinv haccepts haccepts'
    · have hrefused := Bool.eq_false_iff.mpr haccepts'
      rw [next_of_refused hrefused]
      refine next_of_refused ?_
      rw [h.symm.accepts_eq hne.symm hdist' hzero hinv, hrefused]
  · -- A refused instruction changes nothing, and is refused after the other as well.
    have hrefused := Bool.eq_false_iff.mpr haccepts
    rw [next_of_refused hrefused]
    refine (next_of_refused ?_).symm
    rw [h.accepts_eq hne hdist hzero hinv, hrefused]

end Concurrent

end Commutation

/-- **Wallets do not interfere.** In every reachable state, what an accepted instruction uses are
the accounts and the bumps of its wallet, whichever route it takes to them; it leaves the state of
every other wallet as it is and lowers no other vault. Two instructions for different wallets are
each accepted or refused by the program as they would be alone, and leave one ledger in either
order: the same states, the same owners and the same balances. -/
theorem wallets_do_not_interfere {D : Deployment} {w w' : WalletId} {chain : Chain}
    (hzero : NoZeroKey D) (hne : w' ≠ w) (hdist : DistinctAddresses D w)
    (hdist' : DistinctAddresses D w') (hreach : (system D).Reachable chain) :
    (∀ inv events chain', Step D chain (.invoke inv events) chain' → inv.call.walletId = w →
      OwnAccounts D w inv ∧ OwnBumps D w inv chain ∧
        stored D chain' w' = stored D chain w' ∧
        ∀ v, vaultAddress D w' = some v → chain.balance v ≤ chain'.balance v) ∧
    ∀ inv inv', Concurrent D chain w w' inv inv' →
      accepts D (next D chain inv') inv = accepts D chain inv ∧
        accepts D (next D chain inv) inv' = accepts D chain inv' ∧
        next D (next D chain inv) inv' = next D (next D chain inv') inv := by
  have hinv := invariant_of_reachable hzero hreach
  constructor
  · intro inv events chain' hstep hw
    have hother : (Label.invoke inv events).walletId ≠ some w' := by
      rw [Label.walletId, hw]
      exact fun heq ↦ hne (Option.some_inj.mp heq).symm
    have hstored := hstep.stored_eq hdist' hother
    have hvault := fun v hv ↦ hstep.vault_le (v := v) hdist' hv hother
    cases hstep with
    | invoke admitted accepted =>
      have hown := ownAccounts_of_execute hinv hdist admitted accepted hw
      exact ⟨hown, hown.bumps hinv hdist hw, hstored, hvault⟩
  · intro inv inv' h
    exact ⟨h.accepts_eq hne hdist hzero hinv, h.symm.accepts_eq hne.symm hdist' hzero hinv,
      h.next_next hne hdist hzero hdist' hinv⟩

/-- The guardians of one wallet of the vectors and the sweep of the other, which one relayer sends
and which both make their wallet. -/
theorem wallets_do_not_interfere_vectors :
    OwnAccounts Vectors.deployment Vectors.walletId Vectors.setGuardians.sent ∧
      next Vectors.deployment (next Vectors.deployment Vectors.genesis Vectors.setGuardians.sent)
          Vectors.otherSweep.sent
        = next Vectors.deployment (next Vectors.deployment Vectors.genesis Vectors.otherSweep.sent)
          Vectors.setGuardians.sent := by
  have hne : Vectors.otherId ≠ Vectors.walletId := by decide
  obtain ⟨hown, hcommutes⟩ := wallets_do_not_interfere Vectors.deployment_noZeroKey hne
    (Vectors.deployment_distinctAddresses _) (Vectors.deployment_distinctAddresses _)
    Vectors.start.reachable
  have hstep := Vectors.start.step Vectors.guarded Vectors.setGuardians.sent rfl
  refine ⟨(hown _ _ _ hstep rfl).1, (hcommutes Vectors.setGuardians.sent Vectors.otherSweep.sent {
    admitted := Vectors.admitted_sent (by simp [Vectors.approvals])
    admitted' := Vectors.admitted_sent (by simp [Vectors.approvals])
    walletId := rfl
    walletId' := rfl
    elsewhere := fun _ _ hdest ↦ nomatch hdest
    elsewhere' := ?_
    canPay := fun r ↦ ?_
    fits := Vectors.genesis_supplyFits }).2.2⟩
  · rintro a (ha | ha) hdest
    · exact absurd (Vectors.walletAddress_eq.symm.trans (ha.trans hdest.symm)) (by decide)
    · exact absurd (Vectors.vaultAddress_eq.symm.trans (ha.trans hdest.symm)) (by decide)
  · by_cases hr : Vectors.relayer = r
    · subst hr
      decide
    · rw [rentDue, rentDue, if_neg fun hdue ↦ hr hdue.2.1, if_neg fun hdue ↦ hr hdue.2.1]
      exact Nat.zero_le _

end EnclaveKit
