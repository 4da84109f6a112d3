import EnclaveKit.Chain.Vault
import EnclaveKit.Solana.Rent

/-!
# The rent of a state account

The relayer of a wallet's first action advances the rent of its state, and a closing gives it to the
relayer of that closing. In between nobody touches it. Whoever paid to the address before the wallet
was made has paid a part of it, and the relayer only advances what is missing.

So the check that `init_if_needed` makes of a wallet that is there, that the account is rent-exempt,
passes in every reachable state. And the runtime, which looks at the rent of all accounts once the
instructions of a transaction have succeeded, never undoes one of the program's over the account of
the wallet. What is left to it is the vault, the relayer and the destination.
-/

namespace EnclaveKit

open Solana Fallible

/-- What a state account of the program's at `a` holds is enough to be rent-exempt. -/
def RentExempt (D : Deployment) (a : Pubkey) (chain : Chain) : Prop :=
  ∀ wallet, (chain a).holding = .owned wallet →
    (D.minimumBalance SmartWallet.SPACE).toNat ≤ chain.balance a

section Step

variable {D : Deployment} {inv : Invocation} {chain chain' : Chain} {events : List Event}

/-- A creation brings the account to the minimum, whatever was paid to it before. -/
theorem Loaded.rentKept {accounts : Accounts} {walletId : WalletId} {mayCreate : Bool}
    {ctx : Context} {creation : List Move}
    (h : Loaded D accounts walletId chain mayCreate ctx creation)
    (hne : accounts.wallet ≠ accounts.relayer) (hrent : RentExempt D accounts.wallet chain) :
    (D.minimumBalance SmartWallet.SPACE).toNat ≤ ctx.chain.balance accounts.wallet := by
  cases h with
  | found holding => exact hrent _ holding
  | created _ _ _ _ moved =>
    have hmoved := moved accounts.wallet
    rw [netChange_cons, netChange_nil, Move.net, creationMove, if_pos rfl, if_neg hne] at hmoved
    dsimp only at hmoved ⊢
    omega

/-- An effect that keeps the wallet takes from the vault alone. -/
theorem Enacts.source_eq_vault {auth : Authorization} {wallet after : SmartWallet}
    {signer : PublicKey} {moves : List Move} {event : Event}
    (h : Enacts D inv auth chain wallet signer (some after) moves event) :
    ∀ m ∈ moves, m.source = inv.accounts.vault := by
  intro m hm
  cases h with
  | transferSol | sweepVault =>
    simp only [List.mem_cons, List.not_mem_nil, or_false] at hm
    rcases hm with rfl | rfl
    · rfl
    · rfl
  | setGuardians | cancelRotation | rotate | propose =>
    rw [List.mem_singleton] at hm
    rw [hm]
    rfl

variable {w : WalletId} {a : Pubkey} {label : Label}

/-- No step takes from a state account, but the closing that gives it up. -/
theorem Step.rentKept (h : Step D chain label chain') (hdist : DistinctAddresses D w)
    (ha : walletAddress D w = some a) (hrent : RentExempt D a chain) : RentExempt D a chain' := by
  obtain ⟨_, hseeds⟩ := createProgramAddress_of_walletAddress ha
  intro wallet howned
  cases h with
  | external external =>
    have hle := (external.derived a ⟨_, hseeds⟩).2
    exact (hrent wallet ((external.owned a wallet).mp howned)).trans hle
  | @invoke inv events _ admitted accepted =>
    rcases effect_of_execute accepted with ⟨⟨h⟩⟩ | ⟨⟨h⟩⟩
    · have hrelayer := h.ne_relayer admitted hseeds
      have hvault : inv.accounts.vault ≠ a := by
        intro heq
        have hvaultSeeds := h.loaded.vaultSeeds
        rw [heq] at hvaultSeeds
        exact absurd (hdist _ (by simp) _ (by simp) _ _ _ _ hseeds hvaultSeeds).1 (by decide)
      by_cases hwallet : a = inv.accounts.wallet
      · -- Its own instruction: the account is brought to the minimum, and then nothing is taken.
        subst hwallet
        have hafter : h.after = some wallet := by
          rw [← stateAt_of_holdingOf h.holding_wallet, stateAt_eq_some, howned]
        have hminimum := h.loaded.rentKept hrelayer hrent
        have henacts := h.enacts
        rw [hafter] at henacts
        have hnet : 0 ≤ netChange h.moves inv.accounts.wallet := by
          refine netChange_nonneg fun m hm ↦ ?_
          rw [henacts.source_eq_vault m hm]
          exact hvault
        have hmoved := h.moved inv.accounts.wallet
        omega
      · have hnet : 0 ≤ netChange (h.creation ++ h.moves) a := by
          refine netChange_nonneg fun m hm ↦ ?_
          rcases h.source_cases m hm with hsource | hsource | hsource <;> rw [hsource]
          · exact hvault
          · exact hrelayer.symm
          · exact fun heq ↦ hwallet heq.symm
        have hmoved := h.moved_all a
        rw [h.holding_of_ne hwallet] at howned
        have hminimum := hrent wallet howned
        omega
    · rw [h.balance_eq]
      by_cases hwallet : a = inv.accounts.wallet
      · subst hwallet
        exact hrent _ h.found
      · rw [h.holding_of_ne hwallet] at howned
        exact hrent wallet howned

/-- **The rent stays.** In every reachable state a wallet's account is rent-exempt. -/
theorem rentExempt_of_reachable (hdist : DistinctAddresses D w) (ha : walletAddress D w = some a)
    (hreach : (system D).Reachable chain) : RentExempt D a chain :=
  hreach.invariant (fun _ hinit wallet howned ↦ absurd howned (hinit a wallet))
    fun _ _ _ hrent hstep ↦ Step.rentKept hstep hdist ha hrent

/-! ## The runtime's rule -/

/-- How much data an account has. Of what the program did not write, `foreign` tells. -/
def dataSize (foreign : Pubkey → ℕ) (chain : Chain) (a : Pubkey) : ℕ :=
  match (chain a).holding with
  | .system => 0
  | .owned _ => SmartWallet.SPACE
  | .foreign => foreign a

variable {foreign : Pubkey → ℕ}

theorem dataSize_congr (h : (chain' a).holding = (chain a).holding) :
    dataSize foreign chain' a = dataSize foreign chain a := by
  rw [dataSize, dataSize, h]

/-- What the runtime asks of one account, from before a transaction to after it. -/
def RentAllowed (D : Deployment) (foreign : Pubkey → ℕ) (chain chain' : Chain) (a : Pubkey) :
    Prop :=
  a = INCINERATOR ∨ (D.rentState (dataSize foreign chain a) (chain.balance a)).Allows
    (D.rentState (dataSize foreign chain' a) (chain'.balance a))

/-- Nothing is asked of an account that has what it had. -/
theorem rentAllowed_of_eq (hsize : dataSize foreign chain' a = dataSize foreign chain a)
    (hbalance : chain'.balance a = chain.balance a) : RentAllowed D foreign chain chain' a := by
  right
  rw [hsize, hbalance]
  exact .refl _

/-- **What the runtime may still refuse.** Of the accounts of an accepted instruction, the runtime's
rule on rent is a question for the vault, the relayer and the destination alone. -/
theorem Step.rentAllowed (hzero : NoZeroKey D) (hdist : DistinctAddresses D inv.call.walletId)
    (hreach : (system D).Reachable chain) (h : Step D chain (.invoke inv events) chain')
    (hvault : a ≠ inv.accounts.vault) (hrelayer : a ≠ inv.accounts.relayer)
    (hdest : inv.call.dest ≠ some a) : RentAllowed D foreign chain chain' a := by
  have hreach' := hreach.step h
  have hinv := invariant_of_reachable hzero hreach
  cases h with
  | invoke admitted accepted =>
    rcases effect_of_execute accepted with ⟨⟨h⟩⟩ | ⟨⟨h⟩⟩
    · by_cases hwallet : a = inv.accounts.wallet
      · -- Its own account ends with the rent of a state, or with nothing where it is closed.
        subst hwallet
        refine .inr (RentState.allows_of_le _ ?_)
        cases hafter : h.after with
        | none =>
          have henacts := h.enacts
          rw [hafter] at henacts
          obtain ⟨dest, relayerFee, call⟩ := henacts.exists_closeWallet
          exact .inl (h.closed_balance call)
        | some wallet =>
          have howned : (chain' inv.accounts.wallet).holding = .owned wallet := by
            rw [h.holding_wallet, hafter]
            rfl
          rw [h.walletId_eq] at hdist
          have hrent := rentExempt_of_reachable hdist (h.walletAddress_eq hinv hdist) hreach'
          rw [dataSize, howned]
          exact .inr (hrent wallet howned)
      · have heq := h.eq_of_ne hwallet hvault hrelayer hdest
        refine rentAllowed_of_eq (dataSize_congr ?_) ?_
        · rw [heq]
        · rw [Ledger.balance, Ledger.balance, heq]
    · refine rentAllowed_of_eq ?_ (h.balance_eq a)
      by_cases hwallet : a = inv.accounts.wallet
      · subst hwallet
        rw [dataSize, dataSize, h.found, h.holding_wallet]
        rfl
      · exact dataSize_congr (h.holding_of_ne hwallet)

end Step

end EnclaveKit
