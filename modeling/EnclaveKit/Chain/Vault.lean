import EnclaveKit.Chain.Wallet

/-!
# One vault at a time

Where lamports come from and go to, and so who can take from a vault. Every move of an accepted
instruction is out of its own vault, out of the relayer, or out of the state account it closes. A
relayer signs, so it is no address of the program's; a state account is no vault. So a vault is
lowered by the instructions of its own wallet only, and by those exactly as much as they take from
it.

The vault of a wallet that exists stays an account of System, as it was when the wallet was made.
-/

namespace EnclaveKit

open Solana Fallible

section Sources

variable {D : Deployment} {inv : Invocation} {chain chain' : Chain} {events : List Event}

/-- An effect takes from the vault, and a closing one from the state account. -/
theorem Enacts.source_cases {auth : Authorization} {wallet : SmartWallet} {signer : PublicKey}
    {after : Option SmartWallet} {moves : List Move} {event : Event}
    (h : Enacts D inv auth chain wallet signer after moves event) :
    ∀ m ∈ moves, m.source = inv.accounts.vault ∨ m.source = inv.accounts.wallet := by
  intro m hm
  cases h with
  | closeWallet =>
    simp only [List.mem_cons, List.not_mem_nil, or_false] at hm
    rcases hm with rfl | rfl | rfl
    · exact .inl rfl
    · exact .inl rfl
    · exact .inr rfl
  | transferSol | sweepVault =>
    simp only [List.mem_cons, List.not_mem_nil, or_false] at hm
    rcases hm with rfl | rfl
    · exact .inl rfl
    · exact .inl rfl
  | setGuardians | cancelRotation | rotate | propose =>
    rw [List.mem_singleton] at hm
    exact .inl (congrArg Move.source hm)

/-- A creation takes from the relayer. -/
theorem Loaded.source_eq {accounts : Accounts} {walletId : WalletId} {mayCreate : Bool}
    {ctx : Context} {creation : List Move}
    (h : Loaded D accounts walletId chain mayCreate ctx creation) :
    ∀ m ∈ creation, m.source = accounts.relayer := by
  intro m hm
  cases h with
  | found => cases hm
  | created =>
    rw [List.mem_singleton] at hm
    exact congrArg Move.source hm

/-- Where the lamports of an instruction come from. -/
theorem Accepted.source_cases (h : Accepted D inv chain chain' events) :
    ∀ m ∈ h.creation ++ h.moves, m.source = inv.accounts.vault ∨
      m.source = inv.accounts.relayer ∨ m.source = inv.accounts.wallet := by
  intro m hm
  rcases List.mem_append.mp hm with hm | hm
  · exact .inr (.inl (h.loaded.source_eq m hm))
  · rcases h.enacts.source_cases m hm with hsource | hsource
    · exact .inl hsource
    · exact .inr (.inr hsource)

/-- An effect pays to the destination of the call and to the relayer. -/
theorem Enacts.dest_cases {auth : Authorization} {wallet : SmartWallet} {signer : PublicKey}
    {after : Option SmartWallet} {moves : List Move} {event : Event}
    (h : Enacts D inv auth chain wallet signer after moves event) :
    ∀ m ∈ moves, inv.call.dest = some m.dest ∨ m.dest = inv.accounts.relayer := by
  intro m hm
  cases h with
  | transferSol call | sweepVault call =>
    simp only [List.mem_cons, List.not_mem_nil, or_false] at hm
    rcases hm with rfl | rfl
    · exact .inl (congrArg Call.dest call)
    · exact .inr rfl
  | closeWallet call =>
    simp only [List.mem_cons, List.not_mem_nil, or_false] at hm
    rcases hm with rfl | rfl | rfl
    · exact .inl (congrArg Call.dest call)
    · exact .inr rfl
    · exact .inr rfl
  | setGuardians | cancelRotation | rotate | propose =>
    rw [List.mem_singleton] at hm
    exact .inr (congrArg Move.dest hm)

/-- A creation pays to the state account. -/
theorem Loaded.dest_eq {accounts : Accounts} {walletId : WalletId} {mayCreate : Bool}
    {ctx : Context} {creation : List Move}
    (h : Loaded D accounts walletId chain mayCreate ctx creation) :
    ∀ m ∈ creation, m.dest = accounts.wallet := by
  intro m hm
  cases h with
  | found => cases hm
  | created =>
    rw [List.mem_singleton] at hm
    exact congrArg Move.dest hm

/-- Where the lamports of an instruction go. -/
theorem Accepted.dest_cases (h : Accepted D inv chain chain' events) :
    ∀ m ∈ h.creation ++ h.moves, inv.call.dest = some m.dest ∨
      m.dest = inv.accounts.relayer ∨ m.dest = inv.accounts.wallet := by
  intro m hm
  rcases List.mem_append.mp hm with hm | hm
  · exact .inr (.inr (h.loaded.dest_eq m hm))
  · rcases h.enacts.dest_cases m hm with hdest | hdest
    · exact .inl hdest
    · exact .inr (.inl hdest)

/-- An account that is none of the instruction's is left as it is. -/
theorem Accepted.eq_of_ne {a : Pubkey} (h : Accepted D inv chain chain' events)
    (hwallet : a ≠ inv.accounts.wallet) (hvault : a ≠ inv.accounts.vault)
    (hrelayer : a ≠ inv.accounts.relayer) (hdest : inv.call.dest ≠ some a) :
    chain' a = chain a := by
  have hnet : netChange (h.creation ++ h.moves) a = 0 := by
    refine netChange_eq_zero fun m hm ↦ ⟨?_, ?_⟩
    · rcases h.source_cases m hm with hsource | hsource | hsource <;> rw [hsource]
      · exact hvault.symm
      · exact hrelayer.symm
      · exact hwallet.symm
    · rcases h.dest_cases m hm with hpaid | hpaid | hpaid
      · intro heq
        rw [heq] at hpaid
        exact hdest hpaid
      · rw [hpaid]
        exact hrelayer.symm
      · rw [hpaid]
        exact hwallet.symm
  have hmoved := h.moved_all a
  refine Ledger.account_eq (by omega) ?_
  rw [h.holding, if_neg hwallet, h.loaded.holding_of_ne hwallet]

/-- An address of the program's is not the relayer. -/
theorem Accepted.ne_relayer (h : Accepted D inv chain chain' events) (hadmitted : Admitted D inv)
    {a : Pubkey} {seeds : List (List UInt8)} (ha : D.createProgramAddress seeds ID = some a) :
    a ≠ inv.accounts.relayer := by
  rintro rfl
  exact hadmitted.signer h.loaded.relayerIsSigner ⟨seeds, ha⟩

/-- A vault is no state account. -/
theorem vault_ne_wallet {w w' : WalletId} {v a : Pubkey} {bump : UInt8}
    (hdist : DistinctAddresses D w) (hv : vaultAddress D w = some v)
    (ha : D.createProgramAddress [WALLET_SEED, w'.toList, [bump]] ID = some a) : v ≠ a := by
  rintro rfl
  obtain ⟨_, hseeds⟩ := createProgramAddress_of_vaultAddress hv
  have hseed := (hdist _ (by simp) _ (by simp) _ _ _ _ hseeds ha).1
  exact absurd hseed (by decide)

/-- A vault is no other wallet's vault. -/
theorem vault_ne_vault {w w' : WalletId} {v a : Pubkey} {bump : UInt8}
    (hdist : DistinctAddresses D w) (hne : w' ≠ w) (hv : vaultAddress D w = some v)
    (ha : D.createProgramAddress [VAULT_SEED, w'.toList, [bump]] ID = some a) : v ≠ a := by
  rintro rfl
  obtain ⟨_, hseeds⟩ := createProgramAddress_of_vaultAddress hv
  exact hne (hdist _ (by simp) _ (by simp) _ _ _ _ hseeds ha).2

/-- What a vault loses to a payment out of it, which may come back to it. -/
theorem net_vaultMove (accounts : Accounts) (dest : Pubkey) (lamports : UInt64) :
    (vaultMove accounts dest lamports).net accounts.vault
      = if accounts.vault = dest then 0 else -(lamports.toNat : ℤ) := by
  rw [vaultMove, Move.net, if_pos rfl]
  split_ifs <;> simp

theorem net_refundMove {accounts : Accounts} (h : accounts.vault ≠ accounts.relayer)
    (refund : UInt64) :
    (refundMove accounts refund).net accounts.vault = -(refund.toNat : ℤ) := by
  rw [refundMove, net_vaultMove, if_neg h]

theorem net_refundMove_relayer {accounts : Accounts}
    (h : accounts.relayer ≠ accounts.vault) (refund : UInt64) :
    (refundMove accounts refund).net accounts.relayer = refund.toNat := by
  rw [refundMove, vaultMove, Move.net, if_pos rfl, if_neg h, sub_zero]

/-- A creation does not touch the vault. -/
theorem Loaded.netChange_eq_zero {accounts : Accounts} {walletId : WalletId} {mayCreate : Bool}
    {ctx : Context} {creation : List Move}
    (h : Loaded D accounts walletId chain mayCreate ctx creation)
    (hrelayer : accounts.vault ≠ accounts.relayer) (hwallet : accounts.vault ≠ accounts.wallet) :
    netChange creation accounts.vault = 0 := by
  cases h with
  | found => rfl
  | created =>
    refine Solana.netChange_eq_zero fun m hm ↦ ?_
    rw [List.mem_singleton] at hm
    rw [hm]
    exact ⟨hrelayer.symm, hwallet.symm⟩

/-- The vault of a wallet, as one of its instructions sees it. -/
structure OwnVault (D : Deployment) (inv : Invocation) (chain : Chain) (ctx : Context)
    (v : Pubkey) : Prop where
  vault_eq : v = inv.accounts.vault
  ne_relayer : inv.accounts.vault ≠ inv.accounts.relayer
  ne_wallet : inv.accounts.vault ≠ inv.accounts.wallet
  /-- Nothing is paid from it before the handler. -/
  balance_eq : ctx.chain.balance inv.accounts.vault = chain.balance v

theorem Accepted.ownVault {w : WalletId} {v : Pubkey} (h : Accepted D inv chain chain' events)
    (hadmitted : Admitted D inv) (hinv : Invariant D chain) (hdist : DistinctAddresses D w)
    (hv : vaultAddress D w = some v) (hw : inv.call.walletId = w) :
    OwnVault D inv chain h.ctx v := by
  rw [h.walletId_eq] at hw
  subst hw
  obtain rfl := Option.some_inj.mp (hv.symm.trans (h.vaultAddress_eq hinv hdist))
  have hrelayer := h.ne_relayer hadmitted h.loaded.vaultSeeds
  have hwallet := vault_ne_wallet hdist hv h.loaded.walletSeeds
  refine ⟨rfl, hrelayer, hwallet, ?_⟩
  have hmoved := h.loaded.moved inv.accounts.vault
  rw [h.loaded.netChange_eq_zero hrelayer hwallet] at hmoved
  omega

end Sources

section Frame

variable {D : Deployment} {w : WalletId} {v : Pubkey} {chain chain' : Chain} {label : Label}

/-- **Vaults are apart.** A step that is not an instruction of the wallet does not lower its
vault. -/
theorem Step.vault_le (h : Step D chain label chain') (hdist : DistinctAddresses D w)
    (hv : vaultAddress D w = some v) (hother : label.walletId ≠ some w) :
    chain.balance v ≤ chain'.balance v := by
  obtain ⟨_, hseeds⟩ := createProgramAddress_of_vaultAddress hv
  cases h with
  | external external => exact (external.derived v ⟨_, hseeds⟩).2
  | invoke admitted accepted =>
    rcases effect_of_execute accepted with ⟨⟨h⟩⟩ | ⟨⟨h⟩⟩
    · have hne : h.auth.walletId ≠ w := by
        rw [← h.walletId_eq]
        simpa [Label.walletId] using hother
      -- None of the three sources is this vault.
      have hnet : 0 ≤ netChange (h.creation ++ h.moves) v := by
        refine netChange_nonneg fun m hm ↦ ?_
        rcases h.source_cases m hm with hsource | hsource | hsource <;> rw [hsource]
        · exact (vault_ne_vault hdist hne hv h.loaded.vaultSeeds).symm
        · exact (h.ne_relayer admitted hseeds).symm
        · exact (vault_ne_wallet hdist hv h.loaded.walletSeeds).symm
      have hmoved := h.moved_all v
      omega
    · rw [h.balance_eq]

/-- A vault is never the account an instruction writes to. -/
theorem vault_ne_account {inv : Invocation} {events : List Event} (hdist : DistinctAddresses D w)
    (hv : vaultAddress D w = some v) (h : execute D inv chain = .ok (chain', events)) :
    v ≠ inv.accounts.wallet := by
  rcases effect_of_execute h with ⟨⟨h⟩⟩ | ⟨⟨h⟩⟩
  · exact vault_ne_wallet hdist hv h.loaded.walletSeeds
  · exact vault_ne_wallet hdist hv h.seeds

/-- Nothing changes whose account a vault is. -/
theorem Step.holding_vault (h : Step D chain label chain') (hdist : DistinctAddresses D w)
    (hv : vaultAddress D w = some v) : (chain' v).holding = (chain v).holding := by
  obtain ⟨_, hseeds⟩ := createProgramAddress_of_vaultAddress hv
  cases h with
  | external external => exact (external.derived v ⟨_, hseeds⟩).1
  | invoke _ accepted => exact holding_of_execute accepted (vault_ne_account hdist hv accepted)

/-- **The vault of a wallet is System's.** -/
theorem system_of_stored (hzero : NoZeroKey D) (hdist : DistinctAddresses D w)
    (hv : vaultAddress D w = some v) (hreach : (system D).Reachable chain) {wallet : SmartWallet}
    (hstored : stored D chain w = some wallet) : (chain v).holding = .system := by
  obtain ⟨chain₀, tr, hinit, hrun⟩ := hreach
  induction hrun generalizing wallet with
  | nil =>
    rw [stored_of_init hinit] at hstored
    cases hstored
  | @snoc tr chain chain' label run last ih =>
    rw [Step.holding_vault last hdist hv]
    cases hbefore : stored D chain w with
    | some before => exact ih hbefore
    | none =>
      -- The step creates the wallet, and what creates it has checked the vault.
      by_cases hlabel : label.walletId = some w
      · cases last with
        | external => cases hlabel
        | @invoke inv events _ admitted accepted =>
          obtain rfl := Option.some_inj.mp hlabel
          have hinv := invariant_of_reachable hzero ⟨_, _, hinit, run⟩
          rcases executed_of_execute accepted with ⟨⟨h⟩⟩ | ⟨⟨h⟩⟩
          · rw [h.walletId_eq] at hv hdist
            obtain rfl := Option.some_inj.mp (hv.symm.trans (h.vaultAddress_eq hinv hdist))
            exact h.loads.system
          · rw [stored_eq_stateAt (h.walletAddress_eq hinv hdist),
              stateAt_eq_some.mpr h.found] at hbefore
            cases hbefore
      · rw [Step.stored_eq hdist last hlabel, hbefore] at hstored
        cases hstored

end Frame

end EnclaveKit
