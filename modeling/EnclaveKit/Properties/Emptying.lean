import EnclaveKit.Properties.Balances

/-!
# What a sweep leaves behind

`sweep_vault` and `close_wallet` read the balance once, split it into the refund and the rest, and
make two payments. Both payments are out of the vault, so the vault ends at nothing, unless one of
them is into it. The relayer signs and cannot be the vault. The destination is bound by the
signature and by nothing else: where it is the vault itself, the rest stays.

What is stored does not depend on the destination.
-/

namespace EnclaveKit

open Solana MachineInt Fallible TransitionSystem

/-- What is to be left of a wallet: nothing in the vault; after a sweep the state as it was, or as
it is made, with its nonce spent; after a closing no state, and nothing at its address. -/
structure LeavesNothing (D : Deployment) (w : WalletId) (v : Pubkey) (inv : Invocation)
    (chain chain' : Chain) : Prop where
  vault : chain'.balance v = 0
  swept : ∀ auth dest relayerFee, inv.call = .sweepVault auth dest relayerFee →
    ∃ after, stored D chain' w = some after ∧
      (∀ wallet, stored D chain w = some wallet → after = { wallet with nonce := after.nonce }) ∧
      (stored D chain w = none →
        ∃ key bumps, after = { SmartWallet.created w key bumps with nonce := 1 })
  closed : ∀ auth dest relayerFee, inv.call = .closeWallet auth dest relayerFee →
    stored D chain' w = none ∧ ∀ a, walletAddress D w = some a → chain'.balance a = 0

/-- A sweep or a closing leaves nothing behind, whatever the destination. -/
def SweepsLeaveNothing : Prop :=
  ∀ (D : Deployment) (w : WalletId) (v : Pubkey) (chain chain' : Chain) (inv : Invocation)
    (events : List Event), NoZeroKey D → DistinctAddresses D w → vaultAddress D w = some v →
    (system D).Reachable chain → Step D chain (.invoke inv events) chain' →
    inv.call.walletId = w → inv.call.empties = true → LeavesNothing D w v inv chain chain'

/-- The vault after a sweep into itself. -/
def Vectors.selfSwept : Stage where
  invs := [selfSweep.sent]
  state := some fresh
  funds := 1000000000
  admitted := by simp [approvals]
  computed := by decide +kernel

/-- A sweep into the vault. -/
theorem not_sweepsLeaveNothing : ¬SweepsLeaveNothing := by
  intro hclaim
  have hleft := hclaim _ _ _ _ _ _ _ Vectors.deployment_noZeroKey
    (Vectors.deployment_distinctAddresses _) Vectors.vaultAddress_eq Vectors.start.reachable
    (Vectors.start.step Vectors.selfSwept Vectors.selfSweep.sent rfl) rfl rfl
  have hvault := hleft.vault
  rw [Vectors.selfSwept.balance_eq] at hvault
  cases hvault

/-- The destination is not the vault, or nothing but the refund is in it. -/
inductive SentAway (v : Pubkey) (balance : ℕ) (call : Call) : Prop where
  | elsewhere (dest_ne : call.dest ≠ some v)
  | refunded {auth : Authorization} (authorization : call.authorization = some auth)
      (whole : balance ≤ (refundOf call auth).toNat)

section Emptying

variable {D : Deployment} {w : WalletId} {v : Pubkey} {chain chain' : Chain} {inv : Invocation}
  {events : List Event}

theorem sentAway_iff {call : Call} {auth : Authorization} {balance : ℕ} {dest : Pubkey}
    (hauth : call.authorization = some auth) (hdest : call.dest = some dest) :
    SentAway v balance call ↔ dest ≠ v ∨ balance ≤ (refundOf call auth).toNat := by
  constructor
  · rintro (hne | ⟨hauth', hwhole⟩)
    · exact .inl fun heq ↦ hne (hdest.trans (congrArg some heq))
    · rw [hauth] at hauth'
      cases hauth'
      exact .inr hwhole
  · rintro (hne | hwhole)
    · refine .elsewhere fun heq ↦ hne ?_
      rw [hdest] at heq
      exact Option.some_inj.mp heq
    · exact .refunded hauth hwhole

/-- What a sweep or a closing leaves in the vault: nothing, or the rest that was sent back to it. -/
theorem Enacts.empties_iff {auth : Authorization} {ctx : Context} {wallet : SmartWallet}
    {signer : PublicKey} {after : Option SmartWallet} {moves : List Move} {event : Event}
    (h : Enacts D inv auth ctx.chain wallet signer after moves event)
    (hown : OwnVault D inv chain ctx v) (hempties : inv.call.empties = true)
    (hmoved : (chain'.balance v : ℤ) = ctx.chain.balance v + netChange moves v) :
    chain'.balance v = 0 ↔ SentAway v (chain.balance v) inv.call := by
  obtain ⟨rfl, hrelayer, hwallet, hbalance⟩ := hown
  rw [hbalance] at hmoved
  cases h with
  | transferSol call | setGuardians call | cancelRotation call | rotate call | propose call =>
    rw [call] at hempties
    cases hempties
  | @sweepVault dest lamports relayerFee call _ whole =>
    rw [hbalance] at whole
    rw [netChange_cons, netChange_cons, netChange_nil, net_vaultMove, net_refundMove hrelayer]
      at hmoved
    rw [sentAway_iff (by rw [call]; rfl) (by rw [call]; rfl), ne_comm]
    -- Paid to itself, a vault has back all but the refund.
    split_ifs at hmoved with hself
    · rw [or_iff_right (not_not_intro hself)]
      omega
    · refine iff_of_true ?_ (.inl hself)
      omega
  | @closeWallet dest lamports relayerFee refund rent call _ capped whole =>
    rw [hbalance] at whole capped
    have hrent :
        Move.net ⟨inv.accounts.wallet, inv.accounts.relayer, rent⟩ inv.accounts.vault = 0 := by
      rw [Move.net, if_neg hrelayer, if_neg hwallet, sub_self]
    rw [netChange_cons, netChange_cons, netChange_cons, netChange_nil, net_vaultMove,
      net_refundMove hrelayer, hrent] at hmoved
    rw [sentAway_iff (by rw [call]; rfl) (by rw [call]; rfl), ne_comm]
    split_ifs at hmoved with hself
    · rw [or_iff_right (not_not_intro hself)]
      omega
    · refine iff_of_true ?_ (.inl hself)
      omega

/-- A sweep leaves the state, its nonce spent. -/
theorem WalletStep.swept {before after : Option SmartWallet} {auth : Authorization} {dest : Pubkey}
    {relayerFee : UInt64} (h : WalletStep D w before (.invoke inv events) after)
    (hw : inv.call.walletId = w) (call : inv.call = .sweepVault auth dest relayerFee) :
    ∃ wallet', after = some wallet' ∧
      (∀ wallet, before = some wallet → wallet' = { wallet with nonce := wallet'.nonce }) ∧
      (before = none →
        ∃ key bumps, wallet' = { SmartWallet.created w key bumps with nonce := 1 }) := by
  obtain ⟨signed⟩ := h.signedStep hw (by rw [call]; exact Option.some_ne_none _)
  obtain ⟨auth', _, signer, spent, _, _, _, _, _, _, hid, _, _, opens, _, enacts, _⟩ := signed
  refine ⟨spent, enacts.of_sweepVault call, ?_, ?_⟩
  · rintro wallet rfl
    cases opens with
    | found _ _ spent_eq => exact spent_eq
  · rintro rfl
    cases opens with
    | @created bumps =>
      rw [hid]
      exact ⟨signer, bumps, rfl⟩

/-- A closing leaves no state. -/
theorem WalletStep.closed {before after : Option SmartWallet} {auth : Authorization} {dest : Pubkey}
    {relayerFee : UInt64} (h : WalletStep D w before (.invoke inv events) after)
    (hw : inv.call.walletId = w) (call : inv.call = .closeWallet auth dest relayerFee) :
    after = none := by
  obtain ⟨signed⟩ := h.signedStep hw (by rw [call]; exact Option.some_ne_none _)
  exact (signed.enacts.of_closeWallet call).1

/-- **One step.** A sweep or a closing leaves nothing behind exactly when what it sends is sent
away. -/
theorem Step.leavesNothing_iff (hzero : NoZeroKey D) (hdist : DistinctAddresses D w)
    (hv : vaultAddress D w = some v) (hreach : (system D).Reachable chain)
    (h : Step D chain (.invoke inv events) chain') (hw : inv.call.walletId = w)
    (hempties : inv.call.empties = true) :
    LeavesNothing D w v inv chain chain' ↔ SentAway v (chain.balance v) inv.call := by
  have hwallet := wallet_step hzero hdist hreach h
  have hinv := invariant_of_reachable hzero hreach
  cases h with
  | invoke admitted accepted =>
    rcases effect_of_execute accepted with ⟨⟨h⟩⟩ | ⟨⟨h⟩⟩
    · have hvault :=
        h.enacts.empties_iff (h.ownVault admitted hinv hdist hv hw) hempties (h.moved v)
      refine ⟨fun hleft ↦ hvault.mp hleft.vault, fun haway ↦ ⟨hvault.mpr haway, ?_, ?_⟩⟩
      · intro auth dest relayerFee call
        exact hwallet.swept hw call
      · intro auth dest relayerFee call
        refine ⟨hwallet.closed hw call, fun a ha ↦ ?_⟩
        have hid := h.walletId_eq.symm.trans hw
        have haddress := h.walletAddress_eq hinv (by rwa [hid])
        rw [hid, ha] at haddress
        rw [Option.some_inj.mp haddress]
        exact h.closed_balance call
    · rw [h.call] at hempties
      cases hempties

/-- The steps with which wallet `w` leaves vault `v` as it should: its sweeps and closings send away
what they send. -/
def sendsAway (w : WalletId) (v : Pubkey) (chain : Chain) : Label → Prop
  | .invoke inv _ => inv.call.walletId = w → inv.call.empties = true →
    SentAway v (chain.balance v) inv.call
  | .external => True

/-- **When sweeps and closings leave nothing.** Of one instruction, exactly when its destination is
not the vault or nothing but the refund is in it; of a run in which all of them are so, each. -/
theorem leavesNothing_when (hzero : NoZeroKey D) (hdist : DistinctAddresses D w)
    (hv : vaultAddress D w = some v) :
    (∀ chain chain' inv events, (system D).Reachable chain →
      Step D chain (.invoke inv events) chain' → inv.call.walletId = w →
      inv.call.empties = true →
        (LeavesNothing D w v inv chain chain' ↔ SentAway v (chain.balance v) inv.call)) ∧
    ∀ chain₀ past inv events rest chain, (system D).init chain₀ →
      ((system D).only (sendsAway w v)).Run chain₀ (past ++ .invoke inv events :: rest) chain →
      inv.call.walletId = w → inv.call.empties = true →
        ∃ chain₁ chain₂, (system D).Run chain₀ past chain₁ ∧
          Step D chain₁ (.invoke inv events) chain₂ ∧ (system D).Run chain₂ rest chain ∧
          LeavesNothing D w v inv chain₁ chain₂ := by
  refine ⟨?_, ?_⟩
  · intro chain chain' inv events hreach hstep hw hempties
    exact hstep.leavesNothing_iff hzero hdist hv hreach hw hempties
  · intro chain₀ past inv events rest chain hinit hrun hw hempties
    obtain ⟨chain₁, chain₂, hpast, ⟨haway, hstep⟩, hrest⟩ := hrun.split
    have hreach : (system D).Reachable chain₁ := ⟨_, _, hinit, hpast.of_only⟩
    exact ⟨chain₁, chain₂, hpast.of_only, hstep, hrest.of_only,
      (Step.leavesNothing_iff hzero hdist hv hreach hstep hw hempties).mpr (haway hw hempties)⟩

end Emptying

/-- A sweep to somebody else. -/
theorem leavesNothing_when_swept : LeavesNothing Vectors.deployment Vectors.walletId Vectors.vault
    Vectors.sweep.sent Vectors.start.chain Vectors.swept.chain := by
  obtain ⟨hstep, -⟩ := leavesNothing_when Vectors.deployment_noZeroKey
    (Vectors.deployment_distinctAddresses Vectors.walletId) Vectors.vaultAddress_eq
  have haway : SentAway Vectors.vault (Vectors.start.chain.balance Vectors.vault)
      Vectors.sweep.sent.call := .elsewhere (by decide)
  exact (hstep _ _ _ _ Vectors.start.reachable
    (Vectors.start.step Vectors.swept Vectors.sweep.sent rfl) rfl rfl).mpr haway

end EnclaveKit
