import EnclaveKit.Properties.Acceptance

/-!
# Nobody else spoils it

Between the signing of a message and its execution the chain does not stand still. A relayer may
hold the message back, others may pay to the wallet's addresses, make and close wallets of their
own, and empty their own accounts. None of that makes an acceptable instruction unacceptable: what a
wallet asks of an instruction only grows weaker with the time and with the vault's balance, up to
the time the message itself names.

What can spoil it is an instruction of the same wallet. For the action that makes the wallet it is
also the relayer, which may no longer have the rent to advance. This is about the program; the
runtime's rule on rent also depends on what the destination holds by then.
-/

namespace EnclaveKit

open Solana TransitionSystem

/-- The same instruction at another time. -/
def Invocation.sentAt (inv : Invocation) (now : Int64) : Invocation :=
  { inv with sysvars := { inv.sysvars with unixTimestamp := now } }

/-! ## What only grows weaker -/

section Policy

variable {D : Deployment} {call : Call} {wallet : SmartWallet} {signer : PublicKey}
  {now now' : Int64}

/-- A guardian's slot stays free for it: no other guardian's proposal comes alive again. -/
theorem mayPropose_later {slot : ℕ} (h : mayPropose D wallet slot now = true) (hle : now ≤ now') :
    mayPropose D wallet slot now' = true := by
  rw [mayPropose_eq_true] at h ⊢
  intro pending hpending
  exact (h pending hpending).imp_right fun hexpired ↦ Int64.lt_of_lt_of_le hexpired hle

theorem Entitles.later (h : Entitles D call wallet signer now) (hle : now ≤ now') :
    Entitles D call wallet signer now' := by
  cases call with
  | proposeRotation auth newKey relayerFee =>
    obtain ⟨hnonzero, howner⟩ := h
    refine ⟨hnonzero, howner.imp_right fun ⟨slot, hslot, hfree⟩ ↦ ⟨slot, hslot, ?_⟩⟩
    exact mayPropose_later hfree hle
  | confirmRotation => exact h
  | transferSol | setGuardians | cancelRotation | sweepVault | closeWallet => exact h

theorem Covers.mono {auth : Authorization} {balance balance' : ℕ}
    (h : Covers D call auth balance) (hle : balance ≤ balance') : Covers D call auth balance' := by
  cases call with
  | closeWallet => exact trivial
  | transferSol | setGuardians | cancelRotation | proposeRotation | confirmRotation | sweepVault =>
    exact le_trans h hle

end Policy

/-! ## What others leave -/

section Others

variable {D : Deployment} {w : WalletId} {chain chain' : Chain} {a v : Pubkey}

/-- What the steps of others leave of a wallet: its state, whose accounts its addresses are, and no
less in its vault. -/
structure Untouched (D : Deployment) (w : WalletId) (a v : Pubkey) (chain chain' : Chain) :
    Prop where
  stored_eq : stored D chain' w = stored D chain w
  holding_wallet : (chain' a).holding = (chain a).holding
  holding_vault : (chain' v).holding = (chain v).holding
  vault_le : chain.balance v ≤ chain'.balance v

theorem Step.untouched {label : Label} (h : Step D chain label chain')
    (hdist : DistinctAddresses D w) (ha : walletAddress D w = some a)
    (hv : vaultAddress D w = some v) (hother : label.walletId ≠ some w) :
    Untouched D w a v chain chain' where
  stored_eq := h.stored_eq hdist hother
  holding_wallet := by
    obtain ⟨_, hseeds⟩ := createProgramAddress_of_walletAddress ha
    cases h with
    | external external => exact (external.derived a ⟨_, hseeds⟩).1
    | @invoke inv events _ _ accepted =>
      have hne : inv.call.walletId ≠ w := by simpa [Label.walletId] using hother
      exact holding_of_execute accepted (walletAddress_ne hdist accepted hne ha)
  holding_vault := h.holding_vault hdist hv
  vault_le := h.vault_le hdist hv hother

theorem untouched_of_run {tr : List Label} (h : (system D).Run chain tr chain')
    (hdist : DistinctAddresses D w) (ha : walletAddress D w = some a)
    (hv : vaultAddress D w = some v) (hothers : ∀ label ∈ tr, label.walletId ≠ some w) :
    Untouched D w a v chain chain' := by
  refine h.invariant_of_mem (I := Untouched D w a v chain) ⟨rfl, rfl, rfl, le_rfl⟩ ?_
  intro s label s' hmem hs hstep
  have hnext := Step.untouched hstep hdist ha hv (hothers label hmem)
  exact ⟨hnext.stored_eq.trans hs.stored_eq, hnext.holding_wallet.trans hs.holding_wallet,
    hnext.holding_vault.trans hs.holding_vault, hs.vault_le.trans hnext.vault_le⟩

end Others

/-! ## What was presented -/

section Waiting

variable {D : Deployment} {w : WalletId} {chain chain' : Chain} {inv : Invocation}
  {auth : Authorization} {signer : PublicKey} {wallet : SmartWallet} {now : Int64}

theorem Admitted.sentAt (h : Admitted D inv) (now : Int64) : Admitted D (inv.sentAt now) :=
  ⟨h.signer, h.verified⟩

theorem Presented.sentAt (h : Presented D w wallet inv auth signer)
    (hunexpired : now < auth.expiresAt) : Presented D w wallet (inv.sentAt now) auth signer where
  wallet_eq := h.wallet_eq
  vault_eq := h.vault_eq
  relayerIsSigner := h.relayerIsSigner
  call_authorization := h.call_authorization
  walletId := h.walletId
  nonce := h.nonce
  unexpired := hunexpired
  signed := h.signed

theorem First.sentAt {bumps : Bumps} (h : First D w inv auth signer bumps chain)
    (hunexpired : now < auth.expiresAt)
    (hkept : Untouched D w inv.accounts.wallet inv.accounts.vault chain chain')
    (hadvances : Advances D inv.accounts chain') :
    First D w (inv.sentAt now) auth signer bumps chain' where
  toPresented := h.toPresented.sentAt hunexpired
  mayCreate := h.mayCreate
  creator := h.creator
  walletFound := h.walletFound
  vaultFound := h.vaultFound
  vacant := hkept.holding_wallet.trans h.vacant
  vaultSystem := hkept.holding_vault.trans h.vaultSystem
  advances := hadvances

/-- No wallet is stored where a first action may make it. -/
theorem First.stored_eq {bumps : Bumps} (h : First D w inv auth signer bumps chain) :
    stored D chain w = none := by
  rw [stored_eq_stateAt h.wallet_eq]
  exact stateAt_of_holdingOf (show _ = holdingOf none from h.vacant)

/-- The wallet an instruction is judged by is the same later. -/
theorem Opening.sentAt {tr : List Label} (h : Opening D w inv auth signer chain wallet)
    (hdist : DistinctAddresses D w) (hrun : (system D).Run chain tr chain')
    (hothers : ∀ label ∈ tr, label.walletId ≠ some w) (hunexpired : now < auth.expiresAt)
    (hadvances : stored D chain w = none → Advances D inv.accounts chain') :
    Opening D w (inv.sentAt now) auth signer chain' wallet ∧
      chain.balance inv.accounts.vault ≤ chain'.balance inv.accounts.vault := by
  cases h with
  | found stored_eq presented room =>
    have hkept := untouched_of_run hrun hdist presented.wallet_eq presented.vault_eq hothers
    exact ⟨.found (hkept.stored_eq.trans stored_eq) (presented.sentAt hunexpired) room,
      hkept.vault_le⟩
  | first first =>
    have hkept := untouched_of_run hrun hdist first.wallet_eq first.vault_eq hothers
    exact ⟨.first (first.sentAt hunexpired hkept (hadvances first.stored_eq)), hkept.vault_le⟩

end Waiting

/-- **What is acceptable can wait.** Take an instruction that the program accepts in a reachable
state, and any run in which the wallet itself does nothing. A signed instruction is still accepted
at the end, at any later time before it expires; if it makes the wallet, its relayer must still be
able to advance the rent. A confirmation is still accepted while the window is open. -/
theorem accepts_of_wait {D : Deployment} {chain chain' : Chain} {inv : Invocation} {tr : List Label}
    {now : Int64} (hzero : NoZeroKey D) (hdist : DistinctAddresses D inv.call.walletId)
    (hreach : (system D).Reachable chain) (hrun : (system D).Run chain tr chain')
    (hothers : ∀ label ∈ tr, label.walletId ≠ some inv.call.walletId) (hadmitted : Admitted D inv)
    (hfits : chain.SupplyFits) (hfits' : chain'.SupplyFits)
    (hlater : inv.sysvars.unixTimestamp ≤ now) (haccepts : accepts D chain inv = true) :
    (∀ auth, inv.call.authorization = some auth → now < auth.expiresAt →
      (stored D chain auth.walletId = none → Advances D inv.accounts chain') →
        accepts D chain' (inv.sentAt now) = true) ∧
    ∀ w, inv.call = .confirmRotation w →
      (∀ wallet proposal, stored D chain w = some wallet → wallet.rotation.get = some proposal →
        proposal.isExpired D.build now = false) →
          accepts D chain' (inv.sentAt now) = true := by
  have hreach' := hreach.trans hrun
  refine ⟨fun auth hauth hunexpired hadvances ↦ ?_, fun w hcall hwindow ↦ ?_⟩
  · rw [Call.walletId_of_authorization hauth] at hdist hothers
    obtain ⟨signer, wallet, hopening, hentitled, hcovered⟩ :=
      (accepts_signed_iff hzero hdist hreach hadmitted hfits hauth).mp haccepts
    obtain ⟨hopening', hvault⟩ := hopening.sentAt hdist hrun hothers hunexpired hadvances
    exact (accepts_signed_iff hzero hdist hreach' (hadmitted.sentAt now) hfits' hauth).mpr
      ⟨signer, wallet, hopening', hentitled.later hlater, hcovered.mono hvault⟩
  · have hw : inv.call.walletId = w := by rw [hcall]; rfl
    rw [hw] at hdist hothers
    obtain ⟨wallet, proposal, haddress, hstored, hpending, hopened, -⟩ :=
      (accepts_confirm_iff hzero hdist hreach hcall).mp haccepts
    have hstored' : stored D chain' w = some wallet := by
      rw [← hstored]
      exact hrun.invariant_of_mem (I := fun s ↦ stored D s w = stored D chain w) rfl
        fun s label s' hmem hs hstep ↦ (hstep.stored_eq hdist (hothers label hmem)).trans hs
    have hcall' : (inv.sentAt now).call = .confirmRotation w := hcall
    exact (accepts_confirm_iff hzero hdist hreach' hcall').mpr
      ⟨wallet, proposal, haddress, hstored', hpending, Int64.le_trans hopened hlater,
        hwindow wallet proposal hstored hpending⟩

/-- The guardian has been listed, and the other wallet swept. -/
def Vectors.guardedAside : Stage where
  invs := [setGuardians.sent, otherSweep.sent]
  state := some guardedWallet
  funds := 999995000
  admitted := by simp [approvals]
  computed := by decide +kernel

/-- The guardian's proposal is held back until the other wallet is swept and the last second it is
good for. -/
theorem accepts_of_wait_propose :
    accepts Vectors.deployment Vectors.guardedAside.chain (Vectors.propose.sent.sentAt 1699999999)
      = true := by
  have haccepts : accepts Vectors.deployment Vectors.guarded.chain Vectors.propose.sent = true := by
    rw [accepts, Vectors.guarded.execute_eq Vectors.proposed _ rfl]
  have hstep := Vectors.guarded.step Vectors.guardedAside Vectors.otherSweep.sent rfl
  refine (accepts_of_wait Vectors.deployment_noZeroKey (Vectors.deployment_distinctAddresses _)
    Vectors.guarded.reachable (.single hstep) ?_
    (Vectors.admitted_sent (by simp [Vectors.approvals])) Vectors.guarded.supplyFits
    Vectors.guardedAside.supplyFits (by decide) haccepts).1 (Vectors.header 1 999995000) rfl
    (by decide) ?_
  · intro label hmem
    rw [List.mem_singleton.mp hmem]
    decide
  · intro hnone
    rw [show (Vectors.header 1 999995000).walletId = Vectors.walletId from rfl,
      Vectors.guarded.stored_eq] at hnone
    cases hnone

end EnclaveKit
