import EnclaveKit.Chain.Presented
import EnclaveKit.Chain.Proposal
import EnclaveKit.Chain.Vectors

/-!
# Nobody is locked out

Three ways out that are always open, whatever the vault holds: the owner may veto a recovery, the
owner may close the wallet, and a guardian may start a recovery where the slot is free for it. An
empty vault stops none of them. The first and the last are asked for no refund, and `close_wallet`
takes no more of a refund than there is.

What is asked of the instruction is what a client can see to: the right accounts, a signature over
the stored nonce, and a time before it expires.
-/

namespace EnclaveKit

open Solana MachineInt Fallible TransitionSystem

section Lockout

variable {D : Deployment} {w : WalletId} {chain : Chain} {wallet : SmartWallet} {inv : Invocation}
  {auth : Authorization} {signer : PublicKey}

/-- **The owner may cancel.** -/
theorem Presented.accepts_cancel (h : Presented D w wallet inv auth wallet.activeKey)
    (hzero : NoZeroKey D) (hdist : DistinctAddresses D w) (hreach : (system D).Reachable chain)
    (hstored : stored D chain w = some wallet) (hnonce : wallet.nonce.toNat + 1 < 2 ^ 64)
    (hadmitted : Admitted D inv) (call : inv.call = .cancelRotation auth 0)
    {proposal : PendingRotation} (hpending : wallet.rotation.get = some proposal) :
    EnclaveKit.accepts D chain inv = true := by
  have hcreate : inv.call.mayCreate = false := by rw [call]; rfl
  have hrefund : refundOf inv.call auth = 0 := refundOf_eq_zero (by rw [call]; rfl)
  refine h.accepts hzero hdist hreach hstored hnonce hadmitted hcreate
    (.cancelRotation call rfl hpending (hrefund ▸ Nat.zero_le _)) fun hsome ↦ ?_
  exact absurd hsome (refundMove_eq_nothing hrefund)

/-- **The owner may close**, whatever the vault holds. The refund is what there is, at most. -/
theorem Presented.accepts_close (h : Presented D w wallet inv auth wallet.activeKey)
    (hzero : NoZeroKey D) (hdist : DistinctAddresses D w) (hreach : (system D).Reachable chain)
    (hstored : stored D chain w = some wallet) (hnonce : wallet.nonce.toNat + 1 < 2 ^ 64)
    (hadmitted : Admitted D inv) (hfits : chain.SupplyFits) {dest : Pubkey} {relayerFee : UInt64}
    (call : inv.call = .closeWallet auth dest relayerFee) :
    EnclaveKit.accepts D chain inv = true := by
  have hcreate : inv.call.mayCreate = false := by rw [call]; rfl
  obtain ⟨_, hseeds⟩ := createProgramAddress_of_walletAddress h.wallet_eq
  have hne : inv.accounts.vault ≠ inv.accounts.wallet := vault_ne_wallet hdist h.vault_eq hseeds
  obtain ⟨refund, hcapped⟩ : ∃ refund : UInt64, refund.toNat
      = min (refundOf inv.call auth).toNat (chain.balance inv.accounts.vault) :=
    ⟨min (refundOf inv.call auth) (chain inv.accounts.vault).lamports, toNat_min _ _⟩
  obtain ⟨lamports, hwhole⟩ : ∃ lamports : UInt64,
      chain.balance inv.accounts.vault = refund.toNat + lamports.toNat := by
    have hle : refund.toNat ≤ chain.balance inv.accounts.vault := by omega
    refine ⟨(chain inv.accounts.vault).lamports - refund, ?_⟩
    rw [UInt64.toNat_sub_of_le _ _ (UInt64.le_iff_toNat_le.mpr hle)]
    exact (Nat.add_sub_cancel' hle).symm
  -- What the state account holds when it is closed: the payments can only have added to it.
  have hgains : 0 ≤ netChange [vaultMove inv.accounts dest lamports, refundMove inv.accounts refund]
      inv.accounts.wallet := by
    refine netChange_nonneg fun m hm ↦ ?_
    simp only [List.mem_cons, List.not_mem_nil, or_false] at hm
    rcases hm with rfl | rfl <;> exact hne
  obtain ⟨rent, hrent⟩ : ∃ rent : ℕ, (rent : ℤ) = chain.balance inv.accounts.wallet
      + netChange [vaultMove inv.accounts dest lamports, refundMove inv.accounts refund]
        inv.accounts.wallet := ⟨_, Int.toNat_of_nonneg (by omega)⟩
  exact h.accepts hzero hdist hreach hstored hnonce hadmitted hcreate
    (.closeWallet call rfl hcapped hwhole (h.wallet_ne_relayer hadmitted) hrent) fun _ ↦ hfits

/-- The clock is past the window, over the unbounded integers. -/
def PastWindow (D : Deployment) (proposal : PendingRotation) (now : Int64) : Prop :=
  proposal.proposedAt.toInt + (ROTATION_DELAY D.build).toInt + ROTATION_WINDOW.toInt < now.toInt

theorem PastWindow.closesAt_lt {proposal : PendingRotation} {now : Int64}
    (h : PastWindow D proposal now) : proposal.closesAt D.build < now := by
  rw [PastWindow] at h
  rw [Int64.lt_iff_toInt_lt, PendingRotation.toInt_closesAt]
  omega

/-- **Nobody is locked out.** Of an existing wallet whose nonce is not the last: a cancellation of
the active key that asks for no refund is accepted while a rotation is pending; a closing of the
active key is accepted whatever the vault holds and the relayer asks for; and the proposal of a
listed guardian that asks for no refund is accepted when nothing is pending, when what is pending is
its own, and when the window of what is pending has passed. -/
theorem nobody_locked_out (hzero : NoZeroKey D) (hdist : DistinctAddresses D w)
    (hreach : (system D).Reachable chain) (hstored : stored D chain w = some wallet)
    (hnonce : wallet.nonce.toNat < 2 ^ 64 - 1) :
    (∀ inv auth proposal, wallet.rotation.get = some proposal →
      inv.call = .cancelRotation auth 0 → Presented D w wallet inv auth wallet.activeKey →
      Admitted D inv → accepts D chain inv = true) ∧
    (∀ inv auth dest relayerFee, inv.call = .closeWallet auth dest relayerFee →
      Presented D w wallet inv auth wallet.activeKey → Admitted D inv → chain.SupplyFits →
        accepts D chain inv = true) ∧
    ∀ inv auth newKey key (i : ℕ) (hi : i < MAX_GUARDIANS), wallet.guardians[i].kind = .p256 →
      wallet.guardians[i].key = key → newKey ≠ zeroKey →
      (∀ proposal, wallet.rotation.get = some proposal →
        (∃ hown : proposal.proposedBy.toNat < MAX_GUARDIANS,
          wallet.guardians[proposal.proposedBy.toNat].key = key) ∨
        PastWindow D proposal inv.sysvars.unixTimestamp) →
      inv.call = .proposeRotation auth newKey 0 → Presented D w wallet inv auth key →
      Admitted D inv → accepts D chain inv = true := by
  have hnonce' : wallet.nonce.toNat + 1 < 2 ^ 64 := by omega
  refine ⟨?_, ?_, ?_⟩
  · intro inv auth proposal hpending hcall hpresented hadmitted
    exact hpresented.accepts_cancel hzero hdist hreach hstored hnonce' hadmitted hcall hpending
  · intro inv auth dest relayerFee hcall hpresented hadmitted hfits
    exact hpresented.accepts_close hzero hdist hreach hstored hnonce' hadmitted hfits hcall
  · intro inv auth newKey key i hi hkind hkey hnonzero hfree hcall hpresented hadmitted
    obtain ⟨slot, hslot⟩ := Option.isSome_iff_exists.mp
      (GuardianSlots.p256Guardian_isSome hi hkind hkey)
    refine hpresented.accepts_propose hzero hdist hreach hstored hnonce' hadmitted hcall hnonzero
      hslot (mayPropose_eq_true.mpr fun proposal hpending ↦ ?_)
    rcases hfree proposal hpending with ⟨hown, hkey'⟩ | hpast
    · -- The slot of a pending proposal is the first that holds its key.
      left
      obtain ⟨chain₀, tr, hinit, hrun⟩ := hreach
      obtain ⟨history⟩ := opened_of_run hzero hdist hinit hrun hstored hpending
      obtain ⟨_, -, hguardian⟩ := history.listed
      rw [← hkey', hguardian] at hslot
      rw [history.slot_eq.2]
      exact Option.some_inj.mp (history.p256Guardian_eq.symm.trans hslot)
    · exact .inr hpast.closesAt_lt

end Lockout

/-- What is signed for the wallet of the vectors at its nonce is presented as it should be. -/
private theorem presented_sent {s : Vectors.Signed} {auth : Authorization} {wallet : SmartWallet}
    (hauth : s.call.authorization = some auth) (haccounts : s.accounts = Vectors.accounts)
    (hid : auth.walletId = Vectors.walletId) (hnonce : auth.nonce = wallet.nonce)
    (hunexpired : s.time < auth.expiresAt) (hmessage : s.call.message.isSome) :
    Presented Vectors.deployment Vectors.walletId wallet s.sent auth s.key := by
  obtain ⟨message, hmessage⟩ := Option.isSome_iff_exists.mp hmessage
  have hbytes : s.message = message := by rw [Vectors.Signed.message, hmessage, Option.getD_some]
  constructor
  · rw [show s.sent.accounts = Vectors.accounts from haccounts]
    exact Vectors.walletAddress_eq
  · rw [show s.sent.accounts = Vectors.accounts from haccounts]
    exact Vectors.vaultAddress_eq
  · rw [show s.sent.accounts = Vectors.accounts from haccounts]
    rfl
  · exact hauth
  · exact hid
  · exact hnonce
  · exact hunexpired
  · refine ⟨message, hmessage, ?_⟩
    rw [← hbytes]
    exact Vectors.payload_sent s hauth

/-- All three, under a pending proposal and with an empty vault. -/
theorem nobody_locked_out_proposed :
    accepts Vectors.deployment Vectors.proposed.chain Vectors.cancel.sent = true ∧
      accepts Vectors.deployment Vectors.proposed.chain Vectors.pendingClose.sent = true ∧
      accepts Vectors.deployment Vectors.proposed.chain Vectors.repropose.sent = true := by
  obtain ⟨hcancel, hclose, hpropose⟩ := nobody_locked_out Vectors.deployment_noZeroKey
    (Vectors.deployment_distinctAddresses Vectors.walletId) Vectors.proposed.reachable
    Vectors.proposed.stored_eq (by decide)
  refine ⟨?_, ?_, ?_⟩
  · exact hcancel _ _ _ rfl rfl (presented_sent rfl rfl rfl rfl (by decide) rfl)
      (Vectors.admitted_sent (by simp [Vectors.approvals]))
  · exact hclose _ _ _ _ rfl (presented_sent rfl rfl rfl rfl (by decide) rfl)
      (Vectors.admitted_sent (by simp [Vectors.approvals])) Vectors.proposed.supplyFits
  · refine hpropose _ _ _ _ 0 (by decide) rfl rfl (by decide) (fun proposal hpending ↦ .inl ?_) rfl
      (presented_sent rfl rfl rfl rfl (by decide) rfl)
      (Vectors.admitted_sent (by simp [Vectors.approvals]))
    obtain rfl := Option.some_inj.mp hpending
    exact ⟨by decide, rfl⟩

end EnclaveKit
