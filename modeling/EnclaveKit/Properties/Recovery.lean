import EnclaveKit.Properties.Acceptance
import EnclaveKit.Properties.Proposals

/-!
# A recovery goes through

The device is lost, its owner turns to a guardian. The guardian proposes the next device, the
timelock runs, and anybody confirms. In between others may try: whoever has found the device can pay
with it, the other guardians can propose, anybody can do anything else on the chain. Only the active
key itself and the guardian that proposed can take the proposal away while it is alive, so if they
do not, it is there when it opens, and for as long as the window is open the confirmation is
accepted.
-/

namespace EnclaveKit

open Solana TransitionSystem

/-- The wallet while a proposal waits: its key and its guardians as they were, the proposal
pending. -/
structure Waiting (wallet : SmartWallet) (proposal : PendingRotation) (now : SmartWallet) :
    Prop where
  activeKey : now.activeKey = wallet.activeKey
  guardians : now.guardians = wallet.guardians
  pending : now.rotation.get = some proposal

/-- At a time a word can tell, the window is where the unbounded sums say. -/
theorem PendingRotation.open_of_toInt {build : Build} (proposal : PendingRotation) {now : Int64}
    (hopened : proposal.proposedAt.toInt + (ROTATION_DELAY build).toInt ≤ now.toInt)
    (hclosed : now.toInt ≤ proposal.proposedAt.toInt + (ROTATION_DELAY build).toInt
      + ROTATION_WINDOW.toInt) :
    proposal.opensAt build ≤ now ∧ now ≤ proposal.closesAt build := by
  have hlast := now.toInt_lt
  rw [Int64.le_iff_toInt_le, Int64.le_iff_toInt_le, toInt_opensAt, toInt_closesAt]
  omega

section Machine

variable {D : Deployment} {w : WalletId} {wallet : SmartWallet} {proposal : PendingRotation}
  {guardian : PublicKey} {label : Label}

/-- No two keys are looked up in one slot. -/
theorem SmartWallet.p256Guardian_inj {key key' : PublicKey} {slot : ℕ}
    (h : wallet.p256Guardian key = some slot) (h' : wallet.p256Guardian key' = some slot) :
    key = key' := by
  obtain ⟨_, -, hkey⟩ := GuardianSlots.p256Guardian_eq_some h
  obtain ⟨_, -, hkey'⟩ := GuardianSlots.p256Guardian_eq_some h'
  exact hkey.symm.trans hkey'

theorem Enacts.of_pays {inv : Invocation} {auth : Authorization} {chain : Chain}
    {spent : SmartWallet} {signer : PublicKey} {after : Option SmartWallet} {moves : List Move}
    {event : Event} (h : Enacts D inv auth chain spent signer after moves event)
    (hpays : inv.call.pays = true) : after = some spent := by
  cases h with
  | transferSol | sweepVault => rfl
  | setGuardians call | cancelRotation call | rotate call | propose call | closeWallet call =>
    rw [call] at hpays
    cases hpays

/-- A proposal that is not the owner's is a guardian's. -/
theorem Enacts.of_proposeRotation {inv : Invocation} {auth auth' : Authorization} {chain : Chain}
    {spent : SmartWallet} {signer newKey : PublicKey} {relayerFee : UInt64}
    {after : Option SmartWallet} {moves : List Move} {event : Event}
    (h : Enacts D inv auth chain spent signer after moves event)
    (hcall : inv.call = .proposeRotation auth' newKey relayerFee)
    (hother : signer ≠ spent.activeKey) :
    ∃ slot, spent.p256Guardian signer = some slot ∧ after = some { spent with
      rotation := RotationSlot.new ⟨newKey, inv.sysvars.unixTimestamp, UInt8.ofNat slot⟩ } := by
  cases h with
  | propose call _ _ guardian _ proposal_eq =>
    rw [hcall] at call
    cases call
    exact ⟨_, guardian, by rw [proposal_eq]⟩
  | rotate _ _ owner => exact absurd owner hother
  | transferSol call | sweepVault call | setGuardians call | cancelRotation call
  | closeWallet call =>
    rw [hcall] at call
    cases call

/-- **One step.** What waits goes on waiting, unless the step takes it away. -/
theorem WalletStep.waiting {state : SmartWallet} {after : Option SmartWallet}
    (h : WalletStep D w (some state) label after) (hwaiting : Waiting wallet proposal state)
    (hguardian : wallet.p256Guardian guardian = some proposal.proposedBy.toNat)
    (hopen : ∀ time, label.time = some time → time ≤ proposal.closesAt D.build)
    (hsilent : ¬Leaves w wallet guardian label) :
    ∃ state', after = some state' ∧ Waiting wallet proposal state' := by
  cases h with
  | idle => exact ⟨state, rfl, hwaiting⟩
  | confirmed call => exact absurd (.confirmed call) hsilent
  | @signed inv events _ _ signed =>
    have hw : inv.call.walletId = w :=
      (Call.walletId_of_authorization signed.call_authorization).trans signed.walletId
    have hsigner : inv.signer = some signed.signer := inv.signer_of_payload signed.payload
    obtain ⟨hkey, hslot, hlist⟩ := signed.opens.kept
    rcases signed.enacts.pending_cases with ⟨hpays, -⟩ | ⟨howner, hclears⟩ |
      ⟨newKey, relayerFee, slot, call, -, hfound, hfree⟩
    · refine ⟨_, signed.enacts.of_pays hpays, hkey.trans hwaiting.activeKey,
        hlist.trans hwaiting.guardians, ?_⟩
      rw [hslot, hwaiting.pending]
    · rw [howner, hkey, hwaiting.activeKey] at hsigner
      exact absurd (.owner hw hsigner hclears) hsilent
    · -- The slot is free for the guardian that proposed alone.
      rw [mayPropose_eq_true, hslot] at hfree
      rcases hfree proposal hwaiting.pending with hown | hexpired
      · rw [SmartWallet.p256Guardian, hlist, hwaiting.guardians, ← hown] at hfound
        rw [SmartWallet.p256Guardian_inj hfound hguardian] at hsigner
        exact absurd (.replaced call signed.walletId hsigner) hsilent
      · exact absurd (hopen _ rfl) (Int64.not_le.mpr hexpired)

theorem waiting_of_run {tr : List Label} {state : SmartWallet} {after : Option SmartWallet}
    (h : (walletSystem D w).Run (some state) tr after) (hwaiting : Waiting wallet proposal state)
    (hguardian : wallet.p256Guardian guardian = some proposal.proposedBy.toNat)
    (hopen : ∀ label ∈ tr, ∀ time, label.time = some time → time ≤ proposal.closesAt D.build)
    (hsilent : ∀ label ∈ tr, ¬Leaves w wallet guardian label) :
    ∃ state', after = some state' ∧ Waiting wallet proposal state' := by
  refine h.invariant_of_mem (I := fun s ↦ ∃ state', s = some state' ∧
    Waiting wallet proposal state') ⟨state, rfl, hwaiting⟩ ?_
  rintro _ label s' hmem ⟨state', rfl, hwaiting'⟩ hstep
  exact WalletStep.waiting hstep hwaiting' hguardian (hopen label hmem) (hsilent label hmem)

/-- **It begins to wait** when a guardian's proposal is accepted. -/
theorem WalletStep.proposed {inv : Invocation} {events : List Event} {after : Option SmartWallet}
    {auth : Authorization} {newKey : PublicKey} {relayerFee : UInt64}
    (h : WalletStep D w (some wallet) (.invoke inv events) after)
    (hcall : inv.call = .proposeRotation auth newKey relayerFee) (hw : auth.walletId = w)
    (hsigner : inv.signer = some guardian) (hother : guardian ≠ wallet.activeKey) :
    ∃ slot state, wallet.p256Guardian guardian = some (UInt8.ofNat slot).toNat ∧
      after = some state ∧
      Waiting wallet ⟨newKey, inv.sysvars.unixTimestamp, UInt8.ofNat slot⟩ state := by
  have hid : inv.call.walletId = w := by
    rw [hcall]
    exact hw
  obtain ⟨signed⟩ := h.signedStep hid (by rw [hcall]; exact Option.some_ne_none _)
  have hsigner' : inv.signer = some signed.signer := inv.signer_of_payload signed.payload
  obtain rfl := Option.some_inj.mp (hsigner.symm.trans hsigner')
  obtain ⟨hkey, -, hlist⟩ := signed.opens.kept
  rw [← hkey] at hother
  obtain ⟨slot, hslot, hafter⟩ := signed.enacts.of_proposeRotation hcall hother
  rw [SmartWallet.p256Guardian, hlist] at hslot
  obtain ⟨hlt, -⟩ := GuardianSlots.p256Guardian_eq_some hslot
  have hword : (UInt8.ofNat slot).toNat = slot :=
    UInt8.toNat_ofNat_of_lt (hlt.trans (by decide))
  exact ⟨slot, _, by rw [hword]; exact hslot, hafter, hkey, hlist, rfl⟩

end Machine

/-- **A recovery goes through.** A guardian's proposal has been accepted. Take any run after it in
which the proposal is not confirmed yet, the active key does nothing that takes it away, and the
guardian makes no other; payments of whoever has the device, proposals of the other guardians and
everything else may be in it. Then from the end of the delay to the end of the window a confirmation
is accepted, from anybody; it gives the wallet to the new key and changes nothing else, neither the
guardians nor the nonce nor any balance. -/
theorem recovery_goes_through {D : Deployment} {w : WalletId} {chain₀ chain chain' : Chain}
    {inv confirm : Invocation} {events : List Event} {auth : Authorization}
    {newKey guardian : PublicKey} {relayerFee : UInt64} {wallet : SmartWallet} {tr : List Label}
    (hzero : NoZeroKey D) (hdist : DistinctAddresses D w) (hreach : (system D).Reachable chain₀)
    (hstored : stored D chain₀ w = some wallet)
    (hstep : Step D chain₀ (.invoke inv events) chain)
    (hcall : inv.call = .proposeRotation auth newKey relayerFee) (hw : auth.walletId = w)
    (hsigner : inv.signer = some guardian) (hother : guardian ≠ wallet.activeKey)
    (hrun : (system D).Run chain tr chain')
    (hsilent : ∀ label ∈ tr, ¬Leaves w wallet guardian label)
    (hclock : ∀ label ∈ tr, ∀ time, label.time = some time → time ≤ confirm.sysvars.unixTimestamp)
    (hconfirm : confirm.call = .confirmRotation w)
    (haddress : walletAddress D w = some confirm.accounts.wallet)
    (hopened : inv.sysvars.unixTimestamp.toInt + (ROTATION_DELAY D.build).toInt
      ≤ confirm.sysvars.unixTimestamp.toInt)
    (hclosed : confirm.sysvars.unixTimestamp.toInt ≤ inv.sysvars.unixTimestamp.toInt
      + (ROTATION_DELAY D.build).toInt + ROTATION_WINDOW.toInt) :
    accepts D chain' confirm = true ∧
    ∃ before, stored D chain' w = some before ∧ before.activeKey = wallet.activeKey ∧
      before.guardians = wallet.guardians ∧
      stored D (next D chain' confirm) w = some (before.rekeyed newKey) ∧
      ∀ a, (next D chain' confirm).balance a = chain'.balance a := by
  have hreach₁ := hreach.step hstep
  have hreach₂ := hreach₁.trans hrun
  have hproposed := wallet_step hzero hdist hreach hstep
  rw [hstored] at hproposed
  obtain ⟨slot, state, hguardian, hstate, hwaiting⟩ :=
    hproposed.proposed hcall hw hsigner hother
  obtain ⟨hopens, hcloses⟩ := PendingRotation.open_of_toInt
    ⟨newKey, inv.sysvars.unixTimestamp, UInt8.ofNat slot⟩ hopened hclosed
  have hmachine := wallet_run hzero hdist hreach₁ hrun
  rw [hstate] at hmachine
  obtain ⟨before, hbefore, hstill⟩ := waiting_of_run hmachine hwaiting hguardian
    (fun label hmem time htime ↦ Int64.le_trans (hclock label hmem time htime) hcloses) hsilent
  have hunexpired := (PendingRotation.isExpired_eq_false D.build _).mpr hcloses
  have haccepts := (accepts_confirm_iff hzero hdist hreach₂ hconfirm).mpr
    ⟨before, _, haddress, hbefore, hstill.pending, hopens, hunexpired⟩
  refine ⟨haccepts, before, hbefore, hstill.activeKey, hstill.guardians, ?_⟩
  have hexecute := execute_of_accepts haccepts
  rcases effect_of_execute hexecute with ⟨⟨h⟩⟩ | ⟨⟨h⟩⟩
  · have hauth := h.call_authorization
    rw [hconfirm] at hauth
    cases hauth
  · refine ⟨?_, h.balance_eq⟩
    have hfound : stored D chain' w = some h.wallet := by
      rw [stored_eq_stateAt haddress, stateAt_eq_some]
      exact h.found
    obtain rfl := Option.some_inj.mp (hbefore.symm.trans hfound)
    have hproposal := Option.some_inj.mp (hstill.pending.symm.trans h.pending)
    rw [stored_eq_stateAt haddress, stateAt_of_holdingOf h.holding_wallet, ← hproposal]

/-- The guardian's proposal, confirmed the second it opens. -/
theorem recovery_goes_through_confirm :
    accepts Vectors.deployment Vectors.proposed.chain Vectors.confirm = true ∧
    ∃ before, stored Vectors.deployment Vectors.proposed.chain Vectors.walletId = some before ∧
      before.activeKey = Vectors.deviceKey ∧
      before.guardians = Vectors.guardedWallet.guardians ∧
      stored Vectors.deployment (next Vectors.deployment Vectors.proposed.chain Vectors.confirm)
        Vectors.walletId = some (before.rekeyed Vectors.nextKey) ∧
      ∀ a, (next Vectors.deployment Vectors.proposed.chain Vectors.confirm).balance a
        = Vectors.proposed.chain.balance a := by
  -- Somebody else does something, and leaves everything as it is.
  have hexternal : External Vectors.deployment Vectors.proposed.chain Vectors.proposed.chain :=
    ⟨fun _ _ ↦ Iff.rfl, fun _ _ ↦ ⟨rfl, le_rfl⟩⟩
  refine recovery_goes_through Vectors.deployment_noZeroKey
    (Vectors.deployment_distinctAddresses _) Vectors.guarded.reachable Vectors.guarded.stored_eq
    (Vectors.guarded.step Vectors.proposed Vectors.propose.sent rfl) rfl rfl
    (Vectors.signer_sent _ rfl) Vectors.guardianKey_ne_deviceKey (.single (.external hexternal))
    ?_ ?_ rfl Vectors.walletAddress_eq (by decide) (by decide)
  · intro label hmem hleaves
    rw [List.mem_singleton.mp hmem] at hleaves
    cases hleaves
  · intro label hmem time htime
    rw [List.mem_singleton.mp hmem] at htime
    cases htime

end EnclaveKit
