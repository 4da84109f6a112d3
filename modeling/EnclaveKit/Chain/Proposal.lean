import EnclaveKit.Chain.Life

/-!
# A pending proposal

What the slot of a pending rotation tells of the past. One step either makes the pending proposal or
keeps it (`WalletStep.pending`), and only payments keep it, because every other instruction clears
the slot or replaces what is in it; what a confirmation confirms is told next to it. By induction on
the run a pending proposal has its history: the guardian that opened it, the slot it opened it from,
and nothing but payments accepted for the wallet since.
-/

namespace EnclaveKit

open Solana TransitionSystem

/-! ## Making and keeping a proposal -/

/-- The instructions that leave a pending rotation as it is. -/
def Call.pays : Call → Bool
  | .transferSol _ _ _ _ | .sweepVault _ _ _ => true
  | _ => false

/-- A guardian of `before`, which is not its active key, proposes. -/
structure Proposes (w : WalletId) (inv : Invocation) (before : SmartWallet) (guardian : PublicKey)
    (proposal : PendingRotation) : Prop where
  call : ∃ auth relayerFee, inv.call = .proposeRotation auth proposal.newKey relayerFee ∧
    auth.walletId = w
  signer : inv.signer = some guardian
  not_owner : guardian ≠ before.activeKey
  listed : (before.p256Guardian guardian).isSome
  time : inv.sysvars.unixTimestamp = proposal.proposedAt

/-- It does from this slot, which was free for it. -/
structure ProposesFrom (D : Deployment) (w : WalletId) (inv : Invocation) (before : SmartWallet)
    (guardian : PublicKey) (slot : ℕ) (proposal : PendingRotation) : Prop
    extends Proposes w inv before guardian proposal where
  slot_eq : before.p256Guardian guardian = some slot
  proposedBy : proposal.proposedBy = UInt8.ofNat slot
  free : mayPropose D before slot inv.sysvars.unixTimestamp = true

/-- A step of wallet `w` after which its slot and its guardians are what they were. -/
structure Keeps (w : WalletId) (label : Label) (before after : SmartWallet) : Prop where
  rotation : after.rotation = before.rotation
  guardians : after.guardians = before.guardians
  pays : ∀ inv events, label = .invoke inv events → inv.call.walletId = w → inv.call.pays = true

section Step

variable {D : Deployment} {w : WalletId}

/-- A proposal pending after an effect was there, and the effect pays, or the effect proposes it. -/
theorem Enacts.pending {inv : Invocation} {auth : Authorization} {chain : Chain}
    {wallet after : SmartWallet} {signer : PublicKey} {moves : List Move} {event : Event}
    (h : Enacts D inv auth chain wallet signer (some after) moves event)
    {proposal : PendingRotation} (hpending : after.rotation.get = some proposal) :
    after.guardians = wallet.guardians ∧
      (after.rotation = wallet.rotation ∧ inv.call.pays = true ∨
        ∃ slot, (∃ relayerFee, inv.call = .proposeRotation auth proposal.newKey relayerFee) ∧
          signer ≠ wallet.activeKey ∧ wallet.p256Guardian signer = some slot ∧
          inv.sysvars.unixTimestamp = proposal.proposedAt ∧
          proposal.proposedBy = UInt8.ofNat slot ∧
          mayPropose D wallet slot inv.sysvars.unixTimestamp = true) := by
  cases h with
  | setGuardians | cancelRotation | rotate => cases hpending
  | transferSol call | sweepVault call =>
    refine ⟨rfl, .inl ⟨rfl, ?_⟩⟩
    rw [call]
    rfl
  | propose call _ not_owner guardian free proposal_eq =>
    subst proposal_eq
    obtain rfl := Option.some_inj.mp hpending
    exact ⟨rfl, .inr ⟨_, ⟨_, call⟩, not_owner, guardian, rfl, rfl, free⟩⟩

/-- A proposal pending after a signed instruction was made by it or kept by it. -/
theorem SignedStep.pending {inv : Invocation} {events : List Event} {before : Option SmartWallet}
    {after : SmartWallet} (h : SignedStep D w inv events before (some after))
    {proposal : PendingRotation} (hpending : after.rotation.get = some proposal) :
    ∃ wallet, before = some wallet ∧
      ((∃ guardian slot, ProposesFrom D w inv wallet guardian slot proposal ∧
        after.guardians = wallet.guardians) ∨ Keeps w (.invoke inv events) wallet after) := by
  obtain ⟨auth, _, signer, spent, _, _, _, _, _, hpayload, hid, _, _, opens, _, enacts, _⟩ := h
  obtain ⟨hguardians, heffect⟩ := enacts.pending hpending
  cases before with
  | none =>
    -- A wallet just created has nothing pending, and what creates it proposes nothing.
    obtain - | mayCreate := opens
    rcases heffect with ⟨hrotation, -⟩ | ⟨_, ⟨relayerFee, call⟩, -⟩
    · rw [hrotation] at hpending
      cases hpending
    · rw [call] at mayCreate
      cases mayCreate
  | some wallet =>
    obtain ⟨hkey, hslot, hlist⟩ := opens.kept
    refine ⟨wallet, rfl, ?_⟩
    rcases heffect with ⟨hrotation, hpays⟩ |
      ⟨slot, ⟨relayerFee, call⟩, hother, hlisted, htime, hby, hfree⟩
    · refine .inr ⟨hrotation.trans hslot, hguardians.trans hlist, ?_⟩
      rintro _ _ ⟨⟩ -
      exact hpays
    · have hsigner : inv.signer = some signer := inv.signer_of_payload hpayload
      rw [hkey] at hother
      rw [SmartWallet.p256Guardian, hlist] at hlisted
      rw [mayPropose, hslot] at hfree
      exact .inl ⟨signer, slot, ⟨⟨⟨auth, relayerFee, call, hid⟩, hsigner, hother,
        Option.isSome_of_eq_some hlisted, htime⟩, hlisted, hby, hfree⟩, hguardians.trans hlist⟩

/-- **One step.** A pending proposal was made by the last step or kept by it. -/
theorem WalletStep.pending {label : Label} {before : Option SmartWallet} {after : SmartWallet}
    (h : WalletStep D w before label (some after)) {proposal : PendingRotation}
    (hpending : after.rotation.get = some proposal) :
    ∃ wallet, before = some wallet ∧
      ((∃ inv events guardian slot, label = .invoke inv events ∧
        ProposesFrom D w inv wallet guardian slot proposal ∧
        after.guardians = wallet.guardians) ∨ Keeps w label wallet after) := by
  cases h with
  | idle other =>
    refine ⟨after, rfl, .inr ⟨rfl, rfl, ?_⟩⟩
    rintro inv events rfl hid
    exact absurd (congrArg some hid) other
  | signed signed =>
    obtain ⟨wallet, hwallet, ⟨guardian, slot, hproposes, hlisted⟩ | hkeeps⟩ :=
      signed.pending hpending
    · exact ⟨wallet, hwallet, .inl ⟨_, _, guardian, slot, rfl, hproposes, hlisted⟩⟩
    · exact ⟨wallet, hwallet, .inr hkeeps⟩
  | confirmed => cases hpending

/-- A confirmation confirms what is pending, once it has opened and before it is expired. -/
theorem WalletStep.confirms {label : Label} {time : Int64} {before after : Option SmartWallet}
    (h : WalletStep D w before label after) (hconfirms : Confirms w label time) :
    ∃ wallet proposal, before = some wallet ∧ wallet.rotation.get = some proposal ∧
      after = some (wallet.rekeyed proposal.newKey) ∧ proposal.opensAt D.build ≤ time ∧
      proposal.isExpired D.build time = false := by
  obtain ⟨inv, events, rfl, hcall, rfl⟩ := hconfirms
  cases h with
  | idle other =>
    rw [Label.walletId, hcall] at other
    exact absurd rfl other
  | signed signed =>
    obtain ⟨_, _, _, _, _, _, _, hauth, _⟩ := signed
    rw [hcall] at hauth
    cases hauth
  | confirmed _ _ pending opened unexpired => exact ⟨_, _, rfl, pending, rfl, opened, unexpired⟩

end Step

/-! ## Its history -/

/-- How a proposal pending in `wallet` at the end of a run came to be: a guardian made it from a
slot, the guardians are what they were then, and for the wallet only payments have been accepted
since. -/
structure Opened (D : Deployment) (w : WalletId) (chain₀ : Chain) (tr : List Label) (chain : Chain)
    (wallet : SmartWallet) (proposal : PendingRotation) where
  past : List Label
  inv : Invocation
  events : List Event
  since : List Label
  chain₁ : Chain
  chain₂ : Chain
  before : SmartWallet
  guardian : PublicKey
  slot : ℕ
  trace_eq : tr = past ++ .invoke inv events :: since
  run_past : (system D).Run chain₀ past chain₁
  step : Step D chain₁ (.invoke inv events) chain₂
  run_since : (system D).Run chain₂ since chain
  stored_before : stored D chain₁ w = some before
  proposes : ProposesFrom D w inv before guardian slot proposal
  guardians_eq : wallet.guardians = before.guardians
  pays : ∀ inv' events', .invoke inv' events' ∈ since → inv'.call.walletId = w →
    inv'.call.pays = true

/-- **Every pending proposal has its history.** -/
theorem opened_of_run {D : Deployment} {w : WalletId} (hzero : NoZeroKey D)
    (hdist : DistinctAddresses D w) {chain₀ chain : Chain} {tr : List Label}
    (hinit : (system D).init chain₀) (h : (system D).Run chain₀ tr chain) {wallet : SmartWallet}
    {proposal : PendingRotation} (hstored : stored D chain w = some wallet)
    (hpending : wallet.rotation.get = some proposal) :
    Nonempty (Opened D w chain₀ tr chain wallet proposal) := by
  induction h generalizing wallet with
  | nil =>
    rw [stored_of_init hinit] at hstored
    cases hstored
  | @snoc tr chain chain' label run last ih =>
    have hstep := wallet_step hzero hdist ⟨_, _, hinit, run⟩ last
    rw [hstored] at hstep
    obtain ⟨before, hbefore, ⟨inv, events, guardian, slot, rfl, hproposes, hguardians⟩ | hkeeps⟩ :=
      hstep.pending hpending
    · exact ⟨⟨tr, inv, events, [], chain, chain', before, guardian, slot, rfl, run, last, .nil,
        hbefore, hproposes, hguardians, by simp⟩⟩
    · rw [hkeeps.rotation] at hpending
      obtain ⟨past, inv, events, since, chain₁, chain₂, old, guardian, slot, rfl, hpast, hmade,
        hsince, hold, hproposes, hguardians, hpays⟩ := ih hbefore hpending
      refine ⟨⟨past, inv, events, since ++ [label], chain₁, chain₂, old, guardian, slot, by simp,
        hpast, hmade, hsince.snoc last, hold, hproposes, hkeeps.guardians.trans hguardians,
        fun inv' events' hmem hid ↦ ?_⟩⟩
      rcases List.mem_append.mp hmem with hmem | hmem
      · exact hpays inv' events' hmem hid
      · exact hkeeps.pays inv' events' (List.mem_singleton.mp hmem).symm hid

namespace Opened

variable {D : Deployment} {w : WalletId} {chain₀ chain : Chain} {tr : List Label}
  {wallet : SmartWallet} {proposal : PendingRotation}
  (h : Opened D w chain₀ tr chain wallet proposal)

include h

theorem p256Guardian_eq : wallet.p256Guardian h.guardian = some h.slot := by
  rw [SmartWallet.p256Guardian, h.guardians_eq]
  exact h.proposes.slot_eq

/-- The slot stored with the proposal is the one the guardian is found in. -/
theorem slot_eq : h.slot < MAX_GUARDIANS ∧ proposal.proposedBy.toNat = h.slot := by
  obtain ⟨hslot, -⟩ := GuardianSlots.p256Guardian_eq_some h.p256Guardian_eq
  refine ⟨hslot, ?_⟩
  rw [h.proposes.proposedBy, UInt8.toNat_ofNat', Nat.mod_eq_of_lt (hslot.trans (by decide))]

/-- The slot the guardian is found in is its own. -/
theorem listed : ∃ hslot : proposal.proposedBy.toNat < MAX_GUARDIANS,
    wallet.guardians[proposal.proposedBy.toNat].kind = .p256 ∧
      wallet.guardians[proposal.proposedBy.toNat].key = h.guardian := by
  have hslot := h.slot_eq.2
  obtain ⟨hlt, hkind, hkey⟩ := GuardianSlots.p256Guardian_eq_some h.p256Guardian_eq
  simp only [hslot]
  exact ⟨hlt, hkind, hkey⟩

/-- The proposal carries the time of a step of the run. -/
theorem time : ∃ label ∈ tr, label.time = some proposal.proposedAt :=
  ⟨.invoke h.inv h.events, by simp [h.trace_eq], congrArg some h.proposes.time⟩

end Opened

end EnclaveKit
