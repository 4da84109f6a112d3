import EnclaveKit.Chain.Proposal
import EnclaveKit.Chain.Vectors

/-!
# Timelock and provenance

`confirm_rotation` reads the stored slot and nothing else: not who proposed, not when the guardians
were set. What the slot tells of the past is a property of runs. A proposal that is pending was made
by a guardian at the time it says, the guardian is one still, and only payments have been accepted
for the wallet since. So the delay and the window are counted from a step of the run.
-/

namespace EnclaveKit

open Solana MachineInt TransitionSystem

/-! ## Its provenance -/

/-- How a proposal pending in `wallet` at the end of a run came to be: a guardian made it, is one
still, and for the wallet only payments have been accepted since. -/
def Provenance (D : Deployment) (w : WalletId) (chain₀ : Chain) (tr : List Label) (chain : Chain)
    (wallet : SmartWallet) (proposal : PendingRotation) : Prop :=
  ∃ past inv events since chain₁ chain₂ before guardian,
    tr = past ++ .invoke inv events :: since ∧
    (system D).Run chain₀ past chain₁ ∧ Step D chain₁ (.invoke inv events) chain₂ ∧
    (system D).Run chain₂ since chain ∧
    stored D chain₁ w = some before ∧ Proposes w inv before guardian proposal ∧
    (wallet.p256Guardian guardian).isSome ∧
    ∀ inv' events', .invoke inv' events' ∈ since → inv'.call.walletId = w → inv'.call.pays = true

/-- **Every pending proposal has its provenance.** -/
theorem Opened.provenance {D : Deployment} {w : WalletId} {chain₀ chain : Chain} {tr : List Label}
    {wallet : SmartWallet} {proposal : PendingRotation}
    (h : Opened D w chain₀ tr chain wallet proposal) :
    Provenance D w chain₀ tr chain wallet proposal :=
  ⟨h.past, h.inv, h.events, h.since, h.chain₁, h.chain₂, h.before, h.guardian, h.trace_eq,
    h.run_past, h.step, h.run_since, h.stored_before, h.proposes.toProposes,
    Option.isSome_of_eq_some h.p256Guardian_eq, h.pays⟩

/-! ## The clock -/

/-- The clock stays below the end of time by a delay and a window. -/
def ClockFits (D : Deployment) (tr : List Label) : Prop :=
  ∀ label ∈ tr, ∀ time, label.time = some time →
    time.toInt ≤ Int64.maxValue.toInt - (ROTATION_DELAY D.build).toInt - ROTATION_WINDOW.toInt

/-- Confirmable is between the delay and the end of the window, where nothing saturates. -/
theorem PendingRotation.confirmable {build : Build} {proposal : PendingRotation} {time : Int64}
    (hfits : proposal.proposedAt.toInt
      ≤ Int64.maxValue.toInt - (ROTATION_DELAY build).toInt - ROTATION_WINDOW.toInt)
    (hopened : proposal.opensAt build ≤ time) (hunexpired : proposal.isExpired build time = false) :
    proposal.proposedAt.toInt + (ROTATION_DELAY build).toInt ≤ time.toInt ∧
      time.toInt
        ≤ proposal.proposedAt.toInt + (ROTATION_DELAY build).toInt + ROTATION_WINDOW.toInt := by
  have hwindow : 0 ≤ ROTATION_WINDOW.toInt := by decide
  have hmax : Int64.maxValue.toInt = 2 ^ 63 - 1 := Int64.toInt_maxValue
  rw [isExpired_eq_false, Int64.le_iff_toInt_le, toInt_closesAt] at hunexpired
  rw [Int64.le_iff_toInt_le, toInt_opensAt] at hopened
  omega

/-! ## Every change of the key -/

/-- **Timelock and provenance.** A step that changes the key of a wallet is one in which the key
itself hands over, or it is a confirmation. A confirmation, whether or not it changes the key, is of
what a guardian proposed, at least the delay and at most the delay and the window ago, with nothing
but payments accepted for the wallet in between.

That the clock does not go backwards is not needed. -/
theorem keyChange_provenance {D : Deployment} {w : WalletId} (hzero : NoZeroKey D)
    (hdist : DistinctAddresses D w) {chain₀ chain chain' : Chain} {tr : List Label} {label : Label}
    (hinit : (system D).init chain₀) (h : (system D).Run chain₀ tr chain) (hclock : ClockFits D tr)
    (hstep : Step D chain label chain') :
    (∀ before after, stored D chain w = some before → stored D chain' w = some after →
      after.activeKey ≠ before.activeKey →
        HandsOver w label before.activeKey after.activeKey ∨ ∃ time, Confirms w label time) ∧
    ∀ time, Confirms w label time → ∃ wallet after proposal,
      stored D chain w = some wallet ∧ stored D chain' w = some after ∧
      after.activeKey = proposal.newKey ∧
      proposal.proposedAt.toInt + (ROTATION_DELAY D.build).toInt ≤ time.toInt ∧
      time.toInt ≤ proposal.proposedAt.toInt + (ROTATION_DELAY D.build).toInt
        + ROTATION_WINDOW.toInt ∧
      Provenance D w chain₀ tr chain wallet proposal := by
  have hwallet := wallet_step hzero hdist ⟨_, _, hinit, h⟩ hstep
  refine ⟨fun before after hbefore hafter hchanged ↦ ?_, fun time hconfirms ↦ ?_⟩
  · rw [hbefore, hafter] at hwallet
    exact hwallet.activeKey hchanged
  · obtain ⟨wallet, proposal, hstored, hpending, hafter, hopened, hunexpired⟩ :=
      hwallet.confirms hconfirms
    obtain ⟨history⟩ := opened_of_run hzero hdist hinit h hstored hpending
    obtain ⟨label', hmem, htime⟩ := history.time
    have hfits := hclock label' hmem _ htime
    obtain ⟨hdelay, hwindow⟩ := proposal.confirmable hfits hopened hunexpired
    exact ⟨wallet, _, proposal, hstored, hafter, rfl, hdelay, hwindow, history.provenance⟩

/-- What the guardian proposed is confirmed the second it opens. -/
theorem keyChange_provenance_confirmed : ∃ proposal, proposal.newKey = Vectors.nextKey ∧
    proposal.proposedAt.toInt + (ROTATION_DELAY .default).toInt ≤ 1699259200 ∧
    Provenance Vectors.deployment Vectors.walletId Vectors.genesis Vectors.proposed.labels
      Vectors.proposed.chain Vectors.proposedWallet proposal := by
  have hclock : ClockFits Vectors.deployment Vectors.proposed.labels := by
    intro label hmem time htime
    simp only [Vectors.Stage.labels, Vectors.proposed, trace, List.mem_cons, List.not_mem_nil,
      or_false] at hmem
    rcases hmem with rfl | rfl <;> cases htime <;> decide
  obtain ⟨-, hconfirms⟩ := keyChange_provenance Vectors.deployment_noZeroKey
    (Vectors.deployment_distinctAddresses Vectors.walletId) Vectors.genesis_init
    Vectors.proposed.run hclock
    (Vectors.proposed.step Vectors.recovered Vectors.confirm rfl)
  obtain ⟨wallet, after, proposal, hstored, hafter, hkey, hdelay, -, hprovenance⟩ :=
    hconfirms 1699259200 ⟨_, _, rfl, rfl, rfl⟩
  obtain rfl := Option.some_inj.mp (Vectors.proposed.stored_eq.symm.trans hstored)
  obtain rfl := Option.some_inj.mp (Vectors.recovered.stored_eq.symm.trans hafter)
  exact ⟨proposal, hkey.symm, hdelay, hprovenance⟩

end EnclaveKit
