import EnclaveKit.Chain.Life
import EnclaveKit.Properties.Balances

/-!
# What an approval costs

A wallet's keys sign messages and hand them out. Anyone may send them, in any order, as often as
they like, with any fee asked and any relayer, in between whatever else happens on the chain. What
they can take from the vault is known when the messages are signed: the lamports of each transfer
and the cap of each header, once.

An approval is spent when the nonce has passed its own. While the wallet is not closed the nonce
only grows, so what is spent stays spent, and an accepted instruction spends an approval that was
not: a budget, in the sense of `Run.le_add_sum`. Sweeps and closings are left out. They take what
there is.
-/

namespace EnclaveKit

open Solana MachineInt Fallible TransitionSystem

/-- What a signed message says. -/
structure Approval where
  auth : Authorization
  action : Encoding.Action
  deriving DecidableEq

/-- It is made to empty the vault. -/
def Approval.empties (a : Approval) : Bool :=
  match a.action with
  | .sweepVault _ | .closeWallet _ => true
  | _ => false

/-- The most it costs, if it is not. -/
def Approval.budget (a : Approval) : ℕ :=
  match a.action with
  | .transferSol _ lamports => lamports.toNat + a.auth.maxRelayerFee.toNat
  | _ => a.auth.maxRelayerFee.toNat

/-- What was approved of a signed instruction. -/
def Call.approval (call : Call) : Option Approval := do
  let auth ← call.authorization
  let action ← call.action
  some ⟨auth, action⟩

/-- The nonce has passed it. -/
def Approval.Spent (D : Deployment) (w : WalletId) (a : Approval) (chain : Chain) : Prop :=
  ∃ wallet, stored D chain w = some wallet ∧ a.auth.nonce.toNat < wallet.nonce.toNat

/-! ## One step -/

section Step

variable {D : Deployment} {w : WalletId} {v : Pubkey} {chain chain' : Chain} {label : Label}
  {approved : Finset Approval}

theorem Call.approval_eq {call : Call} {auth : Authorization} {action : Encoding.Action}
    (hauth : call.authorization = some auth) (haction : call.action = some action) :
    call.approval = some ⟨auth, action⟩ := by
  rw [approval, hauth, haction]
  rfl

/-- What is taken from the vault is in the message. -/
theorem Enacts.le_add_budget {inv : Invocation} {auth : Authorization} {action : Encoding.Action}
    {ctx : Context} {wallet : SmartWallet} {signer : PublicKey} {after : Option SmartWallet}
    {moves : List Move} {event : Event}
    (h : Enacts D inv auth ctx.chain wallet signer after moves event)
    (hown : OwnVault D inv chain ctx v) (haction : inv.call.action = some action)
    (hkept : Approval.empties ⟨auth, action⟩ = false)
    (hmoved : (chain'.balance v : ℤ) = ctx.chain.balance v + netChange moves v) :
    chain.balance v ≤ chain'.balance v + Approval.budget ⟨auth, action⟩ := by
  obtain ⟨rfl, hrelayer, -, hbalance⟩ := hown
  have hrefund := net_refundMove hrelayer (refundOf inv.call auth)
  have hcap : (refundOf inv.call auth).toNat ≤ auth.maxRelayerFee.toNat := by
    rw [refundOf, toNat_min]
    exact Nat.min_le_right _ _
  rw [hbalance] at hmoved
  cases h with
  | @transferSol dest lamports relayerFee call =>
    rw [call] at haction
    cases haction
    rw [netChange_cons, netChange_cons, netChange_nil, hrefund, net_vaultMove] at hmoved
    rw [Approval.budget]
    dsimp only
    split_ifs at hmoved <;> omega
  | sweepVault call | closeWallet call =>
    rw [call] at haction
    cases haction
    cases hkept
  | setGuardians call | cancelRotation call | rotate call | propose call =>
    rw [netChange_cons, netChange_nil, hrefund] at hmoved
    rw [call] at haction
    cases haction
    rw [Approval.budget]
    dsimp only
    omega

/-- What is approved keeps the wallet. -/
theorem not_closes_of_approved
    (happroved : ∀ inv events a, label = .invoke inv events → inv.call.approval = some a →
      a.auth.walletId = w → a ∈ approved)
    (hkept : ∀ a ∈ approved, a.empties = false) : ¬Closes w label := by
  rintro ⟨inv, events, auth, dest, relayerFee, rfl, call, hid⟩
  have happroval : inv.call.approval = some ⟨auth, .closeWallet dest⟩ := by
    rw [call]
    rfl
  exact absurd (hkept _ (happroved inv events _ rfl happroval hid)) (by simp [Approval.empties])

/-- What is spent stays spent. -/
theorem Approval.Spent.step {a : Approval} (hspent : a.Spent D w chain)
    (h : WalletStep D w (stored D chain w) label (stored D chain' w)) (hopen : ¬Closes w label) :
    a.Spent D w chain' := by
  obtain ⟨wallet, hstored, hlt⟩ := hspent
  rw [hstored] at h
  obtain ⟨wallet', hstored', hle⟩ := h.survives hopen
  exact ⟨wallet', hstored', hlt.trans_le hle⟩

/-- **One step.** It takes nothing from the vault, or it spends an approval, and takes no more than
that says. -/
theorem Step.spends (hzero : NoZeroKey D) (hdist : DistinctAddresses D w)
    (hv : vaultAddress D w = some v) (hreach : (system D).Reachable chain)
    (h : Step D chain label chain')
    (happroved : ∀ inv events a, label = .invoke inv events → inv.call.approval = some a →
      a.auth.walletId = w → a ∈ approved)
    (hkept : ∀ a ∈ approved, a.empties = false) :
    chain.balance v ≤ chain'.balance v ∨ ∃ a ∈ approved, ¬a.Spent D w chain ∧
      a.Spent D w chain' ∧ chain.balance v ≤ chain'.balance v + a.budget := by
  by_cases hw : label.walletId = some w
  · have hopen := not_closes_of_approved happroved hkept
    have hinv := invariant_of_reachable hzero hreach
    cases h with
    | external => cases hw
    | @invoke inv events _ admitted accepted =>
      have hid : inv.call.walletId = w := by simpa [Label.walletId] using hw
      rcases effect_of_execute accepted with ⟨⟨h⟩⟩ | ⟨⟨h⟩⟩
      · have happroval := Call.approval_eq h.call_authorization h.call_action
        have hauth : h.auth.walletId = w := h.walletId_eq.symm.trans hid
        have hmem := happroved inv events _ rfl happroval hauth
        have hown := h.ownVault admitted hinv hdist hv hid
        subst hauth
        have hsigned := h.signedStep hzero admitted hinv hdist
        have hsame : hsigned.auth = h.auth := Option.some_inj.mp
          (hsigned.call_authorization.symm.trans h.call_authorization)
        refine .inr ⟨_, hmem, ?_, ?_, ?_⟩
        · rintro ⟨wallet, hstored, hlt⟩
          rw [← hsigned.nonce.1 wallet hstored, hsame] at hlt
          exact lt_irrefl _ hlt
        · obtain ⟨wallet, hafter, hnonce⟩ := hsigned.survives hopen
          rw [hsame] at hnonce
          exact ⟨wallet, hafter, by rw [hnonce]; exact Nat.lt_succ_self _⟩
        · exact h.enacts.le_add_budget hown h.call_action (hkept _ hmem) (h.moved v)
      · rw [h.balance_eq]
        exact .inl le_rfl
  · exact .inl (Step.vault_le h hdist hv hw)

end Step

/-- **No more than was approved.** In every run in which the wallet is neither swept nor closed,
from any reachable state, the vault loses no more than the budgets of the messages accepted, each
counted once. The messages may come in any order, repeatedly, and from any relayer; what else
happens on the chain costs nothing. -/
theorem loss_le_approved {D : Deployment} {w : WalletId} {v : Pubkey} {chain chain' : Chain}
    {tr : List Label} {approved : Finset Approval} (hzero : NoZeroKey D)
    (hdist : DistinctAddresses D w) (hv : vaultAddress D w = some v)
    (hreach : (system D).Reachable chain) (hrun : (system D).Run chain tr chain')
    (happroved : ∀ inv events a, Label.invoke inv events ∈ tr → inv.call.approval = some a →
      a.auth.walletId = w → a ∈ approved)
    (hkept : ∀ a ∈ approved, a.empties = false) :
    chain.balance v ≤ chain'.balance v + ∑ a ∈ approved, a.budget := by
  have hlabel : ∀ label ∈ tr, ∀ inv events a, label = .invoke inv events →
      inv.call.approval = some a → a.auth.walletId = w → a ∈ approved := by
    rintro _ hmem inv events a rfl
    exact happroved inv events a hmem
  have hkeeps : ∀ s label s', label ∈ tr → (system D).Reachable s → (system D).step s label s' →
      ∀ a ∈ approved, Approval.Spent D w a s → Approval.Spent D w a s' := by
    intro s label s' hmem hs hstep a _ hspent
    exact hspent.step (wallet_step hzero hdist hs hstep)
      (not_closes_of_approved (hlabel label hmem) hkept)
  have htakes : ∀ s label s', label ∈ tr → (system D).Reachable s → (system D).step s label s' →
      s.balance v ≤ s'.balance v ∨ ∃ a ∈ approved, ¬Approval.Spent D w a s ∧
        Approval.Spent D w a s' ∧ s.balance v ≤ s'.balance v + a.budget := by
    intro s label s' hmem hs hstep
    exact Step.spends hzero hdist hv hs hstep (hlabel label hmem) hkept
  exact hrun.le_add_sum hreach (fun _ _ _ hs hstep ↦ hs.step hstep) hkeeps htakes

/-- One approved transfer. -/
theorem loss_le_approved_transfer :
    Vectors.start.chain.balance Vectors.vault ≤ Vectors.transferred.chain.balance Vectors.vault
      + ∑ a ∈ ({⟨Vectors.header 0 10000, .transferSol Vectors.dest 100000000⟩} : Finset Approval),
        a.budget := by
  refine loss_le_approved Vectors.deployment_noZeroKey (Vectors.deployment_distinctAddresses _)
    Vectors.vaultAddress_eq Vectors.start.reachable Vectors.transferred.run ?_ (by decide)
  intro inv events a hmem happroval _
  obtain ⟨rfl, -⟩ : inv = Vectors.transfer.sent ∧ _ := by
    simpa [Vectors.Stage.labels, Vectors.transferred, trace] using hmem
  exact Finset.mem_singleton.mpr (Option.some_inj.mp happroval).symm

end EnclaveKit
