import EnclaveKit.Chain.Rent
import EnclaveKit.Properties.Balances
import EnclaveKit.Properties.Interference

/-!
# The relayer's account

A relayer pays for what it sends: the transaction fee, and the rent of the wallet it makes. What it
gets is the refund it asks for, up to the signed cap, and the rent of the wallet it closes, whoever
advanced that. So it may lose on a wallet it makes, by not more than the rent, and on no other. If
it asks for the rent and its fee, as a relayer does that means to be paid, it is never out of
pocket, after any run and whatever others do.
-/

namespace EnclaveKit

open Solana TransitionSystem

/-! ## What it gets -/

section Effect

variable {D : Deployment} {inv : Invocation} {chain chain' : Chain} {events : List Event}

/-- A payment out of an account of the program's adds to everybody else. -/
private theorem net_nonneg_of_ne {m : Move} {a : Pubkey} (h : a ≠ m.source) : 0 ≤ m.net a := by
  rw [Move.net, if_neg h]
  split_ifs <;> omega

variable {auth : Authorization} {wallet : SmartWallet} {signer : PublicKey}
  {after : Option SmartWallet} {moves : List Move} {event : Event}

/-- The refund, whatever else it is paid. -/
theorem Enacts.refund_le (h : Enacts D inv auth chain wallet signer after moves event)
    (hvault : inv.accounts.relayer ≠ inv.accounts.vault)
    (hopen : ∀ auth' dest relayerFee, inv.call ≠ .closeWallet auth' dest relayerFee) :
    ((refundOf inv.call auth).toNat : ℤ) ≤ netChange moves inv.accounts.relayer := by
  have hrefund := net_refundMove_relayer hvault (refundOf inv.call auth)
  cases h with
  | @transferSol dest lamports | @sweepVault dest lamports =>
    have hpaid : 0 ≤ (vaultMove inv.accounts dest lamports).net inv.accounts.relayer :=
      net_nonneg_of_ne hvault
    rw [netChange_cons, netChange_cons, netChange_nil]
    omega
  | setGuardians | cancelRotation | rotate | propose =>
    rw [netChange_cons, netChange_nil]
    omega
  | closeWallet call => exact absurd call (hopen _ _ _)

/-- At a closing the refund, and all the state account holds. -/
theorem Enacts.rent_le (h : Enacts D inv auth chain wallet signer after moves event)
    (hvault : inv.accounts.relayer ≠ inv.accounts.vault)
    (hwallet : inv.accounts.vault ≠ inv.accounts.wallet) {dest : Pubkey} {relayerFee : UInt64}
    (call : inv.call = .closeWallet auth dest relayerFee) :
    ∃ closed, event = .walletClosed closed ∧
      (closed.relayerFee.toNat : ℤ) + chain.balance inv.accounts.wallet
        ≤ netChange moves inv.accounts.relayer := by
  cases h with
  | @closeWallet dest lamports relayerFee refund rent _ _ _ _ relayer_ne emptied =>
    refine ⟨_, rfl, ?_⟩
    have hpaid : 0 ≤ (vaultMove inv.accounts dest lamports).net inv.accounts.relayer :=
      net_nonneg_of_ne hvault
    have hrefund := net_refundMove_relayer hvault refund
    have hrent : Move.net ⟨inv.accounts.wallet, inv.accounts.relayer, rent⟩ inv.accounts.relayer
        = rent := by
      rw [Move.net, if_pos rfl, if_neg relayer_ne.symm, sub_zero]
    -- What the two payments leave at the state account is no less than it had.
    have hkept : 0 ≤ netChange [vaultMove inv.accounts dest lamports,
        refundMove inv.accounts refund] inv.accounts.wallet := by
      refine netChange_nonneg fun m hm ↦ ?_
      simp only [List.mem_cons, List.not_mem_nil, or_false] at hm
      rcases hm with rfl | rfl
      · exact hwallet
      · exact hwallet
    rw [netChange_cons, netChange_cons, netChange_cons, netChange_nil]
    dsimp only
    omega
  | transferSol call' | sweepVault call' | setGuardians call' | cancelRotation call' | rotate call'
  | propose call' =>
    rw [call] at call'
    cases call'

/-- **One instruction.** It pays its relayer the refund, but for the rent of the wallet it makes. -/
theorem Accepted.relayer_le (h : Accepted D inv chain chain' events) (hadmitted : Admitted D inv)
    (hopen : ∀ auth' dest relayerFee, inv.call ≠ .closeWallet auth' dest relayerFee) :
    chain.balance inv.accounts.relayer + (refundOf inv.call h.auth).toNat
      ≤ chain'.balance inv.accounts.relayer + rentDue D chain inv inv.accounts.relayer := by
  have hvault := (h.ne_relayer hadmitted h.loaded.vaultSeeds).symm
  have hcreation := h.loaded.neg_rentDue_le inv.accounts.relayer
  have hrefund := h.enacts.refund_le hvault hopen
  have hmoved := h.moved_all inv.accounts.relayer
  rw [netChange_append] at hmoved
  omega

/-- **A closing** pays its relayer the refund and the rent. -/
theorem Accepted.closes_le {a : Pubkey} {w : WalletId} (h : Accepted D inv chain chain' events)
    (hadmitted : Admitted D inv) (hdist : DistinctAddresses D w) (hw : h.auth.walletId = w)
    (hv : vaultAddress D w = some inv.accounts.vault) (hrent : RentExempt D a chain)
    (ha : inv.accounts.wallet = a) {auth : Authorization} {dest : Pubkey} {relayerFee : UInt64}
    (call : inv.call = .closeWallet auth dest relayerFee) :
    ∃ closed, h.event = .walletClosed closed ∧
      chain.balance inv.accounts.relayer + closed.relayerFee.toNat
          + (D.minimumBalance SmartWallet.SPACE).toNat
        ≤ chain'.balance inv.accounts.relayer := by
  subst ha hw
  have hauth := h.call_authorization
  rw [call] at hauth
  cases hauth
  have hloaded := h.loaded
  rw [show inv.call.mayCreate = false by rw [call]; rfl] at hloaded
  have hminimum := hloaded.rentKept (h.ne_relayer hadmitted h.loaded.walletSeeds) hrent
  have hvault := (h.ne_relayer hadmitted h.loaded.vaultSeeds).symm
  obtain ⟨closed, hevent, hpaid⟩ := h.enacts.rent_le hvault
    (vault_ne_wallet hdist hv h.loaded.walletSeeds) call
  obtain ⟨hchain, hnothing⟩ := hloaded.eq_of_not_mayCreate
  have hmoved := h.moved inv.accounts.relayer
  refine ⟨closed, hevent, ?_⟩
  rw [hchain] at hmoved hpaid hminimum
  omega

end Effect

/-! ## What it risks -/

/-- **The relayer's risk.** In every reachable state, an accepted instruction costs its relayer
nothing if the wallet is there, and no more than the rent of a state if it makes the wallet; and a
closing leaves it with that rent, on top of the refund it reports. -/
theorem relayer_risk {D : Deployment} {w : WalletId} {chain chain' : Chain} {inv : Invocation}
    {events : List Event} (hzero : NoZeroKey D) (hdist : DistinctAddresses D w)
    (hreach : (system D).Reachable chain) (h : Step D chain (.invoke inv events) chain')
    (hw : inv.call.walletId = w) :
    (stored D chain w ≠ none →
      chain.balance inv.accounts.relayer ≤ chain'.balance inv.accounts.relayer) ∧
    chain.balance inv.accounts.relayer ≤ chain'.balance inv.accounts.relayer
      + (D.minimumBalance SmartWallet.SPACE).toNat ∧
    ∀ auth dest relayerFee, inv.call = .closeWallet auth dest relayerFee →
      ∃ closed, events = [.walletClosed closed] ∧
        chain.balance inv.accounts.relayer + closed.relayerFee.toNat
            + (D.minimumBalance SmartWallet.SPACE).toNat
          ≤ chain'.balance inv.accounts.relayer := by
  have hinv := invariant_of_reachable hzero hreach
  cases h with
  | invoke admitted accepted =>
    rcases effect_of_execute accepted with ⟨⟨h⟩⟩ | ⟨⟨h⟩⟩
    · have hid := h.walletId_eq.symm.trans hw
      subst hid
      have haddress := h.walletAddress_eq hinv hdist
      have hderived : ¬D.IsDerived ID inv.accounts.relayer :=
        admitted.signer h.loaded.relayerIsSigner
      have hlost := le_balance_of_execute accepted hderived
      have hdue : rentDue D chain inv inv.accounts.relayer
          ≤ (D.minimumBalance SmartWallet.SPACE).toNat := by
        rw [rentDue, creationMove]
        dsimp only
        split_ifs <;> omega
      refine ⟨fun hstored ↦ ?_, by omega, fun auth dest relayerFee call ↦ ?_⟩
      · -- Of a wallet that is there, the account is not System's.
        have hnone : rentDue D chain inv inv.accounts.relayer = 0 := by
          rw [rentDue, if_neg]
          rintro ⟨-, -, hvacant⟩
          refine hstored ?_
          rw [stored_eq_stateAt haddress]
          exact stateAt_of_holdingOf (show _ = holdingOf none from hvacant)
        omega
      · obtain ⟨closed, hevent, hle⟩ := h.closes_le admitted hdist rfl
          (h.vaultAddress_eq hinv hdist) (rentExempt_of_reachable hdist haddress hreach) rfl call
        refine ⟨closed, ?_, hle⟩
        have hevents := h.events_eq
        rw [call] at hevents
        rw [hevents, hevent]
        rfl
    · rw [h.balance_eq]
      refine ⟨fun _ ↦ le_rfl, Nat.le_add_right _ _, fun auth dest relayerFee call ↦ ?_⟩
      rw [h.call] at call
      cases call

/-- The next device closes the wallet. -/
theorem relayer_risk_close : ∃ closed,
    emitted Vectors.deployment Vectors.handedOver.chain Vectors.nextClose.sent
      = [.walletClosed closed] ∧
    Vectors.handedOver.chain.balance Vectors.relayer + closed.relayerFee.toNat
        + (Vectors.deployment.minimumBalance SmartWallet.SPACE).toNat
      ≤ Vectors.closed.chain.balance Vectors.relayer :=
  (relayer_risk Vectors.deployment_noZeroKey (Vectors.deployment_distinctAddresses _)
    Vectors.handedOver.reachable
    (Vectors.handedOver.step Vectors.closed Vectors.nextClose.sent rfl) rfl).2.2 _ _ _ rfl

/-! ## A relayer that is paid -/

/-- A signed instruction that `r` sends. -/
def Label.relayedBy (r : Pubkey) : Label → Bool
  | .invoke inv _ => inv.call.authorization.isSome && decide (inv.accounts.relayer = r)
  | .external => false

/-- It asks for what it advances and a fee, and so much was signed. -/
def Asks (D : Deployment) (r : Pubkey) (fee : ℕ) (chain : Chain) (inv : Invocation) : Prop :=
  inv.accounts.relayer = r → ∀ auth, inv.call.authorization = some auth →
    rentDue D chain inv r + fee ≤ (refundOf inv.call auth).toNat

/-- The chain, with a relayer `r` that asks and spends nothing elsewhere. -/
def relaying (D : Deployment) (r : Pubkey) (fee : ℕ) : TransitionSystem Chain Label where
  init := (system D).init
  step chain label chain' := Step D chain label chain' ∧
    match label with
    | .invoke inv _ => Asks D r fee chain inv
    | .external => chain.balance r ≤ chain'.balance r

section Paid

variable {D : Deployment} {r : Pubkey} {fee : ℕ} {chain chain' : Chain}

theorem run_of_relaying {tr : List Label} (h : (relaying D r fee).Run chain tr chain') :
    (system D).Run chain tr chain' := by
  induction h with
  | nil => exact .nil
  | snoc run last ih => exact ih.snoc last.1

/-- **One step.** Each instruction it sends leaves it with its fee. -/
theorem relaying_step {label : Label} (hzero : NoZeroKey D) (hdist : ∀ w, DistinctAddresses D w)
    (hr : ¬D.IsDerived ID r) (hfee : fee ≤ (D.minimumBalance SmartWallet.SPACE).toNat)
    (hreach : (system D).Reachable chain) (h : (relaying D r fee).step chain label chain') :
    chain.balance r + (if label.relayedBy r = true then fee else 0) ≤ chain'.balance r := by
  obtain ⟨hstep, hasks⟩ := h
  cases hstep with
  | external external => exact hasks
  | @invoke inv events _ admitted accepted =>
    have hkept := le_balance_of_execute accepted hr
    by_cases hsent : (Label.invoke inv events).relayedBy r = true
    · rw [if_pos hsent]
      simp only [Label.relayedBy, Bool.and_eq_true, decide_eq_true_eq] at hsent
      obtain ⟨hsigned, rfl⟩ := hsent
      rcases effect_of_execute accepted with ⟨⟨h⟩⟩ | ⟨⟨h⟩⟩
      · have hask := hasks rfl h.auth h.call_authorization
        by_cases hopen : ∀ auth' dest relayerFee, inv.call ≠ .closeWallet auth' dest relayerFee
        · have hle := h.relayer_le admitted hopen
          omega
        · -- A closing pays the rent, and no fee is more than that.
          push Not at hopen
          obtain ⟨auth, dest, relayerFee, call⟩ := hopen
          have hinv := invariant_of_reachable hzero hreach
          obtain ⟨_, -, hle⟩ := h.closes_le admitted (hdist _) rfl
            (h.vaultAddress_eq hinv (hdist _))
            (rentExempt_of_reachable (hdist _) (h.walletAddress_eq hinv (hdist _)) hreach) rfl call
          omega
      · rw [h.call] at hsigned
        cases hsigned
    · rw [if_neg hsent]
      -- It has no part in the instruction, or only confirms.
      have hdue : rentDue D chain inv r = 0 := by
        rw [rentDue, if_neg]
        rintro ⟨hcreate, hrelayer, -⟩
        refine hsent ?_
        simp only [Label.relayedBy, hrelayer, decide_true, Bool.and_true]
        cases hcall : inv.call <;> rw [hcall] at hcreate <;> first | rfl | cases hcreate
      omega

end Paid

/-- **A relayer that asks is never out of pocket.** In every run, from any reachable state, in which
it asks with each instruction for the rent it advances and its fee, and spends nothing elsewhere, a
relayer is left with its fee for every instruction of its own that was accepted, whatever other
relayers, keys and accounts do. -/
theorem relayer_paid {D : Deployment} {r : Pubkey} {fee : ℕ} {chain chain' : Chain}
    {tr : List Label} (hzero : NoZeroKey D) (hdist : ∀ w, DistinctAddresses D w)
    (hr : ¬D.IsDerived ID r) (hfee : fee ≤ (D.minimumBalance SmartWallet.SPACE).toNat)
    (hreach : (system D).Reachable chain) (hrun : (relaying D r fee).Run chain tr chain') :
    chain.balance r + fee * tr.countP (Label.relayedBy r) ≤ chain'.balance r := by
  induction hrun with
  | nil => exact le_rfl
  | @snoc tr s s' label run last ih =>
    have hlast := relaying_step hzero hdist hr hfee (hreach.trans (run_of_relaying run)) last
    rw [List.countP_append, List.countP_singleton, Nat.mul_add]
    split_ifs at hlast ⊢ <;> omega

/-- The relayer of the guardian's proposal, with a fee of two signatures. -/
theorem relayer_paid_propose :
    Vectors.guarded.chain.balance Vectors.relayer + 10000
      ≤ Vectors.proposed.chain.balance Vectors.relayer := by
  have hasks : Asks Vectors.deployment Vectors.relayer 10000 Vectors.guarded.chain
      Vectors.propose.sent := by
    intro _ auth hauth
    have hdue : rentDue Vectors.deployment Vectors.guarded.chain Vectors.propose.sent
        Vectors.relayer = 0 := if_neg fun hdue ↦ Bool.false_ne_true hdue.1
    cases hauth
    rw [hdue]
    decide
  have hpaid : Vectors.guarded.chain.balance Vectors.relayer
      + 10000 * List.countP (Label.relayedBy Vectors.relayer)
          [.invoke Vectors.propose.sent
            (emitted Vectors.deployment Vectors.guarded.chain Vectors.propose.sent)]
        ≤ Vectors.proposed.chain.balance Vectors.relayer :=
    relayer_paid Vectors.deployment_noZeroKey Vectors.deployment_distinctAddresses
      (Vectors.tables.not_isDerived Vectors.relayer_not_derived) (by decide)
      Vectors.guarded.reachable
      (.single ⟨Vectors.guarded.step Vectors.proposed Vectors.propose.sent rfl, hasks⟩)
  rw [List.countP_singleton, if_pos (by decide), Nat.mul_one] at hpaid
  exact hpaid

end EnclaveKit
