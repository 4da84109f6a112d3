import EnclaveKit.Foundation.Schedule
import EnclaveKit.Properties.Interference

/-!
# Each wallet as if alone

Two instructions for different wallets commute, if neither pays to the other's accounts and their
relayers can pay. Here there are any number of instructions, for any number of wallets, and what two
of them need is asked of all at once: that nobody pays to a wallet's accounts but that wallet, and
that each relayer holds the rent that may fall to it, however the instructions come.

Rent falls to a relayer only where a state account is vacant, or where a closing among the
instructions makes it so. Wallets that are there and stay ask for nothing.
-/

namespace EnclaveKit

open Solana Schedule

/-- It gives the state account up. -/
def Call.closes : Call → Bool
  | .closeWallet _ _ _ => true
  | _ => false

/-- The state account at `a` may have to be made: it is vacant, or may become so. -/
def mayLack (chain : Chain) (invs : List Invocation) (a : Pubkey) : Bool :=
  decide ((chain a).holding = .system)
    || invs.any fun inv ↦ inv.call.closes && decide (inv.accounts.wallet = a)

/-- The rent that may fall to `r` in one of the instructions. -/
def rentAtRisk (D : Deployment) (chain : Chain) (invs : List Invocation) (r : Pubkey)
    (inv : Invocation) : ℕ :=
  if inv.call.mayCreate && decide (inv.accounts.relayer = r)
      && mayLack chain invs inv.accounts.wallet
    then (D.minimumBalance SmartWallet.SPACE).toNat else 0

/-- Instructions that are not in each other's way. -/
structure Unhindered (D : Deployment) (chain : Chain) (invs : List Invocation) : Prop where
  admitted : ∀ inv ∈ invs, Admitted D inv
  relayer : ∀ inv ∈ invs, inv.call.mayCreate = true → ¬D.IsDerived ID inv.accounts.relayer
  /-- None pays to the accounts of another's wallet. -/
  elsewhere : ∀ inv ∈ invs, ∀ inv' ∈ invs, inv.call.walletId ≠ inv'.call.walletId → ∀ a,
    walletAddress D inv'.call.walletId = some a ∨ vaultAddress D inv'.call.walletId = some a →
      inv.call.dest ≠ some a
  /-- Every relayer can pay whatever rent may fall to it. -/
  canPay : ∀ r, ¬D.IsDerived ID r → (invs.map (rentAtRisk D chain invs r)).sum ≤ chain.balance r
  fits : chain.SupplyFits

/-- Only a closing leaves no wallet. -/
theorem Enacts.closes {D : Deployment} {inv : Invocation} {auth : Authorization} {chain : Chain}
    {wallet : SmartWallet} {signer : PublicKey} {moves : List Move} {event : Event}
    (h : Enacts D inv auth chain wallet signer none moves event) : inv.call.closes = true := by
  obtain ⟨dest, relayerFee, call⟩ := h.exists_closeWallet
  rw [call]
  rfl

section Rent

variable {D : Deployment} {chain : Chain} {inv : Invocation} {invs invs' : List Invocation}
  {r : Pubkey}

theorem rentDue_le_rentAtRisk : rentDue D chain inv r ≤ rentAtRisk D chain invs r inv := by
  rw [rentDue]
  split_ifs with hdue
  · obtain ⟨hcreate, hrelayer, hvacant⟩ := hdue
    have hlack : mayLack chain invs inv.accounts.wallet = true := by simp [mayLack, hvacant]
    rw [rentAtRisk, hcreate, hlack, decide_eq_true hrelayer, creationMove]
    exact Nat.sub_le _ _
  · exact Nat.zero_le _

/-- An account that is vacant after an instruction was vacant before, or the instruction gave it
up. -/
theorem mayLack_of_next {a : Pubkey} (h : mayLack (next D chain inv) invs a = true) :
    mayLack chain (inv :: invs) a = true := by
  rw [mayLack, Bool.or_eq_true, decide_eq_true_eq] at h
  rw [mayLack, List.any_cons]
  rcases h with hvacant | hlater
  · by_cases haccepts : accepts D chain inv = true
    · have hexecute := execute_of_accepts haccepts
      by_cases ha : a = inv.accounts.wallet
      · subst ha
        have hcloses : inv.call.closes = true := by
          rcases effect_of_execute hexecute with ⟨⟨h⟩⟩ | ⟨⟨h⟩⟩
          · have henacts := h.enacts
            rw [h.holding_wallet] at hvacant
            cases hafter : h.after with
            | none =>
              rw [hafter] at henacts
              exact henacts.closes
            | some wallet =>
              rw [hafter] at hvacant
              cases hvacant
          · rw [h.holding_wallet] at hvacant
            cases hvacant
        simp [hcloses]
      · rw [holding_of_execute hexecute ha] at hvacant
        simp [hvacant]
    · rw [next_of_refused (Bool.eq_false_iff.mpr haccepts)] at hvacant
      simp [hvacant]
  · simp [hlater]

theorem rentAtRisk_next_le (inv' : Invocation) :
    rentAtRisk D (next D chain inv) invs r inv' ≤ rentAtRisk D chain (inv :: invs) r inv' := by
  rw [rentAtRisk]
  split_ifs with hrisk
  · rw [Bool.and_eq_true] at hrisk
    rw [rentAtRisk, if_pos]
    rw [Bool.and_eq_true]
    exact ⟨hrisk.1, mayLack_of_next hrisk.2⟩
  · exact Nat.zero_le _

/-- The order of the instructions does not matter to what may fall to whom. -/
theorem rentAtRisk_perm (h : invs.Perm invs') :
    (invs'.map (rentAtRisk D chain invs' r)).sum = (invs.map (rentAtRisk D chain invs r)).sum := by
  have hlack : ∀ a, mayLack chain invs' a = mayLack chain invs a := by
    intro a
    rw [mayLack, mayLack, h.any_eq]
  have hrisk : rentAtRisk D chain invs' r = rentAtRisk D chain invs r := by
    funext inv
    rw [rentAtRisk, rentAtRisk, hlack]
  rw [hrisk]
  exact (h.map _).sum_eq.symm

end Rent

/-! ## The instructions commute -/

section Commutes

variable {D : Deployment} {chain : Chain} {inv inv' : Invocation} {invs invs' : List Invocation}

theorem Unhindered.perm (h : Unhindered D chain invs) (hperm : invs.Perm invs') :
    Unhindered D chain invs' where
  admitted inv hmem := h.admitted inv (hperm.mem_iff.mpr hmem)
  relayer inv hmem := h.relayer inv (hperm.mem_iff.mpr hmem)
  elsewhere inv hmem inv' hmem' :=
    h.elsewhere inv (hperm.mem_iff.mpr hmem) inv' (hperm.mem_iff.mpr hmem')
  canPay r hr := by
    rw [rentAtRisk_perm hperm]
    exact h.canPay r hr
  fits := h.fits

/-- **One instruction** leaves the others as unhindered as they were. -/
theorem Unhindered.step (h : Unhindered D chain (inv :: invs)) :
    Unhindered D (next D chain inv) invs where
  admitted inv' hmem := h.admitted inv' (List.mem_cons_of_mem inv hmem)
  relayer inv' hmem := h.relayer inv' (List.mem_cons_of_mem inv hmem)
  elsewhere inv₁ hmem₁ inv₂ hmem₂ :=
    h.elsewhere inv₁ (List.mem_cons_of_mem inv hmem₁) inv₂ (List.mem_cons_of_mem inv hmem₂)
  canPay r hr := by
    have hpays := h.canPay r hr
    rw [List.map_cons, List.sum_cons] at hpays
    have hrest : (invs.map (rentAtRisk D (next D chain inv) invs r)).sum
        ≤ (invs.map (rentAtRisk D chain (inv :: invs) r)).sum :=
      List.sum_le_sum fun inv' _ ↦ rentAtRisk_next_le inv'
    have hdue : rentDue D chain inv r ≤ rentAtRisk D chain (inv :: invs) r inv :=
      rentDue_le_rentAtRisk
    have hkept : chain.balance r ≤ rentDue D chain inv r + (next D chain inv).balance r := by
      by_cases haccepts : accepts D chain inv = true
      · exact le_balance_of_execute (execute_of_accepts haccepts) hr
      · rw [next_of_refused (Bool.eq_false_iff.mpr haccepts)]
        exact Nat.le_add_left _ _
    omega
  fits := supplyFits_next h.fits

theorem Unhindered.concurrent (h : Unhindered D chain (inv :: inv' :: invs))
    (hne : inv.call.walletId ≠ inv'.call.walletId) :
    Concurrent D chain inv.call.walletId inv'.call.walletId inv inv' where
  admitted := h.admitted inv (by simp)
  admitted' := h.admitted inv' (by simp)
  walletId := rfl
  walletId' := rfl
  elsewhere := h.elsewhere inv (by simp) inv' (by simp) hne
  elsewhere' := h.elsewhere inv' (by simp) inv (by simp) hne.symm
  canPay r := by
    by_cases hr : D.IsDerived ID r
    · have hnone : ∀ i ∈ inv :: inv' :: invs, rentDue D chain i r = 0 := by
        intro i hmem
        refine if_neg fun hdue ↦ h.relayer i hmem hdue.1 ?_
        rw [hdue.2.1]
        exact hr
      rw [hnone inv (by simp), hnone inv' (by simp)]
      exact Nat.zero_le _
    · have hpays := h.canPay r hr
      rw [List.map_cons, List.map_cons, List.sum_cons, List.sum_cons] at hpays
      have hdue : rentDue D chain inv r ≤ rentAtRisk D chain (inv :: inv' :: invs) r inv :=
        rentDue_le_rentAtRisk
      have hdue' : rentDue D chain inv' r ≤ rentAtRisk D chain (inv :: inv' :: invs) r inv' :=
        rentDue_le_rentAtRisk
      omega
  fits := h.fits

theorem emitted_of_refused (h : accepts D chain inv = false) : emitted D chain inv = [] := by
  rw [accepts] at h
  rw [emitted]
  cases hexecute : execute D inv chain with
  | error => rfl
  | ok => simp [hexecute] at h

/-- What the sender of an instruction is told. -/
def reply (D : Deployment) (chain : Chain) (inv : Invocation) : Bool × List Event :=
  (accepts D chain inv, emitted D chain inv)

theorem Concurrent.reply_eq {w w' : WalletId} (h : Concurrent D chain w w' inv inv') (hne : w' ≠ w)
    (hzero : NoZeroKey D) (hdist : DistinctAddresses D w) (hinv : Invariant D chain) :
    reply D (next D chain inv') inv = reply D chain inv := by
  have haccepts := h.accepts_eq hne hdist hzero hinv
  rw [reply, reply, haccepts]
  by_cases haccepted : accepts D chain inv = true
  · have heffect := (h.sameEffect hdist hinv (fun hown ↦ (h.sameView hne hdist hown).1) haccepted).2
    rw [emitted, heffect.accepted]
  · have hrefused := Bool.eq_false_iff.mpr haccepted
    rw [emitted_of_refused hrefused, emitted_of_refused (haccepts.trans hrefused)]

/-- **Instructions for different wallets commute**, while they are not in each other's way. -/
theorem commutes (hzero : NoZeroKey D) (hdist : ∀ w, DistinctAddresses D w) :
    Commutes (next D) (reply D) (fun inv ↦ inv.call.walletId)
      fun chain invs ↦ Invariant D chain ∧ Unhindered D chain invs where
  perm hperm := fun ⟨hinv, h⟩ ↦ ⟨hinv, h.perm hperm⟩
  step := fun ⟨hinv, h⟩ ↦ ⟨hinv.next hzero (h.admitted _ (by simp)), h.step⟩
  comm := fun ⟨hinv, h⟩ hne ↦
    (h.concurrent hne).next_next hne.symm (hdist _) hzero (hdist _) hinv
  out_eq := fun ⟨hinv, h⟩ hne ↦
    (h.concurrent hne).symm.reply_eq hne hzero (hdist _) hinv

/-- The instructions of others leave a wallet's accounts as they are. -/
theorem foldl_next_eq {w : WalletId} {a : Pubkey} (hdist : DistinctAddresses D w)
    (ha : walletAddress D w = some a ∨ vaultAddress D w = some a)
    (hadmitted : ∀ inv ∈ invs, Admitted D inv) (hothers : ∀ inv ∈ invs, inv.call.walletId ≠ w)
    (hdest : ∀ inv ∈ invs, inv.call.dest ≠ some a) : invs.foldl (next D) chain a = chain a := by
  induction invs generalizing chain with
  | nil => rfl
  | cons inv rest ih =>
    have hmem : inv ∈ inv :: rest := List.mem_cons_self
    have hnext : next D chain inv a = chain a := by
      by_cases haccepts : accepts D chain inv = true
      · exact account_eq_of_execute hdist (hadmitted inv hmem) (hothers inv hmem)
          (execute_of_accepts haccepts) ha (hdest inv hmem)
      · rw [next_of_refused (Bool.eq_false_iff.mpr haccepts)]
    rw [List.foldl_cons, ih (fun i hi ↦ hadmitted i (List.mem_cons_of_mem inv hi))
      (fun i hi ↦ hothers i (List.mem_cons_of_mem inv hi))
      (fun i hi ↦ hdest i (List.mem_cons_of_mem inv hi)), hnext]

end Commutes

/-- **Each wallet as if alone.** In a reachable state, take any instructions that are not in each
other's way, of any number of wallets. However they are interleaved, they lead to the same ledger.
And for every wallet among them it is as if there were no other: each of its instructions is
accepted or refused by the program, with the events, as in the run of its own instructions alone,
and its two accounts end as they do there. The runtime's rule on rent is not the program's. -/
theorem wallets_as_if_alone {D : Deployment} {chain : Chain} {invs : List Invocation}
    (hzero : NoZeroKey D) (hdist : ∀ w, DistinctAddresses D w)
    (hreach : (system D).Reachable chain) (h : Unhindered D chain invs) :
    (∀ invs', SameOrder (fun inv ↦ inv.call.walletId) invs invs' →
      invs'.foldl (next D) chain = invs.foldl (next D) chain) ∧
    ∀ w ∈ invs.map fun inv ↦ inv.call.walletId,
      answers (next D) (reply D) (fun inv ↦ inv.call.walletId) w chain invs
          = answers (next D) (reply D) (fun inv ↦ inv.call.walletId) w chain
            (invs.filter (·.call.walletId = w)) ∧
      ∀ a, walletAddress D w = some a ∨ vaultAddress D w = some a →
        invs.foldl (next D) chain a
          = (invs.filter (·.call.walletId = w)).foldl (next D) chain a := by
  have hcommutes := commutes hzero hdist
  have hI := And.intro (invariant_of_reachable hzero hreach) h
  refine ⟨fun invs' hsame ↦ (hcommutes.schedule hsame hI).1.symm, fun w hw ↦
    ⟨hcommutes.answers_filter hI w, fun a ha ↦ ?_⟩⟩
  -- The wallet's own instructions first, and then those of the others.
  obtain ⟨own, hown, hid⟩ := List.mem_map.mp hw
  have hothers : ∀ inv ∈ invs.filter (·.call.walletId ≠ w),
      inv ∈ invs ∧ inv.call.walletId ≠ w := by
    intro inv hmem
    simpa using hmem
  rw [(hcommutes.schedule (sameOrder_filter _ w invs) hI).1, List.foldl_append]
  refine foldl_next_eq (hdist w) ha (fun inv hmem ↦ h.admitted inv (hothers inv hmem).1)
    (fun inv hmem ↦ (hothers inv hmem).2) fun inv hmem ↦ ?_
  subst hid
  exact h.elsewhere inv (hothers inv hmem).1 own hown (hothers inv hmem).2 a ha

/-- The first two actions of the device, and the sweep of the other wallet in between. -/
def Vectors.interleaved : List Invocation := [setGuardians.sent, otherSweep.sent, rotate.sent]

theorem Vectors.unhindered_interleaved : Unhindered deployment genesis interleaved where
  admitted inv hmem := by
    simp only [interleaved, List.mem_cons, List.not_mem_nil, or_false] at hmem
    rcases hmem with rfl | rfl | rfl
    · exact admitted_sent (by simp [approvals])
    · exact admitted_sent (by simp [approvals])
    · exact admitted_sent (by simp [approvals])
  relayer inv hmem _ := by
    have hrelayer : ∀ i ∈ interleaved, i.accounts.relayer = relayer := by decide
    rw [hrelayer inv hmem]
    exact Tables.not_isDerived relayer_not_derived
  elsewhere inv hmem inv' hmem' _ a ha hdest := by
    have hpaid : ∀ i ∈ interleaved, i.call.dest = none ∨ i.call.dest = some dest := by decide
    have hothers : ∀ i ∈ interleaved, walletAddress deployment i.call.walletId ≠ some dest ∧
        vaultAddress deployment i.call.walletId ≠ some dest := by decide
    rcases hpaid inv hmem with hnone | hsome
    · rw [hnone] at hdest
      cases hdest
    · rw [hsome, Option.some_inj] at hdest
      subst hdest
      exact ha.elim (hothers inv' hmem').1 (hothers inv' hmem').2
  canPay r _ := by
    by_cases hr : relayer = r
    · subst hr
      decide
    · have hnone : ∀ i ∈ interleaved, i.accounts.relayer ≠ r := by
        have hrelayer : ∀ i ∈ interleaved, i.accounts.relayer = relayer := by decide
        intro i hmem
        rw [hrelayer i hmem]
        exact hr
      have hrisk : ∀ n ∈ interleaved.map (rentAtRisk deployment genesis interleaved r), n = 0 := by
        intro n hmem
        obtain ⟨i, hi, rfl⟩ := List.mem_map.mp hmem
        simp [rentAtRisk, hnone i hi]
      rw [List.sum_eq_zero hrisk]
      exact Nat.zero_le _
  fits := genesis_supplyFits

/-- The sweep may as well come first. -/
theorem wallets_as_if_alone_vectors :
    [Vectors.otherSweep.sent, Vectors.setGuardians.sent, Vectors.rotate.sent].foldl
        (next Vectors.deployment) Vectors.genesis
      = Vectors.interleaved.foldl (next Vectors.deployment) Vectors.genesis := by
  refine (wallets_as_if_alone Vectors.deployment_noZeroKey Vectors.deployment_distinctAddresses
    Vectors.start.reachable Vectors.unhindered_interleaved).1 _ (sameOrder_swap ?_)
  decide

end EnclaveKit
