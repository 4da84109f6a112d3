import EnclaveKit.Chain.Vault
import EnclaveKit.Chain.Vectors

/-!
# Authority

Whose word an instruction takes. Verification hands over the key that signed and does not ask whose
it is, so what a key may do is decided by the rules of `Enacts`, each of which names the key it
wants.

## Over the state

The owner speaks for everything, a listed P-256 guardian for a proposal only, and nobody has to
speak for a confirmation.

## Over the funds

A proposal pays its relayer whoever signs it. A guardian therefore moves lamports, within the cap it
signs itself, before any timelock; and nothing but these refunds.
-/

namespace EnclaveKit

open Solana MachineInt Fallible TransitionSystem

/-! ## The state -/

/-- Instructions only the owner may sign. -/
def Call.ownerOnly : Call → Bool
  | transferSol _ _ _ _ | sweepVault _ _ _ | setGuardians _ _ _ | cancelRotation _ _
  | closeWallet _ _ _ => true
  | proposeRotation _ _ _ | confirmRotation _ => false

/-- A slot of the wallet names `key` as a P-256 guardian. -/
def Lists (wallet : SmartWallet) (key : PublicKey) : Prop :=
  ∃ i, ∃ h : i < MAX_GUARDIANS, wallet.guardians[i].kind = .p256 ∧ wallet.guardians[i].key = key

section State

variable {D : Deployment} {inv : Invocation} {auth : Authorization} {chain chain' : Chain}
  {events : List Event} {wallet : SmartWallet} {signer : PublicKey} {after : Option SmartWallet}
  {moves : List Move} {event : Event}

/-- The effect of a proposal that is not the owner's. -/
structure GuardianProposal (inv : Invocation) (auth : Authorization) (wallet : SmartWallet)
    (signer : PublicKey) (after : Option SmartWallet) (moves : List Move) : Prop where
  call : ∃ newKey relayerFee, inv.call = .proposeRotation auth newKey relayerFee
  not_owner : signer ≠ wallet.activeKey
  guardian : ∃ slot, wallet.p256Guardian signer = some slot
  after_eq : ∃ rotation, after = some { wallet with rotation := rotation }
  moves_eq : moves = [refundMove inv.accounts (refundOf inv.call auth)]

/-- An effect has the owner's word, or is a listed guardian's proposal. -/
theorem Enacts.authority (h : Enacts D inv auth chain wallet signer after moves event) :
    signer = wallet.activeKey ∨ GuardianProposal inv auth wallet signer after moves := by
  cases h with
  | transferSol _ owner | sweepVault _ owner | setGuardians _ owner | cancelRotation _ owner
  | rotate _ _ owner | closeWallet _ owner => exact .inl owner
  | propose call _ not_owner guardian =>
    exact .inr ⟨⟨_, _, call⟩, not_owner, ⟨_, guardian⟩, ⟨_, rfl⟩, rfl⟩

theorem GuardianProposal.ownerOnly_eq (h : GuardianProposal inv auth wallet signer after moves) :
    inv.call.ownerOnly = false := by
  obtain ⟨_, _, hcall⟩ := h.call
  rw [hcall]
  rfl

theorem GuardianProposal.lists (h : GuardianProposal inv auth wallet signer after moves) :
    Lists wallet signer := by
  obtain ⟨slot, hslot⟩ := h.guardian
  obtain ⟨hi, hslot⟩ := GuardianSlots.p256Guardian_eq_some hslot
  exact ⟨slot, hi, hslot⟩

/-- The authority a signed instruction had, told of the account as it was. -/
theorem Accepted.authority (h : Accepted D inv chain chain' events) (hinv : Invariant D chain) :
    ((chain inv.accounts.wallet).holding = .system ∧ inv.call.mayCreate = true ∧
        D.sha256 h.signer.toList = h.auth.walletId) ∨
      ∃ wallet, (chain inv.accounts.wallet).holding = .owned wallet ∧
        (h.signer = wallet.activeKey ∨
          inv.call.ownerOnly = false ∧ h.signer ≠ wallet.activeKey ∧ Lists wallet h.signer ∧
            ∃ after, (chain' inv.accounts.wallet).holding = .owned after ∧
              after = { wallet with nonce := after.nonce, rotation := after.rotation }) := by
  cases h.origin hinv with
  | created holding _ mayCreate _ _ creator => exact .inl ⟨holding, mayCreate, creator⟩
  | @found wallet holding _ _ _ _ spent_eq =>
    refine .inr ⟨wallet, holding, ?_⟩
    have hholding := h.holding_wallet
    have hauthority := h.enacts.authority
    rw [spent_eq] at hauthority
    rcases hauthority with howner | hguardian
    · exact .inl howner
    · obtain ⟨rotation, hafter⟩ := hguardian.after_eq
      rw [hafter] at hholding
      exact .inr ⟨hguardian.ownerOnly_eq, hguardian.not_owner, hguardian.lists, _, hholding, rfl⟩

/-- The owner's instructions are signed by the owner, or by the key that creates the wallet. -/
theorem Accepted.owner (h : Accepted D inv chain chain' events) (hzero : NoZeroKey D)
    (hadmitted : Admitted D inv) (hinv : Invariant D chain) (howner : inv.call.ownerOnly = true) :
    (∃ wallet, (chain inv.accounts.wallet).holding = .owned wallet ∧
        h.signer = wallet.activeKey) ∨
      inv.call.mayCreate = true ∧ (chain inv.accounts.wallet).holding = .system ∧
        h.signer ≠ zeroKey ∧ D.sha256 h.signer.toList = inv.call.walletId := by
  rw [h.walletId_eq]
  rcases h.authority hinv with ⟨hsystem, hcreate, hhash⟩ | ⟨wallet, hwallet, hkey | ⟨hcall, -⟩⟩
  · exact .inr ⟨hcreate, hsystem, h.signer_ne_zeroKey hzero hadmitted, hhash⟩
  · exact .inl ⟨wallet, hwallet, hkey⟩
  · rw [hcall] at howner
    cases howner

/-- A proposal is signed by the owner or a listed guardian of the wallet that is there. -/
theorem Accepted.proposer (h : Accepted D inv chain chain' events) (hinv : Invariant D chain)
    {newKey : PublicKey} {relayerFee : UInt64}
    (hcall : inv.call = .proposeRotation auth newKey relayerFee) :
    ∃ wallet, (chain inv.accounts.wallet).holding = .owned wallet ∧
      (h.signer = wallet.activeKey ∨ Lists wallet h.signer) := by
  rcases h.authority hinv with ⟨-, hcreate, -⟩ | ⟨wallet, hwallet, hkey⟩
  · rw [hcall] at hcreate
    cases hcreate
  · exact ⟨wallet, hwallet, hkey.imp_right fun hguardian ↦ hguardian.2.2.1⟩

/-- A key that is not the owner's is a listed guardian's, and changes the rotation and the nonce
alone. -/
theorem Accepted.guardian (h : Accepted D inv chain chain' events) (hinv : Invariant D chain)
    (hwallet : (chain inv.accounts.wallet).holding = .owned wallet)
    (hne : h.signer ≠ wallet.activeKey) :
    Lists wallet h.signer ∧ inv.call.ownerOnly = false ∧
      ∃ after, (chain' inv.accounts.wallet).holding = .owned after ∧
        after = { wallet with nonce := after.nonce, rotation := after.rotation } := by
  rcases h.authority hinv with ⟨hsystem, -⟩ | ⟨wallet', hwallet', hauthority⟩
  · rw [hwallet] at hsystem
    cases hsystem
  · rw [hwallet] at hwallet'
    cases hwallet'
    rcases hauthority with howner | ⟨hcall, -, hlists, hafter⟩
    · exact absurd howner hne
    · exact ⟨hlists, hcall, hafter⟩

theorem Confirmed.signer_eq (h : Confirmed D inv chain chain' events) : inv.signer = none := by
  rw [Invocation.signer, Invocation.payload, h.call]
  rfl

/-- **Separation of authority.** Under the owner's instructions there is the owner's key, or the key
that creates the wallet; under a proposal there may be a guardian's, which changes the rotation and
spends a nonce; and under a confirmation none, which changes the key. A key no slot lists as a P-256
guardian has the owner's authority or no authority. -/
theorem authority_of_execute (hzero : NoZeroKey D) (hreach : (system D).Reachable chain)
    (hadmitted : Admitted D inv) (h : execute D inv chain = .ok (chain', events)) :
    (inv.call.ownerOnly = true → ∃ key, inv.signer = some key ∧
      ((∃ wallet, (chain inv.accounts.wallet).holding = .owned wallet ∧ key = wallet.activeKey) ∨
        inv.call.mayCreate = true ∧ (chain inv.accounts.wallet).holding = .system ∧
          key ≠ zeroKey ∧ D.sha256 key.toList = inv.call.walletId)) ∧
    (∀ auth newKey relayerFee, inv.call = .proposeRotation auth newKey relayerFee →
      ∃ key wallet, inv.signer = some key ∧
        (chain inv.accounts.wallet).holding = .owned wallet ∧
        (key = wallet.activeKey ∨ Lists wallet key)) ∧
    (∀ key wallet, inv.signer = some key → (chain inv.accounts.wallet).holding = .owned wallet →
      key ≠ wallet.activeKey → Lists wallet key ∧ inv.call.ownerOnly = false ∧
        ∃ after, (chain' inv.accounts.wallet).holding = .owned after ∧
          after = { wallet with nonce := after.nonce, rotation := after.rotation }) ∧
    (inv.signer = none ↔ inv.call = .confirmRotation inv.call.walletId) ∧
    (inv.signer = none → ∃ wallet after, (chain inv.accounts.wallet).holding = .owned wallet ∧
      (chain' inv.accounts.wallet).holding = .owned after ∧
      after = { wallet with
        activeKey := after.activeKey
        attested := after.attested
        rotation := after.rotation }) := by
  have hinv := invariant_of_reachable hzero hreach
  rcases effect_of_execute h with ⟨⟨h⟩⟩ | ⟨⟨h⟩⟩
  · have hsigner := h.signer_eq
    have hsigned : inv.signer ≠ none := by simp [hsigner]
    refine ⟨fun howner ↦ ⟨h.signer, hsigner, h.owner hzero hadmitted hinv howner⟩,
      fun auth newKey relayerFee hcall ↦ ?_, fun key wallet hkey hwallet hne ↦ ?_,
      ⟨fun hnone ↦ absurd hnone hsigned, fun hcall ↦ ?_⟩, fun hnone ↦ absurd hnone hsigned⟩
    · obtain ⟨wallet, hproposer⟩ := h.proposer hinv hcall
      exact ⟨h.signer, wallet, hsigner, hproposer⟩
    · obtain rfl := Option.some_inj.mp (hsigner.symm.trans hkey)
      exact h.guardian hinv hwallet hne
    · have hauth := h.call_authorization
      rw [hcall] at hauth
      cases hauth
  · -- A confirmation has no signer, and is none of the signed instructions.
    refine ⟨fun howner ↦ ?_, fun auth newKey relayerFee hcall ↦ ?_, fun key wallet hkey ↦ ?_,
      ⟨fun _ ↦ h.call, fun _ ↦ h.signer_eq⟩,
      fun _ ↦ ⟨h.wallet, _, h.found, h.holding_wallet, rfl⟩⟩
    · rw [h.call] at howner
      cases howner
    · rw [h.call] at hcall
      cases hcall
    · rw [h.signer_eq] at hkey
      cases hkey

end State

/-- The guardian's proposal: its key is listed, and changes the rotation and the nonce alone. -/
theorem authority_of_execute_propose :
    Lists Vectors.guardedWallet Vectors.guardianKey ∧
      ∃ after, (Vectors.proposed.chain Vectors.wallet).holding = .owned after ∧
        after
          = { Vectors.guardedWallet with nonce := after.nonce, rotation := after.rotation } := by
  obtain ⟨-, -, hguardian, -⟩ := authority_of_execute Vectors.deployment_noZeroKey
    Vectors.guarded.reachable (Vectors.admitted_sent (by simp [Vectors.approvals]))
    (Vectors.guarded.execute_eq Vectors.proposed Vectors.propose.sent rfl)
  obtain ⟨hlists, -, hafter⟩ := hguardian _ _ (Vectors.signer_sent Vectors.propose rfl)
    (stateAt_eq_some.mp Vectors.guarded.stateAt_eq) Vectors.guardianKey_ne_deviceKey
  exact ⟨hlists, hafter⟩

/-! ## The funds -/

/-- `key` is the wallet's before a step, or creates it in the step. -/
inductive Owns (D : Deployment) (w : WalletId) (key : PublicKey) :
    Option SmartWallet → Option SmartWallet → Prop where
  | active {wallet : SmartWallet} {after : Option SmartWallet} (key_eq : key = wallet.activeKey) :
      Owns D w key (some wallet) after
  | creator {wallet : SmartWallet} (hash : D.sha256 key.toList = w)
      (key_eq : wallet.activeKey = key) : Owns D w key none (some wallet)

/-- Lamports leave a vault on the owner's word only. -/
def FundsMoveByOwner (D : Deployment) : Prop :=
  ∀ (w : WalletId) (v : Pubkey) (chain chain' : Chain) (inv : Invocation) (events : List Event),
    DistinctAddresses D w → vaultAddress D w = some v → (system D).Reachable chain →
    Step D chain (.invoke inv events) chain' → chain'.balance v < chain.balance v →
      ∃ key, inv.signer = some key ∧ Owns D w key (stored D chain w) (stored D chain' w)

/-- **A guardian empties the vault.** The cap of its proposal is the whole balance, and so is what
the relayer asks. -/
theorem not_fundsMoveByOwner : ¬FundsMoveByOwner Vectors.deployment := by
  intro hclaim
  obtain ⟨key, hsigner, howns⟩ := hclaim Vectors.walletId Vectors.vault _ _ _ _
    (Vectors.deployment_distinctAddresses _) Vectors.vaultAddress_eq Vectors.guarded.reachable
    (Vectors.guarded.step Vectors.proposed Vectors.propose.sent rfl)
    (by rw [Vectors.guarded.balance_eq, Vectors.proposed.balance_eq]; decide)
  rw [Vectors.signer_sent Vectors.propose rfl, Option.some_inj] at hsigner
  rw [Vectors.guarded.stored_eq] at howns
  cases howns with
  | active key_eq => exact Vectors.guardianKey_ne_deviceKey (hsigner.trans key_eq)

/-- A listed guardian's proposal, which pays its refund and nothing else. -/
structure GuardianRefund (D : Deployment) (w : WalletId) (v : Pubkey) (inv : Invocation)
    (key : PublicKey) (chain chain' : Chain) : Prop where
  guardian : ∃ wallet slot, stored D chain w = some wallet ∧ key ≠ wallet.activeKey ∧
    wallet.p256Guardian key = some slot
  refund : ∃ auth newKey relayerFee, inv.call = .proposeRotation auth newKey relayerFee ∧
    chain.Moved [⟨v, inv.accounts.relayer, (min relayerFee auth.maxRelayerFee).toNat⟩] chain' ∧
    chain'.balance v + (min relayerFee auth.maxRelayerFee).toNat = chain.balance v

/-- What an instruction for `w` refunds. -/
def Label.refund (w : WalletId) : Label → ℕ
  | invoke inv _ =>
    match inv.call.authorization with
    | some auth => if auth.walletId = w then (refundOf inv.call auth).toNat else 0
    | none => 0
  | external => 0

/-- Proposals and confirmations. -/
def Label.recovers : Label → Bool
  | invoke inv _ => !inv.call.ownerOnly
  | external => true

section Funds

variable {D : Deployment} {w : WalletId} {v : Pubkey} {chain chain' : Chain}

/-- A guardian's proposal moves its refund from the vault to the relayer, and nothing else. -/
theorem Accepted.guardianRefund {inv : Invocation} {events : List Event} {wallet : SmartWallet}
    (h : Accepted D inv chain chain' events) (hown : OwnVault D inv chain h.ctx v)
    (hnothing : h.creation = [])
    (hguardian : GuardianProposal inv h.auth wallet h.signer h.after h.moves) :
    ∃ auth newKey relayerFee, inv.call = .proposeRotation auth newKey relayerFee ∧
      chain.Moved [⟨v, inv.accounts.relayer, (min relayerFee auth.maxRelayerFee).toNat⟩] chain' ∧
      chain'.balance v + (min relayerFee auth.maxRelayerFee).toNat = chain.balance v := by
  obtain ⟨newKey, relayerFee, hcall⟩ := hguardian.call
  have hmoved := h.moved_all
  have hfee : refundOf inv.call h.auth = min relayerFee h.auth.maxRelayerFee := by
    rw [hcall]
    rfl
  have hnet := net_refundMove hown.ne_relayer (min relayerFee h.auth.maxRelayerFee)
  rw [hnothing, hguardian.moves_eq, hfee, List.nil_append, refundMove, vaultMove,
    ← hown.vault_eq] at hmoved
  rw [refundMove, vaultMove, ← hown.vault_eq] at hnet
  refine ⟨_, newKey, relayerFee, hcall, hmoved, ?_⟩
  have hbalance := hmoved v
  rw [netChange_cons, netChange_nil, hnet] at hbalance
  omega

/-- Lamports leave a vault on the owner's word, or as the refund of a guardian's proposal. -/
theorem Step.lowers {inv : Invocation} {events : List Event}
    (hdist : DistinctAddresses D w) (hv : vaultAddress D w = some v) (hinv : Invariant D chain)
    (h : Step D chain (.invoke inv events) chain') (hlow : chain'.balance v < chain.balance v) :
    ∃ key, inv.signer = some key ∧
      (Owns D w key (stored D chain w) (stored D chain' w) ∨
        GuardianRefund D w v inv key chain chain') := by
  have hw : inv.call.walletId = w := by
    by_contra hne
    have hle := h.vault_le hdist hv (by simpa [Label.walletId] using hne)
    omega
  subst hw
  cases h with
  | invoke admitted accepted =>
    rcases effect_of_execute accepted with ⟨⟨h⟩⟩ | ⟨⟨h⟩⟩
    · refine ⟨h.signer, h.signer_eq, ?_⟩
      have hown := h.ownVault admitted hinv hdist hv rfl
      rw [h.walletId_eq] at hdist ⊢
      have haddress := h.walletAddress_eq hinv hdist
      have hbefore : stored D chain h.auth.walletId = _ := stored_eq_stateAt haddress
      have hafter : stored D chain' h.auth.walletId = _ := stored_eq_stateAt haddress
      rw [stateAt_of_holdingOf h.holding_wallet] at hafter
      cases h.origin hinv with
      | created holding _ mayCreate _ _ creator _ spent_eq =>
        obtain ⟨wallet, hwallet, hkey⟩ := h.enacts.after_of_mayCreate mayCreate
        rw [spent_eq] at hkey
        rw [hbefore, hafter, stateAt_of_holdingOf (show _ = holdingOf none from holding)]
        rw [hwallet]
        exact .inl (.creator creator hkey)
      | @found wallet holding _ nothing _ _ spent_eq =>
        rw [stateAt_eq_some.mpr holding] at hbefore
        have hauthority := h.enacts.authority
        rw [spent_eq] at hauthority
        rcases hauthority with howner | hguardian
        · rw [hbefore]
          exact .inl (.active howner)
        · obtain ⟨slot, hslot⟩ := hguardian.guardian
          exact .inr ⟨⟨wallet, slot, hbefore, hguardian.not_owner, hslot⟩,
            h.guardianRefund hown nothing hguardian⟩
    · rw [h.balance_eq] at hlow
      exact absurd hlow (lt_irrefl _)

/-- A proposal takes its refund, whoever signs it. -/
theorem Enacts.moves_of_recovers {inv : Invocation} {auth : Authorization} {wallet : SmartWallet}
    {signer : PublicKey} {after : Option SmartWallet} {moves : List Move} {event : Event}
    (h : Enacts D inv auth chain wallet signer after moves event)
    (hcall : inv.call.ownerOnly = false) :
    moves = [refundMove inv.accounts (refundOf inv.call auth)] := by
  cases h with
  | rotate | propose | setGuardians | cancelRotation => rfl
  | transferSol call | sweepVault call | closeWallet call =>
    rw [call] at hcall
    cases hcall

theorem Call.mayCreate_of_recovers {call : Call} (h : call.ownerOnly = false) :
    call.mayCreate = false := by
  cases call <;> first | rfl | cases h

/-- One step of proposals and confirmations. -/
theorem Step.le_of_recovers {label : Label} (hdist : DistinctAddresses D w)
    (hv : vaultAddress D w = some v) (hinv : Invariant D chain) (h : Step D chain label chain')
    (hrecovers : label.walletId = some w → label.recovers = true) :
    chain.balance v ≤ chain'.balance v + label.refund w := by
  by_cases hw : label.walletId = some w
  · cases h with
    | external => cases hw
    | @invoke inv events _ admitted accepted =>
      have hcall : inv.call.ownerOnly = false := by
        simpa [Label.recovers] using hrecovers hw
      have hid : inv.call.walletId = w := by simpa [Label.walletId] using hw
      rcases effect_of_execute accepted with ⟨⟨h⟩⟩ | ⟨⟨h⟩⟩
      · have hown := h.ownVault admitted hinv hdist hv hid
        have hcreation : h.creation = [] := by
          cases h.origin hinv with
          | found _ _ nothing => exact nothing
          | created _ _ mayCreate =>
            rw [Call.mayCreate_of_recovers hcall] at mayCreate
            cases mayCreate
        have hbalance := h.moved_all v
        rw [hcreation, h.enacts.moves_of_recovers hcall, hown.vault_eq, List.nil_append,
          netChange_cons, netChange_nil, net_refundMove hown.ne_relayer] at hbalance
        rw [Label.refund, h.call_authorization, hown.vault_eq]
        rw [h.walletId_eq] at hid
        simp only [hid, ↓reduceIte]
        omega
      · rw [h.balance_eq]
        exact Nat.le_add_right _ _
  · exact Nat.le_add_right_of_le (h.vault_le hdist hv hw)

/-- **A run of proposals.** However many proposals there are and whoever signs them, a vault is
lowered by their refunds at most. -/
theorem balance_le_of_recovers {tr : List Label} (hzero : NoZeroKey D)
    (hdist : DistinctAddresses D w) (hv : vaultAddress D w = some v)
    (hreach : (system D).Reachable chain) (h : (system D).Run chain tr chain')
    (hrecovers : ∀ label ∈ tr, label.walletId = some w → label.recovers = true) :
    chain.balance v ≤ chain'.balance v + (tr.map (Label.refund w)).sum := by
  induction h with
  | nil => simp
  | @snoc tr s s' label run last ih =>
    have hinv := invariant_of_reachable hzero (hreach.trans run)
    have hpast := ih fun l hl ↦ hrecovers l (List.mem_append_left _ hl)
    have hlast := Step.le_of_recovers hdist hv hinv last (hrecovers label (by simp))
    rw [List.map_append, List.sum_append, List.map_singleton, List.sum_singleton]
    omega

/-- **Funds move on the owner's word, or as a guardian's refund.** An instruction that lowers a
vault is signed by the wallet's key, or by a listed guardian for a proposal, and then what leaves is
the refund, capped by what was signed, and it goes to the relayer. So any run of proposals and
confirmations takes its refunds at most. -/
theorem fundsMove_byOwner_or_refund (hzero : NoZeroKey D) (hdist : DistinctAddresses D w)
    (hv : vaultAddress D w = some v) (hreach : (system D).Reachable chain) :
    (∀ inv events chain', Step D chain (.invoke inv events) chain' →
      chain'.balance v < chain.balance v → ∃ key, inv.signer = some key ∧
        (Owns D w key (stored D chain w) (stored D chain' w) ∨
          GuardianRefund D w v inv key chain chain')) ∧
    ∀ tr chain', (system D).Run chain tr chain' →
      (∀ label ∈ tr, label.walletId = some w → label.recovers = true) →
        chain.balance v ≤ chain'.balance v + (tr.map (Label.refund w)).sum :=
  ⟨fun _ _ _ hstep hlow ↦ hstep.lowers hdist hv (invariant_of_reachable hzero hreach) hlow,
    fun _ _ hrun hrecovers ↦ balance_le_of_recovers hzero hdist hv hreach hrun hrecovers⟩

end Funds

/-- The guardian's proposal took its refund from the vault. -/
theorem fundsMove_byOwner_or_refund_propose :
    GuardianRefund Vectors.deployment Vectors.walletId Vectors.vault Vectors.propose.sent
      Vectors.guardianKey Vectors.guarded.chain Vectors.proposed.chain := by
  obtain ⟨hstep, -⟩ := fundsMove_byOwner_or_refund Vectors.deployment_noZeroKey
    (Vectors.deployment_distinctAddresses _) Vectors.vaultAddress_eq Vectors.guarded.reachable
  obtain ⟨key, hsigner, hcases⟩ := hstep _ _ _
    (Vectors.guarded.step Vectors.proposed Vectors.propose.sent rfl)
    (by rw [Vectors.guarded.balance_eq, Vectors.proposed.balance_eq]; decide)
  rw [Vectors.signer_sent Vectors.propose rfl, Option.some_inj] at hsigner
  rw [← hsigner, Vectors.guarded.stored_eq] at hcases
  rcases hcases with howns | hrefund
  · cases howns with
    | active key_eq => exact absurd key_eq Vectors.guardianKey_ne_deviceKey
  · exact hrefund

end EnclaveKit
