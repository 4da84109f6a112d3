import EnclaveKit.Chain.Vault
import EnclaveKit.Chain.Vectors

/-!
# Balances

What an instruction costs. `Settles` lists, for each instruction, the moves that account for every
balance and the event that reports them. It holds of any ledger and of any accounts, however the
destination and the relayer coincide with each other or with the wallet's accounts.

The second half is about what is left. Only `transfer_sol` compares what it takes with the
rent-exempt minimum, so an instruction that pays a refund alone leaves the minimum exactly when the
vault covers both.
-/

namespace EnclaveKit

open Solana MachineInt Fallible TransitionSystem

/-! ## No subtraction underflows -/

section Overflow

variable {D : Deployment} {sysvars : Sysvars} {accounts : Accounts} {chain : Chain}

private theorem load_ne_overflow (previous : Option Instruction) :
    loadSecp256r1Payload previous ≠ .error .overflow := by
  simp [loadSecp256r1Payload, bind_eq_error, pure_ne_error, -bind_pure_comp]

private theorem verify_ne_overflow (wallet : SmartWallet) (auth : Authorization)
    (action : Encoding.Action) (bumps : Bumps) :
    verifyEnclaveAuthorization D sysvars wallet auth action bumps ≠ .error .overflow := by
  have hopen : ∀ pubkey, openWallet D wallet auth pubkey bumps ≠ .error .overflow := by
    intro pubkey
    rw [openWallet]
    split_ifs <;> simp [bind_eq_error, pure_ne_error, -bind_pure_comp]
  simp [verifyEnclaveAuthorization, bind_eq_error, pure_ne_error, load_ne_overflow, hopen,
    -bind_pure_comp]

private theorem liftSystem_ne_overflow {α : Type} (x : Except SystemError α) :
    liftSystem x ≠ .error .overflow := by
  cases x <;> simp [liftSystem]

private theorem pay_ne_overflow (wallet : SmartWallet) (vault dest : Pubkey) (lamports : UInt64) :
    transferFromVault D chain wallet vault dest lamports ≠ .error .overflow := by
  simp [transferFromVault, bind_eq_error, liftSystem_ne_overflow]

private theorem refund_ne_overflow (wallet : SmartWallet) (vault relayer : Pubkey)
    (fee cap : UInt64) :
    refundRelayer D chain wallet vault relayer fee cap ≠ .error .overflow := by
  simp [refundRelayer, bind_eq_error, pure_ne_error, pay_ne_overflow, -bind_pure_comp]

private theorem initialized_ne_overflow (walletId : WalletId) :
    accounts.initialized D walletId chain ≠ .error .overflow := by
  have hcreate : createAccount D chain accounts.relayer accounts.wallet ≠ .error .overflow := by
    simp only [createAccount, ne_eq, bind_eq_error, require_eq_error]
    split_ifs <;> simp [bind_eq_error, pure_ne_error, liftSystem_ne_overflow, -bind_pure_comp]
  have hinit : initIfNeeded D accounts walletId chain ≠ .error .overflow := by
    simp only [initIfNeeded, ne_eq, bind_eq_error, okOr_eq_error, require_eq_error]
    split <;> simp [bind_eq_error, pure_ne_error, hcreate, -bind_pure_comp]
  simp [Accounts.initialized, bind_eq_error, pure_ne_error, hinit, -bind_pure_comp]

private theorem loadWallet_ne_overflow : loadWallet accounts chain ≠ .error .overflow := by
  rw [loadWallet]
  split <;> try split_ifs
  all_goals simp

private theorem existing_ne_overflow (walletId : WalletId) :
    accounts.existing D walletId chain ≠ .error .overflow := by
  simp [Accounts.existing, bind_eq_error, pure_ne_error, loadWallet_ne_overflow, checkSeeds,
    -bind_pure_comp]

private theorem requireActiveKey_ne_overflow (wallet : SmartWallet) (signer : PublicKey) :
    requireActiveKey wallet signer ≠ .error .overflow := by
  simp [requireActiveKey]

/-- The sweep checks the refund against the balance before it subtracts. -/
private theorem sweep_ne_overflow (ctx : Context) (auth : Authorization) (dest : Pubkey)
    (relayerFee : UInt64) :
    SweepVault.sweep D sysvars accounts ctx auth dest relayerFee ≠ .error .overflow := by
  simp [SweepVault.sweep, bind_eq_error, pure_ne_error, verify_ne_overflow, pay_ne_overflow,
    refund_ne_overflow, requireActiveKey_ne_overflow, -bind_pure_comp]

/-- The closing takes no more than the balance for its refund. -/
private theorem close_ne_overflow (ctx : Context) (auth : Authorization) (dest : Pubkey)
    (relayerFee : UInt64) :
    CloseWallet.close D sysvars accounts ctx auth dest relayerFee ≠ .error .overflow := by
  simp [CloseWallet.close, bind_eq_error, pure_ne_error, verify_ne_overflow, pay_ne_overflow,
    requireActiveKey_ne_overflow, MachineInt.min_le_right, -bind_pure_comp]

private theorem propose_ne_overflow (ctx : Context) (auth : Authorization) (newKey : PublicKey)
    (relayerFee : UInt64) :
    ProposeRotation.propose D sysvars accounts ctx auth newKey relayerFee ≠ .error .overflow := by
  have hdecide : ∀ wallet signer,
      ProposeRotation.decide D sysvars wallet signer newKey ≠ .error .overflow := by
    intro wallet signer
    rw [ProposeRotation.decide]
    split_ifs <;> simp [bind_eq_error, pure_ne_error, -bind_pure_comp]
  simp [ProposeRotation.propose, bind_eq_error, pure_ne_error, verify_ne_overflow,
    refund_ne_overflow, hdecide, -bind_pure_comp]

/-- **The subtractions are safe.** Whatever the instruction, what it takes from a balance is
there. -/
theorem execute_ne_overflow (inv : Invocation) : execute D inv chain ≠ .error .overflow := by
  rw [execute]
  cases inv.call with
  | transferSol =>
    simp [bind_eq_error, pure_ne_error, initialized_ne_overflow, TransferSol.transfer,
      verify_ne_overflow, pay_ne_overflow, refund_ne_overflow, requireActiveKey_ne_overflow,
      -bind_pure_comp]
  | setGuardians =>
    simp [bind_eq_error, pure_ne_error, initialized_ne_overflow, SetGuardians.setGuardians,
      verify_ne_overflow, refund_ne_overflow, requireActiveKey_ne_overflow, -bind_pure_comp]
  | cancelRotation =>
    simp [bind_eq_error, pure_ne_error, existing_ne_overflow, CancelRotation.cancel,
      verify_ne_overflow, refund_ne_overflow, requireActiveKey_ne_overflow, -bind_pure_comp]
  | proposeRotation =>
    simp only [ne_eq, bind_eq_error, existing_ne_overflow, propose_ne_overflow, false_or]
    rintro ⟨ctx, -, out, -, h⟩
    cases hevent : out.event <;> rw [hevent] at h <;> exact pure_ne_error h
  | confirmRotation =>
    simp [bind_eq_error, pure_ne_error, Accounts.confirming, checkSeeds, ConfirmRotation.confirm,
      loadWallet_ne_overflow, -bind_pure_comp]
  | sweepVault =>
    simp [bind_eq_error, pure_ne_error, initialized_ne_overflow, sweep_ne_overflow,
      -bind_pure_comp]
  | closeWallet =>
    simp [bind_eq_error, pure_ne_error, Accounts.closing, existing_ne_overflow, close_ne_overflow,
      liftSystem_ne_overflow, -bind_pure_comp]

end Overflow

/-! ## What is paid -/

/-- The relayer's part: nothing where there is a wallet, what the account lacks where there is
none. -/
inductive Creation (D : Deployment) (inv : Invocation) (chain : Chain) : List Move → Prop where
  | found {wallet : SmartWallet} (holding : (chain inv.accounts.wallet).holding = .owned wallet) :
      Creation D inv chain []
  | created (mayCreate : inv.call.mayCreate = true)
      (holding : (chain inv.accounts.wallet).holding = .system) :
      Creation D inv chain [creationMove D inv.accounts chain]

/-- The moves of an instruction, and the event that reports them. -/
inductive Settles (D : Deployment) (inv : Invocation) (chain : Chain) :
    List Move → Event → Prop where
  | transferSol {auth : Authorization} {dest : Pubkey} {lamports relayerFee : UInt64}
      {creation : List Move} {walletId : WalletId}
      (call : inv.call = .transferSol auth dest lamports relayerFee)
      (creates : Creation D inv chain creation) :
      Settles D inv chain
        (creation ++ [vaultMove inv.accounts dest lamports,
          refundMove inv.accounts (min relayerFee auth.maxRelayerFee)])
        (.solTransferred ⟨walletId, dest, lamports, min relayerFee auth.maxRelayerFee⟩)
  | sweepVault {auth : Authorization} {dest : Pubkey} {lamports relayerFee : UInt64}
      {creation : List Move} {walletId : WalletId}
      (call : inv.call = .sweepVault auth dest relayerFee)
      (creates : Creation D inv chain creation)
      (whole : ((min relayerFee auth.maxRelayerFee).toNat + lamports.toNat : ℤ)
        = chain.balance inv.accounts.vault + netChange creation inv.accounts.vault) :
      Settles D inv chain
        (creation ++ [vaultMove inv.accounts dest lamports,
          refundMove inv.accounts (min relayerFee auth.maxRelayerFee)])
        (.vaultSwept ⟨walletId, dest, lamports, min relayerFee auth.maxRelayerFee⟩)
  | setGuardians {auth : Authorization} {guardians : Vector Guardian MAX_GUARDIANS}
      {relayerFee : UInt64} {creation : List Move} {walletId : WalletId}
      (call : inv.call = .setGuardians auth guardians relayerFee)
      (creates : Creation D inv chain creation) :
      Settles D inv chain
        (creation ++ [refundMove inv.accounts (min relayerFee auth.maxRelayerFee)])
        (.guardiansSet ⟨walletId, guardians⟩)
  | cancelRotation {auth : Authorization} {relayerFee : UInt64} {event : RotationCancelled}
      (call : inv.call = .cancelRotation auth relayerFee) :
      Settles D inv chain [refundMove inv.accounts (min relayerFee auth.maxRelayerFee)]
        (.rotationCancelled event)
  | proposeRotation {auth : Authorization} {newKey : PublicKey} {relayerFee : UInt64}
      {event : Event} (call : inv.call = .proposeRotation auth newKey relayerFee) :
      Settles D inv chain [refundMove inv.accounts (min relayerFee auth.maxRelayerFee)] event
  | confirmRotation {walletId : WalletId} {event : KeyRotated}
      (call : inv.call = .confirmRotation walletId) : Settles D inv chain [] (.keyRotated event)
  | closeWallet {auth : Authorization} {dest : Pubkey} {lamports relayerFee refund : UInt64}
      {rent : ℕ} {walletId : WalletId} (call : inv.call = .closeWallet auth dest relayerFee)
      (capped : refund.toNat = min (min relayerFee auth.maxRelayerFee).toNat
        (chain.balance inv.accounts.vault))
      (whole : refund.toNat + lamports.toNat = chain.balance inv.accounts.vault)
      (emptied : (rent : ℤ) = chain.balance inv.accounts.wallet
        + netChange [vaultMove inv.accounts dest lamports, refundMove inv.accounts refund]
          inv.accounts.wallet) :
      Settles D inv chain
        [vaultMove inv.accounts dest lamports, refundMove inv.accounts refund,
          ⟨inv.accounts.wallet, inv.accounts.relayer, rent⟩]
        (.walletClosed ⟨walletId, dest, lamports, refund⟩)

section Settles

variable {D : Deployment} {inv : Invocation} {chain chain' : Chain} {events : List Event}

theorem Loaded.creates {walletId : WalletId} {ctx : Context} {creation : List Move}
    (h : Loaded D inv.accounts walletId chain inv.call.mayCreate ctx creation) :
    Creation D inv chain creation := by
  generalize hcreate : inv.call.mayCreate = mayCreate at h
  cases h with
  | found holding => exact .found holding
  | created holding => exact .created hcreate holding

/-- The second family moves nothing before its handler. -/
theorem Loaded.eq_of_not_mayCreate {accounts : Accounts} {walletId : WalletId} {ctx : Context}
    {creation : List Move} (h : Loaded D accounts walletId chain false ctx creation) :
    ctx.chain = chain ∧ creation = [] := by
  cases h
  exact ⟨rfl, rfl⟩

/-- The effect of an instruction settles it. -/
theorem Enacts.settles {auth : Authorization} {walletId : WalletId} {ctx : Context}
    {creation moves : List Move} {wallet : SmartWallet} {signer : PublicKey}
    {after : Option SmartWallet} {event : Event}
    (h : Enacts D inv auth ctx.chain wallet signer after moves event)
    (hloaded : Loaded D inv.accounts walletId chain inv.call.mayCreate ctx creation) :
    Settles D inv chain (creation ++ moves) event := by
  have hcreates := hloaded.creates
  have hmoved := hloaded.moved inv.accounts.vault
  cases h with
  | transferSol call =>
    rw [call]
    exact .transferSol call hcreates
  | sweepVault call _ whole =>
    rw [call] at whole ⊢
    refine .sweepVault call hcreates ?_
    rw [← hmoved, whole]
    push_cast
    rfl
  | setGuardians call =>
    rw [call]
    exact .setGuardians call hcreates
  | cancelRotation call =>
    -- What must find its wallet pays for none.
    rw [call] at hloaded ⊢
    rw [hloaded.eq_of_not_mayCreate.2]
    exact .cancelRotation call
  | rotate call | propose call =>
    rw [call] at hloaded ⊢
    rw [hloaded.eq_of_not_mayCreate.2]
    exact .proposeRotation call
  | closeWallet call _ capped whole _ emptied =>
    rw [call] at hloaded capped
    obtain ⟨hchain, hnothing⟩ := hloaded.eq_of_not_mayCreate
    rw [hchain] at capped whole emptied
    rw [hnothing]
    exact .closeWallet call capped whole.symm emptied

/-- **Value is conserved, capped and reported.** The moves of an accepted instruction account for
every balance, and its last event reports them; and no instruction, accepted or not, subtracts more
than there is. -/
theorem value_conserved (D : Deployment) (inv : Invocation) (chain : Chain) :
    (∀ chain' events, execute D inv chain = .ok (chain', events) →
      ∃ ms event, events.getLast? = some event ∧ Settles D inv chain ms event ∧
        chain.Moved ms chain') ∧
    execute D inv chain ≠ .error .overflow := by
  refine ⟨fun chain' events h ↦ ?_, execute_ne_overflow inv⟩
  rcases effect_of_execute h with ⟨⟨h⟩⟩ | ⟨⟨h⟩⟩
  · have hlast : events.getLast? = some h.event :=
      (congrArg List.getLast? h.events_eq).trans List.getLast?_concat
    exact ⟨h.creation ++ h.moves, h.event, hlast, h.enacts.settles h.loaded, h.moved_all⟩
  · have hlast := congrArg List.getLast? h.events_eq
    refine ⟨[], _, hlast, .confirmRotation h.call, fun a ↦ ?_⟩
    rw [h.balance_eq, netChange_nil, add_zero]

end Settles

/-! ## What is left -/

/-- What a vault keeps to be rent-exempt. -/
def rentExempt (D : Deployment) : ℕ := (D.minimumBalance 0).toNat

/-- The instructions made to empty a vault. -/
def Call.empties : Call → Bool
  | sweepVault _ _ _ | closeWallet _ _ _ => true
  | _ => false

/-- An instruction that is not made to empty a vault leaves it rent-exempt. -/
def VaultsKeepRent (D : Deployment) : Prop :=
  ∀ (w : WalletId) (v : Pubkey) (chain chain' : Chain) (inv : Invocation) (events : List Event),
    DistinctAddresses D w → vaultAddress D w = some v → (system D).Reachable chain →
    Step D chain (.invoke inv events) chain' → inv.call.empties = false →
      rentExempt D ≤ chain.balance v → rentExempt D ≤ chain'.balance v

/-- **A refund empties a vault.** The proposal's refund is the whole balance. -/
theorem not_vaultsKeepRent : ¬VaultsKeepRent Vectors.deployment := by
  intro hclaim
  have hkept := hclaim Vectors.walletId Vectors.vault _ _ _ _
    (Vectors.deployment_distinctAddresses _) Vectors.vaultAddress_eq Vectors.guarded.reachable
    (Vectors.guarded.step Vectors.proposed Vectors.propose.sent rfl) rfl
    (by rw [Vectors.guarded.balance_eq]; decide)
  rw [Vectors.proposed.balance_eq] at hkept
  exact absurd hkept (by decide)

/-- The refund, when nothing but the refund is taken, leaves the minimum. Nothing is asked of a
transfer, which makes sure itself, and of a confirmation, which takes nothing. -/
inductive LeavesRent (D : Deployment) (balance : ℕ) : Call → Prop where
  | transferSol {auth : Authorization} {dest : Pubkey} {lamports relayerFee : UInt64} :
      LeavesRent D balance (.transferSol auth dest lamports relayerFee)
  | confirmRotation {walletId : WalletId} : LeavesRent D balance (.confirmRotation walletId)
  | refund {call : Call} {auth : Authorization} (authorization : call.authorization = some auth)
      (left : (refundOf call auth).toNat + rentExempt D ≤ balance) : LeavesRent D balance call

section Left

variable {D : Deployment} {w : WalletId} {v : Pubkey} {chain chain' : Chain}

theorem leavesRent_iff {call : Call} {auth : Authorization} {balance : ℕ}
    (hauth : call.authorization = some auth)
    (hcall : ∀ auth dest lamports relayerFee, call ≠ .transferSol auth dest lamports relayerFee) :
    LeavesRent D balance call ↔ (refundOf call auth).toNat + rentExempt D ≤ balance := by
  refine ⟨fun h ↦ ?_, fun h ↦ .refund hauth h⟩
  cases h with
  | transferSol => exact absurd rfl (hcall _ _ _ _)
  | confirmRotation => cases hauth
  | refund authorization left =>
    rw [hauth] at authorization
    cases authorization
    exact left

/-- What an effect leaves in the vault it is paid from. -/
theorem Enacts.keepsRent_iff {inv : Invocation} {auth : Authorization} {ctx : Context}
    {wallet : SmartWallet} {signer : PublicKey} {after : Option SmartWallet} {moves : List Move}
    {event : Event} (h : Enacts D inv auth ctx.chain wallet signer after moves event)
    (hown : OwnVault D inv chain ctx v) (hother : inv.call.empties = false)
    (hmoved : (chain'.balance v : ℤ) = ctx.chain.balance v + netChange moves v) :
    rentExempt D ≤ chain'.balance v ↔ LeavesRent D (chain.balance v) inv.call := by
  have hbalance := hown.balance_eq
  rw [← hown.vault_eq] at hbalance
  rw [hbalance] at hmoved
  have hrefund := net_refundMove hown.ne_relayer (refundOf inv.call auth)
  rw [← hown.vault_eq] at hrefund
  cases h with
  | @transferSol dest lamports relayerFee call _ covered =>
    have hcap : (refundOf inv.call auth).toNat ≤ auth.maxRelayerFee.toNat := by
      rw [refundOf, toNat_min]
      exact Nat.min_le_right _ _
    have hpaid := net_vaultMove inv.accounts dest lamports
    rw [← hown.vault_eq] at hpaid covered
    rw [netChange_cons, netChange_cons, netChange_nil, hrefund, hpaid] at hmoved
    refine iff_of_true ?_ (by rw [call]; exact .transferSol)
    rw [rentExempt]
    split_ifs at hmoved <;> omega
  | sweepVault call | closeWallet call =>
    rw [call] at hother
    cases hother
  | setGuardians call | cancelRotation call | rotate call | propose call =>
    rw [netChange_cons, netChange_nil, hrefund] at hmoved
    rw [leavesRent_iff (by rw [call]; rfl) (by simp [call])]
    omega

/-- **Refunds and rent.** An instruction of a wallet that is not made to empty its vault leaves the
minimum in it exactly when it is a transfer, a confirmation, or takes a refund the vault covers
besides the minimum. -/
theorem Step.keepsRent_iff {inv : Invocation} {events : List Event}
    (hdist : DistinctAddresses D w) (hv : vaultAddress D w = some v) (hinv : Invariant D chain)
    (h : Step D chain (.invoke inv events) chain') (hw : inv.call.walletId = w)
    (hother : inv.call.empties = false) (hrent : rentExempt D ≤ chain.balance v) :
    rentExempt D ≤ chain'.balance v ↔ LeavesRent D (chain.balance v) inv.call := by
  cases h with
  | invoke admitted accepted =>
    rcases effect_of_execute accepted with ⟨⟨h⟩⟩ | ⟨⟨h⟩⟩
    · have hown := h.ownVault admitted hinv hdist hv hw
      exact h.enacts.keepsRent_iff hown hother (h.moved v)
    · rw [h.balance_eq]
      exact iff_of_true hrent (by rw [h.call]; exact .confirmRotation)

/-- The steps after which vault `v` of wallet `w` keeps its rent: all but those of its own
instructions that empty it, or whose refund does. -/
def keepsRent (D : Deployment) (w : WalletId) (v : Pubkey) (chain : Chain) : Label → Prop
  | .invoke inv _ => inv.call.walletId = w →
    inv.call.empties = false ∧ LeavesRent D (chain.balance v) inv.call
  | .external => True

/-- **When only `sweep_vault` and `close_wallet` empty a vault.** Of one instruction, exactly when
its refund leaves the minimum; of a run, when the refund of each of its instructions does. -/
theorem vault_keepsRent (hzero : NoZeroKey D) (hdist : DistinctAddresses D w)
    (hv : vaultAddress D w = some v) (hreach : (system D).Reachable chain)
    (hrent : rentExempt D ≤ chain.balance v) :
    (∀ inv events chain', Step D chain (.invoke inv events) chain' → inv.call.walletId = w →
      inv.call.empties = false →
        (rentExempt D ≤ chain'.balance v ↔ LeavesRent D (chain.balance v) inv.call)) ∧
    ∀ tr chain', ((system D).only (keepsRent D w v)).Run chain tr chain' →
      rentExempt D ≤ chain'.balance v := by
  refine ⟨fun inv events chain' hstep hw hother ↦ hstep.keepsRent_iff hdist hv
    (invariant_of_reachable hzero hreach) hw hother hrent, fun tr chain' hrun ↦ ?_⟩
  induction hrun with
  | nil => exact hrent
  | @snoc tr s s' label run last ih =>
    have hinv := invariant_of_reachable hzero (hreach.trans run.of_only)
    obtain ⟨hkeeps, hstep⟩ := last
    by_cases hw : label.walletId = some w
    · cases label with
      | external => cases hw
      | invoke inv events =>
        have hid : inv.call.walletId = w := by simpa [Label.walletId] using hw
        obtain ⟨hother, hleaves⟩ := hkeeps hid
        exact (Step.keepsRent_iff hdist hv hinv hstep hid hother ih).mpr hleaves
    · exact ih.trans (Step.vault_le hstep hdist hv hw)

end Left

/-- The proposal that empties the vault is one whose refund does not leave the minimum. -/
theorem vault_keepsRent_propose :
    rentExempt Vectors.deployment ≤ Vectors.proposed.chain.balance Vectors.vault ↔
      LeavesRent Vectors.deployment (Vectors.guarded.chain.balance Vectors.vault)
        Vectors.propose.sent.call := by
  have hrent : rentExempt Vectors.deployment ≤ Vectors.guarded.chain.balance Vectors.vault := by
    rw [Vectors.guarded.balance_eq]
    decide
  obtain ⟨hstep, -⟩ := vault_keepsRent Vectors.deployment_noZeroKey
    (Vectors.deployment_distinctAddresses _) Vectors.vaultAddress_eq Vectors.guarded.reachable hrent
  exact hstep _ _ _ (Vectors.guarded.step Vectors.proposed Vectors.propose.sent rfl) rfl rfl

end EnclaveKit
