import EnclaveKit.Properties.Balances

/-!
# What the relayer asks of a transfer

`transfer_sol` compares the balance with the cap the user signed, and pays the refund the relayer
asks for up to it. So the relayer's argument, which nobody signs, decides nothing but the refund:
not whether the transfer is accepted, not what the wallet becomes, not what reaches the destination.

The comparison is a chain of two checked additions. It refuses exactly the transfers that do not fit
over the unbounded integers, because a sum that does not fit in a word does not fit in a balance.
-/

namespace EnclaveKit

open Solana MachineInt Fallible

/-- The instruction, for what the relayer asks. -/
def TransferSol.asking (accounts : Accounts) (sysvars : Sysvars) (auth : Authorization)
    (dest : Pubkey) (lamports relayerFee : UInt64) : Invocation where
  call := .transferSol auth dest lamports relayerFee
  accounts := accounts
  sysvars := sysvars

/-- A transfer that passes every check but that of the balance: those of its accounts, verification,
the active key, and the vault's seeds. None of them is told what the relayer asks. -/
structure TransferSol.OtherwiseValid (D : Deployment) (accounts : Accounts) (sysvars : Sysvars)
    (chain : Chain) (auth : Authorization) (dest : Pubkey) (lamports : UInt64) (ctx : Context)
    (spent : SmartWallet) (signer : PublicKey) : Prop where
  accounts_ok : accounts.initialized D auth.walletId chain = .ok ctx
  verified : verifyEnclaveAuthorization D sysvars ctx.wallet auth (.transferSol dest lamports)
    ctx.bumps = .ok (spent, signer)
  owner : requireActiveKey spent signer = .ok ()
  seeds : D.createProgramAddress [VAULT_SEED, spent.walletId.toList, [spent.vaultBump]] ID
    = some accounts.vault

namespace TransferSol

variable {D : Deployment} {accounts : Accounts} {sysvars : Sysvars} {chain : Chain}
  {auth : Authorization} {dest : Pubkey} {lamports : UInt64} {ctx : Context}
  {spent : SmartWallet} {signer : PublicKey}

/-- What is paid, the refund last. -/
def payments (accounts : Accounts) (dest : Pubkey) (lamports refund : UInt64) : List Move :=
  [vaultMove accounts dest lamports, refundMove accounts refund]

/-- What a transfer leaves that pays `refund`, after the moves `creation` of making the account and
the events `opening` that report it: the amount is with the destination and the refund with the
relayer, both out of the vault, which keeps the minimum; the wallet is stored with its nonce spent,
and no other account has another owner or state. -/
structure Result (D : Deployment) (accounts : Accounts) (chain : Chain) (creation : List Move)
    (opening : List Event) (spent : SmartWallet) (dest : Pubkey) (lamports refund : UInt64)
    (chain' : Chain) (events : List Event) : Prop where
  moved : chain.Moved (creation ++ payments accounts dest lamports refund) chain'
  stored_eq : (chain' accounts.wallet).holding = .owned spent
  others : ∀ a, a ≠ accounts.wallet → (chain' a).holding = (chain a).holding
  left : rentExempt D ≤ chain'.balance accounts.vault
  events_eq : events = opening ++ [.solTransferred ⟨spent.walletId, dest, lamports, refund⟩]

/-- Between the two ledgers there is nothing but the refund, moved between vault and relayer. -/
structure DifferByRefund (accounts : Accounts) (refund₁ refund₂ : UInt64) (chain₁ chain₂ : Chain) :
    Prop where
  others : ∀ a, a ≠ accounts.vault → a ≠ accounts.relayer → chain₂ a = chain₁ a
  holding : ∀ a, (chain₂ a).holding = (chain₁ a).holding
  vault : chain₂.balance accounts.vault + refund₂.toNat
    = chain₁.balance accounts.vault + refund₁.toNat
  relayer : chain₂.balance accounts.relayer + refund₁.toNat
    = chain₁.balance accounts.relayer + refund₂.toNat

/-- **Two transfers that differ in the refund** leave ledgers that differ in the refund. -/
theorem Result.differ {creation : List Move} {opening : List Event} {refund₁ refund₂ : UInt64}
    {chain₁ chain₂ : Chain} {events₁ events₂ : List Event}
    (h₁ : Result D accounts chain creation opening spent dest lamports refund₁ chain₁ events₁)
    (h₂ : Result D accounts chain creation opening spent dest lamports refund₂ chain₂ events₂)
    (hne : accounts.vault ≠ accounts.relayer) :
    DifferByRefund accounts refund₁ refund₂ chain₁ chain₂ := by
  have hholding : ∀ a, (chain₂ a).holding = (chain₁ a).holding := by
    intro a
    by_cases ha : a = accounts.wallet
    · rw [ha, h₁.stored_eq, h₂.stored_eq]
    · rw [h₁.others a ha, h₂.others a ha]
  -- Creation and payment are the same move for move, so they cancel.
  have hbalance : ∀ a, (chain₂.balance a : ℤ) - (refundMove accounts refund₂).net a
      = chain₁.balance a - (refundMove accounts refund₁).net a := by
    intro a
    have hmoved₁ := h₁.moved a
    have hmoved₂ := h₂.moved a
    rw [payments, netChange_append, netChange_cons, netChange_cons, netChange_nil]
      at hmoved₁ hmoved₂
    omega
  constructor
  · intro a hvault hrelayer
    refine Ledger.account_eq ?_ (hholding a)
    have hnet : ∀ refund, (refundMove accounts refund).net a = 0 := by
      intro refund
      rw [refundMove, vaultMove, Move.net, if_neg hrelayer, if_neg hvault, sub_zero]
    have ha := hbalance a
    rw [hnet, hnet] at ha
    omega
  · exact hholding
  · have hvault := hbalance accounts.vault
    rw [net_refundMove hne, net_refundMove hne] at hvault
    omega
  · have hrelayer := hbalance accounts.relayer
    rw [net_refundMove_relayer hne.symm, net_refundMove_relayer hne.symm] at hrelayer
    omega

section OtherwiseValid

variable (h : OtherwiseValid D accounts sysvars chain auth dest lamports ctx spent signer)
  (hdist : DistinctAddresses D auth.walletId) (hrelayer : ¬D.IsDerived ID accounts.relayer)

include h

include hrelayer in
/-- The relayer signs, and a vault does not. -/
theorem OtherwiseValid.vault_ne_relayer : accounts.vault ≠ accounts.relayer := by
  obtain ⟨_, hloaded⟩ := loaded_of_initialized h.accounts_ok
  intro heq
  rw [← heq] at hrelayer
  exact hrelayer ⟨_, hloaded.vaultSeeds⟩

include hdist

/-- A vault is no state account. -/
theorem OtherwiseValid.vault_ne_wallet : accounts.vault ≠ accounts.wallet := by
  obtain ⟨_, hloaded⟩ := loaded_of_initialized h.accounts_ok
  intro heq
  have hwallet := hloaded.walletSeeds
  rw [← heq] at hwallet
  have hseed := (hdist _ (by simp) _ (by simp) _ _ _ _ hloaded.vaultSeeds hwallet).1
  exact absurd hseed (by decide)

include hrelayer

/-- Making the account takes nothing from the vault. -/
theorem OtherwiseValid.balance_eq :
    ctx.chain.balance accounts.vault = chain.balance accounts.vault := by
  obtain ⟨creation, hloaded⟩ := loaded_of_initialized h.accounts_ok
  have hmoved := hloaded.moved accounts.vault
  rw [hloaded.netChange_eq_zero (h.vault_ne_relayer hrelayer) (h.vault_ne_wallet hdist)] at hmoved
  omega

/-- **Enough for any refund.** -/
theorem OtherwiseValid.enabled (hfits : chain.SupplyFits)
    (hcovered : lamports.toNat + auth.maxRelayerFee.toNat + (D.minimumBalance 0).toNat
      ≤ chain.balance accounts.vault) (relayerFee : UInt64) :
    Enabled D (asking accounts sysvars auth dest lamports relayerFee) chain ctx auth
      (.transferSol dest lamports) spent signer (some spent)
      (payments accounts dest lamports (min relayerFee auth.maxRelayerFee))
      (.solTransferred
        ⟨spent.walletId, dest, lamports, min relayerFee auth.maxRelayerFee⟩) := by
  obtain ⟨creation, hloaded⟩ := loaded_of_initialized h.accounts_ok
  rw [← h.balance_eq hdist hrelayer] at hcovered
  exact {
    call_action := rfl
    loads := h.accounts_ok
    verified := verifyEnclaveAuthorization_eq_ok.mp h.verified
    enacts := .transferSol rfl (requireActiveKey_eq_ok.mp h.owner) hcovered
    seeds := h.seeds
    system := (hloaded.holding_of_ne (h.vault_ne_wallet hdist)).trans
      (system_of_initialized h.accounts_ok)
    fits := fun _ ↦ hloaded.moved.supplyFits hfits }

/-- **What is accepted fits.** -/
theorem OtherwiseValid.covered {chain' : Chain} {events : List Event} {relayerFee : UInt64}
    (haccepted : execute D (asking accounts sysvars auth dest lamports relayerFee) chain
      = .ok (chain', events)) :
    lamports.toNat + auth.maxRelayerFee.toNat + (D.minimumBalance 0).toNat
      ≤ chain.balance accounts.vault := by
  rcases executed_of_execute haccepted with ⟨⟨hexecuted⟩⟩ | ⟨⟨hconfirmed⟩⟩
  · have hctx : hexecuted.ctx = ctx :=
      Except.ok.inj (hexecuted.loads.symm.trans h.accounts_ok)
    rw [← h.balance_eq hdist hrelayer, ← hctx]
    exact (hexecuted.enacts.of_transferSol rfl).2
  · cases hconfirmed.call

/-- **What a transfer that fits does**, whatever is asked. -/
theorem OtherwiseValid.executes {creation : List Move} (hfits : chain.SupplyFits)
    (hcovered : lamports.toNat + auth.maxRelayerFee.toNat + (D.minimumBalance 0).toNat
      ≤ chain.balance accounts.vault)
    (hloaded : Loaded D accounts auth.walletId chain true ctx creation) (relayerFee : UInt64) :
    ∃ chain' events, execute D (asking accounts sysvars auth dest lamports relayerFee) chain
        = .ok (chain', events) ∧
      Result D accounts chain creation (createdEvents ctx.wallet.isNew auth.walletId spent) spent
        dest lamports (min relayerFee auth.maxRelayerFee) chain' events := by
  obtain ⟨chain', haccepted, hmoved, hholding⟩ :=
    (h.enabled hdist hrelayer hfits hcovered relayerFee).execute
  have hwritten : ∀ a, (chain' a).holding
      = if a = accounts.wallet then .owned spent else (ctx.chain a).holding := hholding
  refine ⟨chain', _, haccepted, hloaded.moved.trans hmoved, ?_, fun a ha ↦ ?_, ?_, rfl⟩
  · rw [hwritten, if_pos rfl]
  · rw [hwritten, if_neg ha, hloaded.holding_of_ne ha]
  · have hcap : (min relayerFee auth.maxRelayerFee).toNat ≤ auth.maxRelayerFee.toNat := by
      rw [toNat_min]
      exact Nat.min_le_right _ _
    have hleft := hmoved accounts.vault
    rw [payments, netChange_cons, netChange_cons, netChange_nil, refundMove, net_vaultMove,
      net_vaultMove, h.balance_eq hdist hrelayer] at hleft
    rw [rentExempt]
    split_ifs at hleft <;> omega

end OtherwiseValid

/-- What is accepted passes the other checks too. -/
theorem otherwiseValid_of_execute {chain' : Chain} {events : List Event} {relayerFee : UInt64}
    (h : execute D (asking accounts sysvars auth dest lamports relayerFee) chain
      = .ok (chain', events)) :
    ∃ ctx spent signer,
      OtherwiseValid D accounts sysvars chain auth dest lamports ctx spent signer := by
  rcases executed_of_execute h with ⟨⟨h⟩⟩ | ⟨⟨h⟩⟩
  · have hauth : h.auth = auth := (Option.some_inj.mp h.call_authorization).symm
    have haction : h.action = .transferSol dest lamports := (Option.some_inj.mp h.call_action).symm
    have hverified := h.verified
    rw [hauth, haction] at hverified
    exact ⟨h.ctx, h.spent, h.signer, h.loads, verifyEnclaveAuthorization_eq_ok.mpr hverified,
      requireActiveKey_eq_ok.mpr (h.enacts.of_transferSol rfl).1, h.seeds⟩
  · cases h.call

end TransferSol

open TransferSol in
/-- **Whatever the relayer asks, the transfer fits.** An otherwise valid transfer is accepted
exactly when the amount, the cap and the rent-exempt minimum together are no more than the vault
holds. For any two refunds asked both are accepted or both refused. Both store the same wallet, send
the same amount from the vault to the destination and leave the minimum in the vault; what they
leave differs by the refund moved between vault and relayer, and in nothing else. -/
theorem transfer_fits {D : Deployment} {accounts : Accounts} {sysvars : Sysvars} {chain : Chain}
    {auth : Authorization} {dest : Pubkey} {lamports : UInt64} {ctx : Context} {spent : SmartWallet}
    {signer : PublicKey} (hdist : DistinctAddresses D auth.walletId)
    (hrelayer : ¬D.IsDerived ID accounts.relayer) (hfits : chain.SupplyFits)
    (h : OtherwiseValid D accounts sysvars chain auth dest lamports ctx spent signer) :
    (∀ relayerFee,
      accepts D chain (asking accounts sysvars auth dest lamports relayerFee) = true ↔
        lamports.toNat + auth.maxRelayerFee.toNat + (D.minimumBalance 0).toNat
          ≤ chain.balance accounts.vault) ∧
    ∀ relayerFee₁ relayerFee₂ chain₁ events₁,
      execute D (asking accounts sysvars auth dest lamports relayerFee₁) chain
        = .ok (chain₁, events₁) →
      ∃ chain₂ events₂ creation,
        execute D (asking accounts sysvars auth dest lamports relayerFee₂) chain
          = .ok (chain₂, events₂) ∧
        Creation D (asking accounts sysvars auth dest lamports relayerFee₁) chain creation ∧
        Result D accounts chain creation (createdEvents ctx.wallet.isNew auth.walletId spent) spent
          dest lamports (min relayerFee₁ auth.maxRelayerFee) chain₁ events₁ ∧
        Result D accounts chain creation (createdEvents ctx.wallet.isNew auth.walletId spent) spent
          dest lamports (min relayerFee₂ auth.maxRelayerFee) chain₂ events₂ ∧
        DifferByRefund accounts (min relayerFee₁ auth.maxRelayerFee)
          (min relayerFee₂ auth.maxRelayerFee) chain₁ chain₂ := by
  refine ⟨fun relayerFee ↦ ⟨fun haccepts ↦ ?_, fun hcovered ↦ ?_⟩, ?_⟩
  · exact h.covered hdist hrelayer (execute_of_accepts haccepts)
  · obtain ⟨creation, hloaded⟩ := loaded_of_initialized h.accounts_ok
    obtain ⟨chain', events, haccepted, -⟩ :=
      h.executes hdist hrelayer hfits hcovered hloaded relayerFee
    rw [accepts, haccepted]
  · intro relayerFee₁ relayerFee₂ chain₁ events₁ haccepted
    have hcovered := h.covered hdist hrelayer haccepted
    obtain ⟨creation, hloaded⟩ := loaded_of_initialized h.accounts_ok
    obtain ⟨chain₁', events₁', haccepted₁, hresult₁⟩ :=
      h.executes hdist hrelayer hfits hcovered hloaded relayerFee₁
    obtain ⟨chain₂, events₂, haccepted₂, hresult₂⟩ :=
      h.executes hdist hrelayer hfits hcovered hloaded relayerFee₂
    cases haccepted.symm.trans haccepted₁
    exact ⟨chain₂, events₂, creation, haccepted₂, hloaded.creates, hresult₁, hresult₂,
      hresult₁.differ hresult₂ (h.vault_ne_relayer hrelayer)⟩

/-- The transfer of the vectors, by a relayer that asks for everything. -/
theorem transfer_fits_greedy : accepts Vectors.deployment Vectors.genesis
    (TransferSol.asking Vectors.accounts Vectors.transfer.sent.sysvars (Vectors.header 0 10000)
      Vectors.dest 100000000 18446744073709551615) = true := by
  have hexecute := Vectors.start.execute_eq Vectors.transferred Vectors.transfer.sent rfl
  obtain ⟨_, _, _, hvalid⟩ := TransferSol.otherwiseValid_of_execute hexecute
  obtain ⟨haccepts, -⟩ := transfer_fits (Vectors.deployment_distinctAddresses _)
    (Tables.not_isDerived Vectors.relayer_not_derived) Vectors.genesis_supplyFits hvalid
  exact (haccepts _).mpr (by decide)

end EnclaveKit
