import EnclaveKit.Program.Effect
import EnclaveKit.Solana.Supply

/-!
# When an instruction is accepted

The converse of `executed_of_execute`. `Enabled` collects what a signed instruction needs: its
account checks pass, what was signed is verified, its effect has a rule, and the vault is an account
of System for which the program can sign. Then nothing is left to fail. The checked additions do not
overflow, because the rule compares over the unbounded integers what the handler compares over
words, and the transfers have the lamports they take. They also need the room in the destination,
which is assumed of the supply where anything is moved at all.

`confirm_rotation` moves nothing and is signed by nobody, and is told by an equivalence.
-/

namespace EnclaveKit

open Solana MachineInt Fallible

/-! ## Payments that do not fail -/

section Payments

variable {D : Deployment} {wallet : SmartWallet} {chain : Chain} {vault : Pubkey}
  {lamports : UInt64} (dest : Pubkey)

/-- The converse of `paid_of_transferFromVault`. -/
theorem exists_paid
    (hseeds : D.createProgramAddress [VAULT_SEED, wallet.walletId.toList, [wallet.vaultBump]] ID
      = some vault)
    (hsystem : (chain vault).holding = .system) (hcovered : lamports.toNat ≤ chain.balance vault)
    (hfits : lamports ≠ 0 → chain.SupplyFits) :
    ∃ after, transferFromVault D chain wallet vault dest lamports = .ok after ∧
      Paid D wallet chain vault dest lamports after := by
  obtain ⟨after, htransfer⟩ := Ledger.transfer_of_covered dest hsystem hcovered hfits
  have hpays : transferFromVault D chain wallet vault dest lamports = .ok after := by
    simp only [transferFromVault, bind_eq_ok, require_eq_ok, exists_const, liftSystem_eq_ok]
    exact ⟨hseeds, htransfer⟩
  exact ⟨after, hpays, paid_of_transferFromVault hpays⟩

theorem exists_refunded {relayerFee maxRelayerFee : UInt64}
    (hseeds : D.createProgramAddress [VAULT_SEED, wallet.walletId.toList, [wallet.vaultBump]] ID
      = some vault)
    (hsystem : (chain vault).holding = .system)
    (hcovered : (min relayerFee maxRelayerFee).toNat ≤ chain.balance vault)
    (hfits : min relayerFee maxRelayerFee ≠ 0 → chain.SupplyFits) :
    ∃ after, refundRelayer D chain wallet vault dest relayerFee maxRelayerFee
        = .ok (after, min relayerFee maxRelayerFee) ∧
      Paid D wallet chain vault dest (min relayerFee maxRelayerFee) after := by
  obtain ⟨after, hpays, hpaid⟩ := exists_paid dest hseeds hsystem hcovered hfits
  refine ⟨after, ?_, hpaid⟩
  simp only [refundRelayer, bind_eq_ok, pure_eq_ok]
  exact ⟨after, hpays, rfl⟩

/-- A payment leaves the rest, wherever it goes. -/
theorem Paid.le_balance {dest : Pubkey} {after : Chain}
    (h : Paid D wallet chain vault dest lamports after) :
    chain.balance vault ≤ lamports.toNat + after.balance vault := by
  have hmoved := h.moved vault
  rw [netChange_cons, netChange_nil, Move.net, if_pos rfl] at hmoved
  dsimp only at hmoved
  split_ifs at hmoved <;> omega

end Payments

/-! ## What an instruction needs -/

/-- All that a signed instruction needs to be accepted, and what it then does. -/
structure Enabled (D : Deployment) (inv : Invocation) (chain : Chain) (ctx : Context)
    (auth : Authorization) (action : Encoding.Action) (spent : SmartWallet) (signer : PublicKey)
    (after : Option SmartWallet) (moves : List Move) (event : Event) : Prop where
  call_action : inv.call.action = some action
  loads : Loads D inv chain ctx
  verified : Verified D inv.sysvars ctx.wallet auth action ctx.bumps spent signer
  enacts : Enacts D inv auth ctx.chain spent signer after moves event
  seeds : D.createProgramAddress [VAULT_SEED, spent.walletId.toList, [spent.vaultBump]] ID
    = some inv.accounts.vault
  system : (ctx.chain inv.accounts.vault).holding = .system
  fits : (∃ m ∈ moves, m.lamports ≠ 0) → ctx.chain.SupplyFits

/-! ## The handlers, one at a time -/

section Handlers

variable {D : Deployment} {inv : Invocation} {chain : Chain} {ctx : Context}
  {auth : Authorization} {action : Encoding.Action} {spent : SmartWallet} {signer : PublicKey}
  {after : Option SmartWallet} {moves : List Move} {event : Event}

/-- A handler that leaves `wallet` and the event `e`, and moves lamports. -/
private def Handles {ε : Type} (result : Except Error (Outcome ε)) (chain : Chain)
    (wallet : SmartWallet) (moves : List Move) (e : ε) : Prop :=
  ∃ after, result = .ok ⟨wallet, after, e⟩ ∧ chain.Moved moves after ∧
    ∀ a, (after a).holding = (chain a).holding

/-- The refund that ends every handler but one. -/
private theorem Enabled.refunded (h : Enabled D inv chain ctx auth action spent signer after
      [refundMove inv.accounts (refundOf inv.call auth)] event)
    (hcovered : (refundOf inv.call auth).toNat ≤ ctx.chain.balance inv.accounts.vault)
    (wallet : SmartWallet) (hid : wallet.walletId = spent.walletId)
    (hbump : wallet.vaultBump = spent.vaultBump) :
    ∃ refunded, refundRelayer D ctx.chain wallet inv.accounts.vault inv.accounts.relayer
        inv.call.relayerFee auth.maxRelayerFee = .ok (refunded, refundOf inv.call auth) ∧
      ctx.chain.Moved [refundMove inv.accounts (refundOf inv.call auth)] refunded ∧
      ∀ a, (refunded a).holding = (ctx.chain a).holding := by
  have hseeds := h.seeds
  rw [← hid, ← hbump] at hseeds
  obtain ⟨refunded, hrefund, hpaid⟩ := exists_refunded inv.accounts.relayer hseeds
    h.system hcovered fun hne ↦ h.fits ⟨_, List.mem_singleton_self _, fun hzero ↦
      hne (UInt64.toNat_inj.mp hzero)⟩
  exact ⟨refunded, hrefund, hpaid.moved, hpaid.holding⟩

/-- The two payments of a handler that empties the vault or transfers. -/
private theorem Enabled.paid {dest : Pubkey} {lamports refund : UInt64} {rest : List Move}
    (h : Enabled D inv chain ctx auth action spent signer after
      (vaultMove inv.accounts dest lamports :: refundMove inv.accounts refund :: rest) event)
    (hcovered : lamports.toNat + refund.toNat ≤ ctx.chain.balance inv.accounts.vault) :
    ∃ paid refunded,
      transferFromVault D ctx.chain spent inv.accounts.vault dest lamports = .ok paid ∧
      transferFromVault D paid spent inv.accounts.vault inv.accounts.relayer refund
        = .ok refunded ∧
      ctx.chain.Moved [vaultMove inv.accounts dest lamports, refundMove inv.accounts refund]
        refunded ∧
      ∀ a, (refunded a).holding = (ctx.chain a).holding := by
  have hfits : ∀ lamports' : UInt64, lamports' = lamports ∨ lamports' = refund →
      lamports' ≠ 0 → ctx.chain.SupplyFits := by
    rintro lamports' (rfl | rfl) hne
    · exact h.fits ⟨_, List.mem_cons_self, fun hzero ↦ hne (UInt64.toNat_inj.mp hzero)⟩
    · exact h.fits ⟨_, List.mem_cons_of_mem _ List.mem_cons_self, fun hzero ↦
        hne (UInt64.toNat_inj.mp hzero)⟩
  have hfirst : lamports.toNat ≤ ctx.chain.balance inv.accounts.vault := by omega
  obtain ⟨paid, hpays, hpaid⟩ := exists_paid dest h.seeds h.system hfirst (hfits _ (.inl rfl))
  -- The second payment finds what the first has left, wherever the first went.
  have hleft := hpaid.le_balance
  have hsecond : refund.toNat ≤ paid.balance inv.accounts.vault := by omega
  have hsystem := (hpaid.holding inv.accounts.vault).trans h.system
  obtain ⟨refunded, hrefunds, hrefunded⟩ := exists_paid inv.accounts.relayer h.seeds hsystem
    hsecond fun hne ↦ hpaid.moved.supplyFits (hfits _ (.inr rfl) hne)
  exact ⟨paid, refunded, hpays, hrefunds, hpaid.moved.trans hrefunded.moved,
    fun a ↦ (hrefunded.holding a).trans (hpaid.holding a)⟩

private theorem handles_transfer {dest : Pubkey} {lamports relayerFee : UInt64}
    (h : Enabled D inv chain ctx auth action spent signer after
      [vaultMove inv.accounts dest lamports, refundMove inv.accounts (refundOf inv.call auth)]
      event)
    (call : inv.call = .transferSol auth dest lamports relayerFee)
    (owner : signer = spent.activeKey)
    (covered : lamports.toNat + auth.maxRelayerFee.toNat + (D.minimumBalance 0).toNat
      ≤ ctx.chain.balance inv.accounts.vault) :
    Handles (TransferSol.transfer D inv.sysvars inv.accounts ctx auth dest lamports relayerFee)
      ctx.chain spent
      [vaultMove inv.accounts dest lamports, refundMove inv.accounts (refundOf inv.call auth)]
      ⟨spent.walletId, dest, lamports, refundOf inv.call auth⟩ := by
  have hcap : (refundOf inv.call auth).toNat ≤ auth.maxRelayerFee.toNat := by
    rw [refundOf, toNat_min]
    exact Nat.min_le_right _ _
  have hword : ctx.chain.balance inv.accounts.vault < 2 ^ 64 := UInt64.toNat_lt _
  obtain ⟨paid, refunded, hpays, hrefunds, hmoved, hholding⟩ := h.paid (by omega)
  obtain ⟨sum, hsum⟩ : ∃ sum, checkedAdd lamports auth.maxRelayerFee = some sum := by
    rw [← Option.ne_none_iff_exists', ne_eq, checkedAdd_eq_none]
    omega
  obtain ⟨required, hrequired⟩ :
      ∃ required, checkedAdd sum (D.minimumBalance 0) = some required := by
    rw [checkedAdd_eq_some] at hsum
    rw [← Option.ne_none_iff_exists', ne_eq, checkedAdd_eq_none]
    omega
  have haction := h.call_action
  rw [call] at haction
  obtain rfl := Option.some_inj.mp haction
  have hfee : min relayerFee auth.maxRelayerFee = refundOf inv.call auth := by rw [call]; rfl
  refine ⟨refunded, ?_, hmoved, hholding⟩
  simp only [TransferSol.transfer, refundRelayer, bind_eq_ok, requireActiveKey_eq_ok, exists_const,
    okOr_eq_ok, require_eq_ok, pure_eq_ok, hfee]
  refine ⟨(spent, signer), verifyEnclaveAuthorization_eq_ok.mpr h.verified, owner, required, ?_, ?_,
    paid, hpays, _, ⟨refunded, hrefunds, rfl⟩, rfl⟩
  · simp only [Option.bind_eq_bind, hsum, Option.bind_some, hrequired]
  · rw [checkedAdd_eq_some] at hsum hrequired
    rw [UInt64.le_iff_toNat_le]
    rw [Ledger.balance] at covered
    omega

private theorem handles_sweep {dest : Pubkey} {lamports relayerFee : UInt64}
    (h : Enabled D inv chain ctx auth action spent signer after
      [vaultMove inv.accounts dest lamports, refundMove inv.accounts (refundOf inv.call auth)]
      event)
    (call : inv.call = .sweepVault auth dest relayerFee) (owner : signer = spent.activeKey)
    (whole : ctx.chain.balance inv.accounts.vault
      = (refundOf inv.call auth).toNat + lamports.toNat) :
    Handles (SweepVault.sweep D inv.sysvars inv.accounts ctx auth dest relayerFee) ctx.chain spent
      [vaultMove inv.accounts dest lamports, refundMove inv.accounts (refundOf inv.call auth)]
      ⟨spent.walletId, dest, lamports, refundOf inv.call auth⟩ := by
  obtain ⟨paid, refunded, hpays, hrefunds, hmoved, hholding⟩ := h.paid (by omega)
  have haction := h.call_action
  rw [call] at haction
  obtain rfl := Option.some_inj.mp haction
  have hfee : min relayerFee auth.maxRelayerFee = refundOf inv.call auth := by rw [call]; rfl
  refine ⟨refunded, ?_, hmoved, hholding⟩
  simp only [SweepVault.sweep, refundRelayer, bind_eq_ok, requireActiveKey_eq_ok, exists_const,
    okOr_eq_ok, require_eq_ok, pure_eq_ok, checkedSub_eq_some, hfee]
  rw [Ledger.balance] at whole
  refine ⟨(spent, signer), verifyEnclaveAuthorization_eq_ok.mpr h.verified, owner, ?_, lamports,
    whole, paid, hpays, _, ⟨refunded, hrefunds, rfl⟩, rfl⟩
  rw [UInt64.le_iff_toNat_le]
  omega

private theorem handles_close {dest : Pubkey} {lamports relayerFee refund : UInt64}
    {rest : List Move}
    (h : Enabled D inv chain ctx auth action spent signer after
      (vaultMove inv.accounts dest lamports :: refundMove inv.accounts refund :: rest) event)
    (call : inv.call = .closeWallet auth dest relayerFee) (owner : signer = spent.activeKey)
    (capped : refund.toNat
      = min (refundOf inv.call auth).toNat (ctx.chain.balance inv.accounts.vault))
    (whole : ctx.chain.balance inv.accounts.vault = refund.toNat + lamports.toNat) :
    Handles (CloseWallet.close D inv.sysvars inv.accounts ctx auth dest relayerFee) ctx.chain spent
      [vaultMove inv.accounts dest lamports, refundMove inv.accounts refund]
      ⟨spent.walletId, dest, lamports, refund⟩ := by
  obtain ⟨paid, refunded, hpays, hrefunds, hmoved, hholding⟩ := h.paid (by omega)
  have haction := h.call_action
  rw [call] at haction
  obtain rfl := Option.some_inj.mp haction
  have hrefund : min (min relayerFee auth.maxRelayerFee)
      (ctx.chain inv.accounts.vault).lamports = refund := by
    rw [← UInt64.toNat_inj, toNat_min, capped, call]
    rfl
  refine ⟨refunded, ?_, hmoved, hholding⟩
  simp only [CloseWallet.close, bind_eq_ok, requireActiveKey_eq_ok, exists_const, okOr_eq_ok,
    pure_eq_ok, checkedSub_eq_some, hrefund]
  exact ⟨(spent, signer), verifyEnclaveAuthorization_eq_ok.mpr h.verified, owner, lamports, whole,
    paid, hpays, refunded, hrefunds, rfl⟩

private theorem handles_setGuardians {guardians : Vector Guardian MAX_GUARDIANS}
    {relayerFee : UInt64}
    (h : Enabled D inv chain ctx auth action spent signer after
      [refundMove inv.accounts (refundOf inv.call auth)] event)
    (call : inv.call = .setGuardians auth guardians relayerFee) (owner : signer = spent.activeKey)
    (supported : guardians.any Guardian.isWebAuthn = false)
    (covered : (refundOf inv.call auth).toNat ≤ ctx.chain.balance inv.accounts.vault) :
    Handles (SetGuardians.setGuardians D inv.sysvars inv.accounts ctx auth guardians relayerFee)
      ctx.chain { spent with
        guardians := guardians.map GuardianSlot.ofGuardian, rotation := RotationSlot.EMPTY }
      [refundMove inv.accounts (refundOf inv.call auth)] ⟨spent.walletId, guardians⟩ := by
  obtain ⟨refunded, hrefunds, hmoved, hholding⟩ := h.refunded covered { spent with
    guardians := guardians.map GuardianSlot.ofGuardian, rotation := RotationSlot.EMPTY } rfl rfl
  have haction := h.call_action
  rw [call] at haction hrefunds
  obtain rfl := Option.some_inj.mp haction
  refine ⟨refunded, ?_, hmoved, hholding⟩
  simp only [SetGuardians.setGuardians, bind_eq_ok, requireActiveKey_eq_ok, exists_const,
    require_eq_ok, pure_eq_ok]
  exact ⟨(spent, signer), verifyEnclaveAuthorization_eq_ok.mpr h.verified, owner, supported,
    (refunded, _), hrefunds, rfl⟩

private theorem handles_cancel {relayerFee : UInt64} {cancelled : PendingRotation}
    (h : Enabled D inv chain ctx auth action spent signer after
      [refundMove inv.accounts (refundOf inv.call auth)] event)
    (call : inv.call = .cancelRotation auth relayerFee) (owner : signer = spent.activeKey)
    (pending : spent.rotation.get = some cancelled)
    (covered : (refundOf inv.call auth).toNat ≤ ctx.chain.balance inv.accounts.vault) :
    Handles (CancelRotation.cancel D inv.sysvars inv.accounts ctx auth relayerFee) ctx.chain
      { spent with rotation := RotationSlot.EMPTY }
      [refundMove inv.accounts (refundOf inv.call auth)] ⟨spent.walletId, cancelled.newKey⟩ := by
  obtain ⟨refunded, hrefunds, hmoved, hholding⟩ := h.refunded covered
    { spent with rotation := RotationSlot.EMPTY } rfl rfl
  have haction := h.call_action
  rw [call] at haction hrefunds
  obtain rfl := Option.some_inj.mp haction
  refine ⟨refunded, ?_, hmoved, hholding⟩
  simp only [CancelRotation.cancel, RotationSlot.take, bind_eq_ok, requireActiveKey_eq_ok,
    exists_const, okOr_eq_ok, pure_eq_ok]
  exact ⟨(spent, signer), verifyEnclaveAuthorization_eq_ok.mpr h.verified, owner, cancelled,
    pending, (refunded, _), hrefunds, rfl⟩

/-- Both branches of a proposal: `decide` has chosen. -/
private theorem handles_propose {newKey : PublicKey} {relayerFee : UInt64}
    {decided : SmartWallet} {proposal : Proposal}
    (h : Enabled D inv chain ctx auth action spent signer after
      [refundMove inv.accounts (refundOf inv.call auth)] event)
    (call : inv.call = .proposeRotation auth newKey relayerFee) (nonzero : newKey ≠ zeroKey)
    (hdecide : ProposeRotation.decide D inv.sysvars spent signer newKey = .ok (decided, proposal))
    (hid : decided.walletId = spent.walletId) (hbump : decided.vaultBump = spent.vaultBump)
    (covered : (refundOf inv.call auth).toNat ≤ ctx.chain.balance inv.accounts.vault) :
    Handles (ProposeRotation.propose D inv.sysvars inv.accounts ctx auth newKey relayerFee)
      ctx.chain decided [refundMove inv.accounts (refundOf inv.call auth)] proposal := by
  obtain ⟨refunded, hrefunds, hmoved, hholding⟩ := h.refunded covered decided hid hbump
  have haction := h.call_action
  rw [call] at haction hrefunds
  obtain rfl := Option.some_inj.mp haction
  refine ⟨refunded, ?_, hmoved, hholding⟩
  simp only [ProposeRotation.propose, bind_eq_ok, exists_const, require_eq_ok, pure_eq_ok]
  exact ⟨nonzero, (spent, signer), verifyEnclaveAuthorization_eq_ok.mpr h.verified,
    (decided, proposal), hdecide, (refunded, _), hrefunds, rfl⟩

end Handlers

/-! ## Acceptance -/

section Acceptance

variable {D : Deployment} {inv : Invocation} {chain : Chain} {ctx : Context}
  {auth : Authorization} {action : Encoding.Action} {spent : SmartWallet} {signer : PublicKey}
  {after : Option SmartWallet} {moves : List Move} {event : Event}

/-- What remains of a signed instruction after its handler, `close_wallet` apart: the account is
written back. -/
private theorem Handles.written {ε : Type} {result : Except Error (Outcome ε)}
    {wallet : SmartWallet} {e : ε} (h : Handles result ctx.chain wallet moves e) :
    ∃ out, result = .ok ⟨wallet, out, e⟩ ∧
      ctx.chain.Moved moves (writeBack inv.accounts out wallet) ∧
      ∀ a, (writeBack inv.accounts out wallet a).holding
        = if a = inv.accounts.wallet then holdingOf (some wallet) else (ctx.chain a).holding := by
  obtain ⟨out, hresult, hmoved, hholding⟩ := h
  exact ⟨out, hresult, hmoved.setHolding _ _, holding_writeBack hholding⟩

/-- **What is enabled is accepted**, with the effect of its rule. -/
theorem Enabled.execute
    (h : Enabled D inv chain ctx auth action spent signer after moves event) :
    ∃ chain', EnclaveKit.execute D inv chain = .ok (chain',
        createdEvents (inv.call.mayCreate && ctx.wallet.isNew) auth.walletId spent ++ [event]) ∧
      ctx.chain.Moved moves chain' ∧
      ∀ a, (chain' a).holding
        = if a = inv.accounts.wallet then holdingOf after else (ctx.chain a).holding := by
  have hloads := h.loads
  have henacts := h.enacts
  cases henacts with
  | transferSol call owner covered =>
    obtain ⟨out, hout, heffect⟩ := Handles.written (handles_transfer h call owner covered)
    rw [Loads, call] at hloads
    refine ⟨_, ?_, heffect⟩
    simp only [EnclaveKit.execute, call, bind_eq_ok, pure_eq_ok]
    exact ⟨ctx, hloads, _, hout, by rw [call]; rfl⟩
  | sweepVault call owner whole =>
    obtain ⟨out, hout, heffect⟩ := Handles.written (handles_sweep h call owner whole)
    rw [Loads, call] at hloads
    refine ⟨_, ?_, heffect⟩
    simp only [EnclaveKit.execute, call, bind_eq_ok, pure_eq_ok]
    exact ⟨ctx, hloads, _, hout, by rw [call]; rfl⟩
  | setGuardians call owner supported covered =>
    obtain ⟨out, hout, heffect⟩ :=
      Handles.written (handles_setGuardians h call owner supported covered)
    rw [Loads, call] at hloads
    refine ⟨_, ?_, heffect⟩
    simp only [EnclaveKit.execute, call, bind_eq_ok, pure_eq_ok]
    exact ⟨ctx, hloads, _, hout, rfl⟩
  | cancelRotation call owner pending covered =>
    obtain ⟨out, hout, heffect⟩ := Handles.written (handles_cancel h call owner pending covered)
    rw [Loads, call] at hloads
    refine ⟨_, ?_, heffect⟩
    simp only [EnclaveKit.execute, call, bind_eq_ok, pure_eq_ok]
    exact ⟨ctx, hloads, _, hout, rfl⟩
  | @rotate newKey _ call nonzero owner covered =>
    have hdecide : ProposeRotation.decide D inv.sysvars spent signer newKey = .ok
        (spent.rekeyed newKey, .rotated ⟨spent.walletId, newKey, false⟩) := by
      rw [ProposeRotation.decide, if_pos owner]
      rfl
    obtain ⟨out, hout, heffect⟩ :=
      Handles.written (handles_propose h call nonzero hdecide rfl rfl covered)
    rw [Loads, call] at hloads
    refine ⟨_, ?_, heffect⟩
    simp only [EnclaveKit.execute, call, bind_eq_ok]
    exact ⟨ctx, hloads, _, hout, rfl⟩
  | @propose newKey _ slot proposal call nonzero not_owner guardian free proposal_eq covered =>
    have hdecide : ProposeRotation.decide D inv.sysvars spent signer newKey = .ok
        ({ spent with rotation := RotationSlot.new proposal },
          .pending ⟨spent.walletId, newKey, signer, proposal.opensAt D.build⟩) := by
      rw [ProposeRotation.decide, if_neg not_owner]
      simp only [bind_eq_ok, okOr_eq_ok, require_eq_ok, exists_const, pure_eq_ok, proposal_eq]
      exact ⟨slot, guardian, free, rfl⟩
    obtain ⟨out, hout, heffect⟩ :=
      Handles.written (handles_propose h call nonzero hdecide rfl rfl covered)
    rw [Loads, call] at hloads
    refine ⟨_, ?_, heffect⟩
    simp only [EnclaveKit.execute, call, bind_eq_ok]
    exact ⟨ctx, hloads, _, hout, rfl⟩
  | @closeWallet dest lamports _ refund rent call owner capped whole relayer_ne emptied =>
    obtain ⟨out, hout, hmoved, hholding⟩ := handles_close h call owner capped whole
    -- What is closed into the relayer is the rent the rule names, payments to it included.
    have hrent : out.balance inv.accounts.wallet = rent := by
      have := hmoved inv.accounts.wallet
      omega
    have hfits : out.balance inv.accounts.wallet ≠ 0 → out.SupplyFits := by
      intro hne
      rw [hrent] at hne
      exact hmoved.supplyFits (h.fits
        ⟨⟨inv.accounts.wallet, inv.accounts.relayer, rent⟩, by simp, hne⟩)
    obtain ⟨chain', hclose⟩ := Ledger.close_of_fits relayer_ne hfits
    obtain ⟨hclosed, hsystem, hother⟩ := Ledger.close_eq_ok relayer_ne hclose
    rw [hrent] at hclosed
    rw [Loads, call] at hloads
    refine ⟨chain', ?_, hmoved.trans hclosed, fun a ↦ ?_⟩
    · simp only [EnclaveKit.execute, call, bind_eq_ok, liftSystem_eq_ok, pure_eq_ok]
      exact ⟨ctx, hloads, _, hout, chain', hclose, rfl⟩
    · by_cases ha : a = inv.accounts.wallet
      · rw [if_pos ha, ha, hsystem]
        rfl
      · rw [if_neg ha, hother a ha, hholding a]

/-- An instruction creates no lamports. -/
theorem supplyFits_of_execute {chain' : Chain} {events : List Event}
    (h : EnclaveKit.execute D inv chain = .ok (chain', events)) (hfits : chain.SupplyFits) :
    chain'.SupplyFits := by
  rcases effect_of_execute h with ⟨⟨h⟩⟩ | ⟨⟨h⟩⟩
  · exact h.moved_all.supplyFits hfits
  · intro s
    simp only [h.balance_eq]
    exact hfits s

/-- What a confirmation does, where the proposal is open and not expired. -/
theorem execute_of_confirmable {walletId : WalletId} (call : inv.call = .confirmRotation walletId)
    {wallet : SmartWallet} {proposal : PendingRotation}
    (found : (chain inv.accounts.wallet).holding = .owned wallet)
    (seeds : D.createProgramAddress [WALLET_SEED, walletId.toList, [wallet.stateBump]] ID
      = some inv.accounts.wallet)
    (pending : wallet.rotation.get = some proposal)
    (opened : proposal.opensAt D.build ≤ inv.sysvars.unixTimestamp)
    (unexpired : proposal.isExpired D.build inv.sysvars.unixTimestamp = false) :
    EnclaveKit.execute D inv chain = .ok
      (chain.setHolding inv.accounts.wallet (.owned (wallet.rekeyed proposal.newKey)),
        [.keyRotated ⟨wallet.walletId, proposal.newKey, true⟩]) := by
  simp only [EnclaveKit.execute, call, ConfirmRotation.confirm, bind_eq_ok, okOr_eq_ok,
    require_eq_ok, exists_const, pure_eq_ok]
  exact ⟨wallet, confirming_eq_ok.mpr ⟨found, seeds⟩, _, ⟨proposal, pending, opened, unexpired,
    rfl⟩, rfl⟩

/-- **Confirmations.** One is accepted exactly when the proposal there is open and not expired. -/
theorem execute_confirmRotation_eq_ok {walletId : WalletId}
    (call : inv.call = .confirmRotation walletId) :
    (∃ chain' events, EnclaveKit.execute D inv chain = .ok (chain', events)) ↔
      ∃ wallet proposal, (chain inv.accounts.wallet).holding = .owned wallet ∧
        D.createProgramAddress [WALLET_SEED, walletId.toList, [wallet.stateBump]] ID
          = some inv.accounts.wallet ∧
        wallet.rotation.get = some proposal ∧
        proposal.opensAt D.build ≤ inv.sysvars.unixTimestamp ∧
        proposal.isExpired D.build inv.sysvars.unixTimestamp = false := by
  constructor
  · rintro ⟨chain', events, h⟩
    rcases effect_of_execute h with ⟨⟨h⟩⟩ | ⟨⟨h⟩⟩
    · have hauth := h.call_authorization
      rw [call] at hauth
      cases hauth
    · have hseeds := h.seeds
      rw [call] at hseeds
      exact ⟨h.wallet, h.proposal, h.found, hseeds, h.pending, h.opened, h.unexpired⟩
  · rintro ⟨wallet, proposal, found, seeds, pending, opened, unexpired⟩
    exact ⟨_, _, execute_of_confirmable call found seeds pending opened unexpired⟩

end Acceptance

end EnclaveKit
