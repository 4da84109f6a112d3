import EnclaveKit.Program.Instructions

/-!
# What an accepted instruction does

Everything later results use of `execute`, said once. An instruction is accepted in one of two ways:
`Accepted` is the signed way, with the context it was loaded in, the verification it passed, and its
effect; `Confirmed` is the way of `confirm_rotation`. `executed_of_execute` is the only place where
the handlers are taken apart. Besides the effect it keeps the account checks themselves, in `Loads`,
which `Accepted` tells no more of than what they establish.

The effect proper is `Enacts`, a relation with one rule for each thing a handler can do. It relates
the wallet as verification left it to what the account holds afterwards (`none` for a closed one),
the lamports that moved, and the event.
-/

namespace EnclaveKit

open Solana MachineInt Fallible

/-- The holding of an account whose state is `stored`, if there is one. -/
def holdingOf : Option SmartWallet → Holding SmartWallet
  | some wallet => .owned wallet
  | none => .system

/-- The refund of every instruction but `close_wallet`. -/
def refundOf (call : Call) (auth : Authorization) : UInt64 := min call.relayerFee auth.maxRelayerFee

/-- From the vault to an account. -/
def vaultMove (accounts : Accounts) (dest : Pubkey) (lamports : UInt64) : Move :=
  ⟨accounts.vault, dest, lamports.toNat⟩

/-- From the vault to the relayer. -/
def refundMove (accounts : Accounts) (refund : UInt64) : Move :=
  vaultMove accounts accounts.relayer refund

/-- The effect of a signed instruction, verified for `signer`. -/
inductive Enacts (D : Deployment) (inv : Invocation) (auth : Authorization) (chain : Chain)
    (wallet : SmartWallet) (signer : PublicKey) :
    Option SmartWallet → List Move → Event → Prop where
  | transferSol {dest : Pubkey} {lamports relayerFee : UInt64}
      (call : inv.call = .transferSol auth dest lamports relayerFee)
      (owner : signer = wallet.activeKey)
      (covered : lamports.toNat + auth.maxRelayerFee.toNat + (D.minimumBalance 0).toNat
        ≤ chain.balance inv.accounts.vault) :
      Enacts D inv auth chain wallet signer (some wallet)
        [vaultMove inv.accounts dest lamports, refundMove inv.accounts (refundOf inv.call auth)]
        (.solTransferred ⟨wallet.walletId, dest, lamports, refundOf inv.call auth⟩)
  | sweepVault {dest : Pubkey} {lamports relayerFee : UInt64}
      (call : inv.call = .sweepVault auth dest relayerFee)
      (owner : signer = wallet.activeKey)
      (whole : chain.balance inv.accounts.vault
        = (refundOf inv.call auth).toNat + lamports.toNat) :
      Enacts D inv auth chain wallet signer (some wallet)
        [vaultMove inv.accounts dest lamports, refundMove inv.accounts (refundOf inv.call auth)]
        (.vaultSwept ⟨wallet.walletId, dest, lamports, refundOf inv.call auth⟩)
  | setGuardians {guardians : Vector Guardian MAX_GUARDIANS} {relayerFee : UInt64}
      (call : inv.call = .setGuardians auth guardians relayerFee)
      (owner : signer = wallet.activeKey)
      (supported : guardians.any Guardian.isWebAuthn = false)
      (covered : (refundOf inv.call auth).toNat ≤ chain.balance inv.accounts.vault) :
      Enacts D inv auth chain wallet signer
        (some { wallet with
          guardians := guardians.map GuardianSlot.ofGuardian, rotation := RotationSlot.EMPTY })
        [refundMove inv.accounts (refundOf inv.call auth)]
        (.guardiansSet ⟨wallet.walletId, guardians⟩)
  | cancelRotation {relayerFee : UInt64} {cancelled : PendingRotation}
      (call : inv.call = .cancelRotation auth relayerFee)
      (owner : signer = wallet.activeKey)
      (pending : wallet.rotation.get = some cancelled)
      (covered : (refundOf inv.call auth).toNat ≤ chain.balance inv.accounts.vault) :
      Enacts D inv auth chain wallet signer
        (some { wallet with rotation := RotationSlot.EMPTY })
        [refundMove inv.accounts (refundOf inv.call auth)]
        (.rotationCancelled ⟨wallet.walletId, cancelled.newKey⟩)
  | rotate {newKey : PublicKey} {relayerFee : UInt64}
      (call : inv.call = .proposeRotation auth newKey relayerFee)
      (nonzero : newKey ≠ zeroKey)
      (owner : signer = wallet.activeKey)
      (covered : (refundOf inv.call auth).toNat ≤ chain.balance inv.accounts.vault) :
      Enacts D inv auth chain wallet signer
        (some (wallet.rekeyed newKey))
        [refundMove inv.accounts (refundOf inv.call auth)]
        (.keyRotated ⟨wallet.walletId, newKey, false⟩)
  | propose {newKey : PublicKey} {relayerFee : UInt64} {slot : ℕ} {proposal : PendingRotation}
      (call : inv.call = .proposeRotation auth newKey relayerFee)
      (nonzero : newKey ≠ zeroKey)
      (not_owner : signer ≠ wallet.activeKey)
      (guardian : wallet.p256Guardian signer = some slot)
      (free : mayPropose D wallet slot inv.sysvars.unixTimestamp = true)
      (proposal_eq : proposal = ⟨newKey, inv.sysvars.unixTimestamp, UInt8.ofNat slot⟩)
      (covered : (refundOf inv.call auth).toNat ≤ chain.balance inv.accounts.vault) :
      Enacts D inv auth chain wallet signer
        (some { wallet with rotation := RotationSlot.new proposal })
        [refundMove inv.accounts (refundOf inv.call auth)]
        (.rotationProposed ⟨wallet.walletId, newKey, signer, proposal.opensAt D.build⟩)
  | closeWallet {dest : Pubkey} {lamports relayerFee refund : UInt64} {rent : ℕ}
      (call : inv.call = .closeWallet auth dest relayerFee)
      (owner : signer = wallet.activeKey)
      (capped : refund.toNat
        = min (refundOf inv.call auth).toNat (chain.balance inv.accounts.vault))
      (whole : chain.balance inv.accounts.vault = refund.toNat + lamports.toNat)
      (relayer_ne : inv.accounts.wallet ≠ inv.accounts.relayer)
      (emptied : (rent : ℤ) = chain.balance inv.accounts.wallet
        + netChange [vaultMove inv.accounts dest lamports, refundMove inv.accounts refund]
          inv.accounts.wallet) :
      Enacts D inv auth chain wallet signer none
        [vaultMove inv.accounts dest lamports, refundMove inv.accounts refund,
          ⟨inv.accounts.wallet, inv.accounts.relayer, rent⟩]
        (.walletClosed ⟨wallet.walletId, dest, lamports, refund⟩)

/-- A signed instruction, accepted. -/
structure Accepted (D : Deployment) (inv : Invocation) (chain chain' : Chain)
    (events : List Event) where
  auth : Authorization
  action : Encoding.Action
  ctx : Context
  creation : List Move
  /-- The wallet as verification left it, its nonce spent. -/
  spent : SmartWallet
  signer : PublicKey
  /-- What the account holds afterwards. -/
  after : Option SmartWallet
  moves : List Move
  event : Event
  call_authorization : inv.call.authorization = some auth
  call_action : inv.call.action = some action
  loaded : Loaded D inv.accounts auth.walletId chain inv.call.mayCreate ctx creation
  verified : Verified D inv.sysvars ctx.wallet auth action ctx.bumps spent signer
  enacts : Enacts D inv auth ctx.chain spent signer after moves event
  /-- The vault is that of the wallet. -/
  seeds : D.createProgramAddress [VAULT_SEED, spent.walletId.toList, [spent.vaultBump]] ID
    = some inv.accounts.vault
  moved : ctx.chain.Moved moves chain'
  holding : ∀ a, (chain' a).holding
    = if a = inv.accounts.wallet then holdingOf after else (ctx.chain a).holding
  events_eq : events
    = createdEvents (inv.call.mayCreate && ctx.wallet.isNew) auth.walletId spent ++ [event]

/-- The account checks of a signed instruction pass, and make this context. -/
def Loads (D : Deployment) (inv : Invocation) (chain : Chain) (ctx : Context) : Prop :=
  match inv.call with
  | .transferSol auth _ _ _ | .setGuardians auth _ _ | .sweepVault auth _ _ =>
    inv.accounts.initialized D auth.walletId chain = .ok ctx
  | .cancelRotation auth _ | .proposeRotation auth _ _ =>
    inv.accounts.existing D auth.walletId chain = .ok ctx
  | .closeWallet auth _ _ => inv.accounts.closing D auth.walletId chain = .ok ctx
  | .confirmRotation _ => False

/-- A signed instruction, accepted, with the account checks it passed. -/
structure Executed (D : Deployment) (inv : Invocation) (chain chain' : Chain)
    (events : List Event) extends Accepted D inv chain chain' events where
  loads : Loads D inv chain ctx

/-- `confirm_rotation`, accepted. -/
structure Confirmed (D : Deployment) (inv : Invocation) (chain chain' : Chain)
    (events : List Event) where
  wallet : SmartWallet
  proposal : PendingRotation
  call : inv.call = .confirmRotation inv.call.walletId
  found : (chain inv.accounts.wallet).holding = .owned wallet
  seeds : D.createProgramAddress [WALLET_SEED, inv.call.walletId.toList, [wallet.stateBump]] ID
    = some inv.accounts.wallet
  pending : wallet.rotation.get = some proposal
  opened : proposal.opensAt D.build ≤ inv.sysvars.unixTimestamp
  unexpired : proposal.isExpired D.build inv.sysvars.unixTimestamp = false
  chain_eq : chain'
    = chain.setHolding inv.accounts.wallet (.owned (wallet.rekeyed proposal.newKey))
  events_eq : events = [.keyRotated ⟨wallet.walletId, proposal.newKey, true⟩]

/-! ## The account checks

`Loads` says which checks are made, instruction by instruction. What follows is told by family. -/

section Loads

variable {D : Deployment} {inv : Invocation} {chain : Chain} {ctx : Context}

theorem Loads.authorization (h : Loads D inv chain ctx) :
    ∃ auth, inv.call.authorization = some auth := by
  rw [Loads] at h
  cases hcall : inv.call with
  | confirmRotation =>
    rw [hcall] at h
    cases h
  | transferSol | setGuardians | cancelRotation | proposeRotation | sweepVault | closeWallet =>
    exact ⟨_, rfl⟩

/-- **The account checks are of two families**, and a closing has one check more. -/
theorem loads_iff {auth : Authorization} (hauth : inv.call.authorization = some auth) :
    Loads D inv chain ctx ↔
      inv.call.mayCreate = true ∧ inv.accounts.initialized D auth.walletId chain = .ok ctx ∨
      inv.call.mayCreate = false ∧ inv.accounts.existing D auth.walletId chain = .ok ctx ∧
        ∀ dest relayerFee, inv.call = .closeWallet auth dest relayerFee →
          inv.accounts.wallet ≠ inv.accounts.relayer := by
  rw [Loads]
  cases hcall : inv.call with
  | confirmRotation =>
    rw [hcall] at hauth
    cases hauth
  | transferSol | setGuardians | sweepVault | cancelRotation | proposeRotation =>
    rw [hcall] at hauth
    cases hauth
    simp [Call.mayCreate]
  | closeWallet =>
    rw [hcall] at hauth
    cases hauth
    simp [Call.mayCreate, closing_eq_ok]

/-- What the account checks establish, whichever family they are of. -/
theorem Loads.loaded {auth : Authorization} (h : Loads D inv chain ctx)
    (hauth : inv.call.authorization = some auth) :
    ∃ creation, Loaded D inv.accounts auth.walletId chain inv.call.mayCreate ctx creation := by
  rcases (loads_iff hauth).mp h with ⟨hcreate, hctx⟩ | ⟨hcreate, hctx, -⟩ <;> rw [hcreate]
  · exact loaded_of_initialized hctx
  · exact ⟨[], loaded_of_existing hctx⟩

/-- Every accounts struct but that of a confirmation asks for a vault of System's. -/
theorem Loads.system (h : Loads D inv chain ctx) :
    (chain inv.accounts.vault).holding = .system := by
  obtain ⟨auth, hauth⟩ := h.authorization
  rcases (loads_iff hauth).mp h with ⟨-, hctx⟩ | ⟨-, hctx, -⟩
  · exact system_of_initialized hctx
  · exact system_of_existing hctx

end Loads

/-! ## The handlers, one at a time

Each lemma is about one handler and gives its rule of `Enacts`. `close_wallet` has none here: its
effect includes the closing, which comes after the handler. -/

section Handlers

variable {D : Deployment} {inv : Invocation} {ctx : Context} {auth : Authorization}

/-- Verification and effect of a handler, before the account is written back. -/
private structure Handled (D : Deployment) (inv : Invocation) (ctx : Context)
    (auth : Authorization) (action : Encoding.Action) (spent : SmartWallet) (signer : PublicKey)
    (stored : SmartWallet) (after : Chain) (moves : List Move) (event : Event) : Prop where
  verified : Verified D inv.sysvars ctx.wallet auth action ctx.bumps spent signer
  enacts : Enacts D inv auth ctx.chain spent signer (some stored) moves event
  seeds : D.createProgramAddress [VAULT_SEED, spent.walletId.toList, [spent.vaultBump]] ID
    = some inv.accounts.vault
  moved : ctx.chain.Moved moves after
  holding : ∀ a, (after a).holding = (ctx.chain a).holding

private theorem handled_transfer {dest : Pubkey} {lamports relayerFee : UInt64}
    {out : Outcome SolTransferred} (call : inv.call = .transferSol auth dest lamports relayerFee)
    (h : TransferSol.transfer D inv.sysvars inv.accounts ctx auth dest lamports relayerFee
      = .ok out) :
    ∃ signer moves, Handled D inv ctx auth (.transferSol dest lamports) out.wallet signer
      out.wallet out.chain moves (.solTransferred out.event) := by
  simp only [TransferSol.transfer, bind_eq_ok, requireActiveKey_eq_ok, exists_const, okOr_eq_ok,
    require_eq_ok, pure_eq_ok] at h
  obtain ⟨⟨spent, signer⟩, hverified, howner, required, hrequired, hcovered, paid, hpaid,
    ⟨refunded, refund⟩, hrefund, rfl⟩ := h
  simp only [Option.bind_eq_bind, Option.bind_eq_some_iff, checkedAdd_eq_some] at hrequired
  obtain ⟨sum, hsum, hrequired⟩ := hrequired
  rw [UInt64.le_iff_toNat_le] at hcovered
  obtain ⟨hseeds, -, hmoved, hholding⟩ := paid_of_transferFromVault hpaid
  obtain ⟨rfl, -, -, hmoved', hholding'⟩ := paid_of_refundRelayer hrefund
  have hfee : min relayerFee auth.maxRelayerFee = refundOf inv.call auth := by rw [call]; rfl
  rw [hfee] at hmoved' ⊢
  refine ⟨signer, _, verifyEnclaveAuthorization_eq_ok.mp hverified,
    .transferSol call howner ?_, hseeds, hmoved.trans hmoved',
    fun a ↦ (hholding' a).trans (hholding a)⟩
  rw [Ledger.balance]
  omega

private theorem handled_sweep {dest : Pubkey} {relayerFee : UInt64} {out : Outcome VaultSwept}
    (call : inv.call = .sweepVault auth dest relayerFee)
    (h : SweepVault.sweep D inv.sysvars inv.accounts ctx auth dest relayerFee = .ok out) :
    ∃ signer moves, Handled D inv ctx auth (.sweepVault dest) out.wallet signer
      out.wallet out.chain moves (.vaultSwept out.event) := by
  simp only [SweepVault.sweep, bind_eq_ok, requireActiveKey_eq_ok, exists_const, okOr_eq_ok,
    require_eq_ok, pure_eq_ok, checkedSub_eq_some] at h
  obtain ⟨⟨spent, signer⟩, hverified, howner, -, lamports, hwhole, paid, hpaid,
    ⟨refunded, refund⟩, hrefund, rfl⟩ := h
  obtain ⟨hseeds, -, hmoved, hholding⟩ := paid_of_transferFromVault hpaid
  obtain ⟨rfl, -, -, hmoved', hholding'⟩ := paid_of_refundRelayer hrefund
  have hfee : min relayerFee auth.maxRelayerFee = refundOf inv.call auth := by rw [call]; rfl
  rw [hfee] at hmoved' hwhole ⊢
  exact ⟨signer, _, verifyEnclaveAuthorization_eq_ok.mp hverified,
    .sweepVault call howner hwhole, hseeds, hmoved.trans hmoved',
    fun a ↦ (hholding' a).trans (hholding a)⟩

private theorem handled_setGuardians {guardians : Vector Guardian MAX_GUARDIANS}
    {relayerFee : UInt64} {out : Outcome GuardiansSet}
    (call : inv.call = .setGuardians auth guardians relayerFee)
    (h : SetGuardians.setGuardians D inv.sysvars inv.accounts ctx auth guardians relayerFee
      = .ok out) :
    ∃ spent signer moves, out.wallet.activeKey = spent.activeKey ∧
      Handled D inv ctx auth (.setGuardians (guardians.map Guardian.toEncoding)) spent signer
        out.wallet out.chain moves (.guardiansSet out.event) := by
  simp only [SetGuardians.setGuardians, bind_eq_ok, requireActiveKey_eq_ok, exists_const,
    require_eq_ok, pure_eq_ok] at h
  obtain ⟨⟨spent, signer⟩, hverified, howner, hsupported, ⟨refunded, refund⟩, hrefund, rfl⟩ := h
  obtain ⟨rfl, hseeds, hcovered, hmoved, hholding⟩ := paid_of_refundRelayer hrefund
  have hfee : min relayerFee auth.maxRelayerFee = refundOf inv.call auth := by rw [call]; rfl
  rw [hfee] at hmoved hcovered
  exact ⟨spent, signer, _, rfl, verifyEnclaveAuthorization_eq_ok.mp hverified,
    .setGuardians call howner hsupported hcovered, hseeds, hmoved, hholding⟩

private theorem handled_cancel {relayerFee : UInt64} {out : Outcome RotationCancelled}
    (call : inv.call = .cancelRotation auth relayerFee)
    (h : CancelRotation.cancel D inv.sysvars inv.accounts ctx auth relayerFee = .ok out) :
    ∃ spent signer moves, Handled D inv ctx auth .cancelRotation spent signer out.wallet out.chain
      moves (.rotationCancelled out.event) := by
  simp only [CancelRotation.cancel, RotationSlot.take, bind_eq_ok, requireActiveKey_eq_ok,
    exists_const, okOr_eq_ok, pure_eq_ok] at h
  obtain ⟨⟨spent, signer⟩, hverified, howner, cancelled, hpending, ⟨refunded, refund⟩, hrefund,
    rfl⟩ := h
  obtain ⟨rfl, hseeds, hcovered, hmoved, hholding⟩ := paid_of_refundRelayer hrefund
  have hfee : min relayerFee auth.maxRelayerFee = refundOf inv.call auth := by rw [call]; rfl
  rw [hfee] at hmoved hcovered
  exact ⟨spent, signer, _, verifyEnclaveAuthorization_eq_ok.mp hverified,
    .cancelRotation call howner hpending hcovered, hseeds, hmoved, hholding⟩

/-- The event a proposal ends with. -/
private def Proposal.event : Proposal → Event
  | rotated event => .keyRotated event
  | pending event => .rotationProposed event

private theorem handled_propose {newKey : PublicKey} {relayerFee : UInt64}
    {out : Outcome Proposal} (call : inv.call = .proposeRotation auth newKey relayerFee)
    (h : ProposeRotation.propose D inv.sysvars inv.accounts ctx auth newKey relayerFee = .ok out) :
    ∃ spent signer moves, Handled D inv ctx auth (.proposeRotation newKey) spent signer out.wallet
      out.chain moves out.event.event := by
  simp only [ProposeRotation.propose, bind_eq_ok, exists_const, require_eq_ok, pure_eq_ok] at h
  obtain ⟨hnonzero, ⟨spent, signer⟩, hverified, ⟨decided, proposal⟩, hdecide, ⟨refunded, refund⟩,
    hrefund, rfl⟩ := h
  obtain ⟨rfl, hseeds, hcovered, hmoved, hholding⟩ := paid_of_refundRelayer hrefund
  have hfee : min relayerFee auth.maxRelayerFee = refundOf inv.call auth := by rw [call]; rfl
  rw [hfee] at hmoved hcovered
  rw [ProposeRotation.decide] at hdecide
  split_ifs at hdecide with howner
  · cases hdecide
    exact ⟨spent, signer, _, verifyEnclaveAuthorization_eq_ok.mp hverified,
      .rotate call hnonzero howner hcovered, hseeds, hmoved, hholding⟩
  · simp only [bind_eq_ok, okOr_eq_ok, require_eq_ok, exists_const, pure_eq_ok,
      Prod.mk.injEq] at hdecide
    obtain ⟨slot, hslot, hfree, rfl, rfl⟩ := hdecide
    exact ⟨spent, signer, _, verifyEnclaveAuthorization_eq_ok.mp hverified,
      .propose call hnonzero howner hslot hfree rfl hcovered, hseeds, hmoved, hholding⟩

private theorem enacts_close {dest : Pubkey} {relayerFee : UInt64} {out : Outcome WalletClosed}
    {after : Chain} (call : inv.call = .closeWallet auth dest relayerFee)
    (hne : inv.accounts.wallet ≠ inv.accounts.relayer)
    (h : CloseWallet.close D inv.sysvars inv.accounts ctx auth dest relayerFee = .ok out)
    (hclose : out.chain.close inv.accounts.wallet inv.accounts.relayer = .ok after) :
    ∃ signer moves,
      Verified D inv.sysvars ctx.wallet auth (.closeWallet dest) ctx.bumps out.wallet signer ∧
      Enacts D inv auth ctx.chain out.wallet signer none moves (.walletClosed out.event) ∧
      D.createProgramAddress [VAULT_SEED, out.wallet.walletId.toList, [out.wallet.vaultBump]] ID
        = some inv.accounts.vault ∧
      ctx.chain.Moved moves after ∧
      ∀ a, (after a).holding
        = if a = inv.accounts.wallet then holdingOf none else (ctx.chain a).holding := by
  simp only [CloseWallet.close, bind_eq_ok, requireActiveKey_eq_ok, exists_const, okOr_eq_ok,
    pure_eq_ok, checkedSub_eq_some] at h
  obtain ⟨⟨spent, signer⟩, hverified, howner, lamports, hwhole, paid, hpaid, refunded, hrefund,
    rfl⟩ := h
  obtain ⟨hseeds, -, hmoved, hholding⟩ := paid_of_transferFromVault hpaid
  obtain ⟨-, -, hmoved', hholding'⟩ := paid_of_transferFromVault hrefund
  obtain ⟨hclosed, hsystem, hother⟩ := Ledger.close_eq_ok hne hclose
  have hfee : min relayerFee auth.maxRelayerFee = refundOf inv.call auth := by rw [call]; rfl
  rw [hfee] at hmoved' hwhole ⊢
  have hpayments := hmoved.trans hmoved'
  refine ⟨signer, _, verifyEnclaveAuthorization_eq_ok.mp hverified,
    .closeWallet call howner (toNat_min _ _) hwhole hne (hpayments _), hseeds,
    hpayments.trans hclosed,
    fun a ↦ ?_⟩
  split_ifs with ha
  · rw [ha, hsystem]
    rfl
  · rw [hother a ha, hholding' a, hholding a]

end Handlers

/-! ## The effect -/

theorem holding_writeBack {accounts : Accounts} {chain chain' : Chain}
    {wallet : SmartWallet} (h : ∀ a, (chain' a).holding = (chain a).holding) (a : Pubkey) :
    (writeBack accounts chain' wallet a).holding
      = if a = accounts.wallet then holdingOf (some wallet) else (chain a).holding := by
  rw [writeBack, Ledger.holding_setHolding, h]
  rfl

private theorem executed_of_handled {D : Deployment} {inv : Invocation} {call : Call}
    {chain after : Chain} {ctx : Context} {auth : Authorization} {action : Encoding.Action}
    {moves : List Move} {spent stored : SmartWallet} {signer : PublicKey} {event : Event}
    (hcall : inv.call = call) (hauth : call.authorization = some auth)
    (haction : call.action = some action) (hloads : Loads D inv chain ctx)
    (h : Handled D inv ctx auth action spent signer stored after moves event) :
    Nonempty (Executed D inv chain (writeBack inv.accounts after stored)
      (createdEvents (call.mayCreate && ctx.wallet.isNew) auth.walletId spent ++ [event])) := by
  subst hcall
  obtain ⟨creation, hloaded⟩ := hloads.loaded hauth
  exact ⟨{
    auth := auth
    action := action
    ctx := ctx
    creation := creation
    spent := spent
    signer := signer
    after := some stored
    moves := moves
    event := event
    call_authorization := hauth
    call_action := haction
    loaded := hloaded
    verified := h.verified
    enacts := h.enacts
    seeds := h.seeds
    moved := h.moved.setHolding _ _
    holding := holding_writeBack h.holding
    events_eq := rfl
    loads := hloads }⟩

/-- **The effect of an instruction.** An accepted instruction is a signed one with the effect its
rule gives, or a confirmation. -/
theorem executed_of_execute {D : Deployment} {inv : Invocation} {chain chain' : Chain}
    {events : List Event} (h : execute D inv chain = .ok (chain', events)) :
    Nonempty (Executed D inv chain chain' events)
      ∨ Nonempty (Confirmed D inv chain chain' events) := by
  rw [execute] at h
  cases hcall : inv.call <;> rw [hcall] at h <;>
    simp only [bind_eq_ok, pure_eq_ok, Prod.mk.injEq] at h
  case transferSol auth dest lamports relayerFee =>
    obtain ⟨ctx, hctx, out, hout, rfl, rfl⟩ := h
    have hloads : Loads D inv chain ctx := by rw [Loads, hcall]; exact hctx
    obtain ⟨signer, moves, hhandled⟩ := handled_transfer hcall hout
    exact .inl (executed_of_handled hcall rfl rfl hloads hhandled)
  case setGuardians auth guardians relayerFee =>
    obtain ⟨ctx, hctx, out, hout, rfl, rfl⟩ := h
    have hloads : Loads D inv chain ctx := by rw [Loads, hcall]; exact hctx
    obtain ⟨spent, signer, moves, hkey, hhandled⟩ := handled_setGuardians hcall hout
    left
    rw [createdEvents, hkey]
    exact executed_of_handled hcall rfl rfl hloads hhandled
  case cancelRotation auth relayerFee =>
    obtain ⟨ctx, hctx, out, hout, rfl, rfl⟩ := h
    have hloads : Loads D inv chain ctx := by rw [Loads, hcall]; exact hctx
    obtain ⟨spent, signer, moves, hhandled⟩ := handled_cancel hcall hout
    exact .inl (executed_of_handled hcall rfl rfl hloads hhandled)
  case proposeRotation auth newKey relayerFee =>
    obtain ⟨ctx, hctx, out, hout, hfinal⟩ := h
    have hloads : Loads D inv chain ctx := by rw [Loads, hcall]; exact hctx
    obtain ⟨spent, signer, moves, hhandled⟩ := handled_propose hcall hout
    have hexecuted := executed_of_handled hcall rfl rfl hloads hhandled
    left
    -- The entry point only dispatches on which event to emit.
    cases hevent : out.event <;> rw [hevent] at hfinal hexecuted <;>
      · simp only [pure_eq_ok, Prod.mk.injEq] at hfinal
        obtain ⟨rfl, rfl⟩ := hfinal
        exact hexecuted
  case confirmRotation walletId =>
    obtain ⟨wallet, hconfirming, ⟨after, event⟩, hconfirm, rfl, rfl⟩ := h
    obtain ⟨hfound, hseeds⟩ := confirming_eq_ok.mp hconfirming
    simp only [ConfirmRotation.confirm, bind_eq_ok, okOr_eq_ok, require_eq_ok, exists_const,
      pure_eq_ok, Prod.mk.injEq] at hconfirm
    obtain ⟨proposal, hpending, hopened, hunexpired, rfl, rfl⟩ := hconfirm
    have hid : inv.call.walletId = walletId := by rw [hcall]; rfl
    exact .inr ⟨{
      wallet := wallet
      proposal := proposal
      call := by rw [hid, hcall]
      found := hfound
      seeds := by rw [hid]; exact hseeds
      pending := hpending
      opened := hopened
      unexpired := hunexpired
      chain_eq := rfl
      events_eq := rfl }⟩
  case sweepVault auth dest relayerFee =>
    obtain ⟨ctx, hctx, out, hout, rfl, rfl⟩ := h
    have hloads : Loads D inv chain ctx := by rw [Loads, hcall]; exact hctx
    obtain ⟨signer, moves, hhandled⟩ := handled_sweep hcall hout
    exact .inl (executed_of_handled hcall rfl rfl hloads hhandled)
  case closeWallet auth dest relayerFee =>
    obtain ⟨ctx, hctx, out, hout, after, hclose, rfl, rfl⟩ := h
    have hloads : Loads D inv chain ctx := by rw [Loads, hcall]; exact hctx
    obtain ⟨hloaded, hne⟩ := loaded_of_closing hctx
    -- The account is closed after the handler, and what that moves is part of the effect.
    rw [liftSystem_eq_ok] at hclose
    obtain ⟨signer, moves, hverified, henacts, hseeds, hmoved, hholding⟩ :=
      enacts_close hcall hne hout hclose
    exact .inl ⟨{
      auth := auth
      action := .closeWallet dest
      ctx := ctx
      creation := []
      spent := out.wallet
      signer := signer
      after := none
      moves := moves
      event := .walletClosed out.event
      call_authorization := by rw [hcall]; rfl
      call_action := by rw [hcall]; rfl
      loaded := by rw [hcall]; exact hloaded
      verified := hverified
      enacts := henacts
      seeds := hseeds
      moved := hmoved
      holding := hholding
      events_eq := by rw [hcall]; rfl
      loads := hloads }⟩

theorem effect_of_execute {D : Deployment} {inv : Invocation} {chain chain' : Chain}
    {events : List Event} (h : execute D inv chain = .ok (chain', events)) :
    Nonempty (Accepted D inv chain chain' events)
      ∨ Nonempty (Confirmed D inv chain chain' events) :=
  (executed_of_execute h).imp_left (·.map Executed.toAccepted)

/-! ## Reading an effect -/

/-- Every event is about the wallet verification left. -/
theorem Enacts.event_walletId {D : Deployment} {inv : Invocation} {auth : Authorization}
    {chain : Chain} {wallet : SmartWallet} {signer : PublicKey} {after : Option SmartWallet}
    {moves : List Move} {event : Event}
    (h : Enacts D inv auth chain wallet signer after moves event) :
    event.walletId = wallet.walletId := by
  cases h <;> rfl

/-- An instruction that may create the wallet leaves it there, under its key. -/
theorem Enacts.after_of_mayCreate {D : Deployment} {inv : Invocation} {auth : Authorization}
    {chain : Chain} {wallet : SmartWallet} {signer : PublicKey} {after : Option SmartWallet}
    {moves : List Move} {event : Event}
    (h : Enacts D inv auth chain wallet signer after moves event)
    (hcreate : inv.call.mayCreate = true) :
    ∃ wallet', after = some wallet' ∧ wallet'.activeKey = wallet.activeKey := by
  cases h with
  | transferSol | sweepVault | setGuardians | cancelRotation | propose => exact ⟨_, rfl, rfl⟩
  | rotate call | closeWallet call =>
    rw [call] at hcreate
    cases hcreate

/-! Of an instruction whose call is known, there is one rule. -/

section Inversion

variable {D : Deployment} {inv : Invocation} {auth auth' : Authorization} {chain : Chain}
  {wallet : SmartWallet} {signer : PublicKey} {after : Option SmartWallet} {moves : List Move}
  {event : Event} {dest : Pubkey} {relayerFee : UInt64}

/-- What a transfer needs: the active key, and a balance for the amount, the cap and the rent. -/
theorem Enacts.of_transferSol {lamports : UInt64}
    (h : Enacts D inv auth chain wallet signer after moves event)
    (hcall : inv.call = .transferSol auth' dest lamports relayerFee) :
    signer = wallet.activeKey ∧
      lamports.toNat + auth'.maxRelayerFee.toNat + (D.minimumBalance 0).toNat
        ≤ chain.balance inv.accounts.vault := by
  cases h with
  | transferSol call owner covered =>
    rw [hcall] at call
    cases call
    exact ⟨owner, covered⟩
  | sweepVault call | setGuardians call | cancelRotation call | rotate call | propose call
  | closeWallet call =>
    rw [hcall] at call
    cases call

theorem Enacts.of_sweepVault (h : Enacts D inv auth chain wallet signer after moves event)
    (hcall : inv.call = .sweepVault auth' dest relayerFee) : after = some wallet := by
  cases h with
  | transferSol | sweepVault => rfl
  | setGuardians call | cancelRotation call | rotate call | propose call | closeWallet call =>
    rw [hcall] at call
    cases call

theorem Enacts.of_setGuardians {guardians : Vector Guardian MAX_GUARDIANS}
    (h : Enacts D inv auth chain wallet signer after moves event)
    (hcall : inv.call = .setGuardians auth' guardians relayerFee) :
    guardians.any Guardian.isWebAuthn = false ∧
      after = some { wallet with
        guardians := guardians.map GuardianSlot.ofGuardian, rotation := RotationSlot.EMPTY } ∧
      event = .guardiansSet ⟨wallet.walletId, guardians⟩ := by
  cases h with
  | setGuardians call _ supported =>
    rw [hcall] at call
    cases call
    exact ⟨supported, rfl, rfl⟩
  | transferSol call | sweepVault call | cancelRotation call | rotate call | propose call
  | closeWallet call =>
    rw [hcall] at call
    cases call

/-- Only a closing gives the state up. -/
theorem Enacts.exists_closeWallet (h : Enacts D inv auth chain wallet signer none moves event) :
    ∃ dest relayerFee, inv.call = .closeWallet auth dest relayerFee := by
  cases h with
  | closeWallet call => exact ⟨_, _, call⟩

/-- The last move of a closing is all that the payments leave in the state account. -/
theorem Enacts.of_closeWallet (h : Enacts D inv auth chain wallet signer after moves event)
    (hcall : inv.call = .closeWallet auth' dest relayerFee) :
    after = none ∧ inv.accounts.wallet ≠ inv.accounts.relayer ∧
      ∃ (paid : List Move) (rent : ℕ),
        moves = paid ++ [⟨inv.accounts.wallet, inv.accounts.relayer, rent⟩] ∧
        (rent : ℤ) = chain.balance inv.accounts.wallet + netChange paid inv.accounts.wallet := by
  cases h with
  | closeWallet _ _ _ _ relayer_ne emptied => exact ⟨rfl, relayer_ne, [_, _], _, rfl, emptied⟩
  | transferSol call | sweepVault call | setGuardians call | cancelRotation call | rotate call
  | propose call =>
    rw [hcall] at call
    cases call

end Inversion

namespace Accepted

variable {D : Deployment} {inv : Invocation} {chain chain' : Chain} {events : List Event}
  (h : Accepted D inv chain chain' events)

include h

theorem walletId_eq : inv.call.walletId = h.auth.walletId :=
  Call.walletId_of_authorization h.call_authorization

theorem payload_eq :
    inv.payload = some ⟨h.signer, (h.auth.preimage h.action).toBytes⟩ := by
  rw [Invocation.payload, h.call_authorization, h.verified.payload]

theorem signer_eq : inv.signer = some h.signer := Invocation.signer_of_payload h.payload_eq

theorem moved_all : chain.Moved (h.creation ++ h.moves) chain' := h.loaded.moved.trans h.moved

theorem holding_wallet : (chain' inv.accounts.wallet).holding = holdingOf h.after := by
  rw [h.holding, if_pos rfl]

theorem holding_of_ne {a : Pubkey} (ha : a ≠ inv.accounts.wallet) :
    (chain' a).holding = (chain a).holding := by
  rw [h.holding, if_neg ha, h.loaded.holding_of_ne ha]

/-- What a closing pays on is all the state account has when it is closed. -/
theorem closed_balance {auth : Authorization} {dest : Pubkey} {relayerFee : UInt64}
    (call : inv.call = .closeWallet auth dest relayerFee) :
    chain'.balance inv.accounts.wallet = 0 := by
  obtain ⟨-, hne, paid, rent, hmoves, hrent⟩ := h.enacts.of_closeWallet call
  have hmoved := h.moved inv.accounts.wallet
  have hclosed : Move.net ⟨inv.accounts.wallet, inv.accounts.relayer, rent⟩ inv.accounts.wallet
      = -(rent : ℤ) := by
    rw [Move.net, if_neg hne, if_pos rfl, zero_sub]
  rw [hmoves, netChange_append, netChange_cons, netChange_nil, hclosed] at hmoved
  omega

end Accepted

namespace Confirmed

variable {D : Deployment} {inv : Invocation} {chain chain' : Chain} {events : List Event}
  (h : Confirmed D inv chain chain' events)

include h

theorem holding_of_ne {a : Pubkey} (ha : a ≠ inv.accounts.wallet) :
    (chain' a).holding = (chain a).holding := by
  rw [h.chain_eq, Ledger.holding_setHolding_of_ne _ _ ha]

theorem holding_wallet : (chain' inv.accounts.wallet).holding
    = holdingOf (some (h.wallet.rekeyed h.proposal.newKey)) := by
  refine (congrArg (fun l : Chain ↦ (l _).holding) h.chain_eq).trans ?_
  rw [Ledger.holding_setHolding_self]
  rfl

theorem balance_eq (a : Pubkey) : chain'.balance a = chain.balance a := by
  rw [h.chain_eq, Ledger.balance_setHolding]

end Confirmed

/-- An instruction touches no state but that of its own wallet account. -/
theorem holding_of_execute {D : Deployment} {inv : Invocation} {chain chain' : Chain}
    {events : List Event} (h : execute D inv chain = .ok (chain', events)) {a : Pubkey}
    (ha : a ≠ inv.accounts.wallet) : (chain' a).holding = (chain a).holding := by
  rcases effect_of_execute h with ⟨⟨haccepted⟩⟩ | ⟨⟨hconfirmed⟩⟩
  · exact haccepted.holding_of_ne ha
  · exact hconfirmed.holding_of_ne ha

end EnclaveKit
