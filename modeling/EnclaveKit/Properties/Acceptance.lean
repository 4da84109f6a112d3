import EnclaveKit.Chain.Policy
import EnclaveKit.Chain.Vectors

/-!
# What is accepted

The program has some thirty checks in an order of its own, over words, with transfers that may fail
in between. The policy has two questions, asked of unbounded numbers. In every reachable state they
agree: a signed instruction is accepted exactly when the client got its own part right and the
policy allows it. Nothing else can refuse it, and nothing gets around it.

This includes the action that makes the wallet. What others have paid to its address beforehand does
not stand in the way; it is rent the relayer need not advance.

What the program accepts the runtime may undo, over the rent of the vault, the relayer or the
destination (`Step.rentAllowed`).
-/

namespace EnclaveKit

open Solana MachineInt Fallible

/-- The wallet an instruction is judged by, with the client's part done. -/
inductive Opening (D : Deployment) (w : WalletId) (inv : Invocation) (auth : Authorization)
    (signer : PublicKey) (chain : Chain) : SmartWallet → Prop where
  /-- The wallet that is there, while its nonce has a successor. -/
  | found {wallet : SmartWallet} (stored_eq : stored D chain w = some wallet)
      (presented : Presented D w wallet inv auth signer) (room : wallet.nonce.toNat + 1 < 2 ^ 64) :
      Opening D w inv auth signer chain wallet
  /-- The wallet a first action makes. -/
  | first {bumps : Bumps} (first : First D w inv auth signer bumps chain) :
      Opening D w inv auth signer chain (SmartWallet.created w signer bumps)

section Acceptance

variable {D : Deployment} {w : WalletId} {chain : Chain} {inv : Invocation} {auth : Authorization}
  {signer : PublicKey} {wallet : SmartWallet}

/-- The precompile's part of what the client does. -/
theorem Presented.load_eq (h : Presented D w wallet inv auth signer) {action : Encoding.Action}
    (haction : inv.call.action = some action) :
    loadSecp256r1Payload inv.sysvars.previous = .ok ⟨signer, (auth.preimage action).toBytes⟩ := by
  obtain ⟨message, hmessage, hpayload⟩ := h.signed
  have hbytes : (auth.preimage action).toBytes = message := by
    simpa [Call.message, h.call_authorization, haction] using hmessage
  rw [hbytes]
  rw [Invocation.payload, h.call_authorization] at hpayload
  split at hpayload
  · rename_i hload
    rw [Option.some_inj] at hpayload
    rw [hload, hpayload]
  · cases hpayload

theorem Presented.exists_action (h : Presented D w wallet inv auth signer) :
    ∃ action, inv.call.action = some action := by
  obtain ⟨message, hmessage, -⟩ := h.signed
  simp only [Call.message, Option.bind_eq_bind, Option.bind_eq_some_iff] at hmessage
  obtain ⟨_, -, action, haction, -⟩ := hmessage
  exact ⟨action, haction⟩

/-! ## Enough -/

/-- A wallet that is there. -/
private theorem accepts_of_found (hzero : NoZeroKey D) (hdist : DistinctAddresses D w)
    (hreach : (system D).Reachable chain) (hadmitted : Admitted D inv) (hfits : chain.SupplyFits)
    (hstored : stored D chain w = some wallet) (h : Presented D w wallet inv auth signer)
    (hroom : wallet.nonce.toNat + 1 < 2 ^ 64)
    (hentitled : Entitles D inv.call wallet signer inv.sysvars.unixTimestamp)
    (hcovered : Covers D inv.call auth (chain.balance inv.accounts.vault)) :
    accepts D chain inv = true := by
  obtain ⟨hfound, hwellFormed, hid⟩ := wellFormed_of_stored hzero hdist hreach h.wallet_eq hstored
  have hsystem := system_of_stored hzero hdist h.vault_eq hreach hstored
  have hrent := rentExempt_of_reachable hdist h.wallet_eq hreach
  obtain ⟨action, haction⟩ := h.exists_action
  have hne := h.wallet_ne_relayer hadmitted
  have hvault : inv.accounts.vault ≠ inv.accounts.wallet := by
    intro heq
    rw [heq, hfound] at hsystem
    cases hsystem
  have hloads : Loads D inv chain (foundContext chain wallet) := by
    cases hcreate : inv.call.mayCreate with
    | true =>
      have hctx := h.initialized hfound hwellFormed hid hsystem hrent
      exact (loads_iff h.call_authorization).mpr (.inl ⟨hcreate, hctx⟩)
    | false => exact h.loads hadmitted hcreate hfound hwellFormed hid hsystem
  have hallowed : Entitles D inv.call wallet.spend signer inv.sysvars.unixTimestamp := by
    cases hcall : inv.call <;> rw [hcall] at hentitled <;> exact hentitled
  obtain ⟨after, moves, event, henacts⟩ :=
    (exists_enacts_iff h.call_authorization hvault hne).mpr ⟨hallowed, hcovered⟩
  have henabled : Enabled D inv chain (foundContext chain wallet) auth action wallet.spend signer
      after moves event := {
    call_action := haction
    loads := hloads
    verified := h.verified haction hwellFormed.activeKey hroom _
    enacts := henacts
    seeds := h.seeds hwellFormed hid
    system := hsystem
    fits := fun _ ↦ hfits }
  obtain ⟨chain', haccepted, -⟩ := henabled.execute
  rw [accepts, haccepted]

theorem First.verified {bumps : Bumps} (h : First D w inv auth signer bumps chain)
    {action : Encoding.Action} (haction : inv.call.action = some action) :
    Verified D inv.sysvars SmartWallet.zeroed auth action bumps
      (SmartWallet.created w signer bumps).spend signer := by
  have hopened := opened_of_isNew SmartWallet.isNew_zeroed auth signer bumps
  rw [h.walletId] at hopened
  constructor
  · exact h.load_eq haction
  · intro _
    rw [h.walletId]
    exact h.creator
  · rw [hopened]
    exact h.nonce
  · exact h.unexpired
  · rw [hopened]
    rfl
  · rw [hopened]
    rfl

/-- The action that makes the wallet. -/
private theorem accepts_of_first {bumps : Bumps} (hdist : DistinctAddresses D w)
    (hadmitted : Admitted D inv) (hfits : chain.SupplyFits)
    (h : First D w inv auth signer bumps chain)
    (hentitled : Entitles D inv.call (SmartWallet.created w signer bumps) signer
      inv.sysvars.unixTimestamp)
    (hcovered : Covers D inv.call auth (chain.balance inv.accounts.vault)) :
    accepts D chain inv = true := by
  obtain ⟨chain₁, hctx⟩ := h.initialized hadmitted hfits
  obtain ⟨creation, hloaded⟩ := loaded_of_initialized hctx
  obtain ⟨action, haction⟩ := h.exists_action
  have hne := h.wallet_ne_relayer hadmitted
  have hvault : inv.accounts.vault ≠ inv.accounts.wallet :=
    vault_ne_wallet hdist h.vault_eq (Platform.createProgramAddress_of_find h.walletFound)
  have hrelayer : inv.accounts.vault ≠ inv.accounts.relayer := by
    intro heq
    have hseeds := Platform.createProgramAddress_of_find h.vaultFound
    rw [heq] at hseeds
    exact hadmitted.signer h.relayerIsSigner ⟨_, hseeds⟩
  -- Making the account leaves the vault as it was.
  have hbalance : Ledger.balance chain₁ inv.accounts.vault = chain.balance inv.accounts.vault := by
    have hmoved := hloaded.moved inv.accounts.vault
    rw [hloaded.netChange_eq_zero hrelayer hvault] at hmoved
    dsimp only at hmoved
    omega
  rw [← hbalance] at hcovered
  have hallowed : Entitles D inv.call (SmartWallet.created w signer bumps).spend signer
      inv.sysvars.unixTimestamp := by
    cases hcall : inv.call <;> rw [hcall] at hentitled <;> exact hentitled
  obtain ⟨after, moves, event, henacts⟩ :=
    (exists_enacts_iff h.call_authorization hvault hne).mpr ⟨hallowed, hcovered⟩
  have henabled : Enabled D inv chain ⟨chain₁, SmartWallet.zeroed, bumps⟩ auth action
      (SmartWallet.created w signer bumps).spend signer after moves event := {
    call_action := haction
    loads := (loads_iff h.call_authorization).mpr (.inl ⟨h.mayCreate, hctx⟩)
    verified := h.verified haction
    enacts := henacts
    seeds := Platform.createProgramAddress_of_find h.vaultFound
    system := (hloaded.holding_of_ne hvault).trans h.vaultSystem
    fits := fun _ ↦ hloaded.moved.supplyFits hfits }
  obtain ⟨chain', haccepted, -⟩ := henabled.execute
  rw [accepts, haccepted]

/-! ## Needed -/

/-- What was accepted was presented, to the wallet verification opened. -/
private theorem presented_of_executed {chain' : Chain} {events : List Event}
    (h : Executed D inv chain chain' events) (hinv : Invariant D chain)
    (hdist : DistinctAddresses D h.auth.walletId) (hnonce : h.auth.nonce = wallet.nonce) :
    Presented D h.auth.walletId wallet inv h.auth h.signer where
  wallet_eq := h.walletAddress_eq hinv hdist
  vault_eq := h.vaultAddress_eq hinv hdist
  relayerIsSigner := h.loaded.relayerIsSigner
  call_authorization := h.call_authorization
  walletId := rfl
  nonce := hnonce
  unexpired := h.verified.unexpired
  signed := by
    refine ⟨(h.auth.preimage h.action).toBytes, ?_, h.payload_eq⟩
    rw [Call.message, h.call_authorization, h.call_action]
    rfl

theorem opening_of_executed {chain' : Chain} {events : List Event} (hinv : Invariant D chain)
    (hadmitted : Admitted D inv) (h : Executed D inv chain chain' events)
    (hdist : DistinctAddresses D h.auth.walletId) :
    ∃ wallet, Opening D h.auth.walletId inv h.auth h.signer chain wallet ∧
      Entitles D inv.call wallet h.signer inv.sysvars.unixTimestamp ∧
      Covers D inv.call h.auth (chain.balance inv.accounts.vault) := by
  obtain ⟨hentitled, hcovered⟩ := h.enacts.allowed
  have hhas := h.ownVault hadmitted hinv hdist (h.vaultAddress_eq hinv hdist) h.walletId_eq
  rw [hhas.balance_eq] at hcovered
  cases h.origin hinv with
  | @found wallet holding opened nothing nonce_eq nonce_succ spent_eq =>
    have hstored : stored D chain h.auth.walletId = some wallet := by
      rw [stored_eq_stateAt (h.walletAddress_eq hinv hdist), stateAt_eq_some]
      exact holding
    have hword := h.spent.nonce.toNat_lt
    rw [spent_eq] at hentitled
    refine ⟨wallet, .found hstored (presented_of_executed h hinv hdist nonce_eq) (by omega), ?_,
      hcovered⟩
    cases hcall : inv.call <;> rw [hcall] at hentitled <;> exact hentitled
  | @created bumps holding opened mayCreate walletFound vaultFound creator nonce_eq spent_eq =>
    have hctx : inv.accounts.initialized D h.auth.walletId chain = .ok h.ctx := by
      rcases (loads_iff h.call_authorization).mp h.loads with ⟨-, hctx⟩ | ⟨hcreate, -⟩
      · exact hctx
      · rw [hcreate] at mayCreate
        cases mayCreate
    rw [spent_eq] at hentitled
    refine ⟨SmartWallet.created h.auth.walletId h.signer bumps, .first {
      presented_of_executed h hinv hdist nonce_eq with
      mayCreate := mayCreate
      creator := creator
      walletFound := walletFound
      vaultFound := vaultFound
      vacant := holding
      vaultSystem := h.loads.system
      advances := advances_of_initialized hctx holding }, ?_, hcovered⟩
    cases hcall : inv.call <;> rw [hcall] at hentitled <;> exact hentitled

/-! ## Exactly -/

/-- A signed instruction. -/
theorem accepts_signed_iff (hzero : NoZeroKey D) (hdist : DistinctAddresses D auth.walletId)
    (hreach : (system D).Reachable chain) (hadmitted : Admitted D inv) (hfits : chain.SupplyFits)
    (hauth : inv.call.authorization = some auth) :
    accepts D chain inv = true ↔ ∃ signer wallet,
      Opening D auth.walletId inv auth signer chain wallet ∧
      Entitles D inv.call wallet signer inv.sysvars.unixTimestamp ∧
      Covers D inv.call auth (chain.balance inv.accounts.vault) := by
  have hinv := invariant_of_reachable hzero hreach
  constructor
  · intro haccepts
    rcases executed_of_execute (execute_of_accepts haccepts) with ⟨⟨h⟩⟩ | ⟨⟨h⟩⟩
    · obtain rfl := Option.some_inj.mp (hauth.symm.trans h.call_authorization)
      obtain ⟨wallet, hopening, hallowed⟩ := opening_of_executed hinv hadmitted h hdist
      exact ⟨h.signer, wallet, hopening, hallowed⟩
    · rw [h.call] at hauth
      cases hauth
  · rintro ⟨signer, wallet, hopening, hentitled, hcovered⟩
    cases hopening with
    | found hstored hpresented hroom =>
      exact accepts_of_found hzero hdist hreach hadmitted hfits hstored hpresented hroom hentitled
        hcovered
    | first hfirst => exact accepts_of_first hdist hadmitted hfits hfirst hentitled hcovered

/-- A confirmation. -/
theorem accepts_confirm_iff (hzero : NoZeroKey D) (hdist : DistinctAddresses D w)
    (hreach : (system D).Reachable chain) (hcall : inv.call = .confirmRotation w) :
    accepts D chain inv = true ↔ ∃ wallet proposal,
      walletAddress D w = some inv.accounts.wallet ∧ stored D chain w = some wallet ∧
      wallet.rotation.get = some proposal ∧
      proposal.opensAt D.build ≤ inv.sysvars.unixTimestamp ∧
      proposal.isExpired D.build inv.sysvars.unixTimestamp = false := by
  constructor
  · intro haccepts
    obtain ⟨wallet, proposal, hfound, hseeds, hproposal⟩ :=
      (execute_confirmRotation_eq_ok hcall).mp ⟨_, _, execute_of_accepts haccepts⟩
    have haddress := (invariant_of_reachable hzero hreach _ _ hfound).walletAddress_eq hdist hseeds
    have hstored : stored D chain w = some wallet := by
      rw [stored_eq_stateAt haddress, stateAt_eq_some]
      exact hfound
    exact ⟨wallet, proposal, haddress, hstored, hproposal⟩
  · rintro ⟨wallet, proposal, haddress, hstored, hproposal⟩
    obtain ⟨hfound, hwellFormed, hid⟩ := wellFormed_of_stored hzero hdist hreach haddress hstored
    have hseeds := Platform.createProgramAddress_of_find hwellFormed.address
    rw [hid] at hseeds
    obtain ⟨chain', events, hexecute⟩ :=
      (execute_confirmRotation_eq_ok hcall).mpr ⟨wallet, proposal, hfound, hseeds, hproposal⟩
    rw [accepts, hexecute]

end Acceptance

/-- **The policy is what is enforced.** In every reachable state, the program accepts a signed
instruction exactly when, for the key the precompile verified, the client did its part and the
wallet it is judged by, the one that is there or the one it makes, entitles that key to the
instruction, with a vault that covers it. It accepts a confirmation exactly when the wallet has a
proposal that is open and not expired. -/
theorem accepts_iff_policy {D : Deployment} {chain : Chain} {inv : Invocation} (hzero : NoZeroKey D)
    (hdist : DistinctAddresses D inv.call.walletId) (hreach : (system D).Reachable chain)
    (hadmitted : Admitted D inv) (hfits : chain.SupplyFits) :
    (∀ auth, inv.call.authorization = some auth →
      (accepts D chain inv = true ↔ ∃ signer wallet,
        Opening D auth.walletId inv auth signer chain wallet ∧
        Entitles D inv.call wallet signer inv.sysvars.unixTimestamp ∧
        Covers D inv.call auth (chain.balance inv.accounts.vault))) ∧
    ∀ w, inv.call = .confirmRotation w →
      (accepts D chain inv = true ↔ ∃ wallet proposal,
        walletAddress D w = some inv.accounts.wallet ∧ stored D chain w = some wallet ∧
        wallet.rotation.get = some proposal ∧
        proposal.opensAt D.build ≤ inv.sysvars.unixTimestamp ∧
        proposal.isExpired D.build inv.sysvars.unixTimestamp = false) := by
  refine ⟨fun auth hauth ↦ ?_, fun w hcall ↦ ?_⟩
  · rw [Call.walletId_of_authorization hauth] at hdist
    exact accepts_signed_iff hzero hdist hreach hadmitted hfits hauth
  · rw [hcall] at hdist
    exact accepts_confirm_iff hzero hdist hreach hcall

/-- The guardian proposes on the wallet that lists it. -/
theorem accepts_iff_policy_propose : ∃ signer wallet,
    Opening Vectors.deployment Vectors.walletId Vectors.propose.sent (Vectors.header 1 999995000)
      signer Vectors.guarded.chain wallet ∧
    Entitles Vectors.deployment Vectors.propose.call wallet signer Vectors.propose.time ∧
    Covers Vectors.deployment Vectors.propose.call (Vectors.header 1 999995000)
      (Vectors.guarded.chain.balance Vectors.vault) := by
  have haccepts : accepts Vectors.deployment Vectors.guarded.chain Vectors.propose.sent = true := by
    rw [accepts, Vectors.guarded.execute_eq Vectors.proposed _ rfl]
  exact ((accepts_iff_policy Vectors.deployment_noZeroKey (Vectors.deployment_distinctAddresses _)
    Vectors.guarded.reachable (Vectors.admitted_sent (by simp [Vectors.approvals]))
    Vectors.guarded.supplyFits).1 _ rfl).mp haccepts

end EnclaveKit
