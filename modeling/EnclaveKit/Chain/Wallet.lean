import EnclaveKit.Chain.Invariant

/-!
# One wallet at a time

What a run does to one wallet, told by its id and without accounts. `WalletStep` is that machine:
its state is the wallet, or nothing when there is none, and its labels are those of the chain.

The chain refines it. `wallet_run` says that every run of the chain is, for every wallet id whose
addresses are its own, a run of the machine of that wallet with the same trace. Results about the
history of a wallet are proved on the machine, where an instruction for another wallet is a step
that does nothing.
-/

namespace EnclaveKit

open Solana Fallible

/-- The wallet an instruction is for. -/
def Label.walletId : Label → Option WalletId
  | invoke inv _ => some inv.call.walletId
  | external => none

/-! ## The machine of a wallet -/

/-- From the state there was to the wallet as verification leaves it. -/
inductive Opens (D : Deployment) (inv : Invocation) (auth : Authorization) (signer : PublicKey) :
    Option SmartWallet → SmartWallet → Prop where
  | found {wallet spent : SmartWallet} (nonce_eq : auth.nonce = wallet.nonce)
      (nonce_succ : spent.nonce.toNat = wallet.nonce.toNat + 1)
      (spent_eq : spent = { wallet with nonce := spent.nonce }) :
      Opens D inv auth signer (some wallet) spent
  | created {bumps : Bumps} (mayCreate : inv.call.mayCreate = true)
      (creator : D.sha256 signer.toList = auth.walletId) (nonce_eq : auth.nonce = 0) :
      Opens D inv auth signer none
        { SmartWallet.created auth.walletId signer bumps with nonce := 1 }

/-- Of a wallet that was there, verification spends the nonce and nothing else. -/
theorem Opens.kept {D : Deployment} {inv : Invocation} {auth : Authorization} {signer : PublicKey}
    {wallet spent : SmartWallet} (h : Opens D inv auth signer (some wallet) spent) :
    spent.activeKey = wallet.activeKey ∧ spent.rotation = wallet.rotation ∧
      spent.guardians = wallet.guardians := by
  cases h with
  | found _ _ spent_eq =>
    rw [spent_eq]
    exact ⟨rfl, rfl, rfl⟩

/-- A signed instruction, as its wallet sees it. -/
structure SignedStep (D : Deployment) (w : WalletId) (inv : Invocation) (events : List Event)
    (before after : Option SmartWallet) where
  auth : Authorization
  action : Encoding.Action
  signer : PublicKey
  spent : SmartWallet
  chain : Chain
  moves : List Move
  event : Event
  call_authorization : inv.call.authorization = some auth
  call_action : inv.call.action = some action
  payload : inv.payload = some ⟨signer, (auth.preimage action).toBytes⟩
  walletId : auth.walletId = w
  unexpired : inv.sysvars.unixTimestamp < auth.expiresAt
  nonzero : signer ≠ zeroKey
  opens : Opens D inv auth signer before spent
  spent_walletId : spent.walletId = w
  enacts : Enacts D inv auth chain spent signer after moves event
  events_eq : events = createdEvents before.isNone w spent ++ [event]

inductive WalletStep (D : Deployment) (w : WalletId) :
    Option SmartWallet → Label → Option SmartWallet → Prop where
  | idle {state : Option SmartWallet} {label : Label} (other : label.walletId ≠ some w)
      (silent : ∀ event ∈ label.events, event.walletId ≠ w) : WalletStep D w state label state
  | signed {inv : Invocation} {events : List Event} {before after : Option SmartWallet}
      (signed : SignedStep D w inv events before after) :
      WalletStep D w before (.invoke inv events) after
  | confirmed {inv : Invocation} {events : List Event} {wallet : SmartWallet}
      {proposal : PendingRotation} (call : inv.call = .confirmRotation w)
      (walletId : wallet.walletId = w)
      (pending : wallet.rotation.get = some proposal)
      (opened : proposal.opensAt D.build ≤ inv.sysvars.unixTimestamp)
      (unexpired : proposal.isExpired D.build inv.sysvars.unixTimestamp = false)
      (events_eq : events = [.keyRotated ⟨wallet.walletId, proposal.newKey, true⟩]) :
      WalletStep D w (some wallet) (.invoke inv events) (some (wallet.rekeyed proposal.newKey))

/-- What a signed instruction does to its wallet is a signed step. -/
theorem WalletStep.signedStep {D : Deployment} {w : WalletId} {inv : Invocation}
    {events : List Event} {before after : Option SmartWallet}
    (h : WalletStep D w before (.invoke inv events) after) (hw : inv.call.walletId = w)
    (hsigned : inv.call.authorization ≠ none) :
    Nonempty (SignedStep D w inv events before after) := by
  cases h with
  | idle other => exact absurd (congrArg some hw) other
  | signed signed => exact ⟨signed⟩
  | confirmed call =>
    rw [call] at hsigned
    exact absurd rfl hsigned

/-- The machine of wallet `w`, which starts with no wallet. -/
def walletSystem (D : Deployment) (w : WalletId) :
    TransitionSystem (Option SmartWallet) Label where
  init state := state = none
  step := WalletStep D w

/-! ## Addresses -/

section Addresses

variable {D : Deployment} {w : WalletId}

theorem createProgramAddress_of_walletAddress {a : Pubkey} (h : walletAddress D w = some a) :
    ∃ bump, D.createProgramAddress [WALLET_SEED, w.toList, [bump]] ID = some a := by
  obtain ⟨bump, hfind⟩ := walletAddress_eq_some.mp h
  exact ⟨bump, Platform.createProgramAddress_of_find hfind⟩

theorem createProgramAddress_of_vaultAddress {a : Pubkey} (h : vaultAddress D w = some a) :
    ∃ bump, D.createProgramAddress [VAULT_SEED, w.toList, [bump]] ID = some a := by
  obtain ⟨bump, hfind⟩ := vaultAddress_eq_some.mp h
  exact ⟨bump, Platform.createProgramAddress_of_find hfind⟩

/-- A wallet stored where `w` derives to is `w`'s. -/
theorem WellFormed.walletId_eq {a : Pubkey} {wallet : SmartWallet} {bump : UInt8}
    (h : WellFormed D a wallet) (hdist : DistinctAddresses D w)
    (hseeds : D.createProgramAddress [WALLET_SEED, w.toList, [bump]] ID = some a) :
    wallet.walletId = w :=
  (hdist _ (by simp) _ (by simp) _ _ _ _ hseeds
    (Platform.createProgramAddress_of_find h.address)).2

/-- A wallet stored where `w` derives to is stored at `w`'s address. -/
theorem WellFormed.walletAddress_eq {a : Pubkey} {wallet : SmartWallet} {bump : UInt8}
    (h : WellFormed D a wallet) (hdist : DistinctAddresses D w)
    (hseeds : D.createProgramAddress [WALLET_SEED, w.toList, [bump]] ID = some a) :
    walletAddress D w = some a := by
  have haddress := h.address
  rw [h.walletId_eq hdist hseeds] at haddress
  exact walletAddress_eq_some.mpr ⟨_, haddress⟩

/-- No other wallet's id derives to `w`'s state. -/
theorem ne_walletAddress {w' : WalletId} {a a' : Pubkey} {bump : UInt8}
    (hdist : DistinctAddresses D w) (hne : w' ≠ w) (ha : walletAddress D w = some a)
    (ha' : D.createProgramAddress [WALLET_SEED, w'.toList, [bump]] ID = some a') : a ≠ a' := by
  rintro rfl
  obtain ⟨_, hseeds⟩ := createProgramAddress_of_walletAddress ha
  exact hne (hdist _ (by simp) _ (by simp) _ _ _ _ hseeds ha').2

end Addresses

/-! ## Refinement -/

section Refinement

variable {D : Deployment} {w : WalletId} {inv : Invocation} {chain chain' : Chain}
  {events : List Event}

theorem Accepted.walletAddress_eq (h : Accepted D inv chain chain' events)
    (hinv : Invariant D chain) (hdist : DistinctAddresses D h.auth.walletId) :
    walletAddress D h.auth.walletId = some inv.accounts.wallet := by
  cases h.origin hinv with
  | found holding => exact (hinv _ _ holding).walletAddress_eq hdist h.loaded.walletSeeds
  | created _ _ _ walletFound => exact walletAddress_eq_some.mpr ⟨_, walletFound⟩

theorem Confirmed.walletAddress_eq (h : Confirmed D inv chain chain' events)
    (hinv : Invariant D chain) (hdist : DistinctAddresses D inv.call.walletId) :
    walletAddress D inv.call.walletId = some inv.accounts.wallet :=
  (hinv _ _ h.found).walletAddress_eq hdist h.seeds

theorem Accepted.spent_walletId (h : Accepted D inv chain chain' events)
    (hinv : Invariant D chain) (hdist : DistinctAddresses D h.auth.walletId) :
    h.spent.walletId = h.auth.walletId := by
  cases h.origin hinv with
  | found holding _ _ _ _ spent_eq =>
    rw [spent_eq]
    exact (hinv _ _ holding).walletId_eq hdist h.loaded.walletSeeds
  | created _ _ _ _ _ _ _ spent_eq =>
    rw [spent_eq]
    rfl

theorem Accepted.vaultAddress_eq (h : Accepted D inv chain chain' events)
    (hinv : Invariant D chain) (hdist : DistinctAddresses D h.auth.walletId) :
    vaultAddress D h.auth.walletId = some inv.accounts.vault := by
  have hid := h.spent_walletId hinv hdist
  cases h.origin hinv with
  | found holding _ _ _ _ spent_eq =>
    obtain ⟨v, hv⟩ := (hinv _ _ holding).vault
    have hseeds := h.seeds
    rw [hid] at hseeds
    rw [spent_eq] at hid hseeds
    rw [show _ = h.auth.walletId from hid] at hv
    have hcreate := Platform.createProgramAddress_of_find hv
    obtain rfl : v = inv.accounts.vault :=
      Option.some_inj.mp (hcreate.symm.trans hseeds)
    exact vaultAddress_eq_some.mpr ⟨_, hv⟩
  | created _ _ _ _ vaultFound => exact vaultAddress_eq_some.mpr ⟨_, vaultFound⟩

/-- A signed instruction is a signed step of its wallet's machine. -/
def Accepted.signedStep (h : Accepted D inv chain chain' events) (hzero : NoZeroKey D)
    (hadmitted : Admitted D inv) (hinv : Invariant D chain)
    (hdist : DistinctAddresses D h.auth.walletId) :
    SignedStep D h.auth.walletId inv events (stored D chain h.auth.walletId)
      (stored D chain' h.auth.walletId) where
  auth := h.auth
  action := h.action
  signer := h.signer
  spent := h.spent
  chain := h.ctx.chain
  moves := h.moves
  event := h.event
  call_authorization := h.call_authorization
  call_action := h.call_action
  payload := h.payload_eq
  walletId := rfl
  unexpired := h.verified.unexpired
  nonzero := h.signer_ne_zeroKey hzero hadmitted
  opens := by
    rw [stored_eq_stateAt (h.walletAddress_eq hinv hdist)]
    cases h.origin hinv with
    | found holding _ _ nonce_eq nonce_succ spent_eq =>
      rw [stateAt_eq_some.mpr holding]
      exact .found nonce_eq nonce_succ spent_eq
    | created holding _ mayCreate _ _ creator nonce_eq spent_eq =>
      rw [stateAt_of_holdingOf (show _ = holdingOf none from holding), spent_eq]
      exact .created mayCreate creator nonce_eq
  spent_walletId := h.spent_walletId hinv hdist
  enacts := by
    rw [stored_eq_stateAt (h.walletAddress_eq hinv hdist),
      stateAt_of_holdingOf h.holding_wallet]
    exact h.enacts
  events_eq := by
    refine h.events_eq.trans ?_
    rw [stored_eq_stateAt (h.walletAddress_eq hinv hdist)]
    cases h.origin hinv with
    | found holding opened =>
      rw [stateAt_eq_some.mpr holding, opened, Bool.and_false]
      rfl
    | created holding opened mayCreate =>
      rw [stateAt_of_holdingOf (show _ = holdingOf none from holding), opened, mayCreate]
      rfl

/-- An instruction for another wallet speaks of another wallet. -/
theorem Accepted.event_walletId_ne (h : Accepted D inv chain chain' events)
    (hinv : Invariant D chain) (hdist : DistinctAddresses D w) (hne : h.auth.walletId ≠ w) :
    ∀ event ∈ events, event.walletId ≠ w := by
  have hspent : h.spent.walletId ≠ w := by
    cases h.origin hinv with
    | found holding _ _ _ _ spent_eq =>
      intro hid
      rw [spent_eq] at hid
      have haddress := (hinv _ _ holding).address
      rw [hid] at haddress
      exact ne_walletAddress hdist hne (walletAddress_eq_some.mpr ⟨_, haddress⟩)
        h.loaded.walletSeeds rfl
    | created _ _ _ _ _ _ _ spent_eq =>
      rw [spent_eq]
      exact hne
  intro event hevent
  rw [h.events_eq, List.mem_append, List.mem_singleton, createdEvents] at hevent
  rcases hevent with hcreated | rfl
  · split_ifs at hcreated
    · rw [List.mem_singleton] at hcreated
      rw [hcreated]
      exact hne
    · cases hcreated
  · rw [h.enacts.event_walletId]
    exact hspent

/-- A confirmation for another wallet speaks of another wallet. -/
theorem Confirmed.event_walletId_ne (h : Confirmed D inv chain chain' events)
    (hinv : Invariant D chain) (hdist : DistinctAddresses D w) (hne : inv.call.walletId ≠ w) :
    ∀ event ∈ events, event.walletId ≠ w := by
  intro event hevent
  rw [h.events_eq, List.mem_singleton] at hevent
  rw [hevent]
  intro hid
  have haddress := (hinv _ _ h.found).address
  rw [show h.wallet.walletId = w from hid] at haddress
  exact ne_walletAddress hdist hne (walletAddress_eq_some.mpr ⟨_, haddress⟩) h.seeds rfl

/-- An instruction for another wallet runs on another account. -/
theorem walletAddress_ne {a : Pubkey} (hdist : DistinctAddresses D w)
    (h : execute D inv chain = .ok (chain', events)) (hother : inv.call.walletId ≠ w)
    (ha : walletAddress D w = some a) : a ≠ inv.accounts.wallet := by
  rcases effect_of_execute h with ⟨⟨h⟩⟩ | ⟨⟨h⟩⟩
  · rw [h.walletId_eq] at hother
    exact ne_walletAddress hdist hother ha h.loaded.walletSeeds
  · exact ne_walletAddress hdist hother ha h.seeds

/-- **Wallets are apart.** A step that is not an instruction of the wallet leaves it as it is. -/
theorem Step.stored_eq {label : Label} (hdist : DistinctAddresses D w)
    (h : Step D chain label chain') (hother : label.walletId ≠ some w) :
    stored D chain' w = stored D chain w := by
  refine Option.ext fun wallet ↦ ?_
  rw [stored_eq_some, stored_eq_some]
  refine exists_congr fun a ↦ and_congr_right fun ha ↦ ?_
  cases h with
  | external external => exact external.owned a wallet
  | invoke _ accepted =>
    have hw := fun heq ↦ hother (congrArg some heq)
    rw [holding_of_execute accepted (walletAddress_ne hdist accepted hw ha)]

/-- **One step.** What a step of the chain does to a wallet is a step of its machine. -/
theorem Step.wallet {label : Label} (hzero : NoZeroKey D) (hinv : Invariant D chain)
    (hdist : DistinctAddresses D w) (h : Step D chain label chain') :
    WalletStep D w (stored D chain w) label (stored D chain' w) := by
  -- An instruction of the wallet steps its machine; everything else leaves the machine idle.
  by_cases hlabel : label.walletId = some w
  · cases h with
    | external => cases hlabel
    | @invoke inv events _ admitted accepted =>
      obtain rfl := Option.some_inj.mp hlabel
      rcases effect_of_execute accepted with ⟨⟨h⟩⟩ | ⟨⟨h⟩⟩
      · rw [h.walletId_eq] at hdist ⊢
        exact .signed (h.signedStep hzero admitted hinv hdist)
      · have haddress := h.walletAddress_eq hinv hdist
        rw [stored_eq_stateAt haddress, stored_eq_stateAt haddress, stateAt_eq_some.mpr h.found,
          stateAt_of_holdingOf h.holding_wallet]
        exact .confirmed h.call ((hinv _ _ h.found).walletId_eq hdist h.seeds) h.pending h.opened
          h.unexpired h.events_eq
  · rw [h.stored_eq hdist hlabel]
    refine .idle hlabel fun event hevent ↦ ?_
    cases h with
    | external => cases hevent
    | @invoke inv events _ admitted accepted =>
      have hw : inv.call.walletId ≠ w := fun heq ↦ hlabel (congrArg some heq)
      rcases effect_of_execute accepted with ⟨⟨h⟩⟩ | ⟨⟨h⟩⟩
      · rw [h.walletId_eq] at hw
        exact h.event_walletId_ne hinv hdist hw event hevent
      · exact h.event_walletId_ne hinv hdist hw event hevent

/-- A step of the chain from a reachable state is a step of each wallet's machine. -/
theorem wallet_step {label : Label} (hzero : NoZeroKey D) (hdist : DistinctAddresses D w)
    (hreach : (system D).Reachable chain) (h : Step D chain label chain') :
    WalletStep D w (stored D chain w) label (stored D chain' w) :=
  h.wallet hzero (invariant_of_reachable hzero hreach) hdist

/-- **Refinement.** A run of the chain is, for each wallet, a run of that wallet's machine. -/
theorem wallet_run {tr : List Label} (hzero : NoZeroKey D) (hdist : DistinctAddresses D w)
    (hreach : (system D).Reachable chain) (h : (system D).Run chain tr chain') :
    (walletSystem D w).Run (stored D chain w) tr (stored D chain' w) :=
  h.simulation (T := walletSystem D w) (f := (stored D · w))
    (invariant_of_reachable hzero hreach) (fun _ _ _ hinv ↦ hinv.step hzero)
    fun _ _ _ hinv ↦ Step.wallet hzero hinv hdist

/-- A run of the chain from the start is a run of each wallet's machine from its start. -/
theorem stored_of_init (hinit : (system D).init chain) : stored D chain w = none := by
  rw [Option.eq_none_iff_forall_ne_some]
  intro wallet hstored
  obtain ⟨a, -, howned⟩ := stored_eq_some.mp hstored
  exact hinit a wallet howned

end Refinement

end EnclaveKit
