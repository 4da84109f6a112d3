import EnclaveKit.Chain.Vectors
import EnclaveKit.Chain.Wallet

/-!
# The event log

An indexer that reads only events. `IndexedWallet` is what it knows of a wallet and `observe` what
it does on an event. It sees no account, no amount taken from one, and no instruction, and it ends
up with the wallet as it is on chain.

The indexer is an observer of the wallet's machine: one step of the machine folds its events into
the view of the next state, and a run does by `Run.foldl_view`. That a chain's run is a run of the
machine is `wallet_run`.
-/

namespace EnclaveKit

open Solana TransitionSystem

/-! ## The indexer -/

/-- A proposal, as its event tells it. -/
structure IndexedRotation where
  newKey : PublicKey
  proposedBy : ℕ
  opensAt : Int64
  deriving DecidableEq

/-- A wallet, as its events tell it. -/
structure IndexedWallet where
  activeKey : PublicKey
  guardians : GuardianSlots
  rotation : Option IndexedRotation
  nonce : ℕ
  deriving DecidableEq

namespace IndexedWallet

/-- An action that changes nothing but the nonce. -/
def acted (wallet : IndexedWallet) : IndexedWallet := { wallet with nonce := wallet.nonce + 1 }

/-- What the indexer makes of an event of the wallet. -/
def observe (view : Option IndexedWallet) : Event → Option IndexedWallet
  | .walletCreated e => some {
      activeKey := e.key
      guardians := Vector.replicate MAX_GUARDIANS GuardianSlot.EMPTY
      rotation := none
      nonce := 0 }
  | .solTransferred _ | .vaultSwept _ => view.map acted
  | .guardiansSet e => view.map fun wallet ↦ { wallet.acted with
      guardians := e.guardians.map GuardianSlot.ofGuardian
      rotation := none }
  | .rotationProposed e => view.map fun wallet ↦ { wallet.acted with
      rotation := (wallet.guardians.p256Guardian e.guardian).map fun slot ↦
        { newKey := e.newKey, proposedBy := slot, opensAt := e.opensAt } }
  | .rotationCancelled _ => view.map fun wallet ↦ { wallet.acted with rotation := none }
  | .keyRotated e => view.map fun wallet ↦ {
      (if e.recovery then wallet else wallet.acted) with activeKey := e.newKey, rotation := none }
  | .walletClosed _ => none

/-- The indexer of wallet `w` skips the events of others. -/
def observeOf (w : WalletId) (view : Option IndexedWallet) (event : Event) :
    Option IndexedWallet :=
  if event.walletId = w then observe view event else view

/-- What there is to know of a wallet. -/
def ofWallet (build : Build) (wallet : SmartWallet) : IndexedWallet where
  activeKey := wallet.activeKey
  guardians := wallet.guardians
  rotation := wallet.rotation.get.map fun p ↦
    { newKey := p.newKey, proposedBy := p.proposedBy.toNat, opensAt := p.opensAt build }
  nonce := wallet.nonce.toNat

theorem foldl_observeOf_of_silent {w : WalletId} {events : List Event}
    (h : ∀ event ∈ events, event.walletId ≠ w) (view : Option IndexedWallet) :
    events.foldl (observeOf w) view = view := by
  induction events with
  | nil => rfl
  | cons event events ih =>
    rw [List.foldl_cons, observeOf, if_neg (h event List.mem_cons_self)]
    exact ih fun event' h' ↦ h event' (List.mem_cons_of_mem event h')

end IndexedWallet

/-! ## One step -/

section Step

open IndexedWallet

variable {D : Deployment} {w : WalletId}

/-- The view before the nonce was spent, from the view after. -/
private def unspent (build : Build) (spent : SmartWallet) : IndexedWallet :=
  { ofWallet build spent with nonce := spent.nonce.toNat - 1 }

/-- An effect's event tells its effect, to an indexer that knew the wallet. -/
theorem Enacts.observe_eq {inv : Invocation} {auth : Authorization} {chain : Chain}
    {wallet : SmartWallet} {signer : PublicKey} {after : Option SmartWallet} {moves : List Move}
    {event : Event} (h : Enacts D inv auth chain wallet signer after moves event)
    (hnonce : 0 < wallet.nonce.toNat) :
    observe (some (unspent D.build wallet)) event = after.map (ofWallet D.build) := by
  have hacted : (unspent D.build wallet).acted = ofWallet D.build wallet := by
    simp only [unspent, acted]
    rw [Nat.sub_add_cancel hnonce]
    rfl
  cases h with
  | transferSol | sweepVault => exact congrArg some hacted
  | setGuardians | cancelRotation | rotate =>
    simp only [observe, Option.map_some, hacted]
    rfl
  | @propose newKey relayerFee slot proposal _ _ _ guardian _ proposal_eq =>
    obtain ⟨hslot, -⟩ := GuardianSlots.p256Guardian_eq_some guardian
    have hbyte : (UInt8.ofNat slot).toNat = slot := by
      rw [UInt8.toNat_ofNat', Nat.mod_eq_of_lt]
      exact hslot.trans (by decide)
    have hfound : (unspent D.build wallet).guardians.p256Guardian signer = some slot := guardian
    simp only [observe, Option.map_some, hacted, hfound]
    rw [proposal_eq]
    simp only [ofWallet, RotationSlot.get_new, Option.map_some, hbyte]
  | closeWallet => rfl

/-- A signed step's events tell the step. -/
theorem SignedStep.observe_eq {inv : Invocation} {events : List Event}
    {before after : Option SmartWallet} (h : SignedStep D w inv events before after) :
    events.foldl (observeOf w) (before.map (ofWallet D.build)) = after.map (ofWallet D.build) := by
  have hevent : h.event.walletId = w := h.enacts.event_walletId.trans h.spent_walletId
  have hopened : (createdEvents before.isNone w h.spent).foldl (observeOf w)
        (before.map (ofWallet D.build)) = some (unspent D.build h.spent) ∧
      0 < h.spent.nonce.toNat := by
    obtain ⟨auth, _, signer, spent, _, _, _, _, _, _, rfl, _, _, opens⟩ := h
    cases opens with
    | @found wallet _ nonce_eq nonce_succ spent_eq =>
      refine ⟨?_, by rw [nonce_succ]; exact Nat.succ_pos _⟩
      -- What the indexer knows is what verification found, its nonce not yet spent.
      have hview : unspent D.build spent = ofWallet D.build wallet := by
        rw [unspent, nonce_succ, spent_eq]
        rfl
      rw [hview]
      rfl
    | created =>
      refine ⟨?_, show 0 < (1 : UInt64).toNat by decide⟩
      simp only [createdEvents, Option.isNone_none, ↓reduceIte, List.foldl_cons, List.foldl_nil,
        observeOf, Event.walletId]
      rfl
  refine (congrArg (List.foldl (observeOf w) _) h.events_eq).trans ?_
  rw [List.foldl_append, hopened.1, List.foldl_cons, List.foldl_nil, observeOf, if_pos hevent]
  exact h.enacts.observe_eq hopened.2

/-- **One step.** The events of a step of a wallet's machine tell the step. -/
theorem WalletStep.observe_eq {label : Label} {before after : Option SmartWallet}
    (h : WalletStep D w before label after) :
    label.events.foldl (observeOf w) (before.map (ofWallet D.build))
      = after.map (ofWallet D.build) := by
  cases h with
  | idle _ silent => exact foldl_observeOf_of_silent silent _
  | signed signed => exact signed.observe_eq
  | @confirmed inv events wallet proposal _ walletId _ _ _ events_eq =>
    have hevent : (Event.keyRotated ⟨wallet.walletId, proposal.newKey, true⟩).walletId = w :=
      walletId
    rw [Label.events, events_eq, List.foldl_cons, List.foldl_nil, observeOf, if_pos hevent]
    rfl

end Step

/-! ## Runs -/

/-- The events of an instruction of `w`: `WalletCreated` first if it creates the wallet, for the key
stored, and one event of its own. -/
inductive Announces (D : Deployment) (w : WalletId) :
    Option SmartWallet → Option SmartWallet → List Event → Prop where
  | first {wallet : SmartWallet} {event : Event} (hash : D.sha256 wallet.activeKey.toList = w)
      (own : ∀ e, event ≠ .walletCreated e) :
      Announces D w none (some wallet) [.walletCreated ⟨w, wallet.activeKey⟩, event]
  | later {before : SmartWallet} {after : Option SmartWallet} {event : Event}
      (own : ∀ e, event ≠ .walletCreated e) : Announces D w (some before) after [event]

theorem WalletStep.announces {D : Deployment} {w : WalletId} {inv : Invocation}
    {events : List Event} {before after : Option SmartWallet}
    (h : WalletStep D w before (.invoke inv events) after) (hw : inv.call.walletId = w) :
    Announces D w before after events := by
  cases h with
  | idle other => exact absurd (congrArg some hw) other
  | signed signed =>
    obtain ⟨auth, _, signer, spent, _, _, event, _, _, _, rfl, _, _, opens, _, enacts,
      events_eq⟩ := signed
    have hevent : ∀ e, event ≠ .walletCreated e := by
      rintro e rfl
      cases enacts
    cases opens with
    | found =>
      rw [events_eq]
      exact .later hevent
    | created mayCreate creator =>
      obtain ⟨wallet, rfl, hkey⟩ := enacts.after_of_mayCreate mayCreate
      have hevents : events = [.walletCreated ⟨auth.walletId, wallet.activeKey⟩, event] := by
        rw [events_eq, hkey]
        rfl
      rw [hevents]
      refine .first ?_ hevent
      rw [hkey]
      exact creator
  | confirmed _ _ _ _ _ events_eq =>
    rw [events_eq]
    exact .later fun e h ↦ by cases h

/-- An instruction for another wallet has no event of this one. -/
theorem WalletStep.silent {D : Deployment} {w : WalletId} {inv : Invocation}
    {events : List Event} {before after : Option SmartWallet}
    (h : WalletStep D w before (.invoke inv events) after) (hw : inv.call.walletId ≠ w) :
    ∀ event ∈ events, event.walletId ≠ w := by
  cases h with
  | idle _ silent => exact silent
  | signed signed =>
    have hid := Call.walletId_of_authorization signed.call_authorization
    exact absurd (hid.trans signed.walletId) hw
  | confirmed call => exact absurd (by rw [call]; rfl) hw

/-- **The event log determines the wallet.** Folding the events of a run gives, for every wallet,
what there is to know of it on chain. Its first action of each life, and no other instruction,
announces its creation, with the key stored, which its id is the hash of. -/
theorem events_determine_wallet {D : Deployment} {w : WalletId} (hzero : NoZeroKey D)
    (hdist : DistinctAddresses D w) {chain₀ chain : Chain} {tr : List Label}
    (hinit : (system D).init chain₀) (h : (system D).Run chain₀ tr chain) :
    (tr.flatMap Label.events).foldl (IndexedWallet.observeOf w) none
        = (stored D chain w).map (IndexedWallet.ofWallet D.build) ∧
      ∀ inv events chain', Step D chain (.invoke inv events) chain' →
        (inv.call.walletId = w → Announces D w (stored D chain w) (stored D chain' w) events) ∧
          (inv.call.walletId ≠ w → ∀ event ∈ events, event.walletId ≠ w) := by
  have hreach₀ := Reachable.of_init hinit
  refine ⟨?_, fun inv events chain' hstep ↦ ?_⟩
  · have hrun := wallet_run hzero hdist hreach₀ h
    rw [stored_of_init hinit] at hrun
    exact hrun.foldl_view (I := fun _ ↦ True) trivial (fun _ _ _ _ _ ↦ trivial)
      fun _ _ _ _ hstep ↦ WalletStep.observe_eq hstep
  · have hwallet := wallet_step hzero hdist (hreach₀.trans h) hstep
    exact ⟨hwallet.announces, hwallet.silent⟩

/-- What the events of a guarded wallet with a proposal tell of it, and that its confirmation is one
event. -/
theorem events_determine_wallet_proposed :
    (Vectors.proposed.labels.flatMap Label.events).foldl
        (IndexedWallet.observeOf Vectors.walletId) none = some {
      activeKey := Vectors.deviceKey
      guardians :=
        #v[.ofGuardian (.p256 Vectors.guardianKey), GuardianSlot.EMPTY, GuardianSlot.EMPTY]
      rotation := some { newKey := Vectors.nextKey, proposedBy := 0, opensAt := 1699259200 }
      nonce := 2 } ∧
    ∃ event, emitted Vectors.deployment Vectors.proposed.chain Vectors.confirm = [event] := by
  obtain ⟨hview, hstep⟩ := events_determine_wallet Vectors.deployment_noZeroKey
    (Vectors.deployment_distinctAddresses Vectors.walletId) Vectors.genesis_init
    Vectors.proposed.run
  have hannounces := (hstep _ _ _
    (Vectors.proposed.step Vectors.recovered Vectors.confirm rfl)).1 rfl
  rw [Vectors.proposed.stored_eq] at hview hannounces
  generalize emitted Vectors.deployment Vectors.proposed.chain Vectors.confirm = events
    at hannounces ⊢
  obtain ⟨⟩ | @⟨_, _, event⟩ := hannounces
  exact ⟨hview, event, rfl⟩

end EnclaveKit
