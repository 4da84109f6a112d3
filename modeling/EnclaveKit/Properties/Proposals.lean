import EnclaveKit.Chain.Presented
import EnclaveKit.Chain.Proposal
import EnclaveKit.Chain.Vectors

/-!
# Whose a proposal is, and for how long

The slot keeps a number: the slot of the guardian that proposed. It is compared, perhaps days later,
with a number computed anew from a list that may name a key more than once. That the two mean the
same guardian is because nothing changes the list under a pending proposal; `set_guardians` clears
both.

While its window is open a proposal can be confirmed and another guardian cannot displace it, and
from the second the window closes it is the other way round. The two conditions are each other's
negation at every time a word can tell, those at which the window saturates included: both compare
with the same `closesAt`.
-/

namespace EnclaveKit

open Solana MachineInt Fallible TransitionSystem

/-- The clock does not go backwards in a run, nor from its end to `now`. -/
def ClockOrdered (tr : List Label) (now : Int64) : Prop :=
  (tr.filterMap Label.time ++ [now]).Pairwise (· ≤ ·)

theorem ClockOrdered.le {tr : List Label} {now time : Int64} (h : ClockOrdered tr now)
    {label : Label} (hmem : label ∈ tr) (htime : label.time = some time) : time ≤ now :=
  (List.pairwise_append.mp h).2.2 time (List.mem_filterMap.mpr ⟨label, hmem, htime⟩) now (by simp)

/-! ## Whose it is -/

/-- In the run, `key` signed the proposal for wallet `w` at the time the proposal says, and the
guardians of the wallet were not set since. -/
def SignedProposal (w : WalletId) (tr : List Label) (key : PublicKey)
    (proposal : PendingRotation) : Prop :=
  ∃ past inv events since auth relayerFee, tr = past ++ .invoke inv events :: since ∧
    inv.call = .proposeRotation auth proposal.newKey relayerFee ∧ auth.walletId = w ∧
    inv.signer = some key ∧ inv.sysvars.unixTimestamp = proposal.proposedAt ∧
    ∀ inv' events' auth' guardians relayerFee', .invoke inv' events' ∈ since →
      inv'.call = .setGuardians auth' guardians relayerFee' → auth'.walletId ≠ w

theorem Opened.signedProposal {D : Deployment} {w : WalletId} {chain₀ chain : Chain}
    {tr : List Label} {wallet : SmartWallet} {proposal : PendingRotation}
    (h : Opened D w chain₀ tr chain wallet proposal) :
    SignedProposal w tr h.guardian proposal := by
  obtain ⟨auth, relayerFee, hcall, hid⟩ := h.proposes.call
  refine ⟨h.past, h.inv, h.events, h.since, auth, relayerFee, h.trace_eq, hcall, hid,
    h.proposes.signer, h.proposes.time, ?_⟩
  intro inv' events' auth' guardians relayerFee' hmem hset hid'
  have hpays := h.pays inv' events' hmem (by rw [hset]; exact hid')
  rw [hset] at hpays
  cases hpays

/-- **A pending proposal belongs to a guardian.** It names a slot that holds a P-256 guardian, which
is the slot the program finds the guardian in; the guardian signed it, not later than now, and the
guardians were not set since. So the guardian may always replace it, and a step that changes the
guardians leaves none. -/
theorem pending_belongs {D : Deployment} {w : WalletId} (hzero : NoZeroKey D)
    (hdist : DistinctAddresses D w) {chain₀ chain : Chain} {tr : List Label}
    (hinit : (system D).init chain₀) (h : (system D).Run chain₀ tr chain) {now : Int64}
    (hclock : ClockOrdered tr now) {wallet : SmartWallet} {proposal : PendingRotation}
    (hstored : stored D chain w = some wallet) (hpending : wallet.rotation.get = some proposal) :
    (∃ hslot : proposal.proposedBy.toNat < MAX_GUARDIANS,
      wallet.guardians[proposal.proposedBy.toNat].kind = .p256 ∧
      wallet.p256Guardian wallet.guardians[proposal.proposedBy.toNat].key
        = some proposal.proposedBy.toNat ∧
      SignedProposal w tr wallet.guardians[proposal.proposedBy.toNat].key proposal) ∧
    proposal.proposedAt ≤ now ∧
    (∀ time, mayPropose D wallet proposal.proposedBy.toNat time = true) ∧
    ∀ label chain' wallet', Step D chain label chain' → stored D chain' w = some wallet' →
      wallet'.guardians ≠ wallet.guardians → wallet'.rotation.get = none := by
  obtain ⟨history⟩ := opened_of_run hzero hdist hinit h hstored hpending
  obtain ⟨hslot, hkind, hkey⟩ := history.listed
  refine ⟨⟨hslot, hkind, ?_, ?_⟩, ?_, fun time ↦ ?_, ?_⟩
  · rw [hkey, history.p256Guardian_eq, history.slot_eq.2]
  · rw [hkey]
    exact history.signedProposal
  · obtain ⟨label, hmem, htime⟩ := history.time
    exact hclock.le hmem htime
  · rw [mayPropose_eq_true]
    intro pending hget
    obtain rfl := Option.some_inj.mp (hpending.symm.trans hget)
    exact .inl rfl
  · intro label chain' wallet' hstep hstored' hchanged
    have hwallet := wallet_step hzero hdist ⟨_, _, hinit, h⟩ hstep
    rw [hstored, hstored'] at hwallet
    by_contra hne
    obtain ⟨proposal', hpending'⟩ := Option.ne_none_iff_exists'.mp hne
    -- What is pending after a step was pending before it or is new, with the guardians there were.
    obtain ⟨before, hbefore, ⟨_, _, _, _, _, _, hsame⟩ | hkeeps⟩ := hwallet.pending hpending'
    · obtain rfl := Option.some_inj.mp hbefore
      exact hchanged hsame
    · obtain rfl := Option.some_inj.mp hbefore
      exact hchanged hkeeps.guardians

/-- The first of two guardians has proposed. -/
theorem pending_belongs_first :
    SignedProposal Vectors.walletId Vectors.proposedTwice.labels Vectors.guardianKey
      ⟨Vectors.nextKey, 1699000000, 0⟩ := by
  have hclock : ClockOrdered Vectors.proposedTwice.labels 1699000000 := by
    simp only [ClockOrdered, Vectors.Stage.labels, Vectors.proposedTwice, trace]
    decide
  obtain ⟨⟨_, -, -, hsigned⟩, -⟩ := pending_belongs Vectors.deployment_noZeroKey
    (Vectors.deployment_distinctAddresses _) Vectors.genesis_init Vectors.proposedTwice.run hclock
    Vectors.proposedTwice.stored_eq rfl
  exact hsigned

/-! ## For how long -/

/-- The signed instructions after which a pending proposal is no more. -/
def Call.clears : Call → Bool
  | .setGuardians _ _ _ | .cancelRotation _ _ | .proposeRotation _ _ _ | .closeWallet _ _ _ => true
  | _ => false

/-- The ways a proposal made by `guardian` may leave the slot of `wallet` before it is expired. -/
inductive Leaves (w : WalletId) (wallet : SmartWallet) (guardian : PublicKey) : Label → Prop where
  | confirmed {inv : Invocation} {events : List Event} (call : inv.call = .confirmRotation w) :
      Leaves w wallet guardian (.invoke inv events)
  | owner {inv : Invocation} {events : List Event} (walletId : inv.call.walletId = w)
      (signer : inv.signer = some wallet.activeKey) (clears : inv.call.clears = true) :
      Leaves w wallet guardian (.invoke inv events)
  | replaced {inv : Invocation} {events : List Event} {auth : Authorization} {newKey : PublicKey}
      {relayerFee : UInt64} (call : inv.call = .proposeRotation auth newKey relayerFee)
      (walletId : auth.walletId = w) (signer : inv.signer = some guardian) :
      Leaves w wallet guardian (.invoke inv events)

/-- A guardian of another slot, whose key is not the active key, proposes. -/
structure Displaces (w : WalletId) (wallet : SmartWallet) (proposal : PendingRotation)
    (inv : Invocation) : Prop where
  call : ∃ auth newKey relayerFee, inv.call = .proposeRotation auth newKey relayerFee ∧
    auth.walletId = w
  guardian : ∃ key slot, inv.signer = some key ∧ key ≠ wallet.activeKey ∧
    wallet.p256Guardian key = some slot ∧ slot ≠ proposal.proposedBy.toNat

section Window

variable {D : Deployment} {w : WalletId} {chain chain' : Chain} {wallet : SmartWallet}
  {proposal : PendingRotation}

/-- What an effect does to a pending proposal: it keeps it, or the owner clears it, or a guardian
replaces it for which the slot is free. -/
theorem Enacts.pending_cases {inv : Invocation} {auth : Authorization} {spent : SmartWallet}
    {signer : PublicKey} {after : Option SmartWallet} {moves : List Move} {event : Event}
    (h : Enacts D inv auth chain spent signer after moves event) :
    (inv.call.pays = true ∧ ∃ wallet', after = some wallet' ∧ wallet'.rotation = spent.rotation) ∨
      signer = spent.activeKey ∧ inv.call.clears = true ∨
      ∃ newKey relayerFee slot, inv.call = .proposeRotation auth newKey relayerFee ∧
        signer ≠ spent.activeKey ∧ spent.p256Guardian signer = some slot ∧
        mayPropose D spent slot inv.sysvars.unixTimestamp = true := by
  cases h with
  | transferSol call | sweepVault call =>
    refine .inl ⟨?_, _, rfl, rfl⟩
    rw [call]
    rfl
  | setGuardians call owner | cancelRotation call owner | rotate call _ owner
  | closeWallet call owner =>
    refine .inr (.inl ⟨owner, ?_⟩)
    rw [call]
    rfl
  | propose call _ not_owner guardian free =>
    exact .inr (.inr ⟨_, _, _, call, not_owner, guardian, free⟩)

/-- **One step.** A pending proposal that is not expired leaves in one of the ways there are. -/
theorem WalletStep.leaves {label : Label} {after : Option SmartWallet} {time : Int64}
    {guardian : PublicKey} (h : WalletStep D w (some wallet) label after)
    (hpending : wallet.rotation.get = some proposal)
    (hguardian : wallet.p256Guardian guardian = some proposal.proposedBy.toNat)
    (htime : label.time = some time) (hopen : time ≤ proposal.closesAt D.build)
    (hleaves : ∀ wallet', after = some wallet' → wallet'.rotation.get ≠ some proposal) :
    Leaves w wallet guardian label := by
  cases h with
  | idle => exact absurd hpending (hleaves wallet rfl)
  | confirmed call => exact .confirmed call
  | @signed inv events _ _ signed =>
    obtain ⟨auth, _, signer, spent, _, _, _, hauth, _, hpayload, hid, _, _, opens, _, enacts, _⟩ :=
      signed
    have hsigner : inv.signer = some signer := inv.signer_of_payload hpayload
    obtain ⟨hkey, hslot, hlist⟩ := opens.kept
    rcases enacts.pending_cases with ⟨-, wallet', hafter, hsame⟩ | ⟨howner, hclears⟩ |
      ⟨newKey, relayerFee, slot, call, -, hfound, hfree⟩
    · refine absurd ?_ (hleaves wallet' hafter)
      rw [hsame, hslot, hpending]
    · rw [howner, hkey] at hsigner
      exact .owner ((Call.walletId_of_authorization hauth).trans hid) hsigner hclears
    · -- Not being expired, it is free only for its own slot, and that holds one key.
      obtain rfl := Option.some_inj.mp htime
      rw [mayPropose_eq_true, hslot] at hfree
      rw [SmartWallet.p256Guardian, hlist] at hfound
      rcases hfree proposal hpending with hown | hexpired
      · rw [← hown] at hfound
        obtain ⟨_, -, hkey₁⟩ := GuardianSlots.p256Guardian_eq_some hfound
        obtain ⟨_, -, hkey₂⟩ := GuardianSlots.p256Guardian_eq_some hguardian
        rw [← hkey₁, hkey₂] at hsigner
        exact .replaced call hid hsigner
      · exact absurd hopen (Int64.not_le.mpr hexpired)

/-- **A step that displaces** a proposal finds it expired. -/
theorem WalletStep.expired_of_displaces {inv : Invocation} {events : List Event}
    {after : Option SmartWallet} (h : WalletStep D w (some wallet) (.invoke inv events) after)
    (hpending : wallet.rotation.get = some proposal)
    (hdisplaces : Displaces w wallet proposal inv) :
    proposal.closesAt D.build < inv.sysvars.unixTimestamp := by
  obtain ⟨⟨auth', newKey', relayerFee', hcall, hid'⟩, key, slot', hsigner, hother, hfound, hne⟩ :=
    hdisplaces
  have hw : inv.call.walletId = w := by
    rw [hcall]
    exact hid'
  obtain ⟨signed⟩ := h.signedStep hw (by rw [hcall]; exact Option.some_ne_none _)
  obtain ⟨auth, _, signer, spent, _, _, _, _, _, hpayload, _, _, _, opens, _, enacts, _⟩ := signed
  have hsigner' : inv.signer = some signer := inv.signer_of_payload hpayload
  obtain rfl := Option.some_inj.mp (hsigner.symm.trans hsigner')
  obtain ⟨hkey, hslot, hlist⟩ := opens.kept
  rcases enacts.pending_cases with ⟨hpays, -⟩ | ⟨howner, -⟩ | ⟨_, _, slot, -, -, hfound', hfree⟩
  · rw [hcall] at hpays
    cases hpays
  · exact absurd (howner.trans hkey) hother
  · rw [mayPropose_eq_true, hslot] at hfree
    rw [SmartWallet.p256Guardian, hlist] at hfound'
    obtain rfl := Option.some_inj.mp (hfound.symm.trans hfound')
    exact (hfree proposal hpending).resolve_left fun hown ↦ hne hown.symm

/-- The account check of a confirmation knows nothing of time. -/
private theorem confirming_ne_rotationExpired {accounts : Accounts} :
    accounts.confirming D w chain ≠ .error EnclaveKitError.rotationExpired := by
  have hload : loadWallet accounts chain ≠ .error EnclaveKitError.rotationExpired := by
    rw [loadWallet]
    split <;> try split_ifs
    all_goals simp
  simp [Accounts.confirming, bind_eq_error, pure_ne_error, hload, checkSeeds, -bind_pure_comp]

private theorem expired_of_confirm {sysvars : Sysvars}
    (h : ConfirmRotation.confirm D sysvars wallet = .error EnclaveKitError.rotationExpired) :
    ∃ proposal, wallet.rotation.get = some proposal ∧
      proposal.closesAt D.build < sysvars.unixTimestamp := by
  simp only [ConfirmRotation.confirm, bind_eq_error, okOr_eq_error, require_eq_error, okOr_eq_ok,
    require_eq_ok, exists_const, pure_ne_error] at h
  rcases h with ⟨-, h⟩ | ⟨proposal, hpending, ⟨-, h⟩ | ⟨-, ⟨hexpired, -⟩ | ⟨-, h⟩⟩⟩
  · cases h
  · cases h
  · exact ⟨proposal, hpending, by simpa using hexpired⟩
  · exact h.elim

/-- A confirmation refused as late finds the pending proposal expired. -/
theorem expired_of_rotationExpired {inv : Invocation} (hzero : NoZeroKey D)
    (hdist : DistinctAddresses D w) (hreach : (system D).Reachable chain)
    (hstored : stored D chain w = some wallet) (hpending : wallet.rotation.get = some proposal)
    (call : inv.call = .confirmRotation w)
    (h : execute D inv chain = .error EnclaveKitError.rotationExpired) :
    proposal.closesAt D.build < inv.sysvars.unixTimestamp := by
  rw [execute, call] at h
  simp only [bind_eq_error] at h
  rcases h with h | ⟨found, hconfirming, h | ⟨_, -, h⟩⟩
  · exact absurd h confirming_ne_rotationExpired
  · obtain ⟨hfound, hseeds⟩ := confirming_eq_ok.mp hconfirming
    have haddress :=
      (invariant_of_reachable hzero hreach _ _ hfound).walletAddress_eq hdist hseeds
    rw [stored_eq_stateAt haddress, stateAt_eq_some.mpr hfound] at hstored
    obtain rfl := Option.some_inj.mp hstored
    obtain ⟨proposal', hpending', hexpired⟩ := expired_of_confirm h
    obtain rfl := Option.some_inj.mp (hpending.symm.trans hpending')
    exact hexpired
  · exact absurd h pure_ne_error

/-- **No guardian displaces another's live proposal.** At no time are both a confirmation and the
replacement by a guardian of another slot accepted, and at no time is a confirmation refused as late
and a guardian's proposal for the slot being taken. A proposal leaves its slot, not later than it
closes, only by its confirmation, by the owner, or by its own guardian; and once another guardian
could replace it, no confirmation confirms it. -/
theorem no_displacement (hzero : NoZeroKey D) (hdist : DistinctAddresses D w)
    (hreach : (system D).Reachable chain) (hstored : stored D chain w = some wallet)
    (hpending : wallet.rotation.get = some proposal) :
    (∀ confirm replace : Invocation, confirm.call = .confirmRotation w →
      Displaces w wallet proposal replace → Admitted D confirm → Admitted D replace →
      confirm.sysvars.unixTimestamp = replace.sysvars.unixTimestamp →
        ¬(accepts D chain confirm = true ∧ accepts D chain replace = true)) ∧
    (∀ (confirm replace : Invocation) (auth : Authorization) (newKey key : PublicKey) (slot : ℕ),
      confirm.call = .confirmRotation w →
      execute D confirm chain = .error EnclaveKitError.rotationExpired →
      confirm.sysvars.unixTimestamp = replace.sysvars.unixTimestamp →
      replace.call = .proposeRotation auth newKey 0 → newKey ≠ zeroKey →
      wallet.p256Guardian key = some slot → Presented D w wallet replace auth key →
      Admitted D replace → wallet.nonce.toNat + 1 < 2 ^ 64 → accepts D chain replace = true) ∧
    (∃ guardian, wallet.p256Guardian guardian = some proposal.proposedBy.toNat ∧
      ∀ label chain' time, Step D chain label chain' → label.time = some time →
        time ≤ proposal.closesAt D.build →
        (∀ wallet', stored D chain' w = some wallet' → wallet'.rotation.get ≠ some proposal) →
          Leaves w wallet guardian label) ∧
    ∀ (slot : ℕ) (now : Int64), slot ≠ proposal.proposedBy.toNat →
      mayPropose D wallet slot now = true →
        ∀ tr label chain₁ chain₂ time, (system D).Run chain tr chain₁ → Step D chain₁ label chain₂ →
          (now :: (tr ++ [label]).filterMap Label.time).Pairwise (· ≤ ·) → Confirms w label time →
          ∀ wallet₁, stored D chain₁ w = some wallet₁ → wallet₁.rotation.get ≠ some proposal := by
  have hstep : ∀ {inv}, Admitted D inv → accepts D chain inv = true →
      WalletStep D w (some wallet) (.invoke inv (emitted D chain inv))
        (stored D (next D chain inv) w) := by
    intro inv hadmitted haccepts
    rw [← hstored]
    exact wallet_step hzero hdist hreach (.invoke hadmitted (execute_of_accepts haccepts))
  refine ⟨?_, ?_, ?_, ?_⟩
  · rintro confirm replace hconfirm hdisplaces hadmitted hadmitted' htime ⟨haccepts, haccepts'⟩
    obtain ⟨wallet', proposal', hwallet', hpending', -, -, hunexpired⟩ :=
      (hstep hadmitted haccepts).confirms ⟨_, _, rfl, hconfirm, rfl⟩
    obtain rfl := Option.some_inj.mp hwallet'
    obtain rfl := Option.some_inj.mp (hpending.symm.trans hpending')
    have hexpired := (hstep hadmitted' haccepts').expired_of_displaces hpending hdisplaces
    rw [PendingRotation.isExpired_eq_false, htime] at hunexpired
    exact absurd hunexpired (Int64.not_le.mpr hexpired)
  · intro confirm replace auth newKey key slot hconfirm hlate htime hcall hnonzero hslot hpresented
      hadmitted hnonce
    have hexpired :=
      expired_of_rotationExpired hzero hdist hreach hstored hpending hconfirm hlate
    rw [htime] at hexpired
    refine hpresented.accepts_propose hzero hdist hreach hstored hnonce hadmitted hcall hnonzero
      hslot
      (mayPropose_eq_true.mpr fun pending hget ↦ ?_)
    obtain rfl := Option.some_inj.mp (hpending.symm.trans hget)
    exact .inr hexpired
  · obtain ⟨chain₀, tr, hinit, hrun⟩ := hreach
    obtain ⟨history⟩ := opened_of_run hzero hdist hinit hrun hstored hpending
    have hguardian : wallet.p256Guardian history.guardian = some proposal.proposedBy.toNat := by
      rw [history.p256Guardian_eq, history.slot_eq.2]
    refine ⟨history.guardian, hguardian, fun label chain' time hlast htime hopen hleaves ↦ ?_⟩
    have hwallet := wallet_step hzero hdist ⟨_, _, hinit, hrun⟩ hlast
    rw [hstored] at hwallet
    exact hwallet.leaves hpending hguardian htime hopen hleaves
  · intro slot now hother hfree tr label chain₁ chain₂ time hrun hlast hclock hconfirms wallet₁
      hstored₁ hpending₁
    have hexpired := (mayPropose_eq_true.mp hfree proposal hpending).resolve_left hother.symm
    have hwallet := wallet_step hzero hdist (hreach.trans hrun) hlast
    obtain ⟨wallet', proposal', hwallet', hpending', -, -, hunexpired⟩ := hwallet.confirms hconfirms
    obtain rfl := Option.some_inj.mp (hstored₁.symm.trans hwallet')
    obtain rfl := Option.some_inj.mp (hpending₁.symm.trans hpending')
    rw [PendingRotation.isExpired_eq_false] at hunexpired
    have hle : now ≤ time := by
      obtain ⟨inv, events, rfl, -, rfl⟩ := hconfirms
      exact (List.pairwise_cons.mp hclock).1 _
        (List.mem_filterMap.mpr ⟨.invoke inv events, by simp, rfl⟩)
    exact absurd (Int64.le_trans hle hunexpired) (Int64.not_le.mpr hexpired)

end Window

/-- The second guardian at the second the first one's proposal opens. -/
theorem no_displacement_opened :
    ¬(accepts Vectors.deployment Vectors.proposedTwice.chain Vectors.confirm = true ∧
      accepts Vectors.deployment Vectors.proposedTwice.chain Vectors.displaceOpened.sent
        = true) := by
  have hpending : Vectors.proposedTwiceWallet.rotation.get
      = some ⟨Vectors.nextKey, 1699000000, 0⟩ := rfl
  obtain ⟨hexclusive, -⟩ := no_displacement Vectors.deployment_noZeroKey
    (Vectors.deployment_distinctAddresses Vectors.walletId) Vectors.proposedTwice.reachable
    Vectors.proposedTwice.stored_eq hpending
  have hdisplaces : Displaces Vectors.walletId Vectors.proposedTwiceWallet
      ⟨Vectors.nextKey, 1699000000, 0⟩ Vectors.displaceOpened.sent :=
    ⟨⟨_, _, _, rfl, rfl⟩,
      ⟨Vectors.secondGuardianKey, 1, Vectors.signer_sent _ rfl, by decide, by decide, by decide⟩⟩
  exact hexclusive _ _ rfl hdisplaces Vectors.admitted_confirm
    (Vectors.admitted_sent (by simp [Vectors.approvals])) rfl

end EnclaveKit
