import EnclaveKit.Chain.Transaction
import EnclaveKit.Client.Published
import EnclaveKit.Properties.Indexer
import EnclaveKit.Properties.Replay

/-!
# Whole transactions

A precompile instruction says nothing of who may use it. The program takes the one before the
top-level instruction it runs under, so a program called in between, or called twice, sees the same
one. What bounds the use of a signature is again the nonce: under one top-level instruction all
signed calls have one message, and no message is accepted twice in a row, not even one that closes
the wallet.

An indexer is handed the record, not the events. It goes by the program and the bytes at two places,
and still ends up with the wallet as it is on chain.
-/

namespace EnclaveKit

open Solana TransitionSystem

/-! ## One message -/

/-- A signed instruction of the program. -/
def Label.isSigned : Label → Bool
  | invoke inv _ => inv.call.authorization.isSome
  | external => false

theorem Label.isSigned_eq_true {label : Label} :
    label.isSigned = true ↔ ∃ inv events, label = .invoke inv events ∧
      inv.call.authorization ≠ none := by
  cases label with
  | external => simp [isSigned]
  | invoke inv events =>
    simp only [isSigned, Option.isSome_iff_ne_none, invoke.injEq]
    exact ⟨fun h ↦ ⟨inv, events, ⟨rfl, rfl⟩, h⟩, fun ⟨_, _, ⟨hinv, _⟩, h⟩ ↦ by rwa [hinv]⟩

/-- If signed, it carries this header and this action. -/
def Carries (auth : Authorization) (action : Encoding.Action) (label : Label) : Prop :=
  ∀ inv events, label = .invoke inv events → inv.call.authorization ≠ none →
    inv.call.authorization = some auth ∧ inv.call.action = some action

/-- After the action: its nonce is behind, or it has closed the wallet. -/
def Spent (auth : Authorization) (action : Encoding.Action) (state : Option SmartWallet) : Prop :=
  (∃ wallet, state = some wallet ∧ auth.nonce.toNat < wallet.nonce.toNat) ∨
    state = none ∧ ∃ dest, action = .closeWallet dest

section Machine

variable {D : Deployment} {auth : Authorization} {action : Encoding.Action} {label : Label}
  {before after : Option SmartWallet}

theorem Opens.mayCreate {inv : Invocation} {signer : PublicKey} {spent : SmartWallet}
    (h : Opens D inv auth signer none spent) : inv.call.mayCreate = true := by
  cases h with
  | created mayCreate => exact mayCreate

/-- The action spends, and is not accepted where it is spent. -/
theorem WalletStep.spends (h : WalletStep D auth.walletId before label after)
    (hcarries : Carries auth action label) (hsigned : label.isSigned = true) :
    Spent auth action after ∧ ¬Spent auth action before := by
  obtain ⟨inv, events, rfl, hcall⟩ := Label.isSigned_eq_true.mp hsigned
  obtain ⟨hauth, haction⟩ := hcarries inv events rfl hcall
  obtain ⟨signed⟩ := h.signedStep (Call.walletId_of_authorization hauth) hcall
  have hsame : signed.auth = auth := Option.some_inj.mp (signed.call_authorization.symm.trans hauth)
  have hnonce := signed.nonce
  rw [hsame] at hnonce
  constructor
  · rcases signed.enacts.nonce with ⟨dest, relayerFee, call⟩ | ⟨wallet, hafter, hkept⟩
    · right
      refine ⟨(signed.enacts.of_closeWallet call).1, dest, ?_⟩
      rw [call] at haction
      exact (Option.some_inj.mp haction).symm
    · left
      exact ⟨wallet, hafter, by rw [hkept, hnonce.2]; exact Nat.lt_succ_self _⟩
  · rintro (⟨wallet, rfl, hlt⟩ | ⟨rfl, dest, rfl⟩)
    · rw [hnonce.1 wallet rfl] at hlt
      exact lt_irrefl _ hlt
    · -- A closing makes no wallet.
      have hcreate := signed.opens.mayCreate
      cases hcases : inv.call <;> rw [hcases] at hcreate haction <;> cases hcreate <;> cases haction

/-- What is not signed leaves it spent. -/
theorem WalletStep.keeps (h : WalletStep D auth.walletId before label after)
    (hunsigned : label.isSigned = false) (hspent : Spent auth action before) :
    Spent auth action after := by
  cases h with
  | idle => exact hspent
  | signed signed =>
    rw [Label.isSigned, signed.call_authorization] at hunsigned
    cases hunsigned
  | confirmed =>
    rcases hspent with ⟨wallet, hwallet, hlt⟩ | ⟨hnone, -⟩
    · cases hwallet
      exact .inl ⟨_, rfl, hlt⟩
    · cases hnone

/-- **One message is accepted once**, in a run whose signed instructions all carry it. -/
theorem once_of_carries {tr : List Label}
    (h : (walletSystem D auth.walletId).Run before tr after)
    (hcarries : ∀ label ∈ tr, Carries auth action label) :
    tr.countP Label.isSigned = 0 ∨ tr.countP Label.isSigned = 1 ∧ Spent auth action after := by
  induction h with
  | nil => exact .inl rfl
  | @snoc tr middle after label run last ih =>
    specialize ih fun label' hmem ↦ hcarries label' (List.mem_append_left _ hmem)
    have hlabel := hcarries label (by simp)
    rw [List.countP_append, List.countP_singleton]
    by_cases hsigned : label.isSigned = true
    · obtain ⟨hspent, hunspent⟩ := WalletStep.spends last hlabel hsigned
      rcases ih with hzero | ⟨-, hbefore⟩
      · right
        rw [hzero, if_pos hsigned]
        exact ⟨rfl, hspent⟩
      · exact absurd hbefore hunspent
    · rw [if_neg hsigned, Nat.add_zero]
      refine ih.imp_right fun ⟨hone, hbefore⟩ ↦ ⟨hone, ?_⟩
      exact WalletStep.keeps last (Bool.eq_false_iff.mpr hsigned) hbefore

end Machine

/-! ## One instruction in view -/

/-- All its instructions have the same one in view. -/
def Sees (previous : Option Instruction) (tr : List Label) : Prop :=
  ∀ inv events, Label.invoke inv events ∈ tr → inv.sysvars.previous = previous

section OneMessage

variable {D : Deployment} {chain chain' : Chain} {tr : List Label} {previous : Option Instruction}

/-- The message of an accepted signed instruction is the one in view. -/
theorem Step.payload {inv : Invocation} {events : List Event}
    (h : Step D chain (.invoke inv events) chain') (hsigned : inv.call.authorization ≠ none) :
    ∃ payload, inv.payload = some payload ∧
      loadSecp256r1Payload inv.sysvars.previous = .ok payload := by
  cases h with
  | invoke _ accepted =>
    rcases effect_of_execute accepted with ⟨⟨h⟩⟩ | ⟨⟨h⟩⟩
    · exact ⟨_, h.payload_eq, h.verified.payload⟩
    · rw [h.call] at hsigned
      exact absurd rfl hsigned

/-- All signed instructions that see the same carry the same. -/
theorem Sees.carries (hsees : Sees previous tr) (hrun : (system D).Run chain tr chain')
    {inv : Invocation} {events : List Event} (hmem : Label.invoke inv events ∈ tr)
    (hsigned : inv.call.authorization ≠ none) :
    ∃ auth action, inv.call.walletId = auth.walletId ∧ ∀ label ∈ tr, Carries auth action label := by
  obtain ⟨chain₁, chain₂, hstep⟩ := hrun.exists_step hmem
  obtain ⟨payload, hpayload, hload⟩ := Step.payload hstep hsigned
  cases hstep with
  | invoke _ accepted =>
    obtain ⟨auth, action, hauth, haction, hbytes⟩ := message_of_execute accepted hpayload
    refine ⟨auth, action, Call.walletId_of_authorization hauth, ?_⟩
    rintro _ hmem' inv' events' rfl hsigned'
    obtain ⟨chain₃, chain₄, hstep'⟩ := hrun.exists_step hmem'
    obtain ⟨payload', hpayload', hload'⟩ := Step.payload hstep' hsigned'
    rw [hsees inv events hmem] at hload
    rw [hsees inv' events' hmem', hload] at hload'
    cases hload'
    cases hstep' with
    | invoke _ accepted' =>
      obtain ⟨auth₁, action₁, h₁, h₁', h₂, h₂', -⟩ :=
        header_of_message accepted accepted' hpayload hpayload' rfl
      rw [hauth, Option.some_inj] at h₁
      rw [haction, Option.some_inj] at h₂
      rw [h₁, h₂]
      exact ⟨h₁', h₂'⟩

/-- **One precompile instruction, one action.** Of the instructions that see the same one, at most
one is signed, and none if it is not for the precompile. -/
theorem Sees.countP_le (hzero : NoZeroKey D) (hdist : ∀ w, DistinctAddresses D w)
    (hreach : (system D).Reachable chain) (hsees : Sees previous tr)
    (hrun : (system D).Run chain tr chain') :
    tr.countP Label.isSigned
      ≤ if ∃ ix, previous = some ix ∧ ix.programId = SECP256R1_PROGRAM_ID then 1 else 0 := by
  by_cases hnone : tr.countP Label.isSigned = 0
  · rw [hnone]
    exact Nat.zero_le _
  · obtain ⟨label, hmem, hsigned⟩ := List.countP_pos_iff.mp (Nat.pos_of_ne_zero hnone)
    obtain ⟨inv, events, rfl, hcall⟩ := Label.isSigned_eq_true.mp hsigned
    obtain ⟨chain₁, chain₂, hstep⟩ := hrun.exists_step hmem
    obtain ⟨payload, -, hload⟩ := Step.payload hstep hcall
    rw [hsees inv events hmem] at hload
    obtain ⟨ix, _, hix, hprogram, -⟩ := ownSignature_of_load hload
    rw [if_pos ⟨ix, hix, hprogram⟩]
    obtain ⟨auth, action, -, hcarries⟩ := hsees.carries hrun hmem hcall
    rcases once_of_carries (wallet_run hzero (hdist auth.walletId) hreach hrun) hcarries with
      hzero' | ⟨hone, -⟩
    · exact absurd hzero' hnone
    · exact hone.le

end OneMessage

/-! ## Transactions -/

section Commit

variable {D : Deployment} {now : Int64} {sysvars : Sysvars}
  {previous : Option TransactionInstruction}
  {ixs record : List TransactionInstruction} {tr : List Label} {chain chain' : Chain}

theorem Activity.sysvars_eq (h : Activity D sysvars chain tr record chain') {inv : Invocation}
    {events : List Event} (hmem : Label.invoke inv events ∈ tr) : inv.sysvars = sysvars := by
  induction h with
  | nil => cases hmem
  | external past external ih =>
    rcases List.mem_append.mp hmem with hmem | hmem
    · exact ih hmem
    · cases List.mem_singleton.mp hmem
  | call past other ih => exact ih hmem
  | invoke past invoked ih =>
    rcases List.mem_append.mp hmem with hmem | hmem
    · exact ih hmem
    · cases List.mem_singleton.mp hmem
      exact invoked.sysvars_eq

/-- All that runs in a top-level instruction sees what it sees. -/
theorem Executes.sysvars_eq {ix : TransactionInstruction}
    (h : Executes D sysvars ix chain tr record chain') {inv : Invocation} {events : List Event}
    (hmem : Label.invoke inv events ∈ tr) : inv.sysvars = sysvars := by
  cases h with
  | program invoked =>
    cases List.mem_singleton.mp hmem
    exact invoked.sysvars_eq
  | precompile => cases hmem
  | other _ _ activity => exact activity.sysvars_eq hmem

/-- An instruction for the precompile. -/
def isPrecompile (ix : TransactionInstruction) : Bool :=
  ix.programId = SECP256R1_PROGRAM_ID

/-- The signed instructions of a transaction are no more than those of the precompile, the one
before it counted. -/
theorem Commits.countP_le (hzero : NoZeroKey D) (hdist : ∀ w, DistinctAddresses D w)
    (hreach : (system D).Reachable chain)
    (hverified : Sysvars.Verified D ⟨previous.map TransactionInstruction.seen, now⟩)
    (h : Commits D now previous ixs chain tr record chain') :
    tr.countP Label.isSigned
      ≤ (previous.toList ++ ixs).countP isPrecompile := by
  induction h with
  | nil => exact Nat.zero_le _
  | @cons previous ix ixs record record' tr tr' chain chain₁ chain' executes rest ih =>
    obtain ⟨hrun, -⟩ := executes.run hverified
    specialize ih (hreach.trans hrun) executes.verified
    have hsees : Sees (previous.map TransactionInstruction.seen) tr := fun inv events hmem ↦ by
      rw [executes.sysvars_eq hmem]
    have hhere := hsees.countP_le hzero hdist hreach hrun
    rw [List.countP_append, List.countP_append]
    have hprevious : (if ∃ ix', previous.map TransactionInstruction.seen = some ix' ∧
        ix'.programId = SECP256R1_PROGRAM_ID then 1 else 0)
          ≤ previous.toList.countP isPrecompile := by
      split_ifs with hsome
      · obtain ⟨ix', hix', hprogram⟩ := hsome
        obtain ⟨p, rfl, rfl⟩ := Option.map_eq_some_iff.mp hix'
        refine (List.countP_pos_iff.mpr ⟨p, ?_, decide_eq_true hprogram⟩)
        exact List.mem_singleton_self p
      · exact Nat.zero_le _
    simp only [Option.toList_some, List.singleton_append] at ih
    omega

/-- What runs in a transaction sees the top-level instruction before the one it runs in. -/
theorem Commits.exists_top (h : Commits D now previous ixs chain tr record chain')
    {inv : Invocation}
    {events : List Event} (hmem : Label.invoke inv events ∈ tr) :
    ∃ before ix after, ixs = before ++ ix :: after ∧ inv.sysvars
      = ⟨(previous.toList ++ before).getLast?.map TransactionInstruction.seen, now⟩ := by
  induction h with
  | nil => cases hmem
  | @cons previous ix ixs record record' tr tr' chain chain₁ chain' executes rest ih =>
    rcases List.mem_append.mp hmem with hmem | hmem
    · refine ⟨[], ix, ixs, rfl, ?_⟩
      rw [executes.sysvars_eq hmem]
      cases previous <;> rfl
    · obtain ⟨before, ix', after, rfl, hsysvars⟩ := ih hmem
      refine ⟨ix :: before, ix', after, rfl, ?_⟩
      rw [hsysvars, Option.toList_some, List.singleton_append, List.getLast?_append_of_ne_nil]
      exact List.cons_ne_nil ix before

/-- The instructions for the precompile have been verified. -/
theorem Commits.verifies (h : Commits D now previous ixs chain tr record chain')
    {ix : TransactionInstruction} (hmem : ix ∈ ixs)
    (hprogram : ix.programId = SECP256R1_PROGRAM_ID) :
    Verifies D ix := by
  induction h with
  | nil => cases hmem
  | cons executes rest ih =>
    rcases List.mem_cons.mp hmem with rfl | hmem
    · have hverified : Sysvars.Verified D ⟨some ix.seen, now⟩ := executes.verified
      exact hverified ix.seen rfl hprogram
    · exact ih hmem

end Commit

/-! ## The results -/

/-- **A signature works in its own transaction, and once.** The signed calls of a committed
transaction, its own and those of the programs it calls, are no more than its precompile
instructions. Each is of exactly the message that one of these verified, and runs under the
top-level instruction after it. -/
theorem signatures_within_transaction {D : Deployment} {now : Int64}
    {ixs record : List TransactionInstruction} {tr : List Label} {chain chain' : Chain}
    (hzero : NoZeroKey D) (hdist : ∀ w, DistinctAddresses D w)
    (hreach : (system D).Reachable chain) (h : Commits D now none ixs chain tr record chain') :
    tr.countP Label.isSigned ≤ ixs.countP isPrecompile ∧
    ∀ inv events, Label.invoke inv events ∈ tr → inv.call.authorization ≠ none →
      ∃ before p ix after key signature message, ixs = before ++ p :: ix :: after ∧
        p.programId = SECP256R1_PROGRAM_ID ∧
        ownSignature p.data = some ⟨key.toList, signature, message⟩ ∧
        D.verifySecp256r1 key.toList signature message = true ∧
        inv.signer = some key ∧ inv.call.message = some message := by
  have hverified : Sysvars.Verified D ⟨(none : Option TransactionInstruction).map
      TransactionInstruction.seen, now⟩ := fun ix hix ↦ by cases hix
  refine ⟨h.countP_le hzero hdist hreach hverified, fun inv events hmem hsigned ↦ ?_⟩
  obtain ⟨chain₁, chain₂, hstep⟩ := (h.run hverified).1.exists_step hmem
  obtain ⟨payload, hpayload, hload⟩ := Step.payload hstep hsigned
  obtain ⟨before, ix, after, hixs, hsysvars⟩ := h.exists_top hmem
  obtain ⟨ix', signature, hprevious, hprogram, hown⟩ := ownSignature_of_load hload
  rw [hsysvars, Option.toList_none, List.nil_append, Option.map_eq_some_iff] at hprevious
  obtain ⟨p, hlast, rfl⟩ := hprevious
  obtain ⟨front, rfl⟩ := List.getLast?_eq_some_iff.mp hlast
  have hmessage : inv.call.message = some payload.message := by
    cases hstep with
    | invoke _ accepted =>
      obtain ⟨auth, action, hauth, haction, hbytes⟩ := message_of_execute accepted hpayload
      rw [Call.message, hauth, haction, hbytes]
      rfl
  refine ⟨front, p, ix, after, payload.pubkey, signature, payload.message, ?_, hprogram, hown, ?_,
    Invocation.signer_of_payload hpayload, hmessage⟩
  · rw [hixs, List.append_assoc, List.singleton_append]
  · refine h.verifies ?_ hprogram _ hown
    rw [hixs]
    simp

/-- The list of guardians, sent: what it makes the wallet do is what the device signed. -/
theorem signatures_within_transaction_guardians :
    ∃ before p ix after key signature message,
      Vectors.setGuardians.pair = before ++ p :: ix :: after ∧
      p.programId = SECP256R1_PROGRAM_ID ∧
      ownSignature p.data = some ⟨key.toList, signature, message⟩ ∧
      Vectors.published.verifySecp256r1 key.toList signature message = true ∧
      Vectors.setGuardians.sent.signer = some key ∧
      Vectors.setGuardians.call.message = some message := by
  obtain ⟨events, record, hcommits⟩ :=
    Vectors.exists_commits (by simp [Vectors.approvals]) rfl Vectors.accepts_setGuardians
  exact (signatures_within_transaction Vectors.published_noZeroKey
    Vectors.published_distinctAddresses (.of_init Vectors.published_init) hcommits).2 _ _
    List.mem_cons_self (Option.some_ne_none _)

/-! ## Indexing the record -/

/-- An inner instruction about wallet `w`, to a filter that looks at two places of its data. -/
def isAbout (w : WalletId) (ix : TransactionInstruction) : Bool :=
  ByteCodec.slice ix.data 16 32 = w.toList

/-- The indexer of wallet `w` over a record. -/
def indexRecord (w : WalletId) (record : List TransactionInstruction) : Option IndexedWallet :=
  ((record.filter (isAbout w)).filterMap Event.read).foldl IndexedWallet.observe none

theorem foldl_observe_filter (w : WalletId) (events : List Event) (view : Option IndexedWallet) :
    (events.filter (·.walletId = w)).foldl IndexedWallet.observe view
      = events.foldl (IndexedWallet.observeOf w) view := by
  induction events generalizing view with
  | nil => rfl
  | cons event events ih =>
    rw [List.foldl_cons, IndexedWallet.observeOf]
    by_cases hw : event.walletId = w
    · have hkeep : decide (event.walletId = w) = true := decide_eq_true hw
      rw [if_pos hw, List.filter_cons, if_pos hkeep, List.foldl_cons, ih]
    · have hdrop : ¬decide (event.walletId = w) = true := by rwa [decide_eq_true_eq]
      rw [if_neg hw, List.filter_cons, if_neg hdrop, ih]

/-- Filtering the bytes is filtering the events. -/
theorem filterMap_read_filter (w : WalletId) (record : List TransactionInstruction) :
    (record.filter (isAbout w)).filterMap Event.read
      = (record.filterMap Event.read).filter (·.walletId = w) := by
  rw [List.filterMap_filter, List.filter_filterMap]
  refine List.filterMap_congr fun ix _ ↦ ?_
  cases hread : Event.read ix with
  | none => rw [ite_self, Option.filter_none]
  | some event =>
    obtain ⟨-, hdata⟩ := Event.read_eq_some.mp hread
    have habout : isAbout w ix = decide (event.walletId = w) := by
      rw [isAbout, ← hdata, Event.slice_cpiCodec]
      exact decide_eq_decide.mpr Vector.toList_inj
    rw [habout, Option.filter_some]

/-- **The record determines the wallet.** -/
theorem record_determines_wallet {D : Deployment} {w : WalletId} (hzero : NoZeroKey D)
    (hdist : DistinctAddresses D w) {chain₀ chain : Chain} {history : List Entry}
    (hinit : (transactions D).init chain₀) (h : (transactions D).Run chain₀ history chain) :
    indexRecord w (history.flatMap Entry.record)
      = (stored D chain w).map (IndexedWallet.ofWallet D.build) := by
  have hrun := wallet_run hzero hdist (Reachable.of_init hinit) (run_of_history h)
  rw [stored_of_init hinit] at hrun
  rw [indexRecord, filterMap_read_filter, foldl_observe_filter, read_of_history h]
  exact hrun.foldl_view (I := fun _ ↦ True) trivial (fun _ _ _ _ _ ↦ trivial)
    fun _ _ _ _ hstep ↦ WalletStep.observe_eq hstep

/-- The record of two transactions: the device lists a guardian, and the guardian proposes. -/
theorem record_determines_wallet_proposal : ∃ history,
    (transactions Vectors.published).Run Vectors.genesis history Vectors.postedProposal.chain ∧
    indexRecord Vectors.walletId (history.flatMap Entry.record) = some {
      activeKey := Vectors.deviceKey
      guardians :=
        #v[.ofGuardian (.p256 Vectors.guardianKey), GuardianSlot.EMPTY, GuardianSlot.EMPTY]
      rotation := some { newKey := Vectors.nextKey, proposedBy := 0, opensAt := 1699259200 }
      nonce := 2 } := by
  obtain ⟨history, hrun⟩ := Vectors.postedProposal.exists_history
  refine ⟨history, hrun, ?_⟩
  rw [record_determines_wallet Vectors.published_noZeroKey
    (Vectors.published_distinctAddresses _) Vectors.published_init hrun,
    Vectors.postedProposal.stored_eq]
  decide

end EnclaveKit
