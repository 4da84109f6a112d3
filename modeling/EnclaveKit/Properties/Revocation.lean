import EnclaveKit.Chain.Life
import EnclaveKit.Properties.Authority

/-!
# A key that was replaced

A key the wallet was moved from signs nothing of it any more, while the wallet lives. A rotation may
bring it back, and as a guardian it may still propose. The third way back is the closing: the first
action of the next life trusts the hash of the key and nothing else, so the key the wallet is named
after, replaced or not, may make the wallet again, and with it has the vault.

The proof goes back from the instruction the key signs. If the key is the active one then, it became
so at a step since it was replaced, and that step is a rotation or a creation.
-/

namespace EnclaveKit

open Solana TransitionSystem

/-! ## Acting again -/

/-- After wallet `w` was moved from `key`, in the step to `moved`, an instruction of it that `key`
signed is accepted. -/
structure ActsAgain (D : Deployment) (w : WalletId) (key : PublicKey) (moved : Chain)
    (tr : List Label) (now : Chain) (inv : Invocation) (events : List Event) : Prop where
  replaced : ∃ chain label before after, (system D).Reachable chain ∧ Step D chain label moved ∧
    stored D chain w = some before ∧ stored D moved w = some after ∧
    before.activeKey = key ∧ after.activeKey ≠ key
  run : (system D).Run moved tr now
  accepted : ∃ chain, Step D now (.invoke inv events) chain
  walletId : inv.call.walletId = w
  signer : inv.signer = some key

/-- A rotation in between makes `key` the active key. -/
def Reinstated (D : Deployment) (w : WalletId) (key : PublicKey) (moved : Chain)
    (tr : List Label) (now : Chain) : Prop :=
  ∃ earlier label later chain chain' before after, tr = earlier ++ label :: later ∧
    (system D).Run moved earlier chain ∧ Step D chain label chain' ∧
    (system D).Run chain' later now ∧
    stored D chain w = some before ∧ stored D chain' w = some after ∧
    before.activeKey ≠ key ∧ after.activeKey = key ∧
    (HandsOver w label before.activeKey key ∨ ∃ time, Confirms w label time)

/-- `key` is a P-256 guardian, and proposes. -/
def ProposesAsGuardian (D : Deployment) (w : WalletId) (key : PublicKey) (now : Chain)
    (inv : Invocation) : Prop :=
  ∃ wallet auth newKey relayerFee, stored D now w = some wallet ∧ Lists wallet key ∧
    inv.call = .proposeRotation auth newKey relayerFee

/-- The wallet was closed in between, and `key`, which `w` is the hash of, makes it again: then, or
with this instruction. -/
def Reopened (D : Deployment) (w : WalletId) (key : PublicKey) (moved : Chain)
    (tr : List Label) : Prop :=
  D.sha256 key.toList = w ∧ ∃ earlier inv events later chain,
    tr = earlier ++ .invoke inv events :: later ∧ (system D).Run moved earlier chain ∧
    (∃ label ∈ earlier, Closes w label) ∧ stored D chain w = none ∧
    inv.call.walletId = w ∧ inv.call.mayCreate = true ∧ inv.signer = some key

/-- A replaced key acts again only if a rotation brought it back, or as a guardian. -/
def RevocationFinal (D : Deployment) : Prop :=
  ∀ (w : WalletId) (key : PublicKey) (moved now : Chain) (tr : List Label) (inv : Invocation)
    (events : List Event), DistinctAddresses D w → ActsAgain D w key moved tr now inv events →
      Reinstated D w key moved tr now ∨ ProposesAsGuardian D w key now inv

/-! ## The three ways back -/

section Ways

variable {D : Deployment} {w : WalletId} {key : PublicKey} {moved now : Chain} {tr : List Label}
  {inv : Invocation} {events : List Event}

/-- Who signs a step: the key that makes the wallet, its active key, or a guardian that proposes. -/
theorem SignedStep.authority {before after : Option SmartWallet}
    (h : SignedStep D w inv events before after) :
    (before = none → inv.call.mayCreate = true ∧ D.sha256 h.signer.toList = w) ∧
      ∀ wallet, before = some wallet → wallet.activeKey ≠ h.signer → Lists wallet h.signer ∧
        ∃ auth newKey relayerFee, inv.call = .proposeRotation auth newKey relayerFee := by
  obtain ⟨auth, _, signer, spent, _, _, _, _, _, _, rfl, _, _, opens, _, enacts, _⟩ := h
  cases opens with
  | created mayCreate creator => exact ⟨fun _ ↦ ⟨mayCreate, creator⟩, by simp⟩
  | found _ _ spent_eq =>
    refine ⟨by simp, ?_⟩
    rintro wallet ⟨⟩ hother
    have hauthority := enacts.authority
    rw [spent_eq] at hauthority
    rcases hauthority with howner | hguardian
    · exact absurd howner.symm hother
    · exact ⟨hguardian.lists, _, hguardian.call⟩

/-- A wallet that was there and is not was closed in between. -/
theorem closed_of_stored (hzero : NoZeroKey D) (hdist : DistinctAddresses D w)
    (hreach : (system D).Reachable moved) (h : (system D).Run moved tr now) {wallet : SmartWallet}
    (hmoved : stored D moved w = some wallet) (hnow : stored D now w = none) :
    ∃ label ∈ tr, Closes w label := by
  have hrun := wallet_run hzero hdist hreach h
  rw [hmoved, hnow] at hrun
  exact closed_of_run hrun

/-- A key that became the active one was made so by a rotation, or made the wallet again. -/
theorem reinstated_or_reopened (hzero : NoZeroKey D) (hdist : DistinctAddresses D w)
    (hreach : (system D).Reachable moved) (h : (system D).Run moved tr now)
    {after wallet : SmartWallet} (hmoved : stored D moved w = some after)
    (hafter : after.activeKey ≠ key) (hnow : stored D now w = some wallet)
    (hwallet : wallet.activeKey = key) :
    Reinstated D w key moved tr now ∨ Reopened D w key moved tr := by
  obtain ⟨earlier, label, later, chain, chain', rfl, hearlier, hnot, hstep, hsome, hlater⟩ :=
    h.since (P := fun chain ↦ (stored D chain w).map SmartWallet.activeKey = some key)
      (by simpa [hmoved] using hafter) (by simp [hnow, hwallet])
  obtain ⟨wallet', hstored', hkey'⟩ := Option.map_eq_some_iff.mp hsome
  have hwalletStep := wallet_step hzero hdist (hreach.trans hearlier) hstep
  rw [hstored'] at hwalletStep
  cases hstored : stored D chain w with
  | none =>
    rw [hstored] at hwalletStep
    obtain ⟨inv, events, rfl, hid, hcreate, hsigner, hhash⟩ := hwalletStep.creates
    rw [hkey'] at hsigner hhash
    exact .inr ⟨hhash, earlier, inv, events, later, chain, rfl, hearlier,
      closed_of_stored hzero hdist hreach hearlier hmoved hstored, hstored, hid, hcreate, hsigner⟩
  | some before =>
    rw [hstored] at hwalletStep hnot
    have hbefore : before.activeKey ≠ key := fun h ↦ hnot (congrArg some h)
    have hchange := hwalletStep.activeKey (by rw [hkey']; exact hbefore.symm)
    rw [hkey'] at hchange
    exact .inl ⟨earlier, label, later, chain, chain', before, wallet', rfl, hearlier, hstep,
      hlater.of_within, hstored, hstored', hbefore, hkey', hchange⟩

/-- **The ways back.** A replaced key acts again only if a rotation brought it back, or as a
guardian that proposes, or if the wallet was closed and it made the wallet again, being the key the
wallet is named after. -/
theorem ways_back (hzero : NoZeroKey D) (hdist : DistinctAddresses D w)
    (h : ActsAgain D w key moved tr now inv events) :
    Reinstated D w key moved tr now ∨ ProposesAsGuardian D w key now inv ∨
      Reopened D w key moved (tr ++ [.invoke inv events]) := by
  obtain ⟨chain, label, _, after, hreach, hstep, -, hmoved, -, hafter⟩ := h.replaced
  obtain ⟨chain', haccepted⟩ := h.accepted
  obtain ⟨payload, hpayload, hkey⟩ := Option.map_eq_some_iff.mp h.signer
  have hreach' := hreach.step hstep
  have hwalletStep := wallet_step hzero hdist (hreach'.trans h.run) haccepted
  obtain ⟨signed⟩ := hwalletStep.signedStep h.walletId (Invocation.signed_of_payload hpayload)
  have hsigner : signed.signer = key := by
    rw [← hkey, Option.some_inj.mp (hpayload.symm.trans signed.payload)]
  have hauthority := signed.authority
  rw [hsigner] at hauthority
  cases hstored : stored D now w with
  | none =>
    -- The key makes the wallet again with this instruction.
    obtain ⟨hcreate, hhash⟩ := hauthority.1 hstored
    exact .inr (.inr ⟨hhash, tr, inv, events, [], now, rfl, h.run,
      closed_of_stored hzero hdist hreach' h.run hmoved hstored, hstored, h.walletId, hcreate,
      h.signer⟩)
  | some wallet =>
    by_cases howner : wallet.activeKey = key
    · rcases reinstated_or_reopened hzero hdist hreach' h.run hmoved hafter hstored howner with
        hreinstated | ⟨hhash, earlier, inv', events', later, chain₁, htr, hreopened⟩
      · exact .inl hreinstated
      · refine .inr (.inr ⟨hhash, earlier, inv', events', later ++ [.invoke inv events], chain₁, ?_,
          hreopened⟩)
        rw [htr, List.append_assoc, List.cons_append]
    · obtain ⟨hlists, auth, newKey, relayerFee, hcall⟩ := hauthority.2 wallet hstored howner
      exact .inr (.inl ⟨wallet, auth, newKey, relayerFee, hstored, hlists, hcall⟩)

end Ways

/-! ## The third way is open

The device hands over to the next, which closes the wallet, and the device makes it again. -/

namespace Vectors

/-- The device makes the wallet again. -/
def reopened : Stage where
  invs := [setGuardians.sent, rotate.sent, nextClose.sent, sweep.sent]
  state := some fresh
  funds := 0
  admitted := by simp [approvals]
  computed := by decide +kernel

theorem device_actsAgain : ActsAgain deployment walletId deviceKey handedOver.chain
    [.invoke nextClose.sent (emitted deployment handedOver.chain nextClose.sent)] closed.chain
    sweep.sent (emitted deployment closed.chain sweep.sent) where
  replaced := ⟨_, _, guardedWallet, rotatedWallet, guarded.reachable,
    guarded.step handedOver rotate.sent rfl, guarded.stored_eq, handedOver.stored_eq, rfl,
    nextKey_ne_deviceKey⟩
  run := .single (handedOver.step closed nextClose.sent rfl)
  accepted := ⟨_, closed.step reopened sweep.sent rfl⟩
  walletId := rfl
  signer := signer_sent sweep rfl

/-- Nothing brought the device back, and it does not act as a guardian. -/
theorem device_not_reinstated :
    ¬(Reinstated deployment walletId deviceKey handedOver.chain
        [.invoke nextClose.sent (emitted deployment handedOver.chain nextClose.sent)]
        closed.chain ∨
      ProposesAsGuardian deployment walletId deviceKey closed.chain sweep.sent) := by
  rintro (⟨_, label, _, _, _, _, _, htr, -, -, -, -, -, -, -, hrotates⟩ |
    ⟨_, _, _, _, -, -, hcall⟩)
  · have hlabel : label
        = .invoke nextClose.sent (emitted deployment handedOver.chain nextClose.sent) := by
      rw [← List.mem_singleton, htr]
      simp
    subst hlabel
    rcases hrotates with ⟨_, _, _, _, hinv, hcall, -⟩ | ⟨_, _, _, hinv, hcall, -⟩ <;>
    · cases hinv
      cases hcall
  · cases hcall

end Vectors

theorem not_revocationFinal : ¬RevocationFinal Vectors.deployment := fun hfinal ↦
  Vectors.device_not_reinstated
    (hfinal _ _ _ _ _ _ _ (Vectors.deployment_distinctAddresses _) Vectors.device_actsAgain)

/-- The device is back by the third way. -/
theorem ways_back_reopened : Reopened Vectors.deployment Vectors.walletId Vectors.deviceKey
    Vectors.handedOver.chain
    [.invoke Vectors.nextClose.sent
        (emitted Vectors.deployment Vectors.handedOver.chain Vectors.nextClose.sent),
      .invoke Vectors.sweep.sent
        (emitted Vectors.deployment Vectors.closed.chain Vectors.sweep.sent)] := by
  rcases ways_back Vectors.deployment_noZeroKey (Vectors.deployment_distinctAddresses _)
    Vectors.device_actsAgain with h | h | h
  · exact absurd (.inl h) Vectors.device_not_reinstated
  · exact absurd (.inr h) Vectors.device_not_reinstated
  · exact h

end EnclaveKit
