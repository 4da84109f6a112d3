import EnclaveKit.Chain.Life
import EnclaveKit.Properties.Signing

/-!
# Replays

All that keeps a message from being accepted again is the nonce, and the nonce is kept in the state
that `close_wallet` gives up. Within a life a message is spent once. After a closing the first
action may make the wallet again, its nonce starts at zero, and the messages of the life before are
as good as they were, that of the closing included, until they expire.

`replay_crosses_closing` says that this is the only way. A message accepted twice was accepted
before a closing and has not expired since.
-/

namespace EnclaveKit

open Solana TransitionSystem

/-! ## Messages in a run -/

/-- A message, under its key, is accepted twice for wallet `w`. -/
def AcceptedTwice (w : WalletId) (tr : List Label) : Prop :=
  ∃ past inv events between inv' events' rest payload,
    tr = past ++ .invoke inv events :: (between ++ .invoke inv' events' :: rest) ∧
    inv.call.walletId = w ∧ inv.payload = some payload ∧ inv'.payload = some payload

/-- No message is ever accepted twice, whatever happens in between. -/
def SpentOnce : Prop :=
  ∀ (D : Deployment) (w : WalletId), NoZeroKey D → DistinctAddresses D w →
    ∀ (chain₀ chain : Chain) (tr : List Label), (system D).init chain₀ →
      (system D).Run chain₀ tr chain → ¬AcceptedTwice w tr

/-- What the instruction accepted after `past` must find for no message to be accepted again: those
accepted for the wallet with its nonce, in a life that was closed since, have expired. -/
def Lapsed (w : WalletId) (past : List Label) (inv : Invocation) : Prop :=
  ∀ earlier inv' events later auth auth',
    past = earlier ++ .invoke inv' events :: later →
    inv'.call.authorization = some auth' → inv.call.authorization = some auth →
    auth'.walletId = w → auth.walletId = w → auth'.nonce = auth.nonce →
    (∃ label ∈ Label.invoke inv' events :: later, Closes w label) →
      auth'.expiresAt ≤ inv.sysvars.unixTimestamp

/-! ## Replays cross a closing -/

/-- **A message accepted twice was accepted before a closing**, and has not expired since. -/
theorem replay_crosses_closing {D : Deployment} {w : WalletId} (hzero : NoZeroKey D)
    (hdist : DistinctAddresses D w) {chain₀ chain : Chain} {past between rest : List Label}
    {inv inv' : Invocation} {events events' : List Event} {payload : SignedPayload}
    (hinit : (system D).init chain₀)
    (h : (system D).Run chain₀
      (past ++ .invoke inv events :: (between ++ .invoke inv' events' :: rest)) chain)
    (hw : inv.call.walletId = w) (hpayload : inv.payload = some payload)
    (hpayload' : inv'.payload = some payload) :
    ∃ auth, inv.call.authorization = some auth ∧ inv'.call.authorization = some auth ∧
      auth.walletId = w ∧ inv'.sysvars.unixTimestamp < auth.expiresAt ∧
      ∃ label ∈ Label.invoke inv events :: between, Closes w label := by
  obtain ⟨chain₁, chain₂, hpast, hstep, hrest⟩ := h.split
  obtain ⟨chain₃, chain₄, hbetween, hstep', -⟩ := hrest.split
  have hreach₁ : (system D).Reachable chain₁ := ⟨_, _, hinit, hpast⟩
  have hreach₂ := hreach₁.step hstep
  -- The message fixes the header, so both are instructions of `w`.
  obtain ⟨auth, hauth, hauth'⟩ : ∃ auth, inv.call.authorization = some auth ∧
      inv'.call.authorization = some auth := by
    cases hstep with
    | invoke _ accepted =>
      cases hstep' with
      | invoke _ accepted' =>
        obtain ⟨auth, _, hauth, hauth', -⟩ :=
          header_of_message accepted accepted' hpayload hpayload' rfl
        exact ⟨auth, hauth, hauth'⟩
  have hid : auth.walletId = w := (Call.walletId_of_authorization hauth).symm.trans hw
  have hw' : inv'.call.walletId = w := (Call.walletId_of_authorization hauth').trans hid
  have hwallet := wallet_step hzero hdist hreach₁ hstep
  have hwallet' := wallet_step hzero hdist (hreach₂.trans hbetween) hstep'
  obtain ⟨signed⟩ := hwallet.signedStep hw (inv.signed_of_payload hpayload)
  obtain ⟨signed'⟩ := hwallet'.signedStep hw' (inv'.signed_of_payload hpayload')
  have hsame : signed.auth = auth := Option.some_inj.mp (signed.call_authorization.symm.trans hauth)
  have hsame' : signed'.auth = auth :=
    Option.some_inj.mp (signed'.call_authorization.symm.trans hauth')
  refine ⟨auth, hauth, hauth', hid, by rw [← hsame']; exact signed'.unexpired, ?_⟩
  -- In one life the nonce the first leaves is already beyond the one the second asks for.
  by_contra hopen
  obtain ⟨wallet₂, hwallet₂, hnonce₂⟩ :=
    signed.survives fun hcloses ↦ hopen ⟨_, List.mem_cons_self, hcloses⟩
  have hrun := wallet_run hzero hdist hreach₂ hbetween
  rw [hwallet₂] at hrun
  obtain ⟨wallet₃, hwallet₃, hle⟩ := survives_of_run hrun fun label hmem hcloses ↦
    hopen ⟨label, List.mem_cons_of_mem _ hmem, hcloses⟩
  have hnonce₃ := signed'.nonce.1 wallet₃ hwallet₃
  rw [hsame'] at hnonce₃
  rw [hnonce₂, hsame, hnonce₃] at hle
  omega

/-- **Spent once, where nonces lapse.** In a run in which every instruction finds that what was
accepted with its nonce in an earlier life has expired, no message is accepted twice. -/
theorem spentOnce_of_lapsed {D : Deployment} {w : WalletId} (hzero : NoZeroKey D)
    (hdist : DistinctAddresses D w) {chain₀ chain : Chain} {tr : List Label}
    (hinit : (system D).init chain₀) (h : (system D).Run chain₀ tr chain)
    (hlapsed : ∀ past inv events rest, tr = past ++ .invoke inv events :: rest →
      Lapsed w past inv) : ¬AcceptedTwice w tr := by
  rintro ⟨past, inv, events, between, inv', events', rest, payload, rfl, hw, hpayload, hpayload'⟩
  obtain ⟨auth, hauth, hauth', hid, hunexpired, hcloses⟩ :=
    replay_crosses_closing hzero hdist hinit h hw hpayload hpayload'
  have hexpired := hlapsed (past ++ .invoke inv events :: between) inv' events' rest (by simp)
    past inv events between auth auth rfl hauth hauth' hid hid rfl hcloses
  exact absurd hunexpired (Int64.not_lt.mpr hexpired)

/-- A sweep and a closing, and another sweep when both have expired. -/
def Vectors.sweptLate : Stage where
  invs := [sweep.sent, close.sent, lateSweep.sent]
  state := some fresh
  funds := 0
  admitted := by simp [approvals]
  computed := by decide +kernel

/-- The wallet made again once everything signed in its first life has expired. -/
theorem spentOnce_of_lapsed_late : ¬AcceptedTwice Vectors.walletId Vectors.sweptLate.labels := by
  refine spentOnce_of_lapsed Vectors.deployment_noZeroKey (Vectors.deployment_distinctAddresses _)
    Vectors.genesis_init Vectors.sweptLate.run fun past inv events rest htr earlier inv' events'
      later auth auth' hpast hauth' hauth _ _ hnonce _ ↦ ?_
  -- Of any two of its instructions, the nonces differ or the first has expired.
  have hpairwise : Vectors.sweptLate.invs.Pairwise
      fun inv' inv ↦ ∀ auth' ∈ inv'.call.authorization, ∀ auth ∈ inv.call.authorization,
        auth'.nonce = auth.nonce → auth'.expiresAt ≤ inv.sysvars.unixTimestamp := by
    decide
  rw [← filterMap_trace Vectors.deployment Vectors.genesis Vectors.sweptLate.invs,
    ← Vectors.Stage.labels, htr, hpast] at hpairwise
  simp only [List.append_assoc, List.cons_append, List.filterMap_append, List.filterMap_cons,
    Label.invocation, List.pairwise_append, List.pairwise_cons] at hpairwise
  exact hpairwise.2.1.1 inv (by simp) auth' hauth' auth hauth hnonce

/-- A sweep and a closing, and the same two messages again. -/
def Vectors.replayed : Stage where
  invs := [sweep.sent, close.sent, sweep.sent, close.sent]
  state := none
  funds := 0
  admitted := by simp [approvals]
  computed := by decide +kernel

/-- A sweep and a closing, and both again. The second closing is the one that was to pass never
again, and the sweep that makes the wallet again takes what came to the vault in between. -/
theorem not_spentOnce : ¬SpentOnce := fun hspent ↦
  hspent Vectors.deployment Vectors.walletId Vectors.deployment_noZeroKey
    (Vectors.deployment_distinctAddresses _) _ _ _ Vectors.genesis_init Vectors.replayed.run
    ⟨[_], Vectors.close.sent, _, [_], Vectors.close.sent, _, [], _, rfl, rfl,
      Vectors.payload_sent _ rfl, Vectors.payload_sent _ rfl⟩

end EnclaveKit
