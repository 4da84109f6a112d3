import EnclaveKit.Chain.Vectors
import EnclaveKit.Chain.Wallet

/-!
# What a signature authorises

A user signs bytes and never sees the instruction that carries them. The program rebuilds the bytes
from the instruction and compares, so an accepted instruction has exactly one message, and the
format being exact, a message has at most one instruction, up to what the relayer asks to be paid.
-/

namespace EnclaveKit

open Solana Fallible Encoding

/-- The instruction with the relayer's request left out: what the user signs. -/
def Call.withoutFee : Call → Call
  | transferSol auth dest lamports _ => .transferSol auth dest lamports 0
  | setGuardians auth guardians _ => .setGuardians auth guardians 0
  | cancelRotation auth _ => .cancelRotation auth 0
  | proposeRotation auth newKey _ => .proposeRotation auth newKey 0
  | confirmRotation walletId => .confirmRotation walletId
  | sweepVault auth dest _ => .sweepVault auth dest 0
  | closeWallet auth dest _ => .closeWallet auth dest 0

private theorem toEncoding_map_injective :
    Function.Injective (Vector.map (n := MAX_GUARDIANS) Guardian.toEncoding) := by
  intro v v' h
  ext i hi
  have hslot := congrArg (fun u : Vector Encoding.Guardian MAX_GUARDIANS ↦ u[i]) h
  simp only [Vector.getElem_map] at hslot
  exact Guardian.toEncoding_injective hslot

/-- The header and the action are the instruction, but for the relayer's request. -/
theorem Call.withoutFee_eq {call call' : Call} {auth : Authorization} {action : Action}
    (hauth : call.authorization = some auth) (hauth' : call'.authorization = some auth)
    (haction : call.action = some action) (haction' : call'.action = some action) :
    call.withoutFee = call'.withoutFee := by
  cases call with
  | confirmRotation => cases hauth
  | setGuardians _ guardians =>
    cases hauth
    cases haction
    cases call' <;> cases hauth' <;> try cases haction'
    rename_i guardians' _
    have hguardians : guardians'.map Guardian.toEncoding = guardians.map Guardian.toEncoding := by
      simpa [Call.action] using haction'
    rw [withoutFee, withoutFee, toEncoding_map_injective hguardians]
  | transferSol | cancelRotation | proposeRotation | sweepVault | closeWallet =>
    cases hauth
    cases haction
    cases call' <;> cases hauth' <;> cases haction'
    rfl

/-- The message of an accepted instruction is the preimage of its own header and action. -/
theorem message_of_execute {D : Deployment} {inv : Invocation} {chain chain' : Chain}
    {events : List Event} {payload : SignedPayload}
    (h : execute D inv chain = .ok (chain', events)) (hpayload : inv.payload = some payload) :
    ∃ auth action, inv.call.authorization = some auth ∧ inv.call.action = some action ∧
      payload.message = (auth.preimage action).toBytes := by
  rcases effect_of_execute h with ⟨⟨haccepted⟩⟩ | ⟨⟨hconfirmed⟩⟩
  · rw [haccepted.payload_eq, Option.some_inj] at hpayload
    exact ⟨_, _, haccepted.call_authorization, haccepted.call_action, by rw [← hpayload]⟩
  · rw [Invocation.payload, hconfirmed.call] at hpayload
    cases hpayload

/-- The header and the action are read back from the preimage. -/
theorem Authorization.preimage_inj {auth auth' : Authorization} {action action' : Action}
    (h : auth.preimage action = auth'.preimage action') : auth = auth' ∧ action = action' := by
  cases auth
  cases auth'
  simpa [Authorization.preimage, and_assoc] using h

/-- Accepted instructions with one message have one header and one action, and the message is their
preimage. -/
theorem header_of_message {D : Deployment} {inv inv' : Invocation}
    {chain chain' after after' : Chain} {events events' : List Event}
    {payload payload' : SignedPayload}
    (h : execute D inv chain = .ok (after, events))
    (h' : execute D inv' chain' = .ok (after', events'))
    (hpayload : inv.payload = some payload) (hpayload' : inv'.payload = some payload')
    (hmessage : payload.message = payload'.message) :
    ∃ auth action, inv.call.authorization = some auth ∧ inv'.call.authorization = some auth ∧
      inv.call.action = some action ∧ inv'.call.action = some action ∧
      payload.message = (auth.preimage action).toBytes := by
  obtain ⟨auth, action, hauth, haction, hbytes⟩ := message_of_execute h hpayload
  obtain ⟨auth', action', hauth', haction', hbytes'⟩ := message_of_execute h' hpayload'
  have hpreimage : auth.preimage action = auth'.preimage action' := by
    refine Preimage.toBytes_injective ?_
    rw [← hbytes, hmessage, hbytes']
  obtain ⟨rfl, rfl⟩ := Authorization.preimage_inj hpreimage
  exact ⟨auth, action, hauth, hauth', haction, haction', hbytes⟩

/-- The action of an instruction is never a token transfer, which no instruction performs. -/
theorem Call.action_ne_transferToken {call : Call} {action : Action}
    (h : call.action = some action) (mint dest : Vector UInt8 32) (amount : UInt64) :
    action ≠ .transferToken mint dest amount := by
  rintro rfl
  cases call <;> cases h

/-- Where the signed accounts of a wallet are, wherever it is in its life. -/
theorem accounts_of_execute {D : Deployment} {inv : Invocation} {chain chain' : Chain}
    {events : List Event} {payload : SignedPayload} (hzero : NoZeroKey D)
    (hdist : DistinctAddresses D inv.call.walletId) (hreach : (system D).Reachable chain)
    (h : execute D inv chain = .ok (chain', events)) (hpayload : inv.payload = some payload) :
    walletAddress D inv.call.walletId = some inv.accounts.wallet ∧
      vaultAddress D inv.call.walletId = some inv.accounts.vault := by
  have hinv := invariant_of_reachable hzero hreach
  rcases effect_of_execute h with ⟨⟨haccepted⟩⟩ | ⟨⟨hconfirmed⟩⟩
  · rw [haccepted.walletId_eq] at hdist ⊢
    exact ⟨haccepted.walletAddress_eq hinv hdist, haccepted.vaultAddress_eq hinv hdist⟩
  · rw [Invocation.payload, hconfirmed.call] at hpayload
    cases hpayload

/-- **A signed message fixes what is executed.** Two accepted instructions whose messages are the
same are the same but for the relayer and what it asks, and act on the same accounts. No other
header or action, tag or program encodes to an accepted message, nor does anything with bytes over
or short. -/
theorem message_fixes_call {D : Deployment} {inv inv' : Invocation}
    {chain chain' after after' : Chain} {events events' : List Event}
    {payload payload' : SignedPayload}
    (h : execute D inv chain = .ok (after, events))
    (h' : execute D inv' chain' = .ok (after', events'))
    (hpayload : inv.payload = some payload) (hpayload' : inv'.payload = some payload')
    (hmessage : payload.message = payload'.message) :
    inv.call.withoutFee = inv'.call.withoutFee ∧
      (NoZeroKey D → DistinctAddresses D inv.call.walletId → (system D).Reachable chain →
        (system D).Reachable chain' →
          inv.accounts.wallet = inv'.accounts.wallet ∧ inv.accounts.vault = inv'.accounts.vault) ∧
      (∀ tag programId walletId nonce expiresAt maxRelayerFee action extra,
        payload.message = Preimage.fieldsCodec.encode
          (tag, programId, walletId, nonce, expiresAt, maxRelayerFee, action) ++ extra →
        extra = [] ∧ tag = DOMAIN_TAG ∧ programId = ID ∧
          ∀ mint dest amount, action ≠ .transferToken mint dest amount) ∧
      ∀ fields missing, payload.message ++ missing = Preimage.fieldsCodec.encode fields →
        missing = [] := by
  obtain ⟨auth, action, hauth, hauth', haction, haction', hbytes⟩ :=
    header_of_message h h' hpayload hpayload' hmessage
  have hwallet : inv.call.walletId = inv'.call.walletId := by
    rw [Call.walletId_of_authorization hauth, Call.walletId_of_authorization hauth']
  refine ⟨Call.withoutFee_eq hauth hauth' haction haction', ?_, ?_, ?_⟩
  · intro hzero hdist hreach hreach'
    obtain ⟨hw, hv⟩ := accounts_of_execute hzero hdist hreach h hpayload
    rw [hwallet] at hdist hw hv
    obtain ⟨hw', hv'⟩ := accounts_of_execute hzero hdist hreach' h' hpayload'
    exact ⟨Option.some_inj.mp (hw.symm.trans hw'), Option.some_inj.mp (hv.symm.trans hv')⟩
  · intro tag programId walletId nonce expiresAt maxRelayerFee action₁ extra hencode
    rw [hbytes, Preimage.toBytes_eq_encode, ← List.append_nil (Preimage.fieldsCodec.encode _)]
      at hencode
    obtain ⟨hfields, hextra⟩ := Codec.append_inj hencode
    simp only [Preimage.fields, Prod.mk.injEq] at hfields
    obtain ⟨htag, hprogram, -, -, -, -, haction₁⟩ := hfields
    refine ⟨hextra.symm, htag.symm, hprogram.symm, ?_⟩
    rw [← haction₁]
    exact Call.action_ne_transferToken haction
  · intro fields missing hencode
    rw [hbytes, Preimage.toBytes_eq_encode, ← List.append_nil (Preimage.fieldsCodec.encode fields)]
      at hencode
    exact (Codec.append_inj hencode).2

/-- The sweep has been paid for. -/
def Vectors.paidSwept : Stage where
  invs := [paidSweep.sent]
  state := some fresh
  funds := 0
  admitted := by simp [approvals]
  computed := by decide +kernel

/-- The sweep given for free and the one the relayer is paid for have the same message. -/
theorem message_fixes_call_sweep :
    Vectors.sweep.sent.call.withoutFee = Vectors.paidSweep.sent.call.withoutFee ∧
      Vectors.sweep.sent.accounts.vault = Vectors.paidSweep.sent.accounts.vault := by
  have hfixes := message_fixes_call
    (Vectors.start.execute_eq Vectors.swept Vectors.sweep.sent rfl)
    (Vectors.start.execute_eq Vectors.paidSwept Vectors.paidSweep.sent rfl)
    (Vectors.payload_sent _ rfl) (Vectors.payload_sent _ rfl) rfl
  exact ⟨hfixes.1, (hfixes.2.1 Vectors.deployment_noZeroKey
    (Vectors.deployment_distinctAddresses _) Vectors.start.reachable Vectors.start.reachable).2⟩

end EnclaveKit
