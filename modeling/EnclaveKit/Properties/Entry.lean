import EnclaveKit.Chain.Vault
import EnclaveKit.Client.Published

/-!
# The entry point

Between the bytes of an instruction and its handler nothing is lost and nothing is made up. What a
client writes for a call is that call, whatever bytes and accounts come after; and what the program
acts on is the encoding of exactly one call, with its accounts in the places of its struct. So the
two levels are one: `processInstruction` on bytes is `execute` on the call, in both directions.

The event tag is no discriminator, so the self-CPI that carries an event never reaches a handler.
-/

namespace EnclaveKit

open Solana Codec

/-! ## What an instruction touches -/

section Touched

variable {D : Deployment} {inv : Invocation} {chain chain' : Chain} {events : List Event}
  {a : Pubkey}

/-- What loses lamports is the relayer's, or an address the program signs for. -/
theorem Accepted.payer (h : Accepted D inv chain chain' events)
    (hlowered : chain'.balance a < chain.balance a) :
    a = inv.accounts.relayer ∨ D.IsDerived ID a := by
  by_contra hneither
  rw [not_or] at hneither
  have hnet : 0 ≤ netChange (h.creation ++ h.moves) a := by
    refine netChange_nonneg fun m hm heq ↦ ?_
    rcases h.source_cases m hm with hsource | hsource | hsource
    · exact hneither.2 ⟨_, by rw [← heq, hsource]; exact h.loaded.vaultSeeds⟩
    · exact hneither.1 (heq.symm.trans hsource)
    · exact hneither.2 ⟨_, by rw [← heq, hsource]; exact h.loaded.walletSeeds⟩
  have hmoved := h.moved_all a
  omega

/-- Every account an instruction may change is writable in the client's list. -/
theorem writable_of_ne {authority : Pubkey} (h : execute D inv chain = .ok (chain', events))
    (hne : chain' a ≠ chain a) :
    ∃ account ∈ inv.call.accountMetas inv.accounts authority, account.pubkey = a ∧
      account.isWritable = true := by
  rcases effect_of_execute h with ⟨⟨h⟩⟩ | ⟨⟨h⟩⟩
  · by_contra hnone
    have hauth := h.call_authorization
    -- Each of the four is in the list, so an account that is not is none of them.
    have hlisted : ∀ account ∈ inv.call.accountMetas inv.accounts authority,
        account.isWritable = true → a ≠ account.pubkey :=
      fun account hmem hwritable heq ↦ hnone ⟨account, hmem, heq.symm, hwritable⟩
    refine hne (h.eq_of_ne (hlisted (.new _ false) ?_ rfl) (hlisted (.new _ false) ?_ rfl)
      (hlisted (.new _ _) (relayer_mem_accountMetas hauth) rfl) fun hdest ↦
        hlisted (.new a false) (dest_mem_accountMetas hauth hdest) rfl rfl)
    · rw [accountMetas_of_authorization hauth]
      exact List.mem_cons_self
    · rw [accountMetas_of_authorization hauth]
      exact List.mem_cons_of_mem _ List.mem_cons_self
  · refine ⟨.new a false, ?_, rfl, rfl⟩
    obtain rfl : a = inv.accounts.wallet := by
      by_contra hother
      exact hne (Ledger.account_eq (h.balance_eq a) (h.holding_of_ne hother))
    rw [h.call]
    exact List.mem_cons_self

end Touched

/-! ## The results -/

/-- **Bytes and calls are one.** What a client sends for a call is executed as that call, whatever
bytes and accounts follow; and whatever is acted on, other than the self-CPI of an event, which does
nothing, begins with the data of a call and lists its accounts. No bytes are the data of two
calls. -/
theorem entry_exact {D : Deployment} {authority : Pubkey} (h : eventAuthority D = some authority) :
    (∀ call accounts more rest sysvars chain,
      processInstruction D
          ⟨ID, Call.accountMetas call accounts authority ++ rest, call.data ++ more⟩ sysvars chain
        = (execute D ⟨call, accounts, sysvars⟩ chain).mapError .handler) ∧
    (∀ ix sysvars chain result, processInstruction D ix sysvars chain = .ok result →
      EVENT_IX_TAG_LE.toList <+: ix.data ∧ result = (chain, []) ∨
      ∃ call accounts, Call.data call <+: ix.data ∧
        Placed ix.accounts (call.accountMetas accounts authority) ∧
        execute D ⟨call, accounts, sysvars⟩ chain = .ok result) ∧
    ∀ call call' data, Call.data call <+: data → Call.data call' <+: data → call.dest = call'.dest →
      call = call' := by
  refine ⟨fun call accounts more rest sysvars chain ↦
    processInstruction_instruction call accounts h more rest, ?_, ?_⟩
  · intro ix sysvars chain result hprocess
    rcases execute_of_processInstruction hprocess with ⟨htag, hevent⟩ | ⟨inv, hinv, hexecute⟩
    · exact .inl ⟨htag, (of_dispatchEvent hevent).1⟩
    · obtain ⟨hdata, rfl, -⟩ := data_of_invocationOf hinv
      obtain ⟨authority', hauthority, hplaced⟩ := placed_of_invocationOf hinv
      obtain rfl := Option.some_inj.mp (h.symm.trans hauthority)
      exact .inr ⟨inv.call, inv.accounts, hdata, hplaced, hexecute⟩
  · intro call call' data hdata hdata' hdest
    exact Call.eq_of_arguments (arguments_eq_of_isPrefix hdata hdata') hdest

/-- The published transfer, with a byte and an account too many. -/
theorem entry_exact_transfer :
    processInstruction Vectors.published
        ⟨ID, Vectors.transfer.call.accountMetas Vectors.accounts Vectors.eventAuthority
          ++ [.newReadonly Vectors.dest false], Vectors.transfer.call.data ++ [0]⟩
        Vectors.transfer.sent.sysvars Vectors.genesis
      = (execute Vectors.published Vectors.transfer.sent Vectors.genesis).mapError .handler :=
  (entry_exact Vectors.eventAuthority_eq).1 _ _ _ _ _ _

/-- **No privilege is exceeded.** An instruction that is accepted changes only accounts the
transaction lists as writable, and takes lamports only from accounts that sign and from addresses of
the program's own. The runtime would undo anything else. -/
theorem privileges_respected {D : Deployment} {ix : TransactionInstruction} {sysvars : Sysvars}
    {chain chain' : Chain} {events : List Event}
    (h : processInstruction D ix sysvars chain = .ok (chain', events)) :
    (∀ a, chain' a ≠ chain a → ∃ account ∈ ix.accounts, account.pubkey = a ∧
      account.isWritable = true) ∧
    ∀ a, chain'.balance a < chain.balance a → D.IsDerived ID a ∨
      ∃ account ∈ ix.accounts, account.pubkey = a ∧ account.isSigner = true := by
  rcases execute_of_processInstruction h with ⟨-, hevent⟩ | ⟨inv, hinv, hexecute⟩
  · cases (of_dispatchEvent hevent).1
    exact ⟨fun a hne ↦ absurd rfl hne, fun a hlt ↦ absurd hlt (lt_irrefl _)⟩
  · obtain ⟨authority, -, hplaced⟩ := placed_of_invocationOf hinv
    refine ⟨fun a hne ↦ ?_, fun a hlowered ↦ ?_⟩
    · obtain ⟨account, hmem, rfl, hwritable⟩ := writable_of_ne hexecute hne
      exact hplaced.writable hmem hwritable
    · rcases effect_of_execute hexecute with ⟨⟨h⟩⟩ | ⟨⟨h⟩⟩
      · rcases h.payer hlowered with rfl | hderived
        · exact .inr (hplaced.signer (relayer_mem_accountMetas h.call_authorization)
            h.loaded.relayerIsSigner)
        · exact .inl hderived
      · rw [h.balance_eq] at hlowered
        exact absurd hlowered (lt_irrefl _)

namespace Vectors

/-- What is accepted is processed. -/
theorem processInstruction_sent (s : Signed) {chain : Chain} {auth : Authorization}
    (hauth : s.call.authorization = some auth) (haccepts : accepts published chain s.sent = true) :
    processInstruction published (s.call.instruction s.accounts eventAuthority) s.sent.sysvars chain
      = .ok (next published chain s.sent, emitted published chain s.sent) := by
  have hinvocation := invocationOf_instruction s.accounts s.sent.sysvars eventAuthority_eq hauth
  rw [processInstruction_of_invocation hinvocation, mapError_eq_ok]
  exact execute_of_accepts haccepts

/-- The device lists a guardian. -/
def postedGuardians : Posted where
  approved := [setGuardians]
  state := some guardedWallet
  signed := by
    intro s hs
    obtain rfl := List.mem_singleton.mp hs
    exact ⟨List.mem_cons_self, Option.some_ne_none _⟩
  computed := by decide +kernel

theorem stateAt_setGuardians :
    stateAt (next published genesis setGuardians.sent) wallet = some guardedWallet := by
  have happroved : postedGuardians.approved = [setGuardians] := rfl
  have hstate := postedGuardians.computed.2
  rw [happroved, List.map_singleton, List.foldl_cons, List.foldl_nil] at hstate
  exact hstate

end Vectors

/-- The wallet's account is made by its first action, and was given to it to write. -/
theorem privileges_respected_first :
    stateAt (next Vectors.published Vectors.genesis Vectors.setGuardians.sent) Vectors.wallet
        ≠ stateAt Vectors.genesis Vectors.wallet ∧
      ∃ account ∈ Vectors.setGuardians.call.accountMetas Vectors.accounts Vectors.eventAuthority,
        account.pubkey = Vectors.wallet ∧ account.isWritable = true := by
  have hprocess := Vectors.processInstruction_sent Vectors.setGuardians rfl
    Vectors.accepts_setGuardians
  have hmade : stateAt (next Vectors.published Vectors.genesis Vectors.setGuardians.sent)
      Vectors.wallet ≠ stateAt Vectors.genesis Vectors.wallet := by
    rw [Vectors.stateAt_setGuardians]
    exact Option.some_ne_none _
  refine ⟨hmade, (privileges_respected hprocess).1 Vectors.wallet fun hsame ↦ hmade ?_⟩
  rw [stateAt, hsame, ← stateAt]

end EnclaveKit
