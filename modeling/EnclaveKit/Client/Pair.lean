import EnclaveKit.Client.Request

/-!
# The signed pair

The two instructions a client sends, as a transaction. It runs the call it was made for and nothing
else: the precompile verifies the signature and leaves everything as it is, and the second
instruction sees the first. So the pair commits exactly when the call is accepted.
-/

namespace EnclaveKit

open Solana

section Pair

variable {D : Deployment} {call : Call} {auth : Authorization}
  {key : EnclaveKey} {authority : Pubkey} {now : Int64} {chain : Chain}

/-- The invocation the second of the pair is. -/
def pairInvocation (key : EnclaveKey) (message : List UInt8) (accounts : Accounts) (call : Call)
    (now : Int64) : Invocation :=
  ⟨call, accounts, ⟨some (key.precompileInstruction message).seen, now⟩⟩

theorem invocationOf_instruction (accounts : Accounts) (sysvars : Sysvars)
    (hauthority : eventAuthority D = some authority) (hauth : call.authorization = some auth) :
    invocationOf D sysvars (call.instruction accounts authority)
      = some ⟨call, accounts, sysvars⟩ := by
  have hsigned : call.authorization ≠ none := by
    rw [hauth]
    exact Option.some_ne_none auth
  obtain ⟨dest, hdest, hload⟩ := loadAccounts_accountMetas [] call accounts hauthority hsigned
  rw [List.append_nil] at hload
  refine invocationOf_eq_some.mpr ⟨call.arguments, accounts, dest, ?_, hload, ?_⟩
  · exact Codec.decodeFront_eq_some.mpr List.prefix_rfl
  · rw [Call.ofArguments_arguments hdest]

/-- Only the relayer signs. -/
theorem privileged_instruction {accounts : Accounts} (hrelayer : ¬D.IsDerived ID accounts.relayer) :
    Privileged D (call.instruction accounts authority) := by
  intro account hmem hsigner
  change account ∈ call.accountMetas accounts authority at hmem
  cases hauth : call.authorization with
  | none =>
    cases call with
    | confirmRotation =>
      simp only [Call.accountMetas, List.mem_cons, List.not_mem_nil, or_false] at hmem
      rcases hmem with rfl | rfl | rfl <;> cases hsigner
    | _ => cases hauth
  | some auth =>
    rw [accountMetas_of_authorization hauth] at hmem
    simp only [List.mem_append, List.mem_cons, List.mem_map, List.not_mem_nil, or_false] at hmem
    rcases hmem with ((rfl | rfl) | ⟨_, -, rfl⟩) | rfl | rfl | rfl | rfl | rfl
    any_goals cases hsigner
    exact hrelayer

/-- What the precompile has verified. -/
theorem verifies_precompileInstruction {message : List UInt8} (hlength : message.length < 65536)
    (hkey : key.SignsFor D message) : Verifies D (key.precompileInstruction message) := by
  intro signature hown
  rw [EnclaveKey.precompileInstruction, ownSignature_newSecp256r1Instruction _ _ hlength,
    Option.some_inj] at hown
  rw [← hown]
  exact hkey

/-- An instruction of the program's alone does its call, whatever comes before it. -/
theorem commits_single {ix : TransactionInstruction} {previous : Option TransactionInstruction}
    {inv : Invocation} {tr : List Label} {record : List TransactionInstruction} {chain' : Chain}
    (toProgram : ix.programId = ID)
    (hinvocation : invocationOf D ⟨previous.map TransactionInstruction.seen, now⟩ ix = some inv)
    (h : Commits D now previous [ix] chain tr record chain') :
    ∃ events, tr = [.invoke inv events] ∧ execute D inv chain = .ok (chain', events) := by
  have hne : SECP256R1_PROGRAM_ID ≠ ID := by decide
  cases h with
  | cons executes rest =>
    cases rest
    cases executes with
    | precompile toPrecompile => exact absurd (toPrecompile.symm.trans toProgram) hne
    | other notProgram => exact absurd toProgram notProgram
    | @program inv' events _ _ invoked =>
      obtain rfl := Option.some_inj.mp (hinvocation.symm.trans invoked.invocation)
      exact ⟨events, rfl, invoked.execute⟩

/-- It commits when its call is accepted. -/
theorem exists_commits_single {ix : TransactionInstruction}
    {previous : Option TransactionInstruction} {inv : Invocation} {events : List Event}
    {chain' : Chain} (toProgram : ix.programId = ID) (privileged : Privileged D ix)
    (hauthority : eventAuthority D = some authority)
    (hinvocation : invocationOf D ⟨previous.map TransactionInstruction.seen, now⟩ ix = some inv)
    (h : execute D inv chain = .ok (chain', events)) :
    ∃ record, Commits D now previous [ix] chain [.invoke inv events] record chain' := by
  have hrecords : Records D (events.map (Event.emitCpi authority)) events := by
    refine ⟨authority, hauthority, List.filter_eq_self.mpr fun ix hmem ↦ ?_⟩
    obtain ⟨event, -, rfl⟩ := List.mem_map.mp hmem
    rfl
  have hprocessed : processInstruction D ix ⟨previous.map TransactionInstruction.seen, now⟩ chain
      = .ok (chain', events) := by
    rw [processInstruction_of_invocation hinvocation, mapError_eq_ok]
    exact h
  exact ⟨_, .cons (.program ⟨toProgram, privileged, hinvocation, hprocessed, hrecords⟩) .nil⟩

/-- The second of the pair sees the first. -/
private theorem invocationOf_pair {message : List UInt8} (accounts : Accounts)
    (hauthority : eventAuthority D = some authority) (hauth : call.authorization = some auth) :
    invocationOf D
        ⟨(some (key.precompileInstruction message)).map TransactionInstruction.seen, now⟩
        (call.instruction accounts authority)
      = some (pairInvocation key message accounts call now) :=
  invocationOf_instruction accounts _ hauthority hauth

/-- **The pair commits when its call is accepted**, and does that call. -/
theorem commits_pair {message : List UInt8} {accounts : Accounts} {tr : List Label}
    {record : List TransactionInstruction} {chain' : Chain}
    (hauthority : eventAuthority D = some authority) (hauth : call.authorization = some auth)
    (h : Commits D now none
      [key.precompileInstruction message, call.instruction accounts authority] chain tr record
      chain') :
    ∃ events, tr = [.invoke (pairInvocation key message accounts call now) events] ∧
      execute D (pairInvocation key message accounts call now) chain = .ok (chain', events) := by
  have hne : SECP256R1_PROGRAM_ID ≠ ID := by decide
  cases h with
  | cons executes rest =>
    cases executes with
    | program invoked => exact absurd invoked.toProgram hne
    | other _ notPrecompile => exact absurd rfl notPrecompile
    | precompile => exact commits_single rfl (invocationOf_pair accounts hauthority hauth) rest

theorem commits_pair_iff {message : List UInt8} {accounts : Accounts}
    (hauthority : eventAuthority D = some authority) (hauth : call.authorization = some auth)
    (hlength : message.length < 65536) (hkey : key.SignsFor D message)
    (hrelayer : ¬D.IsDerived ID accounts.relayer) :
    (∃ tr record chain', Commits D now none
      [key.precompileInstruction message, call.instruction accounts authority] chain tr record
      chain') ↔ accepts D chain (pairInvocation key message accounts call now) = true := by
  constructor
  · rintro ⟨tr, record, chain', h⟩
    obtain ⟨events, -, hexecute⟩ := commits_pair hauthority hauth h
    rw [accepts, hexecute]
  · intro haccepts
    obtain ⟨record, hcommits⟩ := exists_commits_single rfl (privileged_instruction hrelayer)
      hauthority (invocationOf_pair accounts hauthority hauth) (execute_of_accepts haccepts)
    exact ⟨_, _, _, .cons (.precompile rfl (verifies_precompileInstruction hlength hkey)) hcommits⟩

end Pair

end EnclaveKit
