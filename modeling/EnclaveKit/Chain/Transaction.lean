import EnclaveKit.Chain.System
import EnclaveKit.Program.Events

/-!
# Transactions

What is sent to the chain is transactions: lists of instructions that are executed one after the
other, all of them or none. An instruction of the program runs with the top-level instruction before
it in view, whether it was called from the transaction or by another program; other programs do what
they like with what is theirs, and may call the program as often as they want. What is left besides
the ledger is the record of inner instructions.

`Commits` is the execution of a transaction all of whose instructions succeed. One that fails leaves
its fee, which is a step of somebody else's. `Commits.run` says that the levels are one: such a
transaction is a run of the program on its chain, and the guarantees that `Admitted` takes from the
runtime follow from what a transaction is.

What the runtime asks of a transaction as a whole is not part of `Commits`: its size, its cost, and
the rent of the accounts it writes (`RentAllowed`), for which it undoes a transaction that no
program has refused. So everything the chain commits is among what commits here, and that something
commits here says that no program refuses it.
-/

namespace EnclaveKit

open Solana TransitionSystem

/-! ## Instructions -/

/-- Nobody but the program signs for its addresses. -/
def Privileged (D : Deployment) (ix : TransactionInstruction) : Prop :=
  ∀ account ∈ ix.accounts, account.isSigner = true → ¬D.IsDerived ID account.pubkey

/-- The runtime has verified the signature in a precompile instruction. -/
def Verifies (D : Deployment) (ix : TransactionInstruction) : Prop :=
  ∀ signature, ownSignature ix.data = some signature →
    D.verifySecp256r1 signature.key signature.signature signature.message = true

/-- The precompile instruction in view, if it is one, has been verified. -/
def Sysvars.Verified (D : Deployment) (sysvars : Sysvars) : Prop :=
  ∀ ix, sysvars.previous = some ix → ix.programId = SECP256R1_PROGRAM_ID →
    ∀ signature, ownSignature ix.data = some signature →
      D.verifySecp256r1 signature.key signature.signature signature.message = true

/-- The inner instructions of one of the program's: to itself, the self-CPIs of its events, in
order. Those to the System program are its own affair. -/
def Records (D : Deployment) (record : List TransactionInstruction) (events : List Event) : Prop :=
  ∃ authority, eventAuthority D = some authority ∧
    record.filter (·.programId = ID) = events.map (Event.emitCpi authority)

/-- The program runs an instruction. -/
structure Invoked (D : Deployment) (sysvars : Sysvars) (ix : TransactionInstruction)
    (inv : Invocation) (events : List Event) (record : List TransactionInstruction)
    (chain chain' : Chain) : Prop where
  toProgram : ix.programId = ID
  privileged : Privileged D ix
  invocation : invocationOf D sysvars ix = some inv
  processed : processInstruction D ix sysvars chain = .ok (chain', events)
  records : Records D record events

/-! ## Execution -/

/-- What another program does in an instruction: steps of its own, calls of other programs, and
calls of this one. Each call is recorded, with what it does in turn. -/
inductive Activity (D : Deployment) (sysvars : Sysvars) (chain : Chain) :
    List Label → List TransactionInstruction → Chain → Prop where
  | nil : Activity D sysvars chain [] [] chain
  | external {tr : List Label} {record : List TransactionInstruction} {chain₁ chain₂ : Chain}
      (past : Activity D sysvars chain tr record chain₁) (external : External D chain₁ chain₂) :
      Activity D sysvars chain (tr ++ [.external]) record chain₂
  | call {tr : List Label} {record : List TransactionInstruction} {chain₁ : Chain}
      {ix : TransactionInstruction} (past : Activity D sysvars chain tr record chain₁)
      (other : ix.programId ≠ ID) : Activity D sysvars chain tr (record ++ [ix]) chain₁
  | invoke {tr : List Label} {record inner : List TransactionInstruction} {chain₁ chain₂ : Chain}
      {ix : TransactionInstruction} {inv : Invocation} {events : List Event}
      (past : Activity D sysvars chain tr record chain₁)
      (invoked : Invoked D sysvars ix inv events inner chain₁ chain₂) :
      Activity D sysvars chain (tr ++ [.invoke inv events]) (record ++ ix :: inner) chain₂

/-- One instruction of a transaction. -/
inductive Executes (D : Deployment) (sysvars : Sysvars) (ix : TransactionInstruction)
    (chain : Chain) : List Label → List TransactionInstruction → Chain → Prop where
  | program {inv : Invocation} {events : List Event} {record : List TransactionInstruction}
      {chain' : Chain} (invoked : Invoked D sysvars ix inv events record chain chain') :
      Executes D sysvars ix chain [.invoke inv events] record chain'
  | precompile (toPrecompile : ix.programId = SECP256R1_PROGRAM_ID) (verifies : Verifies D ix) :
      Executes D sysvars ix chain [] [] chain
  | other {tr : List Label} {record : List TransactionInstruction} {chain' : Chain}
      (notProgram : ix.programId ≠ ID) (notPrecompile : ix.programId ≠ SECP256R1_PROGRAM_ID)
      (activity : Activity D sysvars chain tr record chain') :
      Executes D sysvars ix chain tr record chain'

/-- The instructions of a transaction succeed one after the other, after the top-level instruction
`previous`. Whether the runtime then keeps what they did is another matter. -/
inductive Commits (D : Deployment) (now : Int64) :
    Option TransactionInstruction → List TransactionInstruction → Chain → List Label →
      List TransactionInstruction → Chain → Prop where
  | nil {previous : Option TransactionInstruction} {chain : Chain} :
      Commits D now previous [] chain [] [] chain
  | cons {previous : Option TransactionInstruction} {ix : TransactionInstruction}
      {ixs record record' : List TransactionInstruction} {tr tr' : List Label}
      {chain chain₁ chain' : Chain}
      (executes : Executes D ⟨previous.map TransactionInstruction.seen, now⟩ ix chain tr record
        chain₁)
      (rest : Commits D now (some ix) ixs chain₁ tr' record' chain') :
      Commits D now previous (ix :: ixs) chain (tr ++ tr') (record ++ record') chain'

/-! ## The program's instructions -/

section Invoked

variable {D : Deployment} {sysvars : Sysvars} {ix : TransactionInstruction} {inv : Invocation}
  {events : List Event} {record : List TransactionInstruction} {chain chain' : Chain}

namespace Invoked

theorem execute (h : Invoked D sysvars ix inv events record chain chain') :
    execute D inv chain = .ok (chain', events) := by
  have hprocessed := h.processed
  rw [processInstruction_of_invocation h.invocation, mapError_eq_ok] at hprocessed
  exact hprocessed

theorem sysvars_eq (h : Invoked D sysvars ix inv events record chain chain') :
    inv.sysvars = sysvars :=
  (data_of_invocationOf h.invocation).2.1

/-- What `Admitted` asks of the runtime follows from what a transaction is. -/
theorem admitted (h : Invoked D sysvars ix inv events record chain chain')
    (hverified : sysvars.Verified D) : Admitted D inv := by
  constructor
  · intro hsigner
    obtain ⟨account, hmem, hpubkey, hsigned⟩ := signer_of_invocationOf h.invocation hsigner
    rw [← hpubkey]
    exact h.privileged account hmem hsigned
  · intro ix' signature hix'
    rw [h.sysvars_eq] at hix'
    intro hprogram
    exact hverified ix' hix' hprogram signature

theorem step (h : Invoked D sysvars ix inv events record chain chain')
    (hverified : sysvars.Verified D) : Step D chain (.invoke inv events) chain' :=
  .invoke (h.admitted hverified) h.execute

/-- The record of an instruction tells its events. -/
theorem read_record (h : Invoked D sysvars ix inv events record chain chain') :
    record.filterMap Event.read = events := by
  obtain ⟨authority, -, hfilter⟩ := h.records
  have hread : ∀ ix', Event.read ix' = none ∨ decide (ix'.programId = ID) = true := by
    intro ix'
    by_cases hID : ix'.programId = ID
    · exact .inr (decide_eq_true hID)
    · exact .inl (if_neg hID)
  have hmap : (events.map (Event.emitCpi authority)).filterMap Event.read = events := by
    rw [List.filterMap_map]
    simp
  rw [← hmap, ← hfilter, List.filterMap_filter]
  refine List.filterMap_congr fun ix' _ ↦ ?_
  rcases hread ix' with hnone | hID
  · rw [hnone, ite_self]
  · rw [if_pos hID]

/-- The instruction itself is no event. -/
theorem read_eq_none (h : Invoked D sysvars ix inv events record chain chain') :
    Event.read ix = none := by
  obtain ⟨hdata, -⟩ := data_of_invocationOf h.invocation
  rw [Event.read, if_pos h.toProgram, Option.eq_none_iff_forall_ne_some]
  intro event hread
  rw [Codec.decodeAll_eq_some] at hread
  refine not_eventTag_isPrefix hdata ?_
  rw [← hread]
  exact List.prefix_append _ _

end Invoked

end Invoked

/-! ## Transactions are runs -/

section Run

variable {D : Deployment} {sysvars : Sysvars} {chain chain' : Chain} {tr : List Label}
  {record : List TransactionInstruction}

/-- What another program does is a run, and its record tells the events. -/
theorem Activity.run (h : Activity D sysvars chain tr record chain')
    (hverified : sysvars.Verified D) :
    (system D).Run chain tr chain' ∧ record.filterMap Event.read = tr.flatMap Label.events := by
  induction h with
  | nil => exact ⟨.nil, rfl⟩
  | external past external ih =>
    refine ⟨ih.1.snoc (.external external), ?_⟩
    rw [ih.2, List.flatMap_append, List.flatMap_singleton, Label.events, List.append_nil]
  | @call tr record chain₁ ix past other ih =>
    refine ⟨ih.1, ?_⟩
    have hread : Event.read ix = none := if_neg other
    rw [List.filterMap_append, ih.2, List.filterMap_cons_none hread, List.filterMap_nil,
      List.append_nil]
  | invoke past invoked ih =>
    refine ⟨ih.1.snoc (invoked.step hverified), ?_⟩
    rw [List.filterMap_append, ih.2, List.filterMap_cons_none invoked.read_eq_none,
      invoked.read_record, List.flatMap_append, List.flatMap_singleton, Label.events]

theorem Executes.run {ix : TransactionInstruction}
    (h : Executes D sysvars ix chain tr record chain') (hverified : sysvars.Verified D) :
    (system D).Run chain tr chain' ∧ record.filterMap Event.read = tr.flatMap Label.events := by
  cases h with
  | program invoked =>
    refine ⟨.single (invoked.step hverified), ?_⟩
    rw [invoked.read_record, List.flatMap_singleton, Label.events]
  | precompile => exact ⟨.nil, rfl⟩
  | other _ _ activity => exact activity.run hverified

/-- After an instruction, it has been verified if it was for the precompile. -/
theorem Executes.verified {ix : TransactionInstruction} {now : Int64}
    (h : Executes D sysvars ix chain tr record chain') :
    Sysvars.Verified D ⟨some ix.seen, now⟩ := by
  intro ix' hix' hprogram
  obtain rfl := Option.some_inj.mp hix'
  have hID : SECP256R1_PROGRAM_ID ≠ ID := by decide
  cases h with
  | program invoked => exact absurd (hprogram.symm.trans invoked.toProgram) hID
  | precompile _ verifies => exact verifies
  | other _ notPrecompile => exact absurd hprogram notPrecompile

/-- **A committed transaction is a run**, and its record tells the events. -/
theorem Commits.run {now : Int64} {previous : Option TransactionInstruction}
    {ixs : List TransactionInstruction} (h : Commits D now previous ixs chain tr record chain')
    (hverified : Sysvars.Verified D ⟨previous.map TransactionInstruction.seen, now⟩) :
    (system D).Run chain tr chain' ∧ record.filterMap Event.read = tr.flatMap Label.events := by
  induction h with
  | nil => exact ⟨.nil, rfl⟩
  | cons executes rest ih =>
    obtain ⟨hrun, hread⟩ := executes.run hverified
    obtain ⟨hrun', hread'⟩ := ih executes.verified
    refine ⟨hrun.append hrun', ?_⟩
    rw [List.filterMap_append, List.flatMap_append, hread, hread']

end Run

/-! ## Histories -/

/-- What the chain keeps of one of its steps. -/
structure Entry where
  labels : List Label
  record : List TransactionInstruction

/-- Transactions and what happens between them. A transaction that fails only leaves its fee, which
is of the second kind. -/
inductive TransactionStep (D : Deployment) (chain : Chain) : Entry → Chain → Prop where
  | commit {now : Int64} {ixs record : List TransactionInstruction} {tr : List Label}
      {chain' : Chain} (commits : Commits D now none ixs chain tr record chain') :
      TransactionStep D chain ⟨tr, record⟩ chain'
  | external {chain' : Chain} (external : External D chain chain') :
      TransactionStep D chain ⟨[.external], []⟩ chain'

/-- The chain, by transactions. -/
def transactions (D : Deployment) : TransitionSystem Chain Entry where
  init := (system D).init
  step := TransactionStep D

section History

variable {D : Deployment} {chain chain' : Chain}

theorem TransactionStep.run {entry : Entry} (h : TransactionStep D chain entry chain') :
    (system D).Run chain entry.labels chain' ∧
      entry.record.filterMap Event.read = entry.labels.flatMap Label.events := by
  cases h with
  | commit commits => exact commits.run fun ix hix ↦ by cases hix
  | external external => exact ⟨.single (.external external), rfl⟩

/-- **A history is a run.** -/
theorem run_of_history {history : List Entry} (h : (transactions D).Run chain history chain') :
    (system D).Run chain (history.flatMap Entry.labels) chain' :=
  h.expand fun _ _ _ hstep ↦ hstep.run.1

/-- The records of a history tell its events. -/
theorem read_of_history {history : List Entry} (h : (transactions D).Run chain history chain') :
    (history.flatMap Entry.record).filterMap Event.read
      = (history.flatMap Entry.labels).flatMap Label.events := by
  induction h with
  | nil => rfl
  | snoc run last ih =>
    rw [List.flatMap_append, List.flatMap_append, List.filterMap_append, List.flatMap_append, ih,
      List.flatMap_singleton, List.flatMap_singleton, TransactionStep.run last |>.2]

end History

end EnclaveKit
