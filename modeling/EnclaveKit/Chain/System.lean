import EnclaveKit.Foundation.Run
import EnclaveKit.Program.Enabled

/-!
# The program on its chain

Runs of the program: instructions from anybody, in any order, between arbitrary steps of everybody
else. The runtime's guarantees are in two places. `Admitted` is what it guarantees about an
instruction it hands to the program; `External` is what it guarantees about everything else, which
may move any lamports and write any data but those of the program.

What is accepted here is what the program accepts. A transaction may still be undone by the runtime
when all its instructions have succeeded, over the rent of an account it writes (`RentAllowed`).
Every transaction that stays is a part of some run, so what holds of all runs holds of the chain.

A run starts where the program owns nothing, and the wallets in it are told apart by their ids.
-/

namespace EnclaveKit

open Solana Fallible

/-! ## Guarantees of the runtime -/

/-- What the runtime has checked before the program runs. -/
structure Admitted (D : Deployment) (inv : Invocation) : Prop where
  /-- Nobody signs for an address of the program's. -/
  signer : inv.accounts.relayerIsSigner = true → ¬D.IsDerived ID inv.accounts.relayer
  /-- The signature in a precompile instruction is right. -/
  verified : ∀ ix signature, inv.sysvars.previous = some ix → ix.programId = SECP256R1_PROGRAM_ID →
    ownSignature ix.data = some signature →
      D.verifySecp256r1 signature.key signature.signature signature.message = true

/-- What everybody else may do to the accounts. -/
structure External (D : Deployment) (chain chain' : Chain) : Prop where
  /-- Only the program writes its states, makes them, and gives them up. -/
  owned : ∀ a wallet, (chain' a).holding = .owned wallet ↔ (chain a).holding = .owned wallet
  /-- Only the program signs for its addresses. Anybody may pay to them. -/
  derived : ∀ a, D.IsDerived ID a →
    (chain' a).holding = (chain a).holding ∧ chain.balance a ≤ chain'.balance a

/-! ## Runs -/

/-- A step of the chain. -/
inductive Label where
  /-- An instruction of the program, accepted. -/
  | invoke (inv : Invocation) (events : List Event)
  | external

def Label.events : Label → List Event
  | invoke _ events => events
  | external => []

/-- What the clock said. -/
def Label.time : Label → Option Int64
  | invoke inv _ => some inv.sysvars.unixTimestamp
  | external => none

inductive Step (D : Deployment) (chain : Chain) : Label → Chain → Prop where
  | invoke {inv : Invocation} {events : List Event} {chain' : Chain} (admitted : Admitted D inv)
      (accepted : execute D inv chain = .ok (chain', events)) :
      Step D chain (.invoke inv events) chain'
  | external {chain' : Chain} (external : External D chain chain') : Step D chain .external chain'

/-- The program, deployed. -/
def system (D : Deployment) : TransitionSystem Chain Label where
  init chain := ∀ a wallet, (chain a).holding ≠ .owned wallet
  step := Step D

/-! ## Executing runs

Instructions one after the other, with nothing in between, as the run they are. -/

/-- The ledger after an instruction, the same as before where the program refuses it. -/
def next (D : Deployment) (chain : Chain) (inv : Invocation) : Chain :=
  match execute D inv chain with
  | .ok (chain', _) => chain'
  | .error _ => chain

/-- The events of an instruction, none where it is refused. -/
def emitted (D : Deployment) (chain : Chain) (inv : Invocation) : List Event :=
  match execute D inv chain with
  | .ok (_, events) => events
  | .error _ => []

/-- The program accepts the instruction. -/
def accepts (D : Deployment) (chain : Chain) (inv : Invocation) : Bool :=
  match execute D inv chain with
  | .ok _ => true
  | .error _ => false

def acceptsAll (D : Deployment) : Chain → List Invocation → Bool
  | _, [] => true
  | chain, inv :: rest => accepts D chain inv && acceptsAll D (next D chain inv) rest

def trace (D : Deployment) : Chain → List Invocation → List Label
  | _, [] => []
  | chain, inv :: rest => .invoke inv (emitted D chain inv) :: trace D (next D chain inv) rest

/-- The instruction of a step. -/
def Label.invocation : Label → Option Invocation
  | invoke inv _ => some inv
  | external => none

theorem filterMap_trace (D : Deployment) (chain : Chain) (invs : List Invocation) :
    (trace D chain invs).filterMap Label.invocation = invs := by
  induction invs generalizing chain with
  | nil => rfl
  | cons inv rest ih => simp [trace, Label.invocation, ih]

theorem acceptsAll_append (D : Deployment) (chain : Chain) (invs invs' : List Invocation) :
    acceptsAll D chain (invs ++ invs')
      = (acceptsAll D chain invs && acceptsAll D (invs.foldl (next D) chain) invs') := by
  induction invs generalizing chain with
  | nil => rfl
  | cons inv rest ih =>
    rw [List.cons_append, acceptsAll, acceptsAll, ih, List.foldl_cons, Bool.and_assoc]

theorem execute_of_accepts {D : Deployment} {chain : Chain} {inv : Invocation}
    (h : accepts D chain inv = true) :
    execute D inv chain = .ok (next D chain inv, emitted D chain inv) := by
  rw [accepts] at h
  rw [next, emitted]
  cases hexecute : execute D inv chain with
  | error e => simp [hexecute] at h
  | ok result => rfl

theorem next_of_refused {D : Deployment} {chain : Chain} {inv : Invocation}
    (h : accepts D chain inv = false) : next D chain inv = chain := by
  rw [accepts] at h
  rw [next]
  cases hexecute : execute D inv chain with
  | error => rfl
  | ok => simp [hexecute] at h

theorem supplyFits_next {D : Deployment} {chain : Chain} {inv : Invocation}
    (h : chain.SupplyFits) : (next D chain inv).SupplyFits := by
  rw [next]
  split
  · rename_i hexecute
    exact supplyFits_of_execute hexecute h
  · exact h

theorem run_of_acceptsAll {D : Deployment} {chain : Chain} {invs : List Invocation}
    (hadmitted : ∀ inv ∈ invs, Admitted D inv) (h : acceptsAll D chain invs = true) :
    (system D).Run chain (trace D chain invs) (invs.foldl (next D) chain) := by
  induction invs generalizing chain with
  | nil => exact .nil
  | cons inv rest ih =>
    rw [acceptsAll, Bool.and_eq_true] at h
    have hstep : Step D chain (.invoke inv (emitted D chain inv)) (next D chain inv) :=
      .invoke (hadmitted inv List.mem_cons_self) (execute_of_accepts h.1)
    exact .cons hstep (ih (fun inv' h' ↦ hadmitted inv' (List.mem_cons_of_mem inv h')) h.2)

/-! ## Wallets by id -/

/-- The address of a wallet's state. -/
def walletAddress (D : Deployment) (w : WalletId) : Option Pubkey :=
  (D.findProgramAddress [WALLET_SEED, w.toList] ID).map Prod.fst

/-- The address of a wallet's vault. -/
def vaultAddress (D : Deployment) (w : WalletId) : Option Pubkey :=
  (D.findProgramAddress [VAULT_SEED, w.toList] ID).map Prod.fst

/-- The state an account holds. -/
def stateAt (chain : Chain) (a : Pubkey) : Option SmartWallet :=
  match (chain a).holding with
  | .owned wallet => some wallet
  | _ => none

/-- The state of a wallet, if it exists. -/
def stored (D : Deployment) (chain : Chain) (w : WalletId) : Option SmartWallet :=
  (walletAddress D w).bind (stateAt chain)

@[simp] theorem stateAt_eq_some {chain : Chain} {a : Pubkey} {wallet : SmartWallet} :
    stateAt chain a = some wallet ↔ (chain a).holding = .owned wallet := by
  rw [stateAt]
  split <;> simp_all

theorem stateAt_of_holdingOf {chain : Chain} {a : Pubkey} {state : Option SmartWallet}
    (h : (chain a).holding = holdingOf state) : stateAt chain a = state := by
  rw [stateAt, h]
  cases state <;> rfl

theorem walletAddress_eq_some {D : Deployment} {w : WalletId} {a : Pubkey} :
    walletAddress D w = some a ↔
      ∃ bump, D.findProgramAddress [WALLET_SEED, w.toList] ID = some (a, bump) := by
  simp [walletAddress]

theorem vaultAddress_eq_some {D : Deployment} {w : WalletId} {a : Pubkey} :
    vaultAddress D w = some a ↔
      ∃ bump, D.findProgramAddress [VAULT_SEED, w.toList] ID = some (a, bump) := by
  simp [vaultAddress]

theorem stored_eq_stateAt {D : Deployment} {chain : Chain} {w : WalletId} {a : Pubkey}
    (h : walletAddress D w = some a) : stored D chain w = stateAt chain a := by
  rw [stored, h, Option.bind_some]

theorem stored_eq_some {D : Deployment} {chain : Chain} {w : WalletId} {wallet : SmartWallet} :
    stored D chain w = some wallet ↔
      ∃ a, walletAddress D w = some a ∧ (chain a).holding = .owned wallet := by
  simp [stored, Option.bind_eq_some_iff]

/-! ## Assumptions about the platform -/

/-- The precompile verifies nothing for the all-zero key, which encodes no point of the curve. -/
def NoZeroKey (D : Deployment) : Prop :=
  ∀ signature message, D.verifySecp256r1 zeroKey.toList signature message = false

/-- Nothing else derives to an address of wallet `w`, whatever the bump. -/
def DistinctAddresses (D : Deployment) (w : WalletId) : Prop :=
  ∀ seed ∈ [WALLET_SEED, VAULT_SEED], ∀ seed' ∈ [WALLET_SEED, VAULT_SEED],
    ∀ (w' : WalletId) (bump bump' : UInt8) (a : Pubkey),
      D.createProgramAddress [seed, w.toList, [bump]] ID = some a →
      D.createProgramAddress [seed', w'.toList, [bump']] ID = some a → seed' = seed ∧ w' = w

/-- The key of an accepted instruction is not the all-zero one. -/
theorem Accepted.signer_ne_zeroKey {D : Deployment} {inv : Invocation} {chain chain' : Chain}
    {events : List Event} (h : Accepted D inv chain chain' events) (hzero : NoZeroKey D)
    (hadmitted : Admitted D inv) : h.signer ≠ zeroKey := by
  intro hsigner
  obtain ⟨ix, signature, hprevious, hprogram, hown⟩ := ownSignature_of_load h.verified.payload
  have hverified := hadmitted.verified ix _ hprevious hprogram hown
  rw [hsigner, hzero] at hverified
  cases hverified

end EnclaveKit
