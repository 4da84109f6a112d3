import EnclaveKit.Solana.Ledger

/-!
# What the runtime provides

The code a program relies on and does not contain: the hash, the derivation of program addresses,
the precompile's signature check, and the rent schedule. They are parameters, collected in
`Platform`. No law is attached to them here. What a result needs of them it assumes by name, so that
each assumption is seen where it is used.

## Addresses

A program address is derived from seeds and a bump; `findProgramAddress` is not a parameter, being
the documented search downward from the highest bump. Collision resistance of the derivation is an
assumption about *some* seeds, made where it is used, and not about all of them: no function into 32
bytes is injective on everything.

## The precompile

The runtime reads a signature, a key and a message out of the precompile's data through the offsets
the data itself carries. `ownSignature` is that reading for data with one signature whose every
index names the instruction itself.
-/

namespace Solana

/-- Another instruction of the same transaction. -/
structure Instruction where
  programId : Pubkey
  accounts : List Pubkey
  data : List UInt8

structure Platform where
  /-- SHA-256. -/
  sha256 : List UInt8 → Vector UInt8 32
  /-- The address derived from some seeds for a program, when there is one. -/
  createProgramAddress : List (List UInt8) → Pubkey → Option Pubkey
  /-- Whether the precompile accepts a signature: key, signature, message. -/
  verifySecp256r1 : List UInt8 → List UInt8 → List UInt8 → Bool
  /-- What an account of so many bytes must hold to be rent-exempt. -/
  minimumBalance : ℕ → UInt64

namespace Platform

variable (P : Platform)

/-- The derived address of the highest bump for which there is one, and that bump. The search stops
at `1`. -/
def findProgramAddress (seeds : List (List UInt8)) (programId : Pubkey) :
    Option (Pubkey × UInt8) :=
  (List.range 255).findSome? fun i ↦
    let bump := UInt8.ofNat (255 - i)
    (P.createProgramAddress (seeds ++ [[bump]]) programId).map (·, bump)

variable {P} in
theorem createProgramAddress_of_find {seeds : List (List UInt8)} {programId a : Pubkey}
    {bump : UInt8} (h : P.findProgramAddress seeds programId = some (a, bump)) :
    P.createProgramAddress (seeds ++ [[bump]]) programId = some a := by
  obtain ⟨i, -, hi⟩ := List.exists_of_findSome?_eq_some h
  rw [Option.map_eq_some_iff] at hi
  obtain ⟨b, hb, heq⟩ := hi
  rw [Prod.mk.injEq] at heq
  rw [← heq.2, hb, heq.1]

/-- Addresses the program can sign for. -/
def IsDerived (programId a : Pubkey) : Prop :=
  ∃ seeds, P.createProgramAddress seeds programId = some a

end Platform

/-! ## The precompile's reading of its data -/

/-- A little-endian word of two bytes. -/
def u16At (data : List UInt8) (i : ℕ) : Option ℕ := do
  let low ← data[i]?
  let high ← data[i + 1]?
  some (low.toNat + 256 * high.toNat)

/-- The bytes from `offset`, `size` of them, when the data reaches so far. -/
def dataSlice (data : List UInt8) (offset size : ℕ) : Option (List UInt8) :=
  if offset + size ≤ data.length then some ((data.drop offset).take size) else none

/-- What the precompile verifies. -/
structure Secp256r1Signature where
  key : List UInt8
  signature : List UInt8
  message : List UInt8
  deriving DecidableEq

/-- The one signature of a precompile's data, read through its offsets, when every index is the one
that stands for the instruction itself. -/
def ownSignature (data : List UInt8) : Option Secp256r1Signature := do
  guard (data[0]? = some 1)
  guard (u16At data 4 = some 65535 ∧ u16At data 8 = some 65535 ∧ u16At data 14 = some 65535)
  let signature ← dataSlice data (← u16At data 2) 64
  let key ← dataSlice data (← u16At data 6) 33
  let message ← dataSlice data (← u16At data 10) (← u16At data 12)
  some ⟨key, signature, message⟩

end Solana
