import EnclaveKit.Solana.Platform

/-!
# Instructions of a transaction

What a client sends: a program, the accounts it may touch with the privileges the transaction gives
it, and bytes. A program that looks at another instruction of its transaction sees the addresses and
the bytes, which is all the programs here read of it.
-/

namespace Solana

/-- An account as an instruction names it. -/
structure AccountMeta where
  pubkey : Pubkey
  isSigner : Bool
  isWritable : Bool
  deriving DecidableEq

namespace AccountMeta

/-- `AccountMeta::new`. -/
def new (pubkey : Pubkey) (isSigner : Bool) : AccountMeta := ⟨pubkey, isSigner, true⟩

/-- `AccountMeta::new_readonly`. -/
def newReadonly (pubkey : Pubkey) (isSigner : Bool) : AccountMeta := ⟨pubkey, isSigner, false⟩

/-- What the transaction gives an account is what is asked for it. -/
def Grants (given asked : AccountMeta) : Prop :=
  given.pubkey = asked.pubkey ∧ (asked.isWritable = true → given.isWritable = true) ∧
    (asked.isSigner = true → given.isSigner = true)

end AccountMeta

/-- An instruction as a transaction carries it. -/
structure TransactionInstruction where
  programId : Pubkey
  accounts : List AccountMeta
  data : List UInt8
  deriving DecidableEq

/-- What another instruction of the transaction reads of it. -/
def TransactionInstruction.seen (ix : TransactionInstruction) : Instruction where
  programId := ix.programId
  accounts := ix.accounts.map AccountMeta.pubkey
  data := ix.data

/-- The Instructions sysvar: `Sysvar1nstructions1111111111111111111111111`. -/
def INSTRUCTIONS_SYSVAR : Pubkey :=
  #v[0x06, 0xa7, 0xd5, 0x17, 0x18, 0x7b, 0xd1, 0x66, 0x35, 0xda, 0xd4, 0x04, 0x55, 0xfd, 0xc2, 0xc0,
    0xc1, 0x24, 0xc6, 0x8f, 0x21, 0x56, 0x75, 0xa5, 0xdb, 0xba, 0xcb, 0x5f, 0x08, 0x00, 0x00, 0x00]

/-- `system_program::ID`. -/
def SYSTEM_PROGRAM : Pubkey := Vector.replicate 32 0

end Solana
