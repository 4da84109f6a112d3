import EnclaveKit.Program.Entry

/-!
# Events on the wire

An event is a self-CPI: an inner instruction to the program, signed by its event authority, whose
data is Anchor's event tag, the discriminator of the event, and its borsh fields. Every event has
its wallet first, so the wallet's id is at one offset, whatever the event.

`Event.read` is what an indexer makes of one inner instruction. It goes by the program and the
bytes: inner instructions are kept without the signers they ran with.
-/

namespace EnclaveKit

open Solana Codec

/-! ## Kinds -/

/-- The events of the program, in the order of the source. -/
inductive EventKind where
  | walletCreated
  | solTransferred
  | vaultSwept
  | walletClosed
  | guardiansSet
  | rotationProposed
  | rotationCancelled
  | keyRotated
  deriving DecidableEq

namespace EventKind

/-- Anchor's: the first bytes of the SHA-256 of `event:` and the name. -/
def DISCRIMINATOR : EventKind → Vector UInt8 8
  | walletCreated => #v[0x9f, 0xbd, 0xb1, 0x1e, 0xc0, 0x9d, 0xe5, 0xb3]
  | solTransferred => #v[0x83, 0x04, 0x2b, 0xeb, 0xd0, 0x9b, 0x1c, 0xc5]
  | vaultSwept => #v[0x11, 0x3a, 0xab, 0x4d, 0x56, 0x5e, 0x2f, 0xe7]
  | walletClosed => #v[0xa3, 0x49, 0x84, 0x1f, 0xb4, 0x98, 0x62, 0x30]
  | guardiansSet => #v[0xde, 0xcd, 0x0f, 0x5e, 0x6b, 0x07, 0xb8, 0xef]
  | rotationProposed => #v[0xa8, 0x98, 0x3b, 0x4b, 0x10, 0x53, 0x9a, 0xde]
  | rotationCancelled => #v[0x4c, 0xee, 0xb7, 0xa0, 0x4b, 0x49, 0xbc, 0x7a]
  | keyRotated => #v[0xae, 0x25, 0x12, 0x68, 0xc6, 0x1e, 0x21, 0x5f]

def all : List EventKind :=
  [walletCreated, solTransferred, vaultSwept, walletClosed, guardiansSet, rotationProposed,
    rotationCancelled, keyRotated]

theorem mem_all (kind : EventKind) : kind ∈ all := by
  cases kind <;> decide

theorem DISCRIMINATOR_injective : Function.Injective DISCRIMINATOR := by
  have hnodup : (all.map DISCRIMINATOR).Nodup := by decide
  intro kind kind' h
  exact List.inj_on_of_nodup_map hnodup (mem_all kind) (mem_all kind') h

def codec : Codec EventKind := Codec.enum DISCRIMINATOR all mem_all DISCRIMINATOR_injective

/-- The fields after `wallet_id`. -/
abbrev Fields : EventKind → Type
  | walletCreated => PublicKey
  | solTransferred | vaultSwept | walletClosed => Pubkey × UInt64 × UInt64
  | guardiansSet => Vector Guardian MAX_GUARDIANS
  | rotationProposed => PublicKey × PublicKey × Int64
  | rotationCancelled => PublicKey
  | keyRotated => PublicKey × Bool

def fieldsCodec : (kind : EventKind) → Codec kind.Fields
  | walletCreated => Codec.bytes COMPRESSED_PUBKEY_LEN
  | solTransferred | vaultSwept | walletClosed =>
    (Codec.bytes 32).prod (Codec.u64.prod Codec.u64)
  | guardiansSet => Guardian.codec.vector MAX_GUARDIANS
  | rotationProposed =>
    (Codec.bytes COMPRESSED_PUBKEY_LEN).prod ((Codec.bytes COMPRESSED_PUBKEY_LEN).prod Codec.i64)
  | rotationCancelled => Codec.bytes COMPRESSED_PUBKEY_LEN
  | keyRotated => (Codec.bytes COMPRESSED_PUBKEY_LEN).prod Codec.bool

/-- `wallet_id` comes first in each. -/
def recordCodec (kind : EventKind) : Codec (WalletId × kind.Fields) :=
  (Codec.bytes 32).prod kind.fieldsCodec

end EventKind

/-! ## Events -/

namespace Event

/-- An event as its kind, its wallet, and the rest. -/
def record : Event → Σ kind : EventKind, WalletId × kind.Fields
  | walletCreated e => ⟨.walletCreated, e.walletId, e.key⟩
  | solTransferred e => ⟨.solTransferred, e.walletId, e.dest, e.lamports, e.relayerFee⟩
  | vaultSwept e => ⟨.vaultSwept, e.walletId, e.dest, e.lamports, e.relayerFee⟩
  | walletClosed e => ⟨.walletClosed, e.walletId, e.dest, e.lamports, e.relayerFee⟩
  | guardiansSet e => ⟨.guardiansSet, e.walletId, e.guardians⟩
  | rotationProposed e => ⟨.rotationProposed, e.walletId, e.newKey, e.guardian, e.opensAt⟩
  | rotationCancelled e => ⟨.rotationCancelled, e.walletId, e.newKey⟩
  | keyRotated e => ⟨.keyRotated, e.walletId, e.newKey, e.recovery⟩

def ofRecord : (Σ kind : EventKind, WalletId × kind.Fields) → Event
  | ⟨.walletCreated, walletId, key⟩ => walletCreated ⟨walletId, key⟩
  | ⟨.solTransferred, walletId, dest, lamports, relayerFee⟩ =>
    solTransferred ⟨walletId, dest, lamports, relayerFee⟩
  | ⟨.vaultSwept, walletId, dest, lamports, relayerFee⟩ =>
    vaultSwept ⟨walletId, dest, lamports, relayerFee⟩
  | ⟨.walletClosed, walletId, dest, lamports, relayerFee⟩ =>
    walletClosed ⟨walletId, dest, lamports, relayerFee⟩
  | ⟨.guardiansSet, walletId, guardians⟩ => guardiansSet ⟨walletId, guardians⟩
  | ⟨.rotationProposed, walletId, newKey, guardian, opensAt⟩ =>
    rotationProposed ⟨walletId, newKey, guardian, opensAt⟩
  | ⟨.rotationCancelled, walletId, newKey⟩ => rotationCancelled ⟨walletId, newKey⟩
  | ⟨.keyRotated, walletId, newKey, recovery⟩ => keyRotated ⟨walletId, newKey, recovery⟩

theorem ofRecord_record (event : Event) : ofRecord event.record = event := by
  cases event <;> rfl

theorem record_ofRecord (record : Σ kind : EventKind, WalletId × kind.Fields) :
    (ofRecord record).record = record := by
  obtain ⟨kind, walletId, fields⟩ := record
  cases kind <;> rfl

theorem walletId_eq (event : Event) : event.walletId = event.record.2.1 := by
  cases event <;> rfl

/-- The discriminator and the fields: `Event::data`. -/
def codec : Codec Event :=
  (EventKind.codec.sigma EventKind.recordCodec).iso record ofRecord ofRecord_record record_ofRecord

/-- The data of the self-CPI. -/
def cpiCodec : Codec Event := codec.tagged EVENT_IX_TAG_LE.toList

/-- The self-CPI, as the transaction records it: `emit_cpi!`. -/
def emitCpi (authority : Pubkey) (event : Event) : TransactionInstruction where
  programId := ID
  accounts := [.newReadonly authority true]
  data := cpiCodec.encode event

/-- What an indexer makes of an inner instruction. -/
def read (ix : TransactionInstruction) : Option Event :=
  if ix.programId = ID then cpiCodec.decodeAll ix.data else none

theorem read_eq_some {ix : TransactionInstruction} {event : Event} :
    read ix = some event ↔ ix.programId = ID ∧ cpiCodec.encode event = ix.data := by
  rw [read, Option.ite_none_right_eq_some, decodeAll_eq_some]

/-- The self-CPI of an event is read as the event. -/
@[simp] theorem read_emitCpi (authority : Pubkey) (event : Event) :
    read (event.emitCpi authority) = some event :=
  read_eq_some.mpr ⟨rfl, rfl⟩

/-- The id of the wallet comes after the tag and the discriminator. -/
theorem walletId_at : cpiCodec.At 16 (Codec.bytes 32) walletId := by
  have hrecord : cpiCodec.At 8 (EventKind.codec.sigma EventKind.recordCodec) record :=
    (At.tagged EVENT_IX_TAG_LE.toList codec).parts
  have hfirst : ∀ kind, (EventKind.recordCodec kind).At 0 (Codec.bytes 32) Prod.fst :=
    fun kind p ↦ ⟨[], kind.fieldsCodec.encode p.2, rfl, rfl⟩
  have hat := hrecord.trans (At.sigma (sized_enum _ _ _ _) hfirst)
  intro event
  rw [walletId_eq]
  exact hat event

/-- **What an indexer filters on.** Whatever the event, its wallet is at byte 16 of the data. -/
theorem slice_cpiCodec (event : Event) :
    ByteCodec.slice (cpiCodec.encode event) 16 32 = event.walletId.toList :=
  walletId_at.slice_eq (sized_bytes 32) event

end Event

end EnclaveKit
