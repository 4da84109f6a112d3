import EnclaveKit.Program.Precompile

/-!
# One payload

Two parsers read the data of a `secp256r1` instruction: the runtime, to verify a signature, and the
program, to learn what was signed. A byte string on which they disagreed would be a message verified
and another executed. There is none: the program accepts a single layout, and on that layout the two
take the same bytes.
-/

namespace EnclaveKit

open Solana

/-- The `secp256r1` instruction with this data, and no accounts. -/
def secp256r1Instruction (data : List UInt8) : Instruction where
  programId := SECP256R1_PROGRAM_ID
  accounts := []
  data := data

/-- **One payload.** The program accepts exactly the data of the one layout, as the key and message
it is made of; nothing is ever read out of bounds; the runtime takes the same key, signature and
message out of it; and what clients build is of that layout. -/
theorem load_reads_what_is_verified :
    (∀ data payload, loadSecp256r1Payload (some (secp256r1Instruction data)) = .ok payload ↔
      ∃ pad signature, payload.message.length < 65536 ∧
        data = secp256r1Data pad payload.pubkey signature payload.message) ∧
    (∀ previous, loadSecp256r1Payload previous ≠ .error .panic) ∧
    (∀ pad pubkey signature message, message.length < 65536 →
      ownSignature (secp256r1Data pad pubkey signature message)
        = some ⟨pubkey.toList, signature.toList, message⟩) ∧
    ∀ message signature pubkey, message.length < 65536 →
      loadSecp256r1Payload (some (newSecp256r1Instruction message signature pubkey))
        = .ok ⟨pubkey, message⟩ := by
  refine ⟨fun data payload ↦ ⟨data_of_load, ?_⟩, load_ne_panic,
    fun pad pubkey signature message ↦ ownSignature_secp256r1Data pad signature pubkey,
    fun message signature pubkey ↦ load_newSecp256r1Instruction signature pubkey⟩
  rintro ⟨pad, signature, hlength, rfl⟩
  exact load_secp256r1Data pad signature payload.pubkey hlength

/-- A message of three bytes, built, verified and read. -/
theorem load_reads_what_is_verified_short :
    loadSecp256r1Payload (some (newSecp256r1Instruction [1, 2, 3]
        (Vector.replicate P256_SIGNATURE_LEN 7) (Vector.replicate COMPRESSED_PUBKEY_LEN 2)))
      = .ok ⟨Vector.replicate COMPRESSED_PUBKEY_LEN 2, [1, 2, 3]⟩ ∧
    ownSignature (secp256r1Data 0 (Vector.replicate COMPRESSED_PUBKEY_LEN 2)
        (Vector.replicate P256_SIGNATURE_LEN 7) [1, 2, 3])
      = some ⟨List.replicate COMPRESSED_PUBKEY_LEN 2, List.replicate P256_SIGNATURE_LEN 7,
        [1, 2, 3]⟩ :=
  ⟨load_reads_what_is_verified.2.2.2 _ _ _ (by decide),
    load_reads_what_is_verified.2.2.1 _ _ _ _ (by decide)⟩

end EnclaveKit
