import EnclaveKit.Encoding.Action

/-!
# Where each field of a wallet's state sits

The offsets devices filter on, from the crate shared with the SDK. They are sums of sizes, and know
nothing of the program's struct.

```text
offset  size  field
0       8     discriminator
8       32    wallet_id
40      33    active_key
73      8     nonce               u64 LE
81      1     attested
82      198   guardians           3 slots of 66 bytes, below
280     1     rotation pending    0 or 1
281     33    rotation new_key
314     8     rotation proposed_at  i64 LE
322     1     rotation proposed_by  guardian slot
323     1     state_bump
324     1     vault_bump

guardian slot i, at 82 + 66·i
+0      1     kind                0 none, 1 P256, 2 WebAuthn
+1      33    key
+34     32    rp_id_hash
```
-/

namespace EnclaveKit

namespace Encoding

/-- Anchor's account discriminator, before the fields. -/
def DISCRIMINATOR_LEN : ℕ := 8

def WALLET_ID_OFFSET : ℕ := DISCRIMINATOR_LEN

def ACTIVE_KEY_OFFSET : ℕ := WALLET_ID_OFFSET + 32

def NONCE_OFFSET : ℕ := ACTIVE_KEY_OFFSET + COMPRESSED_PUBKEY_LEN

def ATTESTED_OFFSET : ℕ := NONCE_OFFSET + 8

def GUARDIANS_OFFSET : ℕ := ATTESTED_OFFSET + 1

/-- `kind`, `key`, `rp_id_hash`. -/
def GUARDIAN_SLOT_LEN : ℕ := 1 + COMPRESSED_PUBKEY_LEN + 32

/-! `kind` values of a guardian slot. -/

def GUARDIAN_KIND_NONE : UInt8 := 0

def GUARDIAN_KIND_P256 : UInt8 := 1

def GUARDIAN_KIND_WEBAUTHN : UInt8 := 2

def ROTATION_OFFSET : ℕ := GUARDIANS_OFFSET + MAX_GUARDIANS * GUARDIAN_SLOT_LEN

def ROTATION_NEW_KEY_OFFSET : ℕ := ROTATION_OFFSET + 1

def ROTATION_PROPOSED_AT_OFFSET : ℕ := ROTATION_NEW_KEY_OFFSET + COMPRESSED_PUBKEY_LEN

def ROTATION_PROPOSED_BY_OFFSET : ℕ := ROTATION_PROPOSED_AT_OFFSET + 8

def STATE_BUMP_OFFSET : ℕ := ROTATION_PROPOSED_BY_OFFSET + 1

def VAULT_BUMP_OFFSET : ℕ := STATE_BUMP_OFFSET + 1

/-- The account's size, discriminator included. -/
def STATE_LEN : ℕ := VAULT_BUMP_OFFSET + 1

/-- Offset of guardian slot `index`: its `kind` byte. -/
def guardianKindOffset (index : ℕ) : ℕ := GUARDIANS_OFFSET + index * GUARDIAN_SLOT_LEN

/-- Offset of the key in guardian slot `index`. -/
def guardianKeyOffset (index : ℕ) : ℕ := guardianKindOffset index + 1

/-- Offset of the rpId hash in guardian slot `index`. -/
def guardianRpIdHashOffset (index : ℕ) : ℕ := guardianKeyOffset index + COMPRESSED_PUBKEY_LEN

end Encoding

end EnclaveKit
