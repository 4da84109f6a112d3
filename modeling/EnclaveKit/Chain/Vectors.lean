import EnclaveKit.Chain.System
import Mathlib.Data.List.Nodup

/-!
# Concrete deployments

A deployment known by finitely many values of its platform, for running the program on concrete
inputs: the digests, the derived addresses and the valid signatures are tables. What a run needs of
the runtime is then read off the tables.

The values of `vectors` are the real ones: the key of the published vectors with its wallet id and
addresses, and signatures over the bytes the program asks for.
-/

namespace EnclaveKit

open Solana Fallible

/-- The values of a platform that a run comes across. -/
structure Tables where
  digests : List (List UInt8 × Vector UInt8 32)
  /-- Seeds of the program, bump included, with what they derive to. -/
  addresses : List (List (List UInt8) × Pubkey)
  signatures : List Secp256r1Signature

namespace Tables

/-- The rent schedule is the default one, and so is the build. -/
def deployment (t : Tables) : Deployment where
  sha256 bytes := ((t.digests.find? (·.1 = bytes)).map Prod.snd).getD (Vector.replicate 32 0)
  createProgramAddress seeds programId :=
    if programId = ID then (t.addresses.find? (·.1 = seeds)).map Prod.snd else none
  verifySecp256r1 key signature message := decide (⟨key, signature, message⟩ ∈ t.signatures)
  minimumBalance size := UInt64.ofNat ((128 + size) * 6960)
  build := .default

variable {t : Tables}

theorem mem_addresses {seeds : List (List UInt8)} {a : Pubkey}
    (h : t.deployment.createProgramAddress seeds ID = some a) : (seeds, a) ∈ t.addresses := by
  change (if ID = ID then (t.addresses.find? (·.1 = seeds)).map Prod.snd else none) = some a at h
  rw [if_pos rfl, Option.map_eq_some_iff] at h
  obtain ⟨⟨seeds', a'⟩, hfind, rfl⟩ := h
  obtain rfl : seeds' = seeds := by simpa using List.find?_some hfind
  exact List.mem_of_find?_eq_some hfind

theorem not_isDerived {a : Pubkey} (h : a ∉ t.addresses.map Prod.snd) :
    ¬t.deployment.IsDerived ID a := by
  rintro ⟨seeds, hseeds⟩
  exact h (List.mem_map_of_mem (mem_addresses hseeds))

theorem noZeroKey (h : ∀ s ∈ t.signatures, s.key ≠ zeroKey.toList) : NoZeroKey t.deployment := by
  intro signature message
  refine decide_eq_false fun hmem ↦ ?_
  exact h _ hmem rfl

/-- Wallets whose table of addresses has no address twice do not interfere. -/
theorem distinctAddresses (h : (t.addresses.map Prod.snd).Nodup) (w : WalletId) :
    DistinctAddresses t.deployment w := by
  intro seed _ seed' _ w' bump bump' a hseeds hseeds'
  have heq := List.inj_on_of_nodup_map h (mem_addresses hseeds') (mem_addresses hseeds) rfl
  simp only [Prod.mk.injEq, List.cons.injEq, and_true] at heq
  exact ⟨heq.1, Vector.toList_inj.mp heq.2.1⟩

/-- An instruction after a precompile instruction of the builder's is admitted when the signature is
in the table. -/
theorem admitted {inv : Invocation} {message : List UInt8}
    {signature : Vector UInt8 P256_SIGNATURE_LEN} {key : PublicKey}
    (hrelayer : inv.accounts.relayer ∉ t.addresses.map Prod.snd)
    (hprevious : inv.sysvars.previous = some (newSecp256r1Instruction message signature key))
    (hlength : message.length < 65536)
    (hsignature : ⟨key.toList, signature.toList, message⟩ ∈ t.signatures) :
    Admitted t.deployment inv where
  signer _ := not_isDerived hrelayer
  verified ix own hix _ hown := by
    rw [hprevious, Option.some_inj] at hix
    rw [← hix, ownSignature_newSecp256r1Instruction signature key hlength,
      Option.some_inj] at hown
    rw [← hown]
    exact decide_eq_true hsignature

/-- So is an instruction that has no precompile instruction before it. -/
theorem admitted_of_none {inv : Invocation}
    (hrelayer : inv.accounts.relayer ∉ t.addresses.map Prod.snd)
    (hprevious : inv.sysvars.previous = none) : Admitted t.deployment inv where
  signer _ := not_isDerived hrelayer
  verified ix _ hix := by
    rw [hprevious] at hix
    cases hix

end Tables

/-! ## The vectors -/

namespace Vectors

/-- The key whose secret scalar is the bytes `01` to `20`. -/
def deviceKey : PublicKey :=
  #v[0x02, 0x51, 0x5c, 0x3d, 0x6e, 0xb9, 0xe3, 0x96, 0xb9, 0x04, 0xd3, 0xfe, 0xca, 0x7f, 0x54, 0xfd,
    0xcd, 0x0c, 0xc1, 0xe9, 0x97, 0xbf, 0x37, 0x5d, 0xca, 0x51, 0x5a, 0xd0, 0xa6, 0xc3, 0xb4, 0x03,
    0x5f]

/-- The device the wallet moves to. -/
def nextKey : PublicKey :=
  #v[0x02, 0x5b, 0x36, 0x89, 0x0d, 0xac, 0xbd, 0x7c, 0x9a, 0x96, 0xbb, 0x74, 0xa1, 0xee, 0x28, 0xb3,
    0xd2, 0xd7, 0x5b, 0x72, 0xe0, 0x9a, 0x20, 0xef, 0x25, 0xcf, 0x8e, 0x6f, 0xd8, 0xa9, 0xf0, 0x35,
    0x0d]

def guardianKey : PublicKey :=
  #v[0x02, 0x57, 0xe9, 0x77, 0xf6, 0xdb, 0x7e, 0x33, 0xc3, 0xfe, 0x7a, 0xcf, 0x28, 0x42, 0xed, 0x98,
    0x70, 0x09, 0xca, 0xf5, 0x6d, 0x45, 0x86, 0x82, 0xfc, 0xa4, 0x47, 0xb7, 0xd3, 0xd7, 0x62, 0xab,
    0x34]

def secondGuardianKey : PublicKey :=
  #v[0x03, 0x0b, 0xbb, 0xc5, 0xe8, 0xbc, 0x84, 0xbd, 0x33, 0xd1, 0xd3, 0xce, 0x03, 0xff, 0xac, 0x9a,
    0x74, 0x7f, 0x4c, 0x19, 0x93, 0xfd, 0xdb, 0x2e, 0xc9, 0x3a, 0x41, 0x16, 0xa8, 0x6f, 0x02, 0x2a,
    0x77]

/-- The key of somebody else's wallet. -/
def otherKey : PublicKey :=
  #v[0x03, 0x5b, 0x8b, 0x6f, 0x1a, 0xc1, 0x0a, 0x9a, 0x8e, 0x2c, 0x1e, 0x4d, 0x30, 0x9d, 0x50, 0xc5,
    0x86, 0xb5, 0xb8, 0x76, 0x87, 0x28, 0x29, 0x44, 0xbc, 0x8c, 0xad, 0x7e, 0x83, 0xa2, 0x74, 0xbe,
    0xd5]

def walletId : WalletId :=
  #v[0xd2, 0x84, 0xf0, 0x62, 0x6f, 0xd0, 0x83, 0x6c, 0xe4, 0xb1, 0x73, 0x17, 0x93, 0xfa, 0x69, 0x05,
    0x9e, 0x02, 0x66, 0x86, 0x00, 0x51, 0x93, 0x65, 0xb3, 0x3c, 0x55, 0xbd, 0x94, 0x51, 0x27, 0x35]

/-- The state's address, of bump 255. -/
def wallet : Pubkey :=
  #v[0xc6, 0x04, 0x1e, 0x57, 0x36, 0x87, 0x11, 0xc5, 0x42, 0x0e, 0xe6, 0x23, 0x4e, 0xe2, 0x17, 0xd4,
    0x62, 0x01, 0x2d, 0x26, 0x6e, 0x7d, 0x43, 0xbc, 0xcb, 0x25, 0x16, 0xdf, 0x22, 0x26, 0x4f, 0xd0]

/-- The vault's address, of bump 255. -/
def vault : Pubkey :=
  #v[0x0a, 0x62, 0x8d, 0x53, 0x16, 0x5e, 0x2b, 0xe4, 0x51, 0x33, 0xb4, 0xc9, 0x75, 0xa3, 0xdf, 0xd0,
    0x28, 0x51, 0x9e, 0xed, 0x53, 0x4c, 0x3a, 0x0a, 0x6c, 0x88, 0x07, 0x4f, 0xe8, 0x50, 0x3c, 0xb6]

/-- The other wallet, with both bumps 255 too. -/
def otherId : WalletId :=
  #v[0x2d, 0x15, 0x88, 0x41, 0x6b, 0x98, 0xed, 0xff, 0xeb, 0x96, 0x3a, 0xd9, 0xbe, 0xf7, 0xc5, 0xa2,
    0x3f, 0x07, 0x26, 0xc2, 0xfb, 0xe7, 0x62, 0x8f, 0x1a, 0x7e, 0x8c, 0xf1, 0x98, 0xde, 0x8c, 0xed]

def otherWallet : Pubkey :=
  #v[0xef, 0x6c, 0x55, 0x39, 0x19, 0xd3, 0xba, 0xcc, 0xd2, 0x62, 0xd9, 0x15, 0x9b, 0x40, 0x64, 0x6c,
    0x7a, 0xdf, 0x40, 0x2b, 0x01, 0xe6, 0x79, 0x00, 0xbd, 0x06, 0x0b, 0xf0, 0xae, 0x09, 0x88, 0x28]

def otherVault : Pubkey :=
  #v[0xcd, 0xc6, 0xc0, 0x37, 0x0b, 0xe6, 0xdf, 0x4d, 0x7c, 0xd4, 0x18, 0x99, 0x5d, 0xe8, 0x08, 0x0f,
    0xb5, 0xd7, 0x7c, 0x3c, 0x53, 0xcb, 0x64, 0xfb, 0x4e, 0xcb, 0xf4, 0xd2, 0xa0, 0xa3, 0x7c, 0x5d]

def dest : Pubkey := Vector.replicate 32 0x11

def relayer : Pubkey := Vector.replicate 32 0x77

/-- A header signed by a device: it expires at 1700000000. -/
def header (nonce maxRelayerFee : UInt64) : Authorization where
  walletId := walletId
  nonce := nonce
  expiresAt := 1700000000
  maxRelayerFee := maxRelayerFee

/-- The accounts of the wallet, with the relayer that sends everything. -/
def accounts : Accounts where
  wallet := wallet
  vault := vault
  relayer := relayer
  relayerIsSigner := true

/-- A call, the key it is signed with, the signature, the time it is sent at and the accounts it is
sent with. -/
structure Signed where
  call : Call
  key : PublicKey
  signature : Vector UInt8 P256_SIGNATURE_LEN
  time : Int64 := 1699000000
  accounts : Accounts := accounts

namespace Signed

def message (s : Signed) : List UInt8 := s.call.message.getD []

theorem length_message_lt (s : Signed) : s.message.length < 65536 := by
  cases hmessage : s.call.message with
  | none => simp [message, hmessage]
  | some bytes =>
    have hmessage' := hmessage
    simp only [Call.message, Option.bind_eq_bind, Option.bind_eq_some_iff, Option.some_inj]
      at hmessage
    obtain ⟨auth, -, action, -, hbytes⟩ := hmessage
    have hlength := Encoding.Preimage.length_toBytes_le (auth.preimage action)
    rw [message, hmessage', Option.getD_some, ← hbytes]
    exact hlength.trans_lt (by decide)

/-- Sent by the relayer, after the precompile instruction. -/
def sent (s : Signed) : Invocation where
  call := s.call
  accounts := s.accounts
  sysvars := {
    previous := some (newSecp256r1Instruction s.message s.signature s.key)
    unixTimestamp := s.time }

end Signed

/-- The first action of the wallet: one guardian. -/
def setGuardians : Signed where
  call := .setGuardians (header 0 10000) #v[.p256 guardianKey, .none, .none] 5000
  key := deviceKey
  signature :=
    #v[0x51, 0xdf, 0x30, 0x8b, 0xba, 0x07, 0x14, 0x83, 0x70, 0xdf, 0xb6, 0xd1, 0x32, 0x70, 0x3e,
      0x35, 0xf4, 0x57, 0x1b, 0xfa, 0x46, 0xf6, 0xbf, 0x34, 0xaf, 0x2a, 0x85, 0x32, 0xae, 0xcc,
      0x34, 0x0b, 0x38, 0x59, 0x39, 0x50, 0x20, 0x6c, 0xa1, 0xed, 0xf2, 0xa8, 0xfd, 0xfe, 0x55,
      0x22, 0xef, 0x7f, 0x3b, 0xe5, 0xed, 0xbd, 0xb7, 0x86, 0x25, 0x8d, 0x4c, 0xbd, 0x11, 0x49,
      0xd5, 0xab, 0xf7, 0x65]

/-- The guardian proposes the next device, and lets the relayer have all the vault holds then. -/
def propose : Signed where
  call := .proposeRotation (header 1 999995000) nextKey 999995000
  key := guardianKey
  signature :=
    #v[0x99, 0xb3, 0x82, 0x5e, 0x9c, 0x1c, 0xe6, 0x4a, 0xa9, 0xd3, 0xaa, 0x52, 0xb4, 0xd7, 0xa7,
      0x73, 0x56, 0xb5, 0x2e, 0xfd, 0x5e, 0x02, 0x83, 0x7c, 0x33, 0xc1, 0xf2, 0x3a, 0xeb, 0x32,
      0xc6, 0x15, 0x51, 0x61, 0x94, 0xf5, 0x88, 0x2a, 0xb2, 0x44, 0xe5, 0x0e, 0xfc, 0x19, 0x6a,
      0x8e, 0x92, 0x4b, 0x3e, 0x16, 0x28, 0xa1, 0x7d, 0x69, 0x48, 0xb3, 0x0d, 0xb4, 0x9b, 0xb0,
      0xab, 0xac, 0xb7, 0xc7]

/-- A sweep as the first action. The relayer asks for nothing. -/
def sweep : Signed where
  call := .sweepVault (header 0 10000) dest 0
  key := deviceKey
  signature :=
    #v[0x2f, 0xb5, 0x21, 0xb0, 0x08, 0xd8, 0x3a, 0xab, 0x6e, 0xea, 0x22, 0x3c, 0x59, 0x3b, 0x7d,
      0xa8, 0x87, 0xe6, 0x77, 0x14, 0x49, 0xc4, 0x46, 0xb1, 0xd1, 0x63, 0xb1, 0x7d, 0xad, 0xed,
      0xd5, 0x05, 0x24, 0x7b, 0x0c, 0xfa, 0x6b, 0x25, 0xc4, 0xff, 0xb5, 0x12, 0x5f, 0x42, 0xdb,
      0x7c, 0x80, 0xe6, 0x37, 0xf3, 0x75, 0x4a, 0x4b, 0xb0, 0xc3, 0x21, 0x85, 0x5f, 0x1b, 0x85,
      0xdd, 0xcf, 0x26, 0xc8]

/-- The device closes the wallet after one action. -/
def close : Signed where
  call := .closeWallet (header 1 10000) dest 5000
  key := deviceKey
  signature :=
    #v[0xbd, 0xd1, 0x18, 0xf9, 0x59, 0x95, 0x0e, 0x57, 0x95, 0x36, 0x61, 0x99, 0xc1, 0x38, 0x71,
      0xab, 0x2e, 0x4c, 0xdb, 0x04, 0xad, 0x19, 0xc1, 0x6d, 0xcf, 0x55, 0xec, 0x3c, 0x3b, 0x03,
      0xaa, 0x75, 0x78, 0xb8, 0x80, 0xb5, 0x06, 0x1b, 0x39, 0x49, 0x98, 0xd8, 0x57, 0x17, 0xa7,
      0xc6, 0x45, 0xda, 0x54, 0x23, 0xfa, 0x93, 0xae, 0x38, 0xc4, 0xf0, 0x0d, 0xaf, 0xb6, 0x28,
      0xb8, 0xca, 0x81, 0xa0]

/-- The device hands over to the next. -/
def rotate : Signed where
  call := .proposeRotation (header 1 10000) nextKey 5000
  key := deviceKey
  signature :=
    #v[0xde, 0xa2, 0x30, 0x0f, 0x62, 0xb5, 0xfb, 0xcb, 0x0f, 0x7f, 0x56, 0xae, 0x5f, 0xce, 0xac,
      0xfa, 0x5c, 0x4b, 0x22, 0x72, 0x03, 0x17, 0x62, 0xb4, 0x9b, 0x57, 0xea, 0x5f, 0x49, 0xdf,
      0x6d, 0xc0, 0x0a, 0x9c, 0x5a, 0x86, 0x1f, 0x11, 0xc4, 0xd8, 0x2e, 0x1c, 0xbe, 0x52, 0xbf,
      0xd9, 0x21, 0xd1, 0xa2, 0xb2, 0x1c, 0xb0, 0x73, 0x37, 0x2b, 0xc9, 0x3d, 0x6e, 0x37, 0x3c,
      0xe8, 0xc4, 0xf7, 0x9c]

/-- The first action of the wallet: two guardians. -/
def setTwoGuardians : Signed where
  call := .setGuardians (header 0 10000) #v[.p256 guardianKey, .p256 secondGuardianKey, .none] 5000
  key := deviceKey
  signature :=
    #v[0x86, 0x08, 0xa4, 0x17, 0x9d, 0x5b, 0xee, 0x20, 0xab, 0x4a, 0x32, 0xc9, 0x60, 0xcd, 0xb4,
      0xda, 0x4a, 0xf6, 0x26, 0x02, 0x00, 0x55, 0x39, 0xab, 0xca, 0x19, 0x56, 0xe9, 0x6e, 0x3f,
      0x75, 0x2b, 0x21, 0xa1, 0xf8, 0x82, 0x08, 0x40, 0x35, 0x64, 0xa4, 0x1c, 0x26, 0x75, 0xad,
      0x45, 0xb3, 0x10, 0x99, 0xae, 0x59, 0x24, 0xd3, 0x55, 0x29, 0x2f, 0x19, 0x7a, 0x8f, 0x46,
      0x1e, 0x6d, 0x44, 0xd2]

/-- The first guardian proposes again, for nothing. -/
def repropose : Signed where
  call := .proposeRotation (header 2 10000) nextKey 0
  key := guardianKey
  signature :=
    #v[0x06, 0x87, 0x73, 0x3c, 0x35, 0x4d, 0x68, 0x0a, 0x28, 0x11, 0x96, 0x0a, 0xf1, 0x6c, 0x9a,
      0x69, 0xcb, 0x53, 0xff, 0x56, 0x0d, 0x75, 0xb4, 0xad, 0xdf, 0x32, 0x84, 0x6b, 0x33, 0x45,
      0xa9, 0xa3, 0x75, 0xa8, 0x95, 0x92, 0xd7, 0xc3, 0xc6, 0xa1, 0x1a, 0x6d, 0x67, 0x60, 0xfa,
      0x93, 0x19, 0x5a, 0x3a, 0xe6, 0xd6, 0xf2, 0x06, 0x03, 0x2f, 0xcc, 0xa8, 0x6d, 0x82, 0x2f,
      0xb2, 0x9f, 0x80, 0xb8]

/-- The second guardian proposes itself over the proposal of the first, for nothing. -/
def displace : Signed where
  call := .proposeRotation (header 2 10000) secondGuardianKey 0
  key := secondGuardianKey
  signature :=
    #v[0xc4, 0xbb, 0x33, 0x08, 0xf5, 0x49, 0xb0, 0x23, 0x52, 0xc7, 0x46, 0x69, 0x65, 0xcc, 0xea,
      0xe4, 0x88, 0x2e, 0x84, 0xe6, 0x04, 0x14, 0xf8, 0xf5, 0x4d, 0xfc, 0x4d, 0xaf, 0x8a, 0x98,
      0xa9, 0x49, 0x48, 0xce, 0x69, 0xa3, 0x8e, 0xb4, 0x24, 0x70, 0xa9, 0x87, 0xd3, 0xb3, 0x18,
      0x38, 0xcc, 0xf1, 0xdc, 0x90, 0xfc, 0xcc, 0x5b, 0x37, 0x77, 0xdb, 0xb0, 0x45, 0xd6, 0xab,
      0x45, 0xb7, 0xe1, 0xd9]

/-- The device cancels what is pending, for nothing. -/
def cancel : Signed where
  call := .cancelRotation (header 2 10000) 0
  key := deviceKey
  signature :=
    #v[0x0d, 0xca, 0x9d, 0x70, 0xf3, 0x09, 0xd5, 0xce, 0x40, 0x10, 0x0d, 0x0b, 0x72, 0x53, 0x6e,
      0xb3, 0x87, 0xe4, 0x9b, 0xa5, 0x01, 0x2a, 0xb5, 0x9c, 0x61, 0x20, 0xa9, 0x85, 0xda, 0x34,
      0x6e, 0xf8, 0x1a, 0x4e, 0x6b, 0x97, 0xce, 0x58, 0xb4, 0x21, 0x89, 0x02, 0x87, 0xe7, 0xb3,
      0xc7, 0x48, 0x94, 0x32, 0x08, 0x6d, 0x67, 0xca, 0x88, 0x64, 0x8a, 0x96, 0x81, 0xe3, 0x82,
      0xae, 0xb9, 0x7d, 0x30]

/-- The device closes the wallet under a pending proposal. -/
def pendingClose : Signed where
  call := .closeWallet (header 2 10000) dest 5000
  key := deviceKey
  signature :=
    #v[0x37, 0x4e, 0x95, 0xdc, 0xeb, 0x5f, 0x68, 0xa1, 0x45, 0x01, 0xdb, 0x6f, 0xa2, 0xb1, 0x58,
      0x56, 0xf8, 0xe4, 0x16, 0xb3, 0x6f, 0x03, 0x29, 0x0c, 0x3e, 0x38, 0x3d, 0x09, 0x02, 0x32,
      0x2c, 0x46, 0x74, 0x61, 0x54, 0x63, 0x28, 0x0e, 0xd2, 0x4f, 0xc4, 0x8a, 0x99, 0x4f, 0xc2,
      0x3d, 0x24, 0x4c, 0x2f, 0x93, 0x23, 0x58, 0xde, 0xaa, 0x95, 0x06, 0x29, 0xe2, 0xc2, 0x37,
      0x43, 0x25, 0x8e, 0xc2]

/-- A sweep as the first action, into the vault itself. -/
def selfSweep : Signed where
  call := .sweepVault (header 0 10000) vault 0
  key := deviceKey
  signature :=
    #v[0x01, 0x9b, 0x77, 0x2b, 0xf9, 0x1a, 0xa8, 0x7c, 0x5c, 0x1c, 0x21, 0x86, 0x03, 0x7b, 0xb6,
      0x59, 0xc9, 0x72, 0x79, 0xab, 0xd3, 0x3a, 0x67, 0xbf, 0x25, 0xcb, 0x92, 0x0d, 0xcb, 0x68,
      0x85, 0x42, 0x62, 0xfd, 0x70, 0x4f, 0xd3, 0x13, 0xb9, 0x4f, 0x94, 0xcf, 0x2b, 0xac, 0xab,
      0xa3, 0x14, 0x72, 0x9b, 0x85, 0xe6, 0xec, 0xc3, 0x28, 0xd5, 0x6d, 0x92, 0xfb, 0x8f, 0x90,
      0x74, 0x66, 0x4c, 0x64]

/-- A transfer as the first action. -/
def transfer : Signed where
  call := .transferSol (header 0 10000) dest 100000000 5000
  key := deviceKey
  signature :=
    #v[0x63, 0xc0, 0x8f, 0xdb, 0x91, 0xe1, 0xa5, 0x9f, 0xb9, 0x2c, 0xed, 0xe7, 0x46, 0x55, 0x86,
      0x3c, 0xea, 0x59, 0x7f, 0x6c, 0x3a, 0x09, 0x6e, 0x69, 0x74, 0xf4, 0xf5, 0x33, 0xa6, 0x82,
      0x80, 0x1a, 0x45, 0x4e, 0xd0, 0x2a, 0x2f, 0x7e, 0xb8, 0xa4, 0xd2, 0xd5, 0x0c, 0x31, 0xbe,
      0x8a, 0x27, 0xe3, 0x15, 0xdf, 0xde, 0x93, 0x5e, 0xc3, 0x9e, 0x2d, 0xfc, 0x35, 0x31, 0xda,
      0x8b, 0x8a, 0x77, 0xce]

/-- The next device closes the wallet. -/
def nextClose : Signed where
  call := .closeWallet (header 2 10000) dest 5000
  key := nextKey
  signature :=
    #v[0xc4, 0x94, 0x51, 0x8b, 0xe9, 0x04, 0x81, 0x61, 0x36, 0x8e, 0xf1, 0xf3, 0x63, 0x2f, 0x22,
      0x2c, 0x53, 0x4a, 0x1b, 0x18, 0xb8, 0xd4, 0x1c, 0xb2, 0x34, 0xe4, 0xc4, 0xa7, 0xcb, 0x58,
      0xd0, 0xee, 0x37, 0xbc, 0xd7, 0x15, 0xda, 0x37, 0x0a, 0x26, 0xe9, 0x9a, 0xc7, 0xbd, 0xbb,
      0x92, 0xd1, 0xcf, 0x6f, 0xf4, 0x20, 0x34, 0x10, 0xa7, 0x1c, 0x60, 0x87, 0xc2, 0x37, 0xf0,
      0x08, 0x0e, 0x62, 0xb5]

/-- A sweep signed and sent after the others have expired. -/
def lateSweep : Signed where
  call := .sweepVault { header 0 10000 with expiresAt := 1900000000 } dest 0
  key := deviceKey
  signature :=
    #v[0x58, 0x90, 0xa4, 0x4b, 0x4f, 0xa3, 0x75, 0xf5, 0xde, 0xf0, 0x3b, 0x3a, 0xdb, 0xe9, 0x85,
      0x0d, 0xbb, 0xb3, 0x98, 0x0b, 0x11, 0xce, 0x31, 0xc7, 0xcb, 0x47, 0x98, 0x21, 0x94, 0xfd,
      0xcf, 0xba, 0x64, 0xf1, 0x0f, 0xfe, 0x4d, 0x2b, 0x79, 0x5f, 0x3d, 0x08, 0x6c, 0xcd, 0x78,
      0xb6, 0x8b, 0x07, 0xfe, 0x66, 0xc9, 0x47, 0xb6, 0xdb, 0xe0, 0x78, 0xbd, 0xf1, 0x22, 0xc7,
      0xa0, 0xc3, 0x6a, 0x40]
  time := 1800000000

/-- The first action of the other wallet, to the same destination. -/
def otherSweep : Signed where
  call := .sweepVault { header 0 10000 with walletId := otherId } dest 0
  key := otherKey
  signature :=
    #v[0xb9, 0x3f, 0xfa, 0xf2, 0xfa, 0x7d, 0x86, 0x01, 0x38, 0x03, 0xb2, 0xbc, 0x65, 0x65, 0xe4,
      0x60, 0xd3, 0xea, 0xbf, 0xbb, 0x1e, 0x19, 0x38, 0x9b, 0x20, 0x47, 0x6d, 0xff, 0x9e, 0x32,
      0xc2, 0x86, 0x09, 0xde, 0x7a, 0x24, 0xda, 0x56, 0xf0, 0x01, 0xc6, 0xda, 0x53, 0x7a, 0x4a,
      0x49, 0xfb, 0xae, 0xff, 0xcd, 0xcd, 0x6c, 0x49, 0x8d, 0x41, 0x5a, 0x0d, 0xa6, 0x92, 0x0d,
      0x07, 0x2c, 0x7f, 0x05]
  accounts := { accounts with wallet := otherWallet, vault := otherVault }

/-- The displacing proposal, sent the second the first one opens. -/
def displaceOpened : Signed := { displace with time := 1699259200 }

/-- The sweep, by a relayer that asks to be paid for it: the same message and signature. -/
def paidSweep : Signed := { sweep with call := .sweepVault (header 0 10000) dest 5000 }

/-- Nobody signs a confirmation. This one is sent the second the guardian's proposal opens. -/
def confirm : Invocation where
  call := .confirmRotation walletId
  accounts := accounts
  sysvars := { previous := none, unixTimestamp := 1699259200 }

/-- Everything that was signed. -/
def approvals : List Signed :=
  [setGuardians, setTwoGuardians, propose, repropose, displaceOpened, cancel, sweep, paidSweep,
    selfSweep, transfer, close, pendingClose, rotate, nextClose, lateSweep, otherSweep]

def tables : Tables where
  digests := [(deviceKey.toList, walletId), (otherKey.toList, otherId)]
  addresses := [
    ([WALLET_SEED, walletId.toList, [255]], wallet),
    ([VAULT_SEED, walletId.toList, [255]], vault),
    ([WALLET_SEED, otherId.toList, [255]], otherWallet),
    ([VAULT_SEED, otherId.toList, [255]], otherVault)]
  signatures := approvals.map fun s ↦ ⟨s.key.toList, s.signature.toList, s.message⟩

/-- The deployment with these values. -/
def deployment : Deployment := tables.deployment

/-- Two funded vaults, a funded relayer, and no wallet. -/
def genesis : Chain := fun a ↦
  if a = vault then ⟨1000000000, .system⟩
  else if a = otherVault then ⟨500000000, .system⟩
  else if a = relayer then ⟨10000000000, .system⟩
  else ⟨0, .system⟩

theorem genesis_init : (system deployment).init genesis := by
  intro a wallet
  rw [genesis]
  split_ifs <;> simp

theorem walletAddress_eq : walletAddress deployment walletId = some wallet := rfl

theorem vaultAddress_eq : vaultAddress deployment walletId = some vault := rfl

/-- Nobody but the vaults and the relayer holds anything. -/
theorem genesis_supplyFits : genesis.SupplyFits := by
  intro s
  have hholders : ∀ a ∈ s, genesis.balance a ≤ (if a = vault then 1000000000 else 0)
      + ((if a = otherVault then 500000000 else 0) + if a = relayer then 10000000000 else 0) := by
    intro a _
    rw [Ledger.balance, genesis]
    split_ifs <;> decide
  refine (Finset.sum_le_sum hholders).trans_lt ?_
  rw [Finset.sum_add_distrib, Finset.sum_add_distrib, Finset.sum_ite_eq', Finset.sum_ite_eq',
    Finset.sum_ite_eq']
  split_ifs <;> omega

theorem guardianKey_ne_deviceKey : guardianKey ≠ deviceKey := by decide

theorem nextKey_ne_deviceKey : nextKey ≠ deviceKey := by decide

theorem deployment_noZeroKey : NoZeroKey deployment := Tables.noZeroKey (by decide)

theorem deployment_distinctAddresses (w : WalletId) : DistinctAddresses deployment w :=
  Tables.distinctAddresses (by decide) w

theorem relayer_not_derived : relayer ∉ tables.addresses.map Prod.snd := by decide

theorem relayer_of_mem : ∀ s ∈ approvals, s.accounts.relayer = relayer := by decide

theorem admitted_sent {s : Signed} (h : s ∈ approvals) : Admitted deployment s.sent := by
  have hrelayer : s.sent.accounts.relayer ∉ tables.addresses.map Prod.snd := by
    rw [show s.sent.accounts.relayer = relayer from relayer_of_mem s h]
    exact relayer_not_derived
  exact Tables.admitted hrelayer rfl s.length_message_lt (List.mem_map_of_mem h)

theorem admitted_confirm : Admitted deployment confirm :=
  Tables.admitted_of_none relayer_not_derived rfl

theorem payload_sent (s : Signed) {auth : Authorization}
    (hauth : s.call.authorization = some auth) :
    s.sent.payload = some ⟨s.key, s.message⟩ := by
  have hload := load_newSecp256r1Instruction s.signature s.key s.length_message_lt
  rw [Invocation.payload, show s.sent.call.authorization = some auth from hauth,
    show s.sent.sysvars.previous = some (newSecp256r1Instruction s.message s.signature s.key)
      from rfl, hload]

theorem signer_sent (s : Signed) {auth : Authorization}
    (hauth : s.call.authorization = some auth) : s.sent.signer = some s.key :=
  Invocation.signer_of_payload (payload_sent s hauth)

/-! ## Stages

A stage is where a list of instructions leads to from the start. That they are all accepted, and
what is stored afterwards, is computed once for each. -/

structure Stage where
  invs : List Invocation
  /-- What is stored of the wallet. -/
  state : Option SmartWallet
  /-- What the vault holds. -/
  funds : ℕ
  admitted : ∀ inv ∈ invs, inv = confirm ∨ ∃ s ∈ approvals, inv = s.sent
  computed : acceptsAll deployment genesis invs = true ∧
    stateAt (invs.foldl (next deployment) genesis) wallet = state ∧
    (invs.foldl (next deployment) genesis).balance vault = funds

namespace Stage

variable (s : Stage)

def chain : Chain := s.invs.foldl (next deployment) genesis

def labels : List Label := trace deployment genesis s.invs

theorem run : (system deployment).Run genesis s.labels s.chain := by
  refine run_of_acceptsAll (fun inv hinv ↦ ?_) s.computed.1
  rcases s.admitted inv hinv with rfl | ⟨t, ht, rfl⟩
  · exact admitted_confirm
  · exact admitted_sent ht

theorem reachable : (system deployment).Reachable s.chain := ⟨_, _, genesis_init, s.run⟩

theorem supplyFits : s.chain.SupplyFits := by
  rw [chain]
  generalize s.invs = invs
  induction invs using List.reverseRecOn with
  | nil => exact genesis_supplyFits
  | append_singleton invs inv ih =>
    rw [List.foldl_append]
    exact supplyFits_next ih

theorem stateAt_eq : stateAt s.chain wallet = s.state := s.computed.2.1

theorem stored_eq : stored deployment s.chain walletId = s.state :=
  (stored_eq_stateAt walletAddress_eq).trans s.stateAt_eq

theorem balance_eq : s.chain.balance vault = s.funds := s.computed.2.2

/-- The last instruction of a stage leads to it from the stage before. -/
theorem execute_eq (s' : Stage) (inv : Invocation) (h : s'.invs = s.invs ++ [inv]) :
    execute deployment inv s.chain = .ok (s'.chain, emitted deployment s.chain inv) := by
  have haccepted := s'.computed.1
  rw [h, acceptsAll_append, Bool.and_eq_true, acceptsAll, Bool.and_eq_true] at haccepted
  have hchain : s'.chain = next deployment s.chain inv := by
    rw [chain, h, List.foldl_append, List.foldl_cons, List.foldl_nil]
    rfl
  rw [hchain]
  exact execute_of_accepts haccepted.2.1

theorem step (s' : Stage) (inv : Invocation) (h : s'.invs = s.invs ++ [inv]) :
    Step deployment s.chain (.invoke inv (emitted deployment s.chain inv)) s'.chain := by
  refine .invoke ?_ (s.execute_eq s' inv h)
  rcases s'.admitted inv (by simp [h]) with rfl | ⟨t, ht, rfl⟩
  · exact admitted_confirm
  · exact admitted_sent ht

end Stage

/-- The wallet the device's first action makes. -/
def fresh : SmartWallet where
  walletId := walletId
  activeKey := deviceKey
  nonce := 1
  attested := false
  guardians := Vector.replicate MAX_GUARDIANS GuardianSlot.EMPTY
  rotation := RotationSlot.EMPTY
  stateBump := 255
  vaultBump := 255

/-- The same with one guardian. -/
def guardedWallet : SmartWallet :=
  { fresh with
    guardians := #v[.ofGuardian (.p256 guardianKey), GuardianSlot.EMPTY, GuardianSlot.EMPTY] }

/-- The same after the guardian's proposal. -/
def proposedWallet : SmartWallet :=
  { guardedWallet with nonce := 2, rotation := RotationSlot.new ⟨nextKey, 1699000000, 0⟩ }

/-- With two guardians, and after the proposal of the first. -/
def guardedTwiceWallet : SmartWallet :=
  { fresh with
    guardians := #v[.ofGuardian (.p256 guardianKey), .ofGuardian (.p256 secondGuardianKey),
      GuardianSlot.EMPTY] }

def proposedTwiceWallet : SmartWallet :=
  { guardedTwiceWallet with nonce := 2, rotation := RotationSlot.new ⟨nextKey, 1699000000, 0⟩ }

/-- The wallet of one guardian under the next device's key. -/
def rotatedWallet : SmartWallet := { guardedWallet with activeKey := nextKey, nonce := 2 }

def start : Stage where
  invs := []
  state := none
  funds := 1000000000
  admitted := by simp
  computed := by decide +kernel

/-- The device lists a guardian. -/
def guarded : Stage where
  invs := [setGuardians.sent]
  state := some guardedWallet
  funds := 999995000
  admitted := by simp [approvals]
  computed := by decide +kernel

/-- The guardian's proposal waits. Its refund has emptied the vault. -/
def proposed : Stage where
  invs := [setGuardians.sent, propose.sent]
  state := some proposedWallet
  funds := 0
  admitted := by simp [approvals]
  computed := by decide +kernel

/-- The proposal is confirmed. -/
def recovered : Stage where
  invs := [setGuardians.sent, propose.sent, confirm]
  state := some rotatedWallet
  funds := 0
  admitted := by simp [approvals]
  computed := by decide +kernel

/-- The device hands over to the next. -/
def handedOver : Stage where
  invs := [setGuardians.sent, rotate.sent]
  state := some rotatedWallet
  funds := 999990000
  admitted := by simp [approvals]
  computed := by decide +kernel

/-- The next device closes the wallet. -/
def closed : Stage where
  invs := [setGuardians.sent, rotate.sent, nextClose.sent]
  state := none
  funds := 0
  admitted := by simp [approvals]
  computed := by decide +kernel

/-- The first of two guardians has proposed. -/
def proposedTwice : Stage where
  invs := [setTwoGuardians.sent, propose.sent]
  state := some proposedTwiceWallet
  funds := 0
  admitted := by simp [approvals]
  computed := by decide +kernel

/-- The device's transfer. -/
def transferred : Stage where
  invs := [transfer.sent]
  state := some fresh
  funds := 899995000
  admitted := by simp [approvals]
  computed := by decide +kernel

def swept : Stage where
  invs := [sweep.sent]
  state := some fresh
  funds := 0
  admitted := by simp [approvals]
  computed := by decide +kernel

end Vectors

end EnclaveKit
