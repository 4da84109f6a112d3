import EnclaveKit.Program.Error

/-!
# Reading the precompile

The program reads the key and the message of the preceding `secp256r1` instruction at fixed places,
and never checks the signature. The runtime has checked one, read through offsets in the same data.
`ownSignature_of_load` is where the two readings meet: data the program accepts is data in which the
runtime's reading finds the same key and the same message.

What the program accepts is one layout (`secp256r1Data`), which is the one clients build but for a
byte that nobody reads.
-/

namespace EnclaveKit

open Solana Fallible

/-! ## Layout -/

/-- `Secp256r1SigVerify1111111111111111111111111`. -/
def SECP256R1_PROGRAM_ID : Pubkey :=
  #v[0x06, 0x92, 0x0d, 0xec, 0x2f, 0xea, 0x71, 0xb5, 0xb7, 0x23, 0x81, 0x4d, 0x74, 0x2d, 0xa9, 0x03,
    0x1c, 0x83, 0xe7, 0x5f, 0xdb, 0x79, 0x5d, 0x56, 0x8e, 0x75, 0x47, 0x80, 0x20, 0, 0, 0]

/-- ECDSA P-256 signature, `r ‖ s`. -/
def P256_SIGNATURE_LEN : ℕ := 64

def PRECOMPILE_OFFSETS_START : ℕ := 2

def PRECOMPILE_OFFSETS_LEN : ℕ := 14

def PRECOMPILE_DATA_START : ℕ := PRECOMPILE_OFFSETS_START + PRECOMPILE_OFFSETS_LEN

/-- `u16::MAX`: the bytes are in the precompile instruction itself. -/
def PRECOMPILE_CURRENT_INSTRUCTION : ℕ := 65535

def SECP256R1_PUBKEY_OFFSET : ℕ := PRECOMPILE_DATA_START

def SECP256R1_SIGNATURE_OFFSET : ℕ := SECP256R1_PUBKEY_OFFSET + COMPRESSED_PUBKEY_LEN

def SECP256R1_MESSAGE_OFFSET : ℕ := SECP256R1_SIGNATURE_OFFSET + P256_SIGNATURE_LEN

/-! ## Parsing -/

structure SignedPayload where
  pubkey : PublicKey
  message : List UInt8
  deriving DecidableEq

/-- The seven words at bytes 2 to 16, in order. -/
structure SignatureOffsets where
  signatureOffset : ℕ
  signatureInstructionIndex : ℕ
  publicKeyOffset : ℕ
  publicKeyInstructionIndex : ℕ
  messageDataOffset : ℕ
  messageDataSize : ℕ
  messageInstructionIndex : ℕ

/-- Out of bounds when there is nothing to return. -/
def SignatureOffsets.parse (data : List UInt8) : Option SignatureOffsets := do
  let field (i : ℕ) : Option ℕ := u16At data (PRECOMPILE_OFFSETS_START + 2 * i)
  some {
    signatureOffset := ← field 0
    signatureInstructionIndex := ← field 1
    publicKeyOffset := ← field 2
    publicKeyInstructionIndex := ← field 3
    messageDataOffset := ← field 4
    messageDataSize := ← field 5
    messageInstructionIndex := ← field 6 }

/-- The `n` bytes from `offset` as an array, when the data reaches so far. -/
def arrayAt (data : List UInt8) (offset n : ℕ) : Option (Vector UInt8 n) :=
  if h : offset + n ≤ data.length then
    some ⟨((data.drop offset).take n).toArray, by simp; omega⟩
  else none

theorem dataSlice_of_arrayAt {data : List UInt8} {offset n : ℕ} {v : Vector UInt8 n}
    (h : arrayAt data offset n = some v) : dataSlice data offset n = some v.toList := by
  rw [arrayAt] at h
  split_ifs at h with hle
  rw [dataSlice, if_pos hle]
  cases h
  rfl

/-- Reads the precompile instruction placed just before this one. -/
def loadSecp256r1Payload (previous : Option Instruction) : Except Error SignedPayload := do
  let ix ← okOr previous .noPreviousInstruction
  require (ix.programId = SECP256R1_PROGRAM_ID) EnclaveKitError.precompileProgramMismatch
  require (ix.accounts = []) EnclaveKitError.precompileUnexpectedAccounts
  let data := ix.data
  require (SECP256R1_MESSAGE_OFFSET ≤ data.length) EnclaveKitError.precompileDataTooShort
  require (data[0]? = some 1) EnclaveKitError.precompileSignatureCountMismatch
  let offsets ← okOr (SignatureOffsets.parse data) .panic
  require
    (offsets.signatureOffset = SECP256R1_SIGNATURE_OFFSET
      ∧ offsets.publicKeyOffset = SECP256R1_PUBKEY_OFFSET
      ∧ offsets.messageDataOffset = SECP256R1_MESSAGE_OFFSET
      ∧ offsets.signatureInstructionIndex = PRECOMPILE_CURRENT_INSTRUCTION
      ∧ offsets.publicKeyInstructionIndex = PRECOMPILE_CURRENT_INSTRUCTION
      ∧ offsets.messageInstructionIndex = PRECOMPILE_CURRENT_INSTRUCTION)
    EnclaveKitError.precompileLayoutMismatch
  require (SECP256R1_MESSAGE_OFFSET + offsets.messageDataSize = data.length)
    EnclaveKitError.precompileMessageSizeMismatch
  let pubkey ← okOr (arrayAt data SECP256R1_PUBKEY_OFFSET COMPRESSED_PUBKEY_LEN) .panic
  pure { pubkey := pubkey, message := data.drop SECP256R1_MESSAGE_OFFSET }

/-! ## What the program accepts -/

/-- The seven words, as the runtime reads them. -/
theorem SignatureOffsets.u16At_of_parse {data : List UInt8} {offsets : SignatureOffsets}
    (h : parse data = some offsets) :
    u16At data 2 = some offsets.signatureOffset
      ∧ u16At data 4 = some offsets.signatureInstructionIndex
      ∧ u16At data 6 = some offsets.publicKeyOffset
      ∧ u16At data 8 = some offsets.publicKeyInstructionIndex
      ∧ u16At data 10 = some offsets.messageDataOffset
      ∧ u16At data 12 = some offsets.messageDataSize
      ∧ u16At data 14 = some offsets.messageInstructionIndex := by
  simp only [parse, PRECOMPILE_OFFSETS_START, Option.bind_eq_bind, Option.bind_eq_some_iff,
    Option.some_inj] at h
  obtain ⟨_, h0, _, h1, _, h2, _, h3, _, h4, _, h5, _, h6, rfl⟩ := h
  exact ⟨h0, h1, h2, h3, h4, h5, h6⟩

/-- Data long enough has its seven words. -/
theorem SignatureOffsets.exists_parse {data : List UInt8} (h : 16 ≤ data.length) :
    ∃ offsets, parse data = some offsets := by
  have hword : ∀ i, i + 2 ≤ 16 → ∃ n, u16At data i = some n := fun i hi ↦
    ⟨_, by
      rw [u16At, List.getElem?_eq_getElem (by omega), List.getElem?_eq_getElem (by omega)]
      rfl⟩
  obtain ⟨n2, h2⟩ := hword 2 (by decide)
  obtain ⟨n4, h4⟩ := hword 4 (by decide)
  obtain ⟨n6, h6⟩ := hword 6 (by decide)
  obtain ⟨n8, h8⟩ := hword 8 (by decide)
  obtain ⟨n10, h10⟩ := hword 10 (by decide)
  obtain ⟨n12, h12⟩ := hword 12 (by decide)
  obtain ⟨n14, h14⟩ := hword 14 (by decide)
  exact ⟨⟨n2, n4, n6, n8, n10, n12, n14⟩,
    by simp [parse, PRECOMPILE_OFFSETS_START, h2, h4, h6, h8, h10, h12, h14]⟩

/-- A word is less than `2 ^ 16`. -/
theorem SignatureOffsets.messageDataSize_lt {data : List UInt8} {offsets : SignatureOffsets}
    (h : parse data = some offsets) : offsets.messageDataSize < 65536 := by
  obtain ⟨-, -, -, -, -, h12, -⟩ := u16At_of_parse h
  simp only [u16At, Option.bind_eq_bind, Option.bind_eq_some_iff, Option.some_inj] at h12
  obtain ⟨low, -, high, -, hword⟩ := h12
  have hlow := low.toNat_lt
  have hhigh := high.toNat_lt
  omega

/-- **One reading.** Where the program accepts the data, the runtime's reading through the offsets
finds the same key and message, with some signature. -/
theorem ownSignature_of_load {previous : Option Instruction} {payload : SignedPayload}
    (h : loadSecp256r1Payload previous = .ok payload) :
    ∃ ix signature, previous = some ix ∧ ix.programId = SECP256R1_PROGRAM_ID ∧
      ownSignature ix.data = some ⟨payload.pubkey.toList, signature, payload.message⟩ := by
  simp only [loadSecp256r1Payload, bind_eq_ok, okOr_eq_ok, require_eq_ok, pure_eq_ok,
    exists_const] at h
  obtain ⟨ix, hprev, hprogram, -, hlen, hcount, offsets, hparse, hlayout, hsize, pubkey, hkey,
    rfl⟩ := h
  obtain ⟨h2, h4, h6, h8, h10, h12, h14⟩ := SignatureOffsets.u16At_of_parse hparse
  obtain ⟨hsig, hpub, hmsg, hi4, hi8, hi14⟩ := hlayout
  have hsignature : dataSlice ix.data SECP256R1_SIGNATURE_OFFSET 64
      = some ((ix.data.drop SECP256R1_SIGNATURE_OFFSET).take 64) := by
    rw [dataSlice, if_pos (show SECP256R1_SIGNATURE_OFFSET + 64 ≤ ix.data.length from hlen)]
  have hmessage : dataSlice ix.data SECP256R1_MESSAGE_OFFSET offsets.messageDataSize
      = some (ix.data.drop SECP256R1_MESSAGE_OFFSET) := by
    rw [dataSlice, if_pos hsize.le, List.take_of_length_le]
    rw [List.length_drop]
    omega
  have hpubkey : dataSlice ix.data SECP256R1_PUBKEY_OFFSET 33 = some pubkey.toList :=
    dataSlice_of_arrayAt hkey
  refine ⟨ix, (ix.data.drop SECP256R1_SIGNATURE_OFFSET).take 64, hprev, hprogram, ?_⟩
  rw [ownSignature, h2, h4, h6, h8, h10, h12, h14, hsig, hpub, hmsg, hi4, hi8, hi14, hcount]
  simp [PRECOMPILE_CURRENT_INSTRUCTION, hsignature, hpubkey, hmessage]

/-! ## The one layout -/

/-- A little-endian word of two bytes. -/
def u16Bytes (n : ℕ) : List UInt8 := [UInt8.ofNat n, UInt8.ofNat (n / 256)]

/-- The count, a byte nobody reads, and the seven words of a single signature. -/
def secp256r1Words (pad : UInt8) (messageLen : ℕ) : List UInt8 :=
  [1, pad] ++ [49, 65535, 16, 65535, 113, messageLen, 65535].flatMap u16Bytes

/-- These, then the key, the signature, and the message. -/
def secp256r1Data (pad : UInt8) (pubkey : PublicKey) (signature : Vector UInt8 P256_SIGNATURE_LEN)
    (message : List UInt8) : List UInt8 :=
  secp256r1Words pad message.length ++ (pubkey.toList ++ (signature.toList ++ message))

@[simp] theorem length_secp256r1Words (pad : UInt8) (messageLen : ℕ) :
    (secp256r1Words pad messageLen).length = 16 := rfl

theorem u16At_u16Bytes {n : ℕ} (h : n < 65536) :
    (UInt8.ofNat n).toNat + 256 * (UInt8.ofNat (n / 256)).toNat = n := by
  rw [UInt8.toNat_ofNat', UInt8.toNat_ofNat']
  omega

/-- Two bytes are the word they are read as. -/
theorem u16Bytes_of_toNat {low high : UInt8} {n : ℕ} (h : low.toNat + 256 * high.toNat = n) :
    u16Bytes n = [low, high] := by
  have hlow := low.toNat_lt
  have hlow' : UInt8.ofNat n = low := by
    rw [← UInt8.toNat_inj, UInt8.toNat_ofNat']
    omega
  have hhigh' : UInt8.ofNat (n / 256) = high := by
    have hhigh := high.toNat_lt
    rw [← UInt8.toNat_inj, UInt8.toNat_ofNat']
    omega
  rw [u16Bytes, hlow', hhigh']

theorem arrayAt_append {n : ℕ} (front rest : List UInt8) (v : Vector UInt8 n) :
    arrayAt (front ++ (v.toList ++ rest)) front.length n = some v := by
  have hlen : v.toList.length = n := v.length_toList
  have htake : ((front ++ (v.toList ++ rest)).drop front.length).take n = v.toList := by
    rw [List.drop_left, List.take_left' hlen]
  rw [arrayAt, dif_pos (by simp only [List.length_append]; omega), Option.some_inj,
    ← Vector.toArray_inj]
  exact congrArg List.toArray htake

/-- Bytes enough begin with an array. -/
theorem exists_vector_append {n : ℕ} {bytes : List UInt8} (h : n ≤ bytes.length) :
    ∃ v : Vector UInt8 n, bytes = v.toList ++ bytes.drop n :=
  ⟨⟨(bytes.take n).toArray, by simp [h]⟩, (List.take_append_drop n bytes).symm⟩

section Layout

variable {message : List UInt8} (pad : UInt8) (signature : Vector UInt8 P256_SIGNATURE_LEN)
  (pubkey : PublicKey)

private theorem length_secp256r1Data :
    (secp256r1Data pad pubkey signature message).length
      = SECP256R1_MESSAGE_OFFSET + message.length := by
  have hpubkey : pubkey.toList.length = 33 := pubkey.length_toList
  have hsignature : signature.toList.length = 64 := signature.length_toList
  rw [secp256r1Data, List.length_append, List.length_append, List.length_append,
    length_secp256r1Words, hpubkey, hsignature, show SECP256R1_MESSAGE_OFFSET = 113 from rfl]
  omega

private theorem parse_secp256r1Data (h : message.length < 65536) :
    SignatureOffsets.parse (secp256r1Data pad pubkey signature message)
      = some ⟨49, 65535, 16, 65535, 113, message.length, 65535⟩ := by
  rw [← u16At_u16Bytes h]
  rfl

private theorem pubkey_secp256r1Data :
    arrayAt (secp256r1Data pad pubkey signature message) SECP256R1_PUBKEY_OFFSET
      COMPRESSED_PUBKEY_LEN = some pubkey :=
  arrayAt_append (secp256r1Words pad message.length) _ pubkey

private theorem signature_secp256r1Data :
    arrayAt (secp256r1Data pad pubkey signature message) SECP256R1_SIGNATURE_OFFSET
      P256_SIGNATURE_LEN = some signature := by
  have h := arrayAt_append (secp256r1Words pad message.length ++ pubkey.toList) message signature
  have hpubkey : pubkey.toList.length = 33 := pubkey.length_toList
  rw [List.length_append, hpubkey, List.append_assoc] at h
  exact h

private theorem message_secp256r1Data :
    (secp256r1Data pad pubkey signature message).drop SECP256R1_MESSAGE_OFFSET = message := by
  have hpubkey : pubkey.toList.length = 33 := pubkey.length_toList
  have hsignature : signature.toList.length = 64 := signature.length_toList
  rw [secp256r1Data, ← List.append_assoc, ← List.append_assoc]
  refine List.drop_left' ?_
  rw [List.length_append, List.length_append, hpubkey, hsignature]
  rfl

/-- **The layout is accepted**, and read back as the key and message put into it. -/
theorem load_secp256r1Data (h : message.length < 65536) :
    loadSecp256r1Payload
        (some ⟨SECP256R1_PROGRAM_ID, [], secp256r1Data pad pubkey signature message⟩)
      = .ok ⟨pubkey, message⟩ := by
  have hlength : (secp256r1Data pad pubkey signature message).length
      = SECP256R1_MESSAGE_OFFSET + message.length := length_secp256r1Data pad signature pubkey
  simp only [loadSecp256r1Payload, bind_eq_ok, okOr_eq_ok, require_eq_ok, pure_eq_ok,
    exists_const]
  exact ⟨_, rfl, rfl, rfl, by rw [hlength]; omega, rfl, _,
    parse_secp256r1Data pad signature pubkey h, ⟨rfl, rfl, rfl, rfl, rfl, rfl⟩,
    hlength.symm, _, pubkey_secp256r1Data pad signature pubkey,
    by rw [message_secp256r1Data]⟩

/-- The runtime verifies the signature put into it. -/
theorem ownSignature_secp256r1Data (h : message.length < 65536) :
    ownSignature (secp256r1Data pad pubkey signature message)
      = some ⟨pubkey.toList, signature.toList, message⟩ := by
  obtain ⟨ix, bytes, hix, -, hown⟩ :=
    ownSignature_of_load (load_secp256r1Data pad signature pubkey h)
  obtain rfl := Option.some_inj.mp hix
  -- The reading is determined by the data, so only the signature is left to compare.
  have hsignature : dataSlice (secp256r1Data pad pubkey signature message) 49 64
      = some signature.toList :=
    dataSlice_of_arrayAt (signature_secp256r1Data pad signature pubkey)
  have hword : u16At (secp256r1Data pad pubkey signature message) 2 = some 49 := rfl
  rw [hown]
  simp only [ownSignature, hword, hsignature, Option.bind_eq_bind, Option.bind_some,
    Option.bind_eq_some_iff, Option.some_inj, Secp256r1Signature.mk.injEq] at hown
  obtain ⟨_, -, _, -, _, -, _, -, _, -, _, -, _, -, -, rfl, -⟩ := hown
  rfl

end Layout

private theorem take_add_two {data : List UInt8} {i n : ℕ} (h : u16At data i = some n) :
    data.take (i + 2) = data.take i ++ u16Bytes n := by
  simp only [u16At, Option.bind_eq_bind, Option.bind_eq_some_iff, Option.some_inj] at h
  obtain ⟨low, hlow, high, hhigh, hword⟩ := h
  rw [List.take_add_one, List.take_add_one, hlow, hhigh, u16Bytes_of_toNat hword,
    List.append_assoc]
  rfl

/-- The words of accepted data, as bytes. -/
private theorem take_of_parse {data : List UInt8} {offsets : SignatureOffsets}
    (hcount : data[0]? = some 1) (hparse : SignatureOffsets.parse data = some offsets) :
    ∃ pad, data.take 16 = [1, pad] ++
      [offsets.signatureOffset, offsets.signatureInstructionIndex, offsets.publicKeyOffset,
        offsets.publicKeyInstructionIndex, offsets.messageDataOffset, offsets.messageDataSize,
        offsets.messageInstructionIndex].flatMap u16Bytes := by
  obtain ⟨h2, h4, h6, h8, h10, h12, h14⟩ := SignatureOffsets.u16At_of_parse hparse
  obtain ⟨pad, hpad⟩ : ∃ pad, data[1]? = some pad := by
    simp only [u16At, Option.bind_eq_bind, Option.bind_eq_some_iff] at h14
    obtain ⟨_, -, _, hlast, -⟩ := h14
    have hlen := (List.getElem?_eq_some_iff.mp hlast).1
    exact ⟨data[1], List.getElem?_eq_getElem (by omega)⟩
  have hhead : data.take 2 = [1, pad] := by
    rw [List.take_add_one, List.take_add_one, hcount, hpad]
    rfl
  refine ⟨pad, ?_⟩
  rw [take_add_two h14, take_add_two h12, take_add_two h10, take_add_two h8, take_add_two h6,
    take_add_two h4, take_add_two h2, hhead]
  simp only [List.flatMap_cons, List.flatMap_nil, List.append_assoc, List.append_nil]

/-- **No other layout is.** Accepted data is the layout of the key and message it is read as. -/
theorem data_of_load {ix : Instruction} {payload : SignedPayload}
    (h : loadSecp256r1Payload (some ix) = .ok payload) :
    ∃ pad signature, payload.message.length < 65536 ∧
      ix.data = secp256r1Data pad payload.pubkey signature payload.message := by
  simp only [loadSecp256r1Payload, bind_eq_ok, okOr_eq_ok, require_eq_ok, pure_eq_ok,
    exists_const] at h
  obtain ⟨_, hsome, -, -, hlen, hcount, offsets, hparse, hlayout, hsize, pubkey, hkey, rfl⟩ := h
  obtain rfl := Option.some_inj.mp hsome
  obtain ⟨pad, hhead⟩ := take_of_parse hcount hparse
  obtain ⟨hsig, hpub, hmsg, hi4, hi8, hi14⟩ := hlayout
  have hmessage : (ix.data.drop SECP256R1_MESSAGE_OFFSET).length = offsets.messageDataSize := by
    rw [List.length_drop]
    exact Nat.sub_eq_of_eq_add' hsize.symm
  rw [hsig, hpub, hmsg, hi4, hi8, hi14, ← hmessage] at hhead
  -- After the words: the key that is read, 64 bytes, and the message that is read.
  have hslice := dataSlice_of_arrayAt hkey
  rw [dataSlice, Option.ite_none_right_eq_some, Option.some_inj] at hslice
  have hroom : P256_SIGNATURE_LEN ≤ (ix.data.drop SECP256R1_SIGNATURE_OFFSET).length := by
    rw [List.length_drop]
    exact Nat.le_sub_of_add_le hlen
  obtain ⟨signature, hsignature⟩ := exists_vector_append hroom
  rw [List.drop_drop] at hsignature
  refine ⟨pad, signature, ?_, ?_⟩
  · rw [hmessage]
    exact SignatureOffsets.messageDataSize_lt hparse
  · calc ix.data = ix.data.take 16 ++ ix.data.drop 16 := (List.take_append_drop 16 _).symm
      _ = ix.data.take 16 ++ (pubkey.toList ++ ix.data.drop SECP256R1_SIGNATURE_OFFSET) := by
        rw [← hslice.2]
        exact congrArg _ ((List.take_append_drop 33 _).symm.trans (by rw [List.drop_drop]; rfl))
      _ = secp256r1Data pad pubkey signature (ix.data.drop SECP256R1_MESSAGE_OFFSET) := by
        rw [hhead, hsignature]
        rfl

/-- Nothing is read out of bounds. -/
theorem load_ne_panic (previous : Option Instruction) :
    loadSecp256r1Payload previous ≠ .error .panic := by
  intro h
  simp only [loadSecp256r1Payload, bind_eq_error, okOr_eq_error, require_eq_error, require_eq_ok,
    exists_const, okOr_eq_ok, reduceCtorEq, and_false, false_or, pure_ne_error, or_false] at h
  obtain ⟨ix, -, -, -, hlen, -, ⟨hparse, -⟩ | ⟨_, -, -, -, hkey, -⟩⟩ := h
  · have hwords : 16 ≤ ix.data.length := le_trans (by decide) hlen
    obtain ⟨offsets, hsome⟩ := SignatureOffsets.exists_parse hwords
    rw [hsome] at hparse
    cases hparse
  · rw [arrayAt, dif_pos (le_trans (by decide) hlen)] at hkey
    cases hkey

/-! ## The builder -/

/-- The count, the padding, and the seven offsets of a single signature. -/
def secp256r1Header (messageLen : ℕ) : List UInt8 :=
  [1, 0] ++ u16Bytes SECP256R1_SIGNATURE_OFFSET ++ u16Bytes PRECOMPILE_CURRENT_INSTRUCTION
    ++ u16Bytes SECP256R1_PUBKEY_OFFSET ++ u16Bytes PRECOMPILE_CURRENT_INSTRUCTION
    ++ u16Bytes SECP256R1_MESSAGE_OFFSET ++ u16Bytes messageLen
    ++ u16Bytes PRECOMPILE_CURRENT_INSTRUCTION

/-- The instruction a client puts before its own: `new_secp256r1_instruction_with_signature`. -/
def newSecp256r1Instruction (message : List UInt8) (signature : Vector UInt8 P256_SIGNATURE_LEN)
    (pubkey : PublicKey) : Instruction where
  programId := SECP256R1_PROGRAM_ID
  accounts := []
  data := secp256r1Header message.length ++ (pubkey.toList ++ (signature.toList ++ message))

/-- The builder's layout is the one, with no padding. -/
theorem newSecp256r1Instruction_eq (message : List UInt8)
    (signature : Vector UInt8 P256_SIGNATURE_LEN) (pubkey : PublicKey) :
    newSecp256r1Instruction message signature pubkey
      = ⟨SECP256R1_PROGRAM_ID, [], secp256r1Data 0 pubkey signature message⟩ := rfl

/-- **The builder's layout is accepted**, and read back as the key and message put into it. -/
theorem load_newSecp256r1Instruction {message : List UInt8}
    (signature : Vector UInt8 P256_SIGNATURE_LEN) (pubkey : PublicKey)
    (h : message.length < 65536) :
    loadSecp256r1Payload (some (newSecp256r1Instruction message signature pubkey))
      = .ok ⟨pubkey, message⟩ := by
  rw [newSecp256r1Instruction_eq]
  exact load_secp256r1Data 0 signature pubkey h

/-- The runtime verifies the signature put into it. -/
theorem ownSignature_newSecp256r1Instruction {message : List UInt8}
    (signature : Vector UInt8 P256_SIGNATURE_LEN) (pubkey : PublicKey)
    (h : message.length < 65536) :
    ownSignature (newSecp256r1Instruction message signature pubkey).data
      = some ⟨pubkey.toList, signature.toList, message⟩ := by
  rw [newSecp256r1Instruction_eq]
  exact ownSignature_secp256r1Data 0 signature pubkey h

end EnclaveKit
