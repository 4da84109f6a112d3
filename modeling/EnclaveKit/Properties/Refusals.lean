import EnclaveKit.Properties.Acceptance
import EnclaveKit.Properties.Interference

/-!
# What a refusal says

A refused instruction leaves an error, and somebody has to put it right. `Error.Means` says for each
error what is wrong, in terms of the wallet that is there, the message that was signed and the
vault, and not of the checks. An error that means nothing (`False`) is never seen: the addresses are
right because they were derived, the program can always sign for the vault, and it does not fail on
its own arithmetic.

The instructions here name their own accounts, as every client's do.
-/

namespace EnclaveKit

open Solana MachineInt Fallible

/-! ## The meaning of an error -/

/-- The wallet an instruction is judged by, for the key that signed it: the one that is there, or
the one the key would make. -/
inductive Judges (D : Deployment) (inv : Invocation) (chain : Chain) (signer : PublicKey) :
    SmartWallet → Prop where
  | found {wallet : SmartWallet} (stored_eq : stored D chain inv.call.walletId = some wallet) :
      Judges D inv chain signer wallet
  | first {bumps : Bumps} (stored_eq : stored D chain inv.call.walletId = none)
      (mayCreate : inv.call.mayCreate = true) :
      Judges D inv chain signer (SmartWallet.created inv.call.walletId signer bumps)

/-- A signed instruction, what was signed, and the wallet it is judged by. -/
structure Seen (D : Deployment) (inv : Invocation) (chain : Chain) (auth : Authorization)
    (payload : SignedPayload) (wallet : SmartWallet) : Prop where
  call_authorization : inv.call.authorization = some auth
  payload_eq : inv.payload = some payload
  judges : Judges D inv chain payload.pubkey wallet

/-- The vault does not cover the instruction. -/
def Short (D : Deployment) (inv : Invocation) (chain : Chain) : Prop :=
  ∃ auth, inv.call.authorization = some auth ∧
    ¬Covers D inv.call auth (chain.balance inv.accounts.vault)

theorem Short.not_covers {D : Deployment} {inv : Invocation} {chain : Chain} {auth : Authorization}
    (h : Short D inv chain) (hauth : inv.call.authorization = some auth) :
    ¬Covers D inv.call auth (chain.balance inv.accounts.vault) := by
  obtain ⟨auth', hauth', hnot⟩ := h
  rw [Option.some_inj.mp (hauth.symm.trans hauth')]
  exact hnot

/-- What precedes a signed instruction. -/
def Preceded (inv : Invocation) (p : Instruction → Prop) : Prop :=
  inv.call.authorization ≠ none ∧ ∃ ix, inv.sysvars.previous = some ix ∧ p ix

def EnclaveKitError.Means (D : Deployment) (inv : Invocation) (chain : Chain) :
    EnclaveKitError → Prop
  | precompileProgramMismatch => Preceded inv fun ix ↦ ix.programId ≠ SECP256R1_PROGRAM_ID
  | precompileUnexpectedAccounts => Preceded inv fun ix ↦ ix.accounts ≠ []
  | precompileDataTooShort => Preceded inv fun ix ↦ ix.data.length < SECP256R1_MESSAGE_OFFSET
  | precompileSignatureCountMismatch => Preceded inv fun ix ↦ ix.data[0]? ≠ some 1
  | precompileLayoutMismatch => Preceded inv fun ix ↦
    ∀ pad messageLen, ix.data.take PRECOMPILE_DATA_START ≠ secp256r1Words pad messageLen
  | precompileMessageSizeMismatch => Preceded inv fun ix ↦
    ∃ size, u16At ix.data 12 = some size ∧ SECP256R1_MESSAGE_OFFSET + size ≠ ix.data.length
  | walletIdMismatch =>
    stored D chain inv.call.walletId = none ∧
      ∃ signer, inv.signer = some signer ∧ D.sha256 signer.toList ≠ inv.call.walletId
  | nonceMismatch =>
    ∃ auth payload wallet, Seen D inv chain auth payload wallet ∧ auth.nonce ≠ wallet.nonce
  | authorizationExpired =>
    ∃ auth, inv.call.authorization = some auth ∧ auth.expiresAt ≤ inv.sysvars.unixTimestamp
  | preimageMismatch =>
    ∃ payload, inv.payload = some payload ∧ inv.call.message ≠ some payload.message
  | keyMismatch =>
    ∃ auth payload wallet, Seen D inv chain auth payload wallet ∧ payload.pubkey ≠ wallet.activeKey
  | webAuthnGuardianUnsupported =>
    ∃ auth guardians relayerFee, inv.call = .setGuardians auth guardians relayerFee ∧
      guardians.any Guardian.isWebAuthn = true
  | noPendingRotation =>
    ∃ wallet, stored D chain inv.call.walletId = some wallet ∧ wallet.rotation.get = none
  | notAGuardian =>
    ∃ auth payload wallet, Seen D inv chain auth payload wallet ∧
      payload.pubkey ≠ wallet.activeKey ∧ wallet.p256Guardian payload.pubkey = none
  | rotationSlotTaken =>
    ∃ auth payload wallet slot, Seen D inv chain auth payload wallet ∧
      payload.pubkey ≠ wallet.activeKey ∧ wallet.p256Guardian payload.pubkey = some slot ∧
      ∃ pending, wallet.rotation.get = some pending ∧ pending.proposedBy.toNat ≠ slot ∧
        pending.isExpired D.build inv.sysvars.unixTimestamp = false
  | invalidNewKey => ∃ auth relayerFee, inv.call = .proposeRotation auth zeroKey relayerFee
  | rotationTooEarly =>
    ∃ wallet pending, stored D chain inv.call.walletId = some wallet ∧
      wallet.rotation.get = some pending ∧ inv.sysvars.unixTimestamp < pending.opensAt D.build
  | rotationExpired =>
    ∃ wallet pending, stored D chain inv.call.walletId = some wallet ∧
      wallet.rotation.get = some pending ∧
      pending.isExpired D.build inv.sysvars.unixTimestamp = true
  | insufficientVaultBalance => Short D inv chain

def AccountError.Means (D : Deployment) (inv : Invocation) (chain : Chain) : AccountError → Prop
  | accountNotInitialized | accountOwnedByWrongProgram => stored D chain inv.call.walletId = none
  | accountNotSystemOwned => (chain inv.accounts.vault).holding ≠ .system
  | accountNotSigner => inv.accounts.relayerIsSigner ≠ true
  | constraintSeeds | constraintRentExempt | constraintClose
  | tryingToInitPayerAsProgramAccount => False

/-- What an error says is wrong. -/
def Error.Means (D : Deployment) (inv : Invocation) (chain : Chain) : Error → Prop
  | enclaveKit error => error.Means D inv chain
  | account error => error.Means D inv chain
  | system .invalidArgument => ¬Advances D inv.accounts chain
  | system .resultWithNegativeLamports => ¬Advances D inv.accounts chain ∨ Short D inv chain
  | noPreviousInstruction => inv.call.authorization ≠ none ∧ inv.sysvars.previous = none
  | arithmeticOverflow =>
    (∃ wallet, stored D chain inv.call.walletId = some wallet ∧ wallet.nonce.toNat + 1 = 2 ^ 64) ∨
      Short D inv chain
  | system .arithmeticOverflow | privilegeEscalation | panic | overflow => False

/-! ## The precompile -/

section Precompile

variable {D : Deployment} {inv : Invocation} {chain : Chain} {auth : Authorization} {e : Error}

theorem payload_of_load {payload : SignedPayload} (hauth : inv.call.authorization = some auth)
    (h : loadSecp256r1Payload inv.sysvars.previous = .ok payload) : inv.payload = some payload := by
  rw [Invocation.payload, hauth, h]

private theorem u16At_take {data : List UInt8} {n i : ℕ} (h : i + 2 ≤ n) :
    u16At (data.take n) i = u16At data i := by
  rw [u16At, u16At, List.getElem?_take_of_lt (by omega), List.getElem?_take_of_lt (by omega)]

/-- The words of a single signature are where they are looked for. -/
private theorem layout_of_take {data : List UInt8} {offsets : SignatureOffsets} {pad : UInt8}
    {messageLen : ℕ} (hparse : SignatureOffsets.parse data = some offsets)
    (h : data.take PRECOMPILE_DATA_START = secp256r1Words pad messageLen) :
    offsets.signatureOffset = SECP256R1_SIGNATURE_OFFSET
      ∧ offsets.publicKeyOffset = SECP256R1_PUBKEY_OFFSET
      ∧ offsets.messageDataOffset = SECP256R1_MESSAGE_OFFSET
      ∧ offsets.signatureInstructionIndex = PRECOMPILE_CURRENT_INSTRUCTION
      ∧ offsets.publicKeyInstructionIndex = PRECOMPILE_CURRENT_INSTRUCTION
      ∧ offsets.messageInstructionIndex = PRECOMPILE_CURRENT_INSTRUCTION := by
  have hword : ∀ {i n m : ℕ}, i + 2 ≤ PRECOMPILE_DATA_START → u16At data i = some n →
      u16At (secp256r1Words pad messageLen) i = some m → n = m := by
    intro i n m hi hdata hwords
    rw [← h, u16At_take hi, hdata] at hwords
    exact Option.some_inj.mp hwords
  obtain ⟨h2, h4, h6, h8, h10, -, h14⟩ := SignatureOffsets.u16At_of_parse hparse
  exact ⟨hword (by decide) h2 rfl, hword (by decide) h6 rfl, hword (by decide) h10 rfl,
    hword (by decide) h4 rfl, hword (by decide) h8 rfl, hword (by decide) h14 rfl⟩

/-- What is wrong with a precompile instruction is one of seven things. It is never that the data
ends before it is read. -/
theorem means_of_load (hauth : inv.call.authorization = some auth)
    (h : loadSecp256r1Payload inv.sysvars.previous = .error e) : e.Means D inv chain := by
  have hsigned : inv.call.authorization ≠ none := by simp [hauth]
  simp only [loadSecp256r1Payload, bind_eq_error, okOr_eq_error, require_eq_error, okOr_eq_ok,
    require_eq_ok, exists_const, pure_ne_error] at h
  obtain ⟨hnone, rfl⟩ | ⟨ix, hix, h⟩ := h
  · exact ⟨hsigned, hnone⟩
  rcases h with ⟨hprogram, rfl⟩ | ⟨-, ⟨haccounts, rfl⟩ | ⟨-, ⟨hshort, rfl⟩ | ⟨hlength, h⟩⟩⟩
  · exact ⟨hsigned, ix, hix, hprogram⟩
  · exact ⟨hsigned, ix, hix, haccounts⟩
  · exact ⟨hsigned, ix, hix, not_le.mp hshort⟩
  rcases h with ⟨hcount, rfl⟩ | ⟨-, ⟨hparse, -⟩ | ⟨offsets, hparse, h⟩⟩
  · exact ⟨hsigned, ix, hix, hcount⟩
  · obtain ⟨offsets, hsome⟩ := SignatureOffsets.exists_parse (le_trans (by decide) hlength)
    rw [hparse] at hsome
    cases hsome
  rcases h with ⟨hlayout, rfl⟩ | ⟨-, ⟨hsize, rfl⟩ | ⟨-, ⟨hkey, -⟩ | ⟨_, -, h⟩⟩⟩
  · exact ⟨hsigned, ix, hix, fun pad messageLen htake ↦ hlayout (layout_of_take hparse htake)⟩
  · obtain ⟨-, -, -, -, -, h12, -⟩ := SignatureOffsets.u16At_of_parse hparse
    exact ⟨hsigned, ix, hix, _, h12, hsize⟩
  · have hkeyEnd : SECP256R1_PUBKEY_OFFSET + COMPRESSED_PUBKEY_LEN ≤ ix.data.length :=
      le_trans (by decide) hlength
    rw [arrayAt, dif_pos hkeyEnd] at hkey
    cases hkey
  · exact h.elim

end Precompile

/-! ## The accounts -/

theorem liftSystem_eq_error {α : Type} {x : Except SystemError α} {e : Error} :
    liftSystem x = .error e ↔ ∃ e', x = .error e' ∧ .system e' = e := by
  cases x <;> simp [liftSystem]

section Accounts

variable {D : Deployment} {inv : Invocation} {chain : Chain} {auth : Authorization} {e : Error}
  {ctx : Context}

/-- No wallet is stored in an account that holds none. -/
private theorem stored_eq_none (hown : OwnAccounts D inv.call.walletId inv)
    (h : ∀ wallet, (chain inv.accounts.wallet).holding ≠ .owned wallet) :
    stored D chain inv.call.walletId = none := by
  rw [stored_eq_stateAt hown.wallet, Option.eq_none_iff_forall_ne_some]
  intro wallet hstored
  exact h wallet (stateAt_eq_some.mp hstored)

private theorem means_of_loadWallet (hown : OwnAccounts D inv.call.walletId inv)
    (h : loadWallet inv.accounts chain = .error e) : e.Means D inv chain := by
  rw [loadWallet] at h
  split at h
  · cases h
  · rename_i hsystem
    have hnone : stored D chain inv.call.walletId = none :=
      stored_eq_none hown fun wallet howned ↦ by simp [hsystem] at howned
    split_ifs at h
    · cases h
      exact hnone
    · cases h
      exact hnone
  · rename_i hforeign
    cases h
    exact stored_eq_none hown fun wallet howned ↦ by simp [hforeign] at howned

/-- Making the account fails for want of the rent. -/
private theorem means_of_createAccount (hown : OwnAccounts D inv.call.walletId inv)
    (hauth : inv.call.authorization = some auth) (hfits : chain.SupplyFits)
    (h : createAccount D chain inv.accounts.relayer inv.accounts.wallet = .error e) :
    e.Means D inv chain := by
  have hne : inv.accounts.relayer ≠ inv.accounts.wallet := by
    intro heq
    obtain ⟨_, hseeds⟩ := createProgramAddress_of_walletAddress hown.wallet
    refine hown.relayer (by simp [hauth]) ?_
    rw [heq]
    exact ⟨_, hseeds⟩
  have hlack : saturatingSub (D.minimumBalance SmartWallet.SPACE)
      (chain inv.accounts.wallet).lamports = lack D inv.accounts chain := rfl
  simp only [createAccount, bind_eq_error, require_eq_error, hlack] at h
  rcases h with ⟨hpayer, -⟩ | ⟨_, -, h⟩
  · exact absurd hne hpayer
  · split_ifs at h with hzero
    · exact (pure_ne_error h).elim
    · simp only [bind_eq_error, liftSystem_eq_error, pure_ne_error, and_false, exists_false,
        or_false] at h
      obtain ⟨e', htransfer, rfl⟩ := h
      rcases Ledger.transfer_eq_error hfits htransfer with ⟨rfl, hsystem⟩ | ⟨rfl, hlt⟩
      · exact fun hadvances ↦ hsystem (hadvances hzero).1
      · exact .inl fun hadvances ↦ absurd (hadvances hzero).2 (not_le.mpr hlt)

private theorem means_of_initIfNeeded (hown : OwnAccounts D inv.call.walletId inv)
    (hauth : inv.call.authorization = some auth) (hfits : chain.SupplyFits)
    (hrent : RentExempt D inv.accounts.wallet chain)
    (h : initIfNeeded D inv.accounts inv.call.walletId chain = .error e) : e.Means D inv chain := by
  obtain ⟨bump, hfind⟩ := walletAddress_eq_some.mp hown.wallet
  simp only [initIfNeeded, hfind, bind_eq_error, okOr_eq_error, okOr_eq_ok, reduceCtorEq,
    false_and, false_or, require_eq_error] at h
  obtain ⟨⟨a, b⟩, hab, h⟩ := h
  obtain ⟨rfl, rfl⟩ := Prod.mk.inj (Option.some_inj.mp hab)
  rcases h with ⟨hne, -⟩ | ⟨_, -, h⟩
  · exact absurd rfl hne
  · split at h
    · simp only [bind_eq_error, pure_ne_error, and_false, exists_false, or_false] at h
      exact means_of_createAccount hown hauth hfits h
    · rename_i wallet howned
      simp only [bind_eq_error, require_eq_error, pure_ne_error, and_false, exists_false,
        or_false] at h
      exact absurd (UInt64.le_iff_toNat_le.mpr (hrent wallet howned)) h.1
    · rename_i hforeign
      cases h
      exact stored_eq_none hown fun wallet howned ↦ by simp [hforeign] at howned

/-- The first family of account checks. -/
private theorem means_of_initialized (hown : OwnAccounts D inv.call.walletId inv)
    (hauth : inv.call.authorization = some auth) (hfits : chain.SupplyFits)
    (hrent : RentExempt D inv.accounts.wallet chain)
    (h : inv.accounts.initialized D inv.call.walletId chain = .error e) : e.Means D inv chain := by
  have hsigned : inv.call.authorization ≠ none := by simp [hauth]
  obtain ⟨bump, hfind⟩ := vaultAddress_eq_some.mp (hown.vault hsigned)
  simp only [Accounts.initialized, bind_eq_error, require_eq_error, okOr_eq_error, okOr_eq_ok,
    pure_ne_error, hfind, reduceCtorEq, false_and, false_or] at h
  rcases h with ⟨hsystem, rfl⟩ | ⟨_, -, ⟨hsigner, rfl⟩ | ⟨_, -, hinit | ⟨_, -, ⟨v, b⟩, hv, h⟩⟩⟩
  · exact hsystem
  · exact hsigner
  · exact means_of_initIfNeeded hown hauth hfits hrent hinit
  · obtain ⟨rfl, rfl⟩ := Prod.mk.inj (Option.some_inj.mp hv)
    rcases h with ⟨hne, -⟩ | ⟨_, -, h⟩
    · exact absurd rfl hne
    · exact h.elim

/-- The seeds of the two accounts, with the bumps of the wallet that is there. -/
theorem seeds_of_owned {wallet : SmartWallet} (h : OwnBumps D inv.call.walletId inv chain)
    (hown : OwnAccounts D inv.call.walletId inv) (hsigned : inv.call.authorization ≠ none)
    (howned : (chain inv.accounts.wallet).holding = .owned wallet) :
    D.createProgramAddress [WALLET_SEED, inv.call.walletId.toList, [wallet.stateBump]] ID
        = some inv.accounts.wallet ∧
      D.createProgramAddress [VAULT_SEED, inv.call.walletId.toList, [wallet.vaultBump]] ID
        = some inv.accounts.vault := by
  have hstored : stored D chain inv.call.walletId = some wallet := by
    rw [stored_eq_stateAt hown.wallet, stateAt_eq_some]
    exact howned
  obtain ⟨-, hwallet, v, hv⟩ := h.stored wallet hstored
  obtain rfl : v = inv.accounts.vault :=
    Option.some_inj.mp ((vaultAddress_eq_some.mpr ⟨_, hv⟩).symm.trans (hown.vault hsigned))
  exact ⟨Platform.createProgramAddress_of_find hwallet, Platform.createProgramAddress_of_find hv⟩

/-- The second family. The bumps of a wallet that is there are those of its addresses. -/
private theorem means_of_existing (hown : OwnAccounts D inv.call.walletId inv)
    (hauth : inv.call.authorization = some auth) (hbumps : OwnBumps D inv.call.walletId inv chain)
    (h : inv.accounts.existing D inv.call.walletId chain = .error e) : e.Means D inv chain := by
  simp only [Accounts.existing, bind_eq_error, require_eq_error, pure_ne_error] at h
  rcases h with hload | ⟨wallet, hload, ⟨hsystem, rfl⟩ | ⟨_, -, ⟨hsigner, rfl⟩ | ⟨_, -, h⟩⟩⟩
  · exact means_of_loadWallet hown hload
  · exact hsystem
  · exact hsigner
  · obtain ⟨hwallet, hvault⟩ :=
      seeds_of_owned hbumps hown (by simp [hauth]) (loadWallet_eq_ok.mp hload)
    simp only [checkSeeds, require_eq_error] at h
    rcases h with ⟨hne, -⟩ | ⟨_, -, ⟨hne, -⟩ | ⟨_, -, h⟩⟩
    · exact absurd hwallet hne
    · exact absurd hvault hne
    · exact h.elim

private theorem means_of_confirming (hown : OwnAccounts D inv.call.walletId inv)
    (hbumps : OwnBumps D inv.call.walletId inv chain)
    (h : inv.accounts.confirming D inv.call.walletId chain = .error e) : e.Means D inv chain := by
  simp only [Accounts.confirming, bind_eq_error, pure_ne_error] at h
  rcases h with hload | ⟨wallet, hload, h⟩
  · exact means_of_loadWallet hown hload
  · have hstored : stored D chain inv.call.walletId = some wallet := by
      rw [stored_eq_stateAt hown.wallet, stateAt_eq_some]
      exact loadWallet_eq_ok.mp hload
    simp only [checkSeeds, require_eq_error] at h
    rcases h with ⟨hne, -⟩ | ⟨_, -, h⟩
    · exact absurd (Platform.createProgramAddress_of_find (hbumps.stored wallet hstored).2.1) hne
    · exact h.elim

end Accounts

/-! ## Verification -/

section Verification

variable {D : Deployment} {inv : Invocation} {chain : Chain} {auth : Authorization} {e : Error}
  {ctx : Context} {action : Encoding.Action} {spent : SmartWallet} {signer : PublicKey}

/-- The wallet verification opens is the one the instruction is judged by. It is new only where none
is stored. -/
private theorem judges_opened (hinv : Invariant D chain)
    (hown : OwnAccounts D inv.call.walletId inv) (hauth : inv.call.authorization = some auth)
    (hloads : Loads D inv chain ctx) (signer : PublicKey) :
    Judges D inv chain signer (opened ctx.wallet auth signer ctx.bumps) ∧
      (ctx.wallet.isNew = true → stored D chain inv.call.walletId = none) := by
  have hid := Call.walletId_of_authorization hauth
  obtain ⟨creation, hloaded⟩ := hloads.loaded hauth
  have hstored : stored D chain inv.call.walletId = stateAt chain inv.accounts.wallet :=
    stored_eq_stateAt hown.wallet
  generalize hcreate : inv.call.mayCreate = mayCreate at hloaded
  cases hloaded with
  | @found _ wallet bumps holding =>
    have hnew : wallet.isNew = false := SmartWallet.isNew_eq_false.mpr (hinv _ _ holding).activeKey
    refine ⟨?_, fun hisNew ↦ by simp [hnew] at hisNew⟩
    rw [opened_of_not_isNew hnew]
    exact .found (hstored.trans (stateAt_eq_some.mpr holding))
  | @created chain₁ bumps holding =>
    have hnone := hstored.trans (stateAt_of_holdingOf (show _ = holdingOf none from holding))
    refine ⟨?_, fun _ ↦ hnone⟩
    rw [opened_of_isNew SmartWallet.isNew_zeroed, ← hid]
    exact .first hnone hcreate

private theorem openWallet_eq_error {wallet : SmartWallet} {pubkey : PublicKey} {bumps : Bumps}
    (h : openWallet D wallet auth pubkey bumps = .error e) :
    wallet.isNew = true ∧ D.sha256 pubkey.toList ≠ auth.walletId ∧
      e = EnclaveKitError.walletIdMismatch := by
  rw [openWallet] at h
  split_ifs at h with hnew
  · simp only [bind_eq_error, require_eq_error, pure_ne_error, and_false, exists_false,
      or_false] at h
    exact ⟨hnew, h.1, h.2.symm⟩
  · exact (pure_ne_error h).elim

/-- **What verification refuses.** -/
private theorem means_of_verify (hinv : Invariant D chain)
    (hown : OwnAccounts D inv.call.walletId inv) (hauth : inv.call.authorization = some auth)
    (haction : inv.call.action = some action) (hloads : Loads D inv chain ctx)
    (h : verifyEnclaveAuthorization D inv.sysvars ctx.wallet auth action ctx.bumps = .error e) :
    e.Means D inv chain := by
  have hid := Call.walletId_of_authorization hauth
  simp only [verifyEnclaveAuthorization, bind_eq_error, require_eq_error, okOr_eq_error,
    pure_ne_error, checkedAdd_eq_none, openWallet_eq_ok] at h
  rcases h with hload | ⟨payload, hload, h⟩
  · exact means_of_load hauth hload
  obtain ⟨hjudges, hfirst⟩ := judges_opened hinv hown hauth hloads payload.pubkey
  have hpayload := payload_of_load hauth hload
  have hseen : Seen D inv chain auth payload (opened ctx.wallet auth payload.pubkey ctx.bumps) :=
    ⟨hauth, hpayload, hjudges⟩
  rcases h with hopen | ⟨wallet, ⟨-, rfl⟩, h⟩
  · obtain ⟨hnew, hcreator, rfl⟩ := openWallet_eq_error hopen
    refine ⟨hfirst hnew, _, Invocation.signer_of_payload hpayload, ?_⟩
    rw [hid]
    exact hcreator
  rcases h with ⟨hnonce, rfl⟩ | ⟨_, -, ⟨hexpired, rfl⟩ | ⟨_, -, ⟨hmessage, rfl⟩ | ⟨_, -, h⟩⟩⟩
  · exact ⟨auth, payload, _, hseen, hnonce⟩
  · exact ⟨auth, hauth, Int64.not_lt.mp hexpired⟩
  · refine ⟨payload, hpayload, ?_⟩
    rw [Call.message, hauth, haction]
    exact fun heq ↦ hmessage (Option.some_inj.mp heq)
  · rcases h with ⟨hroom, rfl⟩ | ⟨_, -, h⟩
    · refine .inl ?_
      generalize opened ctx.wallet auth payload.pubkey ctx.bumps = wallet at hjudges hroom
      cases hjudges with
      | found stored_eq =>
        have hword := wallet.nonce.toNat_lt
        exact ⟨wallet, stored_eq, by simp at hroom; omega⟩
      | first => simp [SmartWallet.created] at hroom
    · exact h.elim

/-- What is verified was presented, to the wallet verification opened. -/
private theorem opening_of_verified (hinv : Invariant D chain)
    (hown : OwnAccounts D inv.call.walletId inv) (hauth : inv.call.authorization = some auth)
    (haction : inv.call.action = some action) (hloads : Loads D inv chain ctx)
    (h : Verified D inv.sysvars ctx.wallet auth action ctx.bumps spent signer) :
    Opening D auth.walletId inv auth signer chain (opened ctx.wallet auth signer ctx.bumps) := by
  have hid := Call.walletId_of_authorization hauth
  obtain ⟨creation, hloaded⟩ := hloads.loaded hauth
  have hpresented : Presented D auth.walletId (opened ctx.wallet auth signer ctx.bumps) inv auth
      signer := {
    wallet_eq := hid ▸ hown.wallet
    vault_eq := hid ▸ hown.vault (by simp [hauth])
    relayerIsSigner := hloaded.relayerIsSigner
    call_authorization := hauth
    walletId := rfl
    nonce := h.nonce_eq
    unexpired := h.unexpired
    signed := by
      refine ⟨(auth.preimage action).toBytes, ?_, payload_of_load hauth h.payload⟩
      rw [Call.message, hauth, haction]
      rfl }
  have hstored : stored D chain auth.walletId = stateAt chain inv.accounts.wallet :=
    stored_eq_stateAt hpresented.wallet_eq
  have hword := spent.nonce.toNat_lt
  have hafter := h.nonce_after
  rw [loads_iff hauth] at hloads
  generalize hcreate : inv.call.mayCreate = mayCreate at hloaded
  cases hloaded with
  | @found _ wallet bumps holding =>
    have hnew : wallet.isNew = false := SmartWallet.isNew_eq_false.mpr (hinv _ _ holding).activeKey
    rw [opened_of_not_isNew hnew] at hpresented hafter ⊢
    exact .found (hstored.trans (stateAt_eq_some.mpr holding)) hpresented (by omega)
  | @created chain₁ bumps holding _ walletFound vaultFound =>
    have hctx : inv.accounts.initialized D auth.walletId chain
        = .ok ⟨chain₁, SmartWallet.zeroed, bumps⟩ := by
      rcases hloads with ⟨-, hctx⟩ | ⟨hfalse, -⟩
      · exact hctx
      · rw [hcreate] at hfalse
        cases hfalse
    rw [opened_of_isNew SmartWallet.isNew_zeroed] at hpresented ⊢
    exact .first {
      hpresented with
      mayCreate := hcreate
      creator := h.creator SmartWallet.isNew_zeroed
      walletFound := walletFound
      vaultFound := vaultFound
      vacant := holding
      vaultSystem := system_of_initialized hctx
      advances := advances_of_initialized hctx holding }

/-- **What is verified, entitled and covered is not refused.** -/
private theorem accepts_of_verified (hzero : NoZeroKey D)
    (hdist : DistinctAddresses D inv.call.walletId) (hreach : (system D).Reachable chain)
    (hadmitted : Admitted D inv) (hfits : chain.SupplyFits)
    (hown : OwnAccounts D inv.call.walletId inv) (hauth : inv.call.authorization = some auth)
    (haction : inv.call.action = some action) (hloads : Loads D inv chain ctx)
    (h : Verified D inv.sysvars ctx.wallet auth action ctx.bumps spent signer)
    (hentitled : Entitles D inv.call spent signer inv.sysvars.unixTimestamp)
    (hcovered : Covers D inv.call auth (chain.balance inv.accounts.vault)) :
    accepts D chain inv = true := by
  have hinv := invariant_of_reachable hzero hreach
  have hallowed : Entitles D inv.call (opened ctx.wallet auth signer ctx.bumps) signer
      inv.sysvars.unixTimestamp := by
    rw [h.after_eq] at hentitled
    cases hcall : inv.call <;> rw [hcall] at hentitled <;> exact hentitled
  rw [Call.walletId_of_authorization hauth] at hdist
  exact (accepts_signed_iff hzero hdist hreach hadmitted hfits hauth).mpr
    ⟨signer, _, opening_of_verified hinv hown hauth haction hloads h, hallowed, hcovered⟩

/-- What was verified, as it was seen. -/
private theorem seen_of_verified (hinv : Invariant D chain)
    (hown : OwnAccounts D inv.call.walletId inv) (hauth : inv.call.authorization = some auth)
    (hloads : Loads D inv chain ctx)
    (h : Verified D inv.sysvars ctx.wallet auth action ctx.bumps spent signer) :
    Seen D inv chain auth ⟨signer, (auth.preimage action).toBytes⟩
      (opened ctx.wallet auth signer ctx.bumps) :=
  ⟨hauth, payload_of_load hauth h.payload, (judges_opened hinv hown hauth hloads signer).1⟩

/-- The program can sign for the vault. -/
private theorem seeds_of_verified (hinv : Invariant D chain)
    (hdist : DistinctAddresses D inv.call.walletId) (hown : OwnAccounts D inv.call.walletId inv)
    (hauth : inv.call.authorization = some auth) (hloads : Loads D inv chain ctx)
    (h : Verified D inv.sysvars ctx.wallet auth action ctx.bumps spent signer) :
    D.createProgramAddress [VAULT_SEED, spent.walletId.toList, [spent.vaultBump]] ID
      = some inv.accounts.vault := by
  have hid := Call.walletId_of_authorization hauth
  have hbumps := hown.bumps hinv hdist rfl
  have hopened : spent.walletId = (opened ctx.wallet auth signer ctx.bumps).walletId ∧
      spent.vaultBump = (opened ctx.wallet auth signer ctx.bumps).vaultBump := by
    rw [h.after_eq]
    exact ⟨rfl, rfl⟩
  rw [hopened.1, hopened.2]
  by_cases hnew : ctx.wallet.isNew = true
  · have hfound := (hbumps.loaded ctx hloads).2
    rw [hid] at hfound
    rw [opened_of_isNew hnew]
    exact Platform.createProgramAddress_of_find hfound
  · rw [Bool.not_eq_true] at hnew
    obtain ⟨creation, hloaded⟩ := hloads.loaded hauth
    rw [opened_of_not_isNew hnew]
    generalize inv.call.mayCreate = mayCreate at hloaded
    cases hloaded with
    | @found _ wallet bumps holding =>
      have hstored : stored D chain inv.call.walletId = some wallet := by
        rw [stored_eq_stateAt hown.wallet, stateAt_eq_some]
        exact holding
      rw [(hbumps.stored wallet hstored).1]
      exact (seeds_of_owned hbumps hown (by simp [hauth]) holding).2
    | created => simp at hnew

end Verification

/-! ## Deciding a proposal -/

section Decide

variable {D : Deployment} {sysvars : Sysvars} {wallet : SmartWallet} {signer newKey : PublicKey}

/-- A proposal is of no owner's and no guardian's, or of a guardian's that has to wait for
another. -/
private theorem decide_eq_error {e : Error}
    (h : ProposeRotation.decide D sysvars wallet signer newKey = .error e) :
    signer ≠ wallet.activeKey ∧
      (wallet.p256Guardian signer = none ∧ e = EnclaveKitError.notAGuardian ∨
        ∃ slot, wallet.p256Guardian signer = some slot ∧
          (∃ pending, wallet.rotation.get = some pending ∧ pending.proposedBy.toNat ≠ slot ∧
            pending.isExpired D.build sysvars.unixTimestamp = false) ∧
          e = EnclaveKitError.rotationSlotTaken) := by
  rw [ProposeRotation.decide] at h
  split_ifs at h with howner
  · exact (pure_ne_error h).elim
  · refine ⟨howner, ?_⟩
    simp only [bind_eq_error, okOr_eq_error, okOr_eq_ok, require_eq_error, pure_ne_error, and_false,
      exists_false, or_false] at h
    rcases h with ⟨hnone, rfl⟩ | ⟨slot, hslot, hnot, rfl⟩
    · exact .inl ⟨hnone, rfl⟩
    · rw [mayPropose_eq_true] at hnot
      simp only [not_forall, not_or, exists_prop] at hnot
      obtain ⟨pending, hpending, hother, hopen⟩ := hnot
      exact .inr ⟨slot, hslot, ⟨pending, hpending, hother, by simpa using hopen⟩, rfl⟩

private theorem entitled_of_decide {decided : SmartWallet} {proposal : Proposal}
    (h : ProposeRotation.decide D sysvars wallet signer newKey = .ok (decided, proposal)) :
    (signer = wallet.activeKey ∨ ∃ slot, wallet.p256Guardian signer = some slot ∧
        mayPropose D wallet slot sysvars.unixTimestamp = true) ∧
      decided.walletId = wallet.walletId ∧ decided.vaultBump = wallet.vaultBump := by
  rw [ProposeRotation.decide] at h
  split_ifs at h with howner
  · cases h
    exact ⟨.inl howner, rfl, rfl⟩
  · simp only [bind_eq_ok, okOr_eq_ok, require_eq_ok, exists_const, pure_eq_ok, Prod.mk.injEq] at h
    obtain ⟨slot, hslot, hfree, rfl, -⟩ := h
    exact ⟨.inr ⟨slot, hslot, hfree⟩, rfl, rfl⟩

end Decide

/-! ## The handlers, one at a time -/

/-- An instruction that names its own accounts, refused in a reachable state. -/
structure Refused (D : Deployment) (inv : Invocation) (chain : Chain) (e : Error) :
    Prop where
  noZeroKey : NoZeroKey D
  distinct : DistinctAddresses D inv.call.walletId
  reachable : (system D).Reachable chain
  admitted : Admitted D inv
  fits : chain.SupplyFits
  own : OwnAccounts D inv.call.walletId inv
  refused : execute D inv chain = .error e

namespace Refused

variable {D : Deployment} {inv : Invocation} {chain : Chain} {auth : Authorization} {e : Error}
  {ctx : Context} {action : Encoding.Action} {spent : SmartWallet} {signer : PublicKey}
  (h : Refused D inv chain e)

include h

theorem invariant : Invariant D chain := invariant_of_reachable h.noZeroKey h.reachable

theorem means_of_accounts (hauth : inv.call.authorization = some auth)
    (haccounts : inv.accounts.initialized D auth.walletId chain = .error e ∨
      inv.accounts.existing D auth.walletId chain = .error e) : e.Means D inv chain := by
  rw [← Call.walletId_of_authorization hauth] at haccounts
  rcases haccounts with hinitialized | hexisting
  · have hrent := rentExempt_of_reachable h.distinct h.own.wallet h.reachable
    exact means_of_initialized h.own hauth h.fits hrent hinitialized
  · exact means_of_existing h.own hauth (h.own.bumps h.invariant h.distinct rfl) hexisting

/-- Making the account leaves the vault as it was. -/
theorem balance_eq (hauth : inv.call.authorization = some auth) (hloads : Loads D inv chain ctx) :
    ctx.chain.balance inv.accounts.vault = chain.balance inv.accounts.vault := by
  have hsigned : inv.call.authorization ≠ none := by simp [hauth]
  obtain ⟨creation, hloaded⟩ := hloads.loaded hauth
  obtain ⟨_, hwallet⟩ := createProgramAddress_of_walletAddress h.own.wallet
  obtain ⟨_, hvault⟩ := vaultAddress_eq_some.mp (h.own.vault hsigned)
  have hrelayer : inv.accounts.vault ≠ inv.accounts.relayer := by
    intro heq
    have hseeds := Platform.createProgramAddress_of_find hvault
    rw [heq] at hseeds
    exact h.own.relayer hsigned ⟨_, hseeds⟩
  have hmoved := hloaded.moved inv.accounts.vault
  rw [hloaded.netChange_eq_zero hrelayer
    (vault_ne_wallet h.distinct (h.own.vault hsigned) hwallet)] at hmoved
  omega

/-- **What is verified and entitled is refused for want of cover.** -/
theorem short (hauth : inv.call.authorization = some auth) (haction : inv.call.action = some action)
    (hloads : Loads D inv chain ctx)
    (hverified : Verified D inv.sysvars ctx.wallet auth action ctx.bumps spent signer)
    (hentitled : Entitles D inv.call spent signer inv.sysvars.unixTimestamp) :
    Short D inv chain := by
  refine ⟨auth, hauth, fun hcovered ↦ ?_⟩
  have haccepts := accepts_of_verified h.noZeroKey h.distinct h.reachable h.admitted h.fits h.own
    hauth haction hloads hverified hentitled hcovered
  rw [accepts, h.refused] at haccepts
  cases haccepts

theorem means_of_key (hauth : inv.call.authorization = some auth) (hloads : Loads D inv chain ctx)
    (hverified : Verified D inv.sysvars ctx.wallet auth action ctx.bumps spent signer)
    (hkey : requireActiveKey spent signer = .error e) : e.Means D inv chain := by
  rw [requireActiveKey, require_eq_error] at hkey
  obtain ⟨hsigner, rfl⟩ := hkey
  have hseen := seen_of_verified h.invariant h.own hauth hloads hverified
  rw [hverified.after_eq] at hsigner
  exact ⟨auth, _, _, hseen, hsigner⟩

/-- What comes before the checks of its own, in an instruction of the owner's. -/
theorem means_of_owner {α : Type} {rest : SmartWallet × PublicKey → Except Error α}
    (hauth : inv.call.authorization = some auth) (haction : inv.call.action = some action)
    (hloads : Loads D inv chain ctx)
    (herror : (do
      let verified ← verifyEnclaveAuthorization D inv.sysvars ctx.wallet auth action ctx.bumps
      requireActiveKey verified.1 verified.2
      rest verified) = .error e)
    (hrest : ∀ spent signer,
      Verified D inv.sysvars ctx.wallet auth action ctx.bumps spent signer →
        signer = spent.activeKey → rest (spent, signer) = .error e → e.Means D inv chain) :
    e.Means D inv chain := by
  simp only [bind_eq_error, requireActiveKey_eq_ok, exists_const] at herror
  rcases herror with hverify | ⟨⟨spent, signer⟩, hverified, herror⟩
  · exact means_of_verify h.invariant h.own hauth haction hloads hverify
  rw [verifyEnclaveAuthorization_eq_ok] at hverified
  rcases herror with hkey | ⟨howner, herror⟩
  · exact h.means_of_key hauth hloads hverified hkey
  · exact hrest spent signer hverified howner herror

/-- An instruction that makes no wallet opens the one that is there. -/
theorem stored_of_existing (hauth : inv.call.authorization = some auth)
    (hcreate : inv.call.mayCreate = false) (hloads : Loads D inv chain ctx) (signer : PublicKey) :
    ∃ wallet, stored D chain inv.call.walletId = some wallet ∧
      opened ctx.wallet auth signer ctx.bumps = wallet := by
  have hjudges := (judges_opened h.invariant h.own hauth hloads signer).1
  generalize opened ctx.wallet auth signer ctx.bumps = wallet at hjudges
  cases hjudges with
  | found stored_eq => exact ⟨wallet, stored_eq, rfl⟩
  | first _ mayCreate =>
    rw [hcreate] at mayCreate
    cases mayCreate

/-- A refund fails for want of lamports. -/
theorem means_of_refund {relayerFee : UInt64} {wallet : SmartWallet}
    (hauth : inv.call.authorization = some auth) (hloads : Loads D inv chain ctx)
    (hverified : Verified D inv.sysvars ctx.wallet auth action ctx.bumps spent signer)
    (hid : wallet.walletId = spent.walletId) (hbump : wallet.vaultBump = spent.vaultBump)
    (hshort : Short D inv chain)
    (hrefund : refundRelayer D ctx.chain wallet inv.accounts.vault inv.accounts.relayer relayerFee
      auth.maxRelayerFee = .error e) : e.Means D inv chain := by
  have hseeds := seeds_of_verified h.invariant h.distinct h.own hauth hloads hverified
  rw [← hid, ← hbump] at hseeds
  obtain ⟨creation, hloaded⟩ := hloads.loaded hauth
  obtain ⟨_, hwallet⟩ := createProgramAddress_of_walletAddress h.own.wallet
  have hne := vault_ne_wallet h.distinct (h.own.vault (by simp [hauth])) hwallet
  have hsystem := (hloaded.holding_of_ne hne).trans hloads.system
  simp only [refundRelayer, transferFromVault, bind_eq_error, require_eq_error, liftSystem_eq_error,
    pure_ne_error, and_false, exists_false, or_false] at hrefund
  rcases hrefund with ⟨hnot, -⟩ | ⟨_, -, e', htransfer, rfl⟩
  · exact absurd hseeds hnot
  · rcases Ledger.transfer_eq_error (hloaded.moved.supplyFits h.fits) htransfer with
      ⟨-, hforeign⟩ | ⟨rfl, -⟩
    · exact absurd hsystem hforeign
    · exact .inr hshort

theorem means_of_transferSol {dest : Pubkey} {lamports relayerFee : UInt64}
    (hcall : inv.call = .transferSol auth dest lamports relayerFee) : e.Means D inv chain := by
  have hauth : inv.call.authorization = some auth := by rw [hcall]; rfl
  have haction : inv.call.action = some (.transferSol dest lamports) := by rw [hcall]; rfl
  have herror := h.refused
  simp only [execute, hcall, bind_eq_error, pure_ne_error, and_false, exists_false, or_false]
    at herror
  rcases herror with haccounts | ⟨ctx, hctx, hhandler⟩
  · exact h.means_of_accounts hauth (.inl haccounts)
  have hloads : Loads D inv chain ctx := by
    rw [Loads, hcall]
    exact hctx
  simp only [TransferSol.transfer] at hhandler
  refine h.means_of_owner hauth haction hloads hhandler fun spent signer hverified howner hpays ↦ ?_
  have hshort := h.short hauth haction hloads hverified (by rw [hcall]; exact howner)
  simp only [bind_eq_error, okOr_eq_error, okOr_eq_ok, require_eq_error, require_eq_ok,
    exists_const] at hpays
  rcases hpays with ⟨-, rfl⟩ | ⟨required, hsum, ⟨-, rfl⟩ | ⟨hcovered, -⟩⟩
  · exact .inr hshort
  · exact hshort
  · -- What is covered is paid.
    refine absurd ?_ (hshort.not_covers hauth)
    simp only [Option.bind_eq_bind, Option.bind_eq_some_iff, checkedAdd_eq_some] at hsum
    obtain ⟨sum, hfirst, hsecond⟩ := hsum
    have hbalance := h.balance_eq hauth hloads
    rw [UInt64.le_iff_toNat_le] at hcovered
    rw [Ledger.balance] at hbalance
    rw [hcall, Covers]
    omega

theorem means_of_sweepVault {dest : Pubkey} {relayerFee : UInt64}
    (hcall : inv.call = .sweepVault auth dest relayerFee) : e.Means D inv chain := by
  have hauth : inv.call.authorization = some auth := by rw [hcall]; rfl
  have haction : inv.call.action = some (.sweepVault dest) := by rw [hcall]; rfl
  have herror := h.refused
  simp only [execute, hcall, bind_eq_error, pure_ne_error, and_false, exists_false, or_false]
    at herror
  rcases herror with haccounts | ⟨ctx, hctx, hhandler⟩
  · exact h.means_of_accounts hauth (.inl haccounts)
  have hloads : Loads D inv chain ctx := by
    rw [Loads, hcall]
    exact hctx
  simp only [SweepVault.sweep] at hhandler
  refine h.means_of_owner hauth haction hloads hhandler fun spent signer hverified howner hpays ↦ ?_
  have hshort := h.short hauth haction hloads hverified (by rw [hcall]; exact howner)
  simp only [bind_eq_error, require_eq_error, require_eq_ok, exists_const] at hpays
  rcases hpays with ⟨-, rfl⟩ | ⟨hcovered, -⟩
  · exact hshort
  · refine absurd ?_ (hshort.not_covers hauth)
    have hbalance := h.balance_eq hauth hloads
    rw [UInt64.le_iff_toNat_le] at hcovered
    rw [Ledger.balance] at hbalance
    rw [← hbalance, hcall]
    exact hcovered

theorem means_of_setGuardians {guardians : Vector Guardian MAX_GUARDIANS} {relayerFee : UInt64}
    (hcall : inv.call = .setGuardians auth guardians relayerFee) : e.Means D inv chain := by
  have hauth : inv.call.authorization = some auth := by rw [hcall]; rfl
  have haction : inv.call.action = some (.setGuardians (guardians.map Guardian.toEncoding)) := by
    rw [hcall]; rfl
  have herror := h.refused
  simp only [execute, hcall, bind_eq_error, pure_ne_error, and_false, exists_false, or_false]
    at herror
  rcases herror with haccounts | ⟨ctx, hctx, hhandler⟩
  · exact h.means_of_accounts hauth (.inl haccounts)
  have hloads : Loads D inv chain ctx := by
    rw [Loads, hcall]
    exact hctx
  simp only [SetGuardians.setGuardians] at hhandler
  refine h.means_of_owner hauth haction hloads hhandler fun spent signer hverified howner hrest ↦ ?_
  simp only [bind_eq_error, require_eq_error, require_eq_ok, exists_const, pure_ne_error, and_false,
    exists_false, or_false] at hrest
  rcases hrest with ⟨hwebAuthn, rfl⟩ | ⟨hsupported, hrefund⟩
  · exact ⟨auth, guardians, relayerFee, hcall, by simpa using hwebAuthn⟩
  · have hshort := h.short hauth haction hloads hverified
      (by rw [hcall]; exact ⟨howner, hsupported⟩)
    exact h.means_of_refund hauth hloads hverified rfl rfl hshort hrefund

theorem means_of_cancelRotation {relayerFee : UInt64}
    (hcall : inv.call = .cancelRotation auth relayerFee) : e.Means D inv chain := by
  have hauth : inv.call.authorization = some auth := by rw [hcall]; rfl
  have haction : inv.call.action = some .cancelRotation := by rw [hcall]; rfl
  have herror := h.refused
  simp only [execute, hcall, bind_eq_error, pure_ne_error, and_false, exists_false, or_false]
    at herror
  rcases herror with haccounts | ⟨ctx, hctx, hhandler⟩
  · exact h.means_of_accounts hauth (.inr haccounts)
  have hloads : Loads D inv chain ctx := by
    rw [Loads, hcall]
    exact hctx
  simp only [CancelRotation.cancel] at hhandler
  refine h.means_of_owner hauth haction hloads hhandler fun spent signer hverified howner hrest ↦ ?_
  simp only [RotationSlot.take, bind_eq_error, okOr_eq_error, okOr_eq_ok, pure_ne_error, and_false,
    exists_false, or_false] at hrest
  rcases hrest with ⟨hnone, rfl⟩ | ⟨pending, hpending, hrefund⟩
  · -- No wallet is made here, so the one that is opened is there.
    have hcreate : inv.call.mayCreate = false := by rw [hcall]; rfl
    obtain ⟨wallet, hstored, hopened⟩ := h.stored_of_existing hauth hcreate hloads signer
    rw [hverified.after_eq, hopened] at hnone
    exact ⟨wallet, hstored, hnone⟩
  · have hshort := h.short hauth haction hloads hverified
      (by rw [hcall]; exact ⟨howner, pending, hpending⟩)
    exact h.means_of_refund hauth hloads hverified rfl rfl hshort hrefund

theorem means_of_proposeRotation {newKey : PublicKey} {relayerFee : UInt64}
    (hcall : inv.call = .proposeRotation auth newKey relayerFee) : e.Means D inv chain := by
  have hauth : inv.call.authorization = some auth := by rw [hcall]; rfl
  have haction : inv.call.action = some (.proposeRotation newKey) := by rw [hcall]; rfl
  have herror := h.refused
  simp only [execute, hcall, ProposeRotation.propose, bind_eq_error, require_eq_error,
    require_eq_ok, exists_const, pure_ne_error, and_false, exists_false, or_false] at herror
  rcases herror with haccounts | ⟨ctx, hctx, hhandler⟩
  · exact h.means_of_accounts hauth (.inr haccounts)
  have hloads : Loads D inv chain ctx := by
    rw [Loads, hcall]
    exact hctx
  rcases hhandler with hhandler | ⟨out, -, hevents⟩
  swap
  · -- The entry point only emits.
    cases hevent : out.event <;> rw [hevent] at hevents <;> exact absurd hevents pure_ne_error
  rcases hhandler with ⟨hzero, rfl⟩ | ⟨hnonzero, hhandler⟩
  · rw [not_not] at hzero
    subst hzero
    exact ⟨auth, relayerFee, hcall⟩
  rcases hhandler with hverify | ⟨⟨spent, signer⟩, hverified, hhandler⟩
  · exact means_of_verify h.invariant h.own hauth haction hloads hverify
  rw [verifyEnclaveAuthorization_eq_ok] at hverified
  have hseen := seen_of_verified h.invariant h.own hauth hloads hverified
  rcases hhandler with hdecide | ⟨⟨decided, proposal⟩, hdecide, hrefund⟩
  · obtain ⟨howner, ⟨hguardian, rfl⟩ | ⟨slot, hguardian, htaken, rfl⟩⟩ := decide_eq_error hdecide
    · rw [hverified.after_eq] at howner hguardian
      exact ⟨auth, _, _, hseen, howner, hguardian⟩
    · rw [hverified.after_eq] at howner hguardian htaken
      exact ⟨auth, _, _, slot, hseen, howner, hguardian, htaken⟩
  · obtain ⟨hguardian, hid, hbump⟩ := entitled_of_decide hdecide
    have hshort := h.short hauth haction hloads hverified
      (by rw [hcall]; exact ⟨hnonzero, hguardian⟩)
    exact h.means_of_refund hauth hloads hverified hid hbump hshort hrefund

theorem means_of_closeWallet {dest : Pubkey} {relayerFee : UInt64}
    (hcall : inv.call = .closeWallet auth dest relayerFee) : e.Means D inv chain := by
  have hauth : inv.call.authorization = some auth := by rw [hcall]; rfl
  have haction : inv.call.action = some (.closeWallet dest) := by rw [hcall]; rfl
  have herror := h.refused
  simp only [execute, hcall, bind_eq_error, pure_ne_error, and_false, exists_false, or_false]
    at herror
  rcases herror with haccounts | ⟨ctx, hctx, hhandler⟩
  · simp only [Accounts.closing, bind_eq_error, require_eq_error, pure_ne_error, and_false,
      exists_false, or_false] at haccounts
    rcases haccounts with haccounts | ⟨_, -, hrelayer, -⟩
    · exact h.means_of_accounts hauth (.inr haccounts)
    · -- The relayer signs, and nobody signs for the address of a wallet.
      rw [not_not] at hrelayer
      obtain ⟨_, hseeds⟩ := createProgramAddress_of_walletAddress h.own.wallet
      rw [hrelayer] at hseeds
      exact absurd ⟨_, hseeds⟩ (h.own.relayer (by simp [hauth]))
  have hloads : Loads D inv chain ctx := by
    rw [Loads, hcall]
    exact hctx
  -- What the owner signed goes through, whatever the vault has.
  have hcontent : ∀ spent signer,
      Verified D inv.sysvars ctx.wallet auth (.closeWallet dest) ctx.bumps spent signer →
        signer ≠ spent.activeKey := by
    intro spent signer hverified howner
    have hshort := h.short hauth haction hloads hverified (by rw [hcall]; exact howner)
    refine hshort.not_covers hauth ?_
    rw [hcall]
    trivial
  simp only [CloseWallet.close] at hhandler
  rcases hhandler with hhandler | ⟨out, hout, -⟩
  · exact h.means_of_owner hauth haction hloads hhandler fun spent signer hverified howner _ ↦
      absurd howner (hcontent spent signer hverified)
  · simp only [bind_eq_ok, requireActiveKey_eq_ok, exists_const] at hout
    obtain ⟨⟨spent, signer⟩, hverified, howner, -⟩ := hout
    rw [verifyEnclaveAuthorization_eq_ok] at hverified
    exact absurd howner (hcontent spent signer hverified)

theorem means_of_confirmRotation {w : WalletId} (hcall : inv.call = .confirmRotation w) :
    e.Means D inv chain := by
  have hw : inv.call.walletId = w := by rw [hcall]; rfl
  have herror := h.refused
  simp only [execute, hcall, ConfirmRotation.confirm, bind_eq_error, require_eq_error,
    okOr_eq_error, require_eq_ok, okOr_eq_ok, exists_const, pure_ne_error, and_false, exists_false,
    or_false] at herror
  rw [← hw] at herror
  rcases herror with haccounts | ⟨wallet, hconfirming, herror⟩
  · exact means_of_confirming h.own (h.own.bumps h.invariant h.distinct rfl) haccounts
  have hstored : stored D chain inv.call.walletId = some wallet := by
    rw [stored_eq_stateAt h.own.wallet, stateAt_eq_some]
    exact (confirming_eq_ok.mp hconfirming).1
  rcases herror with ⟨hnone, rfl⟩ | ⟨pending, hpending, ⟨hearly, rfl⟩ | ⟨-, hexpired, rfl⟩⟩
  · exact ⟨wallet, hstored, hnone⟩
  · exact ⟨wallet, pending, hstored, hpending, Int64.not_le.mp hearly⟩
  · exact ⟨wallet, pending, hstored, hpending, by simpa using hexpired⟩

theorem means : e.Means D inv chain := by
  cases hcall : inv.call with
  | transferSol => exact h.means_of_transferSol hcall
  | setGuardians => exact h.means_of_setGuardians hcall
  | cancelRotation => exact h.means_of_cancelRotation hcall
  | proposeRotation => exact h.means_of_proposeRotation hcall
  | confirmRotation => exact h.means_of_confirmRotation hcall
  | sweepVault => exact h.means_of_sweepVault hcall
  | closeWallet => exact h.means_of_closeWallet hcall

end Refused

/-- **Refusals mean what they say.** In every reachable state, the error of a refused instruction
that names its own accounts says what is wrong with it: there is no wallet, the signature or the
message is not that of this instruction, the nonce is not the wallet's next, the time is over, the
key has no such say, or the vault does not cover it. No other error is seen. -/
theorem refusal_explained {D : Deployment} {inv : Invocation} {chain : Chain} {e : Error}
    (hzero : NoZeroKey D) (hdist : DistinctAddresses D inv.call.walletId)
    (hreach : (system D).Reachable chain) (hadmitted : Admitted D inv) (hfits : chain.SupplyFits)
    (hown : OwnAccounts D inv.call.walletId inv) (h : execute D inv chain = .error e) :
    e.Means D inv chain :=
  Refused.means ⟨hzero, hdist, hreach, hadmitted, hfits, hown, h⟩

namespace Vectors

/-- The error of an approval that a stage refuses, computed once. -/
structure Refusal where
  stage : Stage
  approval : Signed
  error : Error
  mem : approval ∈ approvals
  computed : (match execute deployment approval.sent stage.chain with
    | .ok _ => false
    | .error e => decide (e = error)) = true

/-- The second of two guardians, at the second the proposal of the first opens. -/
def displaced : Refusal where
  stage := proposedTwice
  approval := displaceOpened
  error := EnclaveKitError.rotationSlotTaken
  mem := by simp [approvals]
  computed := by decide +kernel

theorem Refusal.execute_eq (r : Refusal) :
    execute deployment r.approval.sent r.stage.chain = .error r.error := by
  have hcomputed := r.computed
  split at hcomputed
  · cases hcomputed
  · rename_i hrefused
    rw [hrefused, of_decide_eq_true hcomputed]

end Vectors

/-- The slot is taken by a proposal of the first guardian that has not expired. -/
theorem refusal_explained_displaced :
    (Error.enclaveKit .rotationSlotTaken).Means Vectors.deployment Vectors.displaceOpened.sent
      Vectors.proposedTwice.chain := by
  have hown : OwnAccounts Vectors.deployment Vectors.walletId Vectors.displaceOpened.sent :=
    ⟨Vectors.walletAddress_eq, fun _ ↦ Vectors.vaultAddress_eq,
      fun _ ↦ Tables.not_isDerived Vectors.relayer_not_derived⟩
  exact refusal_explained Vectors.deployment_noZeroKey (Vectors.deployment_distinctAddresses _)
    Vectors.proposedTwice.reachable (Vectors.admitted_sent Vectors.displaced.mem)
    Vectors.proposedTwice.supplyFits hown Vectors.displaced.execute_eq

end EnclaveKit
