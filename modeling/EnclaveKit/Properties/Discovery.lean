import EnclaveKit.Chain.Life
import EnclaveKit.Chain.Vectors
import EnclaveKit.Program.Layout

/-!
# Discovery

A device finds the wallets that name its key by comparing bytes at three kinds of offsets, and never
decodes an account. For the answer to be right, each field must sit where the crate says, and a key
that is no longer named must not be left behind.

The first half is about any wallet at all: the format, and what a match means. The second half is
about wallets of the chain: an empty slot is all zeros however it came to be empty, so that what
matches is the active key, a key of the last list of guardians, or the target of the pending
proposal.
-/

namespace EnclaveKit

open Solana ByteCodec Encoding TransitionSystem

/-! ## The filter -/

/-- The `memcmp` filter of `getProgramAccounts`. -/
def memcmp (data : List UInt8) (offset : ℕ) (bytes : List UInt8) : Bool :=
  decide (slice data offset bytes.length = bytes)

theorem memcmp_key {data : List UInt8} {offset : ℕ} {k key : PublicKey}
    (h : slice data offset COMPRESSED_PUBKEY_LEN = key.toList) :
    memcmp data offset k.toList = true ↔ key = k := by
  have hlength : k.toList.length = COMPRESSED_PUBKEY_LEN := k.length_toList
  rw [memcmp, decide_eq_true_iff, hlength, h, Vector.toList_inj]

/-- A byte and the key after it. -/
theorem memcmp_cons_key {data : List UInt8} {offset : ℕ} {b tag : UInt8} {k key : PublicKey}
    (htag : slice data offset 1 = [tag])
    (h : slice data (offset + 1) COMPRESSED_PUBKEY_LEN = key.toList) :
    memcmp data offset (b :: k.toList) = true ↔ tag = b ∧ key = k := by
  have hlength : k.toList.length = COMPRESSED_PUBKEY_LEN := k.length_toList
  rw [memcmp, decide_eq_true_iff, List.length_cons, hlength, Nat.add_comm, slice_add, htag, h,
    List.singleton_append, List.cons.injEq, Vector.toList_inj]

theorem GuardianKind.toByte_eq_p256 {kind : GuardianKind} :
    kind.toByte = GUARDIAN_KIND_P256 ↔ kind = .p256 := by
  cases kind <;> decide

namespace SmartWallet

variable (wallet : SmartWallet) (k : PublicKey)

theorem memcmp_activeKey :
    memcmp wallet.data ACTIVE_KEY_OFFSET k.toList = true ↔ wallet.activeKey = k :=
  memcmp_key wallet.data_fieldsAt.activeKey

theorem memcmp_guardian {i : ℕ} (hi : i < MAX_GUARDIANS) :
    memcmp wallet.data (guardianKindOffset i) (GUARDIAN_KIND_P256 :: k.toList) = true ↔
      wallet.guardians[i].kind = .p256 ∧ wallet.guardians[i].key = k := by
  rw [memcmp_cons_key (wallet.data_fieldsAt.guardianKind i hi)
    (wallet.data_fieldsAt.guardianKey i hi), GuardianKind.toByte_eq_p256]

theorem memcmp_rotation :
    memcmp wallet.data ROTATION_OFFSET (1 :: k.toList) = true ↔
      ∃ proposal, wallet.rotation.get = some proposal ∧ proposal.newKey = k := by
  rw [memcmp_cons_key wallet.data_fieldsAt.pending wallet.data_fieldsAt.newKey, RotationSlot.get]
  cases wallet.rotation.pending <;> simp

end SmartWallet

/-! ## The format -/

/-- **State layout and discovery.** Of every wallet whatsoever: its account has the one size, every
field is at the offset given for it, the account is read back as the wallet, and an account of that
size that is read at all is the one the wallet is written as. So a filter finds a key exactly where
the wallet names it. -/
theorem state_layout :
    (∀ wallet : SmartWallet, wallet.data.length = STATE_LEN) ∧
    (∀ wallet : SmartWallet, FieldsAt wallet.data wallet) ∧
    (∀ wallet : SmartWallet, SmartWallet.accountCodec.decode wallet.data = some (wallet, [])) ∧
    (∀ bytes wallet rest, bytes.length = STATE_LEN →
      SmartWallet.accountCodec.decode bytes = some (wallet, rest) →
        rest = [] ∧ wallet.data = bytes) ∧
    ∀ (wallet : SmartWallet) (k : PublicKey),
      (memcmp wallet.data ACTIVE_KEY_OFFSET k.toList = true ↔ wallet.activeKey = k) ∧
      (∀ i (_ : i < MAX_GUARDIANS),
        memcmp wallet.data (guardianKindOffset i) (GUARDIAN_KIND_P256 :: k.toList) = true ↔
          wallet.guardians[i].kind = .p256 ∧ wallet.guardians[i].key = k) ∧
      (memcmp wallet.data ROTATION_OFFSET (1 :: k.toList) = true ↔
        ∃ proposal, wallet.rotation.get = some proposal ∧ proposal.newKey = k) := by
  refine ⟨sized_account, SmartWallet.data_fieldsAt, fun wallet ↦ ?_,
    fun bytes wallet rest ↦ sized_account.encode_of_decode,
    fun wallet k ↦ ⟨wallet.memcmp_activeKey k, fun i ↦ wallet.memcmp_guardian k,
      wallet.memcmp_rotation k⟩⟩
  have hdecode := SmartWallet.accountCodec.decode_append wallet []
  rwa [List.append_nil] at hdecode

/-- A device to which a guardian proposes to move the wallet finds it. -/
theorem state_layout_proposed :
    SmartWallet.accountCodec.decode Vectors.proposedWallet.data
        = some (Vectors.proposedWallet, []) ∧
      memcmp Vectors.proposedWallet.data (guardianKindOffset 0)
        (GUARDIAN_KIND_P256 :: Vectors.guardianKey.toList) = true ∧
      memcmp Vectors.proposedWallet.data ROTATION_OFFSET (1 :: Vectors.nextKey.toList) = true := by
  obtain ⟨-, -, hdecode, -, hdiscovery⟩ := state_layout
  obtain ⟨-, hguardian, -⟩ := hdiscovery Vectors.proposedWallet Vectors.guardianKey
  obtain ⟨-, -, hrotation⟩ := hdiscovery Vectors.proposedWallet Vectors.nextKey
  exact ⟨hdecode _, (hguardian 0 (by decide)).mpr ⟨rfl, rfl⟩, hrotation.mpr ⟨_, rfl, rfl⟩⟩

/-! ## What a wallet is left with -/

/-- Nothing is in a slot that holds nothing, and no guardian is of the reserved kind. -/
structure Traceless (wallet : SmartWallet) : Prop where
  rotation : wallet.rotation.get = none → wallet.rotation = RotationSlot.EMPTY
  guardians : ∀ i (_ : i < MAX_GUARDIANS), wallet.guardians[i] = GuardianSlot.EMPTY ∨
    wallet.guardians[i].kind = .p256 ∧ wallet.guardians[i].rpIdHash = Vector.replicate 32 0

/-- A list that is not refused is stored without the reserved kind. -/
theorem ofGuardian_of_supported {guardians : Vector Guardian MAX_GUARDIANS}
    (h : guardians.any Guardian.isWebAuthn = false) {i : ℕ} (hi : i < MAX_GUARDIANS) :
    (guardians.map GuardianSlot.ofGuardian)[i] = GuardianSlot.EMPTY ∧ guardians[i] = .none ∨
      ∃ k, (guardians.map GuardianSlot.ofGuardian)[i]
        = ⟨.p256, k, Vector.replicate 32 0⟩ ∧ guardians[i] = .p256 k := by
  have hsupported := Vector.any_eq_false.mp h i hi
  rw [Vector.getElem_map]
  cases hguardian : guardians[i] with
  | none => exact .inl ⟨rfl, rfl⟩
  | p256 k => exact .inr ⟨k, rfl, rfl⟩
  | webAuthn k =>
    rw [hguardian] at hsupported
    exact absurd rfl hsupported

section Traces

variable {D : Deployment} {w : WalletId}

theorem Enacts.traceless {inv : Invocation} {auth : Authorization} {chain : Chain}
    {wallet after : SmartWallet} {signer : PublicKey} {moves : List Move} {event : Event}
    (h : Enacts D inv auth chain wallet signer (some after) moves event)
    (hwallet : Traceless wallet) : Traceless after := by
  cases h with
  | transferSol | sweepVault => exact hwallet
  | setGuardians _ _ supported =>
    refine ⟨fun _ ↦ rfl, fun i hi ↦ ?_⟩
    rcases ofGuardian_of_supported supported hi with ⟨hempty, -⟩ | ⟨k, hslot, -⟩
    · exact .inl hempty
    · exact .inr (by rw [hslot]; exact ⟨rfl, rfl⟩)
  | cancelRotation | rotate => exact ⟨fun _ ↦ rfl, hwallet.guardians⟩
  | propose => exact ⟨by simp, hwallet.guardians⟩

theorem traceless_created (walletId : WalletId) (key : PublicKey) (bumps : Bumps)
    (nonce : UInt64) :
    Traceless { SmartWallet.created walletId key bumps with nonce := nonce } :=
  ⟨fun _ ↦ rfl, fun _ hi ↦ .inl (Vector.getElem_replicate hi)⟩

/-- **One step** leaves nothing behind. -/
theorem WalletStep.traceless {label : Label} {before after : Option SmartWallet}
    (h : WalletStep D w before label after)
    (hbefore : ∀ wallet, before = some wallet → Traceless wallet) :
    ∀ wallet, after = some wallet → Traceless wallet := by
  rintro wallet rfl
  cases h with
  | idle => exact hbefore wallet rfl
  | signed signed =>
    obtain ⟨_, _, _, spent, _, _, _, _, _, _, _, _, _, opens, _, enacts, _⟩ := signed
    refine enacts.traceless ?_
    cases opens with
    | created => exact traceless_created _ _ _ _
    | @found before _ _ _ spent_eq =>
      have hwallet := hbefore before rfl
      rw [spent_eq]
      exact ⟨hwallet.rotation, hwallet.guardians⟩
  | @confirmed _ _ before _ _ _ pending =>
    exact ⟨fun _ ↦ rfl, (hbefore before rfl).guardians⟩

/-- **No stored wallet has a trace of anything removed.** -/
theorem traceless_of_reachable (hzero : NoZeroKey D) (hdist : DistinctAddresses D w)
    {chain : Chain} (hreach : (system D).Reachable chain) {wallet : SmartWallet}
    (hstored : stored D chain w = some wallet) : Traceless wallet := by
  obtain ⟨chain₀, tr, hinit, hrun⟩ := hreach
  have hwallet := wallet_run hzero hdist (.of_init hinit) hrun
  rw [stored_of_init hinit] at hwallet
  refine hwallet.invariant (I := fun state ↦ ∀ wallet, state = some wallet → Traceless wallet)
    (by simp) (fun _ _ _ hbefore hstep ↦ hstep.traceless hbefore) wallet hstored

/-! ## The last list of guardians -/

/-- The owner sets the guardians of wallet `w`. -/
def SetsGuardians (w : WalletId) (label : Label) (guardians : Vector Guardian MAX_GUARDIANS) :
    Prop :=
  ∃ inv events auth relayerFee, label = .invoke inv events ∧
    inv.call = .setGuardians auth guardians relayerFee ∧ auth.walletId = w

/-- The guardians set last. -/
def LastGuardians (w : WalletId) (tr : List Label) (guardians : Vector Guardian MAX_GUARDIANS) :
    Prop :=
  ∃ past label since, tr = past ++ label :: since ∧ SetsGuardians w label guardians ∧
    ∀ label' ∈ since, ∀ guardians', ¬SetsGuardians w label' guardians'

/-- A slot for each of them, or empty ones where none were set since the wallet was created. -/
def SlotsListed (w : WalletId) (tr : List Label) (slots : GuardianSlots) : Prop :=
  slots = Vector.replicate MAX_GUARDIANS GuardianSlot.EMPTY ∨
    ∃ guardians, LastGuardians w tr guardians ∧ guardians.any Guardian.isWebAuthn = false ∧
      slots = guardians.map GuardianSlot.ofGuardian

theorem SlotsListed.snoc {tr : List Label} {label : Label} {slots : GuardianSlots}
    (h : SlotsListed w tr slots) (hother : ∀ guardians, ¬SetsGuardians w label guardians) :
    SlotsListed w (tr ++ [label]) slots := by
  rcases h with hempty | ⟨guardians, ⟨past, last, since, rfl, hlast, hsince⟩, hsupported, hslots⟩
  · exact .inl hempty
  · refine .inr ⟨guardians, ⟨past, last, since ++ [label], by simp, hlast, fun label' hmem ↦ ?_⟩,
      hsupported, hslots⟩
    rcases List.mem_append.mp hmem with hmem | hmem
    · exact hsince label' hmem
    · rw [List.mem_singleton.mp hmem]
      exact hother

theorem Enacts.guardians {inv : Invocation} {auth : Authorization} {chain : Chain}
    {wallet after : SmartWallet} {signer : PublicKey} {moves : List Move} {event : Event}
    (h : Enacts D inv auth chain wallet signer (some after) moves event) :
    (∃ guardians relayerFee, inv.call = .setGuardians auth guardians relayerFee ∧
      guardians.any Guardian.isWebAuthn = false ∧
      after.guardians = guardians.map GuardianSlot.ofGuardian) ∨
    (∀ auth guardians relayerFee, inv.call ≠ .setGuardians auth guardians relayerFee) ∧
      after.guardians = wallet.guardians := by
  cases h with
  | setGuardians call _ supported => exact .inl ⟨_, _, call, supported, rfl⟩
  | transferSol call | sweepVault call | cancelRotation call | rotate call | propose call =>
    exact .inr ⟨by simp [call], rfl⟩

/-- **One step.** It sets the guardians, or it sets none and leaves those there were. -/
theorem WalletStep.guardians {label : Label} {before : Option SmartWallet} {after : SmartWallet}
    (h : WalletStep D w before label (some after)) :
    (∃ guardians, SetsGuardians w label guardians ∧
      guardians.any Guardian.isWebAuthn = false ∧
      after.guardians = guardians.map GuardianSlot.ofGuardian) ∨
    (∀ guardians, ¬SetsGuardians w label guardians) ∧
      ((∃ wallet, before = some wallet ∧ after.guardians = wallet.guardians) ∨
        after.guardians = Vector.replicate MAX_GUARDIANS GuardianSlot.EMPTY) := by
  cases h with
  | idle other =>
    refine .inr ⟨?_, .inl ⟨after, rfl, rfl⟩⟩
    rintro guardians ⟨inv, events, auth, relayerFee, rfl, hcall, hid⟩
    rw [Label.walletId, hcall] at other
    exact other (congrArg some hid)
  | signed signed =>
    obtain ⟨auth, _, _, spent, _, _, _, _, _, _, hid, _, _, opens, _, enacts, _⟩ := signed
    rcases enacts.guardians with ⟨guardians, relayerFee, hcall, hsupported, hslots⟩ |
      ⟨hother, hslots⟩
    · exact .inl ⟨guardians, ⟨_, _, auth, relayerFee, rfl, hcall, hid⟩, hsupported, hslots⟩
    · refine .inr ⟨?_, ?_⟩
      · rintro guardians ⟨_, _, auth', relayerFee, ⟨⟩, hcall, -⟩
        exact hother _ _ _ hcall
      · cases opens with
        | created => exact .inr hslots
        | @found wallet _ _ _ spent_eq =>
          refine .inl ⟨wallet, rfl, ?_⟩
          rw [hslots, spent_eq]
  | @confirmed _ _ wallet _ call =>
    refine .inr ⟨?_, .inl ⟨wallet, rfl, rfl⟩⟩
    rintro guardians ⟨_, _, auth, relayerFee, ⟨⟩, hcall, -⟩
    rw [call] at hcall
    cases hcall

/-- **The slots are those of the list set last.** -/
theorem slotsListed_of_run {tr : List Label} {wallet : SmartWallet}
    (h : (walletSystem D w).Run none tr (some wallet)) : SlotsListed w tr wallet.guardians := by
  generalize hstate : some wallet = state at h
  induction h generalizing wallet with
  | nil => cases hstate
  | @snoc tr before after label run last ih =>
    subst hstate
    rcases WalletStep.guardians last with ⟨guardians, hsets, hsupported, hslots⟩ |
      ⟨hother, ⟨wallet', rfl, hslots⟩ | hslots⟩
    · exact .inr ⟨guardians, ⟨tr, label, [], by simp, hsets, by simp⟩, hsupported, hslots⟩
    · rw [hslots]
      exact (ih rfl).snoc hother
    · exact .inl hslots

end Traces

/-! ## What is found -/

/-- A key in a slot of a listed guardian, and not of an empty one. -/
theorem SlotsListed.key {w : WalletId} {tr : List Label} {slots : GuardianSlots}
    (h : SlotsListed w tr slots) {i : ℕ} (hi : i < MAX_GUARDIANS) :
    slots[i] = GuardianSlot.EMPTY ∨
      ∃ guardians, LastGuardians w tr guardians ∧ guardians[i] = .p256 slots[i].key := by
  rcases h with rfl | ⟨guardians, hlast, hsupported, rfl⟩
  · exact .inl (Vector.getElem_replicate hi)
  · rcases ofGuardian_of_supported hsupported hi with ⟨hempty, -⟩ | ⟨k, hslot, hguardian⟩
    · exact .inl hempty
    · refine .inr ⟨guardians, hlast, ?_⟩
      rw [hslot]
      exact hguardian

/-- **Nothing removed is found.** At the end of every run, a rotation slot with nothing pending is
all zeros; a guardian slot is all zeros, or of a P-256 key and zeros after it. So a key that is not
the active one, nor among the guardians set last, nor the target of what is pending, matches at none
of the offsets a device filters on; and unless it is itself all zeros, it is not there even without
the byte that says what it is there for. -/
theorem nothing_removed_is_found {D : Deployment} {w : WalletId} (hzero : NoZeroKey D)
    (hdist : DistinctAddresses D w) {chain₀ chain : Chain} {tr : List Label}
    (hinit : (system D).init chain₀) (h : (system D).Run chain₀ tr chain) {wallet : SmartWallet}
    (hstored : stored D chain w = some wallet) :
    (wallet.rotation.get = none →
      slice wallet.data ROTATION_OFFSET (STATE_BUMP_OFFSET - ROTATION_OFFSET)
        = List.replicate (STATE_BUMP_OFFSET - ROTATION_OFFSET) 0) ∧
    (∀ i, i < MAX_GUARDIANS →
      slice wallet.data (guardianKindOffset i) GUARDIAN_SLOT_LEN
          = List.replicate GUARDIAN_SLOT_LEN 0 ∨
        slice wallet.data (guardianKindOffset i) 1 = [GUARDIAN_KIND_P256] ∧
          slice wallet.data (guardianRpIdHashOffset i) 32 = List.replicate 32 0) ∧
    ∀ k, wallet.activeKey ≠ k →
      (∀ guardians, LastGuardians w tr guardians → ∀ i (_ : i < MAX_GUARDIANS),
        guardians[i] ≠ .p256 k) →
      (∀ proposal, wallet.rotation.get = some proposal → proposal.newKey ≠ k) →
        memcmp wallet.data ACTIVE_KEY_OFFSET k.toList = false ∧
        (∀ i, i < MAX_GUARDIANS →
          memcmp wallet.data (guardianKindOffset i) (GUARDIAN_KIND_P256 :: k.toList) = false ∧
            (k ≠ zeroKey → memcmp wallet.data (guardianKeyOffset i) k.toList = false)) ∧
        memcmp wallet.data ROTATION_OFFSET (1 :: k.toList) = false ∧
        (k ≠ zeroKey → memcmp wallet.data ROTATION_NEW_KEY_OFFSET k.toList = false) := by
  have htraceless := traceless_of_reachable hzero hdist ⟨_, _, hinit, h⟩ hstored
  have hslots : SlotsListed w tr wallet.guardians := by
    have hwallet := wallet_run hzero hdist (.of_init hinit) h
    rw [stored_of_init hinit, hstored] at hwallet
    exact slotsListed_of_run hwallet
  have hfields := wallet.data_fieldsAt
  refine ⟨fun hnone ↦ ?_, fun i hi ↦ ?_, fun k hactive hlisted hpending ↦ ⟨?_, fun i hi ↦ ⟨?_, ?_⟩,
    ?_, ?_⟩⟩
  · rw [wallet.slice_rotation, htraceless.rotation hnone, encode_rotationSlot_EMPTY]
  · rcases htraceless.guardians i hi with hempty | ⟨hkind, hhash⟩
    · left
      rw [wallet.slice_guardian hi, hempty, encode_guardianSlot_EMPTY]
    · right
      rw [hfields.guardianKind i hi, hfields.guardianRpIdHash i hi, hkind, hhash]
      exact ⟨rfl, rfl⟩
  · rw [← Bool.not_eq_true, wallet.memcmp_activeKey]
    exact hactive
  · rw [← Bool.not_eq_true, wallet.memcmp_guardian k hi]
    rintro ⟨hkind, rfl⟩
    -- A slot is empty, or has a key of the list set last.
    rcases hslots.key hi with hempty | ⟨guardians, hlast, hguardian⟩
    · rw [hempty] at hkind
      cases hkind
    · exact hlisted guardians hlast i hi hguardian
  · intro hk
    rw [← Bool.not_eq_true, memcmp_key (hfields.guardianKey i hi)]
    rintro rfl
    rcases hslots.key hi with hempty | ⟨guardians, hlast, hguardian⟩
    · rw [hempty] at hk
      exact hk rfl
    · exact hlisted guardians hlast i hi hguardian
  · rw [← Bool.not_eq_true, wallet.memcmp_rotation]
    rintro ⟨proposal, hsome, hkey⟩
    exact hpending proposal hsome hkey
  · intro hk
    rw [← Bool.not_eq_true, memcmp_key hfields.newKey]
    intro hkey
    cases hget : wallet.rotation.get with
    | none =>
      rw [htraceless.rotation hget] at hkey
      exact hk hkey.symm
    | some proposal =>
      refine hpending proposal hget ?_
      rw [RotationSlot.get, Option.ite_none_right_eq_some, Option.some_inj] at hget
      rw [← hget.2]
      exact hkey

/-- The device is nowhere to be found once the proposal to move away from it is confirmed. -/
theorem nothing_removed_is_found_recovered :
    memcmp Vectors.rotatedWallet.data ACTIVE_KEY_OFFSET Vectors.deviceKey.toList = false ∧
      memcmp Vectors.rotatedWallet.data ROTATION_OFFSET (1 :: Vectors.deviceKey.toList)
        = false := by
  have hlisted : ∀ guardians, LastGuardians Vectors.walletId Vectors.recovered.labels guardians →
      ∀ i (_ : i < MAX_GUARDIANS), guardians[i] ≠ .p256 Vectors.deviceKey := by
    rintro guardians ⟨past, label, since, htr, ⟨inv, events, auth, fee, rfl, hcall, -⟩, -⟩ i hi
    have hmem : inv ∈ Vectors.recovered.invs := by
      rw [← filterMap_trace Vectors.deployment Vectors.genesis Vectors.recovered.invs,
        ← Vectors.Stage.labels, htr]
      simp [Label.invocation]
    -- The only list there is names the guardian in its first slot.
    have hlist : guardians = #v[.p256 Vectors.guardianKey, .none, .none] := by
      simp only [Vectors.recovered, List.mem_cons, List.not_mem_nil, or_false] at hmem
      rcases hmem with rfl | rfl | rfl <;> cases hcall
      rfl
    intro hkey
    have hmem' : guardians[i] ∈ guardians.toList :=
      Vector.mem_toList_iff.mpr (Vector.getElem_mem hi)
    rw [hkey, hlist] at hmem'
    have hany : Guardian.p256 Vectors.deviceKey ∈ [.p256 Vectors.guardianKey, .none, .none] := hmem'
    simp [Vectors.guardianKey_ne_deviceKey.symm] at hany
  obtain ⟨-, -, hfound⟩ := nothing_removed_is_found Vectors.deployment_noZeroKey
    (Vectors.deployment_distinctAddresses _) Vectors.genesis_init Vectors.recovered.run
    Vectors.recovered.stored_eq
  obtain ⟨hactive, -, hrotation, -⟩ := hfound Vectors.deviceKey Vectors.nextKey_ne_deviceKey
    hlisted (by simp [Vectors.rotatedWallet, Vectors.guardedWallet, Vectors.fresh])
  exact ⟨hactive, hrotation⟩

end EnclaveKit
