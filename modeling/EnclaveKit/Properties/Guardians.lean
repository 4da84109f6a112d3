import EnclaveKit.Chain.Vectors
import EnclaveKit.Program.Layout

/-!
# Guardians in four forms

A guardian is signed as the crate's enum, taken and announced as the program's, stored as a slot,
and found by the crate's constants for the kind of a slot. The conversions between them are written
by hand, in two crates. `SameGuardian` says what they have to agree on, in bytes, with one rule for
each kind of guardian.

Nothing is said of the wallet before, nor of how it came to be there: the list is replaced as a
whole.
-/

namespace EnclaveKit

open Solana Fallible ByteCodec Encoding

/-! ## The slot of a guardian -/

namespace GuardianSlot

/-- The guardian a slot was made of. -/
def toGuardian (slot : GuardianSlot) : Guardian :=
  match slot.kind with
  | .none => .none
  | .p256 => .p256 slot.key
  | .webAuthn => .webAuthn slot.key

theorem toGuardian_ofGuardian : Function.LeftInverse toGuardian ofGuardian := by
  intro guardian
  cases guardian <;> rfl

theorem p256_ofGuardian {guardian : Guardian} {key : PublicKey} :
    (ofGuardian guardian).kind = .p256 ∧ (ofGuardian guardian).key = key ↔
      guardian.toEncoding = .p256 key := by
  cases guardian <;> simp [ofGuardian, EMPTY, Guardian.toEncoding]

end GuardianSlot

/-- The list of guardians in the bytes of a wallet's slots. -/
def guardiansOfBytes (bytes : List UInt8) : Option (Vector Guardian MAX_GUARDIANS) :=
  ((GuardianSlot.codec.vector MAX_GUARDIANS).decodeAll bytes).map
    (Vector.map GuardianSlot.toGuardian)

/-- The slots of a list determine it. -/
theorem guardiansOfBytes_data {wallet : SmartWallet} {guardians : Vector Guardian MAX_GUARDIANS}
    (h : wallet.guardians = guardians.map GuardianSlot.ofGuardian) :
    guardiansOfBytes (slice wallet.data GUARDIANS_OFFSET (MAX_GUARDIANS * GUARDIAN_SLOT_LEN))
      = some guardians := by
  rw [guardiansOfBytes, wallet.slice_guardians, Codec.decodeAll_eq_some.mpr rfl, Option.map_some, h,
    Vector.map_map, GuardianSlot.toGuardian_ofGuardian.comp_eq_id, Vector.map_id]

/-! ## The lookup -/

section Lookup

variable {guardians : Vector Guardian MAX_GUARDIANS} {key : PublicKey} {j : ℕ}

/-- Where a key is signed is where it is taken. -/
theorem signed_iff : (guardians.map Guardian.toEncoding)[j]? = some (.p256 key) ↔
    guardians[j]? = some (.p256 key) := by
  rw [Vector.getElem?_map]
  exact (Option.map_injective Guardian.toEncoding_injective).eq_iff (b := some (.p256 key))

/-- Where a key is signed is where it is stored. -/
theorem signed_iff_stored :
    (guardians.map Guardian.toEncoding)[j]? = some (.p256 key) ↔
      ∃ _ : j < MAX_GUARDIANS, (guardians.map GuardianSlot.ofGuardian)[j].kind = .p256 ∧
        (guardians.map GuardianSlot.ofGuardian)[j].key = key := by
  simp only [Vector.getElem?_eq_some_iff, Vector.getElem_map, GuardianSlot.p256_ofGuardian]

end Lookup

/-! ## Agreement -/

/-- One guardian: the bytes it is signed as, what is announced, and the kind byte and the key of its
slot. -/
inductive SameGuardian : List UInt8 → Guardian → List UInt8 → List UInt8 → Prop where
  | none : SameGuardian [GUARDIAN_KIND_NONE] .none [GUARDIAN_KIND_NONE]
      (List.replicate COMPRESSED_PUBKEY_LEN 0)
  | p256 (key : PublicKey) : SameGuardian (GUARDIAN_KIND_P256 :: key.toList) (.p256 key)
      [GUARDIAN_KIND_P256] key.toList
  | webAuthn (key : PublicKey) : SameGuardian (GUARDIAN_KIND_WEBAUTHN :: key.toList) (.webAuthn key)
      [GUARDIAN_KIND_WEBAUTHN] key.toList

/-- **The conversions are in step.** What is signed, taken and stored of one guardian is the
same. -/
theorem sameGuardian (guardian : Guardian) :
    SameGuardian guardian.toEncoding.serialize guardian
      [(GuardianSlot.ofGuardian guardian).kind.toByte]
      (GuardianSlot.ofGuardian guardian).key.toList := by
  cases guardian with
  | none => exact .none
  | p256 key => exact .p256 key
  | webAuthn key => exact .webAuthn key

theorem webAuthn_notMem {guardians : Vector Guardian MAX_GUARDIANS}
    (h : guardians.any Guardian.isWebAuthn = false) (key : PublicKey) :
    .webAuthn key ∉ guardians := by
  intro hmem
  obtain ⟨i, hi, hkey⟩ := Vector.getElem_of_mem hmem
  have hsupported := Vector.any_eq_false.mp h i hi
  rw [hkey] at hsupported
  exact hsupported rfl

section Execute

variable {D : Deployment} {inv : Invocation} {auth : Authorization}
  {guardians : Vector Guardian MAX_GUARDIANS} {relayerFee : UInt64}

/-- A creation announces no guardians. -/
theorem guardiansSet_mem_iff {created : Bool} {w : WalletId} {wallet : SmartWallet}
    {events : List Event} {event : Event} {e : GuardiansSet}
    (h : events = createdEvents created w wallet ++ [event]) :
    .guardiansSet e ∈ events ↔ event = .guardiansSet e := by
  have hcreated : .guardiansSet e ∉ createdEvents created w wallet := by
    rw [createdEvents]
    split_ifs <;> simp
  rw [h, List.mem_append, or_iff_right hcreated, List.mem_singleton, eq_comm]

/-- The list of an accepted `set_guardians`, as it is signed, stored and announced. -/
theorem list_of_execute {chain chain' : Chain} {events : List Event}
    (hcall : inv.call = .setGuardians auth guardians relayerFee)
    (h : execute D inv chain = .ok (chain', events)) :
    guardians.any Guardian.isWebAuthn = false ∧
    ∃ payload wallet, inv.payload = some payload ∧
      payload.message
        = (auth.preimage (.setGuardians (guardians.map Guardian.toEncoding))).toBytes ∧
      stored D chain' auth.walletId = some wallet ∧
      wallet.guardians = guardians.map GuardianSlot.ofGuardian ∧
      ∀ e, .guardiansSet e ∈ events ↔ e = ⟨wallet.walletId, guardians⟩ := by
  rcases executed_of_execute h with ⟨⟨hexecuted⟩⟩ | ⟨⟨hconfirmed⟩⟩
  · obtain ⟨hsupported, hafter, hevent⟩ := hexecuted.enacts.of_setGuardians hcall
    have hpayload := hexecuted.payload_eq
    have hholding := hexecuted.holding_wallet
    have hauth := hexecuted.call_authorization
    have haction := hexecuted.call_action
    have hloads := hexecuted.loads
    rw [hcall] at hauth haction
    obtain rfl : auth = hexecuted.auth := Option.some_inj.mp hauth
    rw [← Option.some_inj.mp haction] at hpayload
    rw [Loads, hcall] at hloads
    obtain ⟨hfind, -⟩ := find_of_initialized hloads
    rw [hafter] at hholding
    refine ⟨hsupported, _, _, hpayload, rfl,
      stored_eq_some.mpr ⟨_, walletAddress_eq_some.mpr ⟨_, hfind⟩, hholding⟩, rfl, fun e ↦ ?_⟩
    rw [guardiansSet_mem_iff hexecuted.events_eq, hevent, Event.guardiansSet.injEq, eq_comm]
  · rw [hconfirmed.call] at hcall
    cases hcall

end Execute

/-! ## The theorem -/

/-- **Guardians are the same in their four forms.** A slot is of one guardian only, of whatever
kind. And an accepted `set_guardians`, wherever it is executed, is one list: read as a preimage,
what was signed has a list `signed`; the one event of its kind has `guardians`; and of each slot,
the kind byte in the account is the variant's in the signed bytes and the key is the one signed, or
zeros where there is none. The bytes of the three slots give the list back. The lookup of a key
returns the least position at which the key is signed, and nothing where it is not signed. -/
theorem guardians_are_one_list :
    Function.Injective GuardianSlot.ofGuardian ∧
    ∀ {D : Deployment} {inv : Invocation} {chain chain' : Chain} {events : List Event}
      {auth : Authorization} {guardians : Vector Guardian MAX_GUARDIANS} {relayerFee : UInt64},
      inv.call = .setGuardians auth guardians relayerFee →
      execute D inv chain = .ok (chain', events) →
      ∃ payload signed wallet, inv.payload = some payload ∧
        Preimage.ofBytes payload.message = some (auth.preimage (.setGuardians signed)) ∧
        payload.message.drop Preimage.ACTION_OFFSET
          = 4 :: signed.toList.flatMap Encoding.Guardian.serialize ∧
        signed = guardians.map Guardian.toEncoding ∧
        stored D chain' auth.walletId = some wallet ∧
        (∀ e, .guardiansSet e ∈ events ↔ e = ⟨wallet.walletId, guardians⟩) ∧
        (∀ k, .webAuthn k ∉ guardians) ∧
        (∀ i (_ : i < MAX_GUARDIANS), SameGuardian signed[i].serialize guardians[i]
          (slice wallet.data (guardianKindOffset i) 1)
          (slice wallet.data (guardianKeyOffset i) COMPRESSED_PUBKEY_LEN)) ∧
        guardiansOfBytes (slice wallet.data GUARDIANS_OFFSET (MAX_GUARDIANS * GUARDIAN_SLOT_LEN))
          = some guardians ∧
        ∀ k,
          (∀ i, wallet.p256Guardian k = some i ↔ IsLeast {j | signed[j]? = some (.p256 k)} i) ∧
          (wallet.p256Guardian k = none ↔ ∀ j : ℕ, signed[j]? ≠ some (.p256 k)) := by
  refine ⟨GuardianSlot.toGuardian_ofGuardian.injective, ?_⟩
  intro D inv chain chain' events auth guardians relayerFee hcall h
  obtain ⟨hsupported, payload, wallet, hpayload, hmessage, hstored, hslots, hevents⟩ :=
    list_of_execute hcall h
  refine ⟨payload, guardians.map Guardian.toEncoding, wallet, hpayload,
    Preimage.ofBytes_eq_some.mpr hmessage.symm, ?_, rfl, hstored, hevents,
    webAuthn_notMem hsupported, ?_, guardiansOfBytes_data hslots, ?_⟩
  · rw [hmessage]
    exact (Preimage.toBytes_fieldsAt _).action
  · intro i hi
    have hslot : wallet.guardians[i] = .ofGuardian guardians[i] := by
      simp only [hslots, Vector.getElem_map]
    rw [wallet.data_fieldsAt.guardianKind i hi, wallet.data_fieldsAt.guardianKey i hi, hslot,
      Vector.getElem_map]
    exact sameGuardian _
  · intro k
    simp only [SmartWallet.p256Guardian, hslots, ne_eq, signed_iff_stored, not_exists]
    exact ⟨fun i ↦ GuardianSlots.p256Guardian_eq_some_iff, GuardianSlots.p256Guardian_eq_none_iff⟩

/-- The device's first action lists a guardian: the slots give the list back, and the lookup finds
the guardian and not the device. -/
theorem guardians_are_one_list_guarded :
    guardiansOfBytes (slice Vectors.guardedWallet.data GUARDIANS_OFFSET
        (MAX_GUARDIANS * GUARDIAN_SLOT_LEN))
      = some #v[.p256 Vectors.guardianKey, .none, .none] ∧
    Vectors.guardedWallet.p256Guardian Vectors.guardianKey = some 0 ∧
    Vectors.guardedWallet.p256Guardian Vectors.deviceKey = none := by
  obtain ⟨_, _, wallet, -, -, -, rfl, hstored, -, -, -, hbytes, hlookup⟩ :=
    guardians_are_one_list.2 rfl
      (Vectors.start.execute_eq Vectors.guarded Vectors.setGuardians.sent rfl)
  obtain rfl : Vectors.guardedWallet = wallet :=
    Option.some_inj.mp (Vectors.guarded.stored_eq.symm.trans hstored)
  refine ⟨hbytes, ((hlookup _).1 0).mpr ⟨signed_iff.mpr rfl, fun j _ ↦ Nat.zero_le j⟩,
    (hlookup _).2.mpr fun j hj ↦ ?_⟩
  have hmem : Guardian.p256 Vectors.deviceKey ∈ [.p256 Vectors.guardianKey, .none, .none] :=
    Vector.mem_toList_iff.mpr (Vector.mem_of_getElem? (signed_iff.mp hj))
  simp [Vectors.guardianKey_ne_deviceKey.symm] at hmem

end EnclaveKit
