import EnclaveKit.Encoding.Preimage

/-!
# The signed format

The format of what is signed, on its own: no wallet and no instruction. An SDK in another language
has to write the same bytes, and a device that shows its user what is to be signed has to read them.

- every action is read back from its bytes: `Codec.decode_append`;
- bytes that are read are those of what is read: `Codec.of_decode`;
- nothing else is read: `decodeAll_of_truncated`, `decodeAll_of_trailing`, and for unknown variants
  `Action.deserialize_of_unknown` and `Action.deserialize_of_unknown_guardian`;
- no encoding begins another: `Codec.eq_of_prefix`.

The header before the action has one size, so the offsets in it hold whatever the action is.
-/

namespace EnclaveKit

open ByteCodec Encoding

/-- **The signed format is exact.** Every action is read back from its encoding, and bytes read as
an action are its encoding: an unknown variant, of the action or of any guardian in it, is refused,
and so are encodings cut short or with anything after them. No encoding begins another. A preimage
is a header of the one size with its fields at the offsets given for them, then the action, and all
of it is read back from its bytes; bytes read as a preimage are its own. -/
theorem signed_format_exact :
    (∀ action : Action, Action.tryFromSlice action.serialize = some action) ∧
    (∀ bytes action, Action.tryFromSlice bytes = some action → action.serialize = bytes) ∧
    (∀ tag bytes, 7 ≤ tag → Action.tryFromSlice (tag :: bytes) = none) ∧
    (∀ (guardians : List Encoding.Guardian) tag bytes, guardians.length < MAX_GUARDIANS → 3 ≤ tag →
      Action.tryFromSlice (4 :: (guardians.flatMap Encoding.Guardian.serialize ++ tag :: bytes))
        = none) ∧
    (∀ (action : Action) bytes, bytes <+: action.serialize → bytes ≠ action.serialize →
      Action.tryFromSlice bytes = none) ∧
    (∀ (action : Action) extra, extra ≠ [] →
      Action.tryFromSlice (action.serialize ++ extra) = none) ∧
    (∀ action action' : Action, action.serialize <+: action'.serialize → action = action') ∧
    (∀ p : Preimage, p.toBytes.length = HEADER_LEN + p.action.serialize.length ∧
      Preimage.FieldsAt p.toBytes p ∧ Preimage.ofBytes p.toBytes = some p) ∧
    ∀ message p, Preimage.ofBytes message = some p → p.toBytes = message := by
  refine ⟨fun action ↦ Action.tryFromSlice_eq_some.mpr rfl,
    fun bytes action ↦ Action.tryFromSlice_eq_some.mp, ?_, ?_, ?_, ?_, ?_, ?_, ?_⟩
  · intro tag bytes htag
    exact Codec.decodeAll_of_decode (Action.deserialize_of_unknown htag bytes)
  · intro guardians tag bytes hlen htag
    exact Codec.decodeAll_of_decode (Action.deserialize_of_unknown_guardian hlen htag bytes)
  · intro action bytes hprefix hne
    exact Codec.decodeAll_of_truncated (c := Action.codec) hprefix hne
  · intro action extra hextra
    exact Codec.decodeAll_of_trailing (c := Action.codec) hextra
  · intro action action' hprefix
    exact Codec.eq_of_prefix (c := Action.codec) hprefix
  · intro p
    exact ⟨p.length_toBytes, p.toBytes_fieldsAt, Preimage.ofBytes_eq_some.mpr rfl⟩
  · intro message p
    exact Preimage.ofBytes_eq_some.mp

/-- Three guardians of the three kinds, in a message that expires before 1970. -/
def mixedPreimage : Preimage where
  programId := Vector.replicate 32 0xAA
  walletId := Vector.replicate 32 0xBB
  nonce := 7
  expiresAt := -1
  maxRelayerFee := 10000
  action := .setGuardians
    #v[.webAuthn (Vector.replicate COMPRESSED_PUBKEY_LEN 2), .none,
      .p256 (Vector.replicate COMPRESSED_PUBKEY_LEN 3)]

theorem signed_format_exact_mixed :
    Preimage.ofBytes mixedPreimage.toBytes = some mixedPreimage ∧
      slice mixedPreimage.toBytes Preimage.EXPIRES_AT_OFFSET 8 = List.replicate 8 255 ∧
      Action.tryFromSlice [7] = none ∧
      Action.tryFromSlice [4, 0, 0, 3] = none ∧
      Action.tryFromSlice mixedPreimage.action.serialize.dropLast = none ∧
      Action.tryFromSlice (mixedPreimage.action.serialize ++ [0]) = none := by
  obtain ⟨-, -, htag, hguardian, htruncated, htrailing, -, hpreimage, -⟩ := signed_format_exact
  obtain ⟨-, hfields, hread⟩ := hpreimage mixedPreimage
  refine ⟨hread, hfields.expiresAt, htag 7 [] (by decide),
    hguardian [.none, .none] 3 [] (by decide) (by decide),
    htruncated mixedPreimage.action _ (List.dropLast_prefix _) (by decide),
    htrailing mixedPreimage.action [0] (by decide)⟩

end EnclaveKit
