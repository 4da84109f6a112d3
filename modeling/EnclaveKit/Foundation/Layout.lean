import EnclaveKit.Foundation.Codec

/-!
# Layouts

A format all of whose parts have a fixed size has its parts at fixed offsets. `Sized` says that
every encoding has the one length, and `c.At offset d f` that the bytes of the part `f a`, written
by `d`, are those of `a` from `offset` on.

Offsets add up as the format is put together: the first part of a pair is where the pair is, the
second comes after the size of the first, and element `i` of an array after `i` sizes. A layout is
then proved part by part, and never by computing with the bytes of a whole value.
-/

/-- The `n` bytes from `offset` on, fewer where there are fewer. -/
def ByteCodec.slice (bytes : List UInt8) (offset n : ℕ) : List UInt8 := (bytes.drop offset).take n

open ByteCodec

theorem ByteCodec.slice_add (bytes : List UInt8) (offset m n : ℕ) :
    slice bytes offset (m + n) = slice bytes offset m ++ slice bytes (offset + m) n := by
  rw [slice, slice, slice, List.take_add, List.drop_drop]

theorem ByteCodec.slice_append (front part back : List UInt8) :
    slice (front ++ (part ++ back)) front.length part.length = part := by
  rw [slice, List.drop_left, List.take_left]

namespace Codec

variable {α β γ : Type*}

/-! ## More formats -/

/-- A format of values in bijection with those of `c`. -/
def iso (c : Codec α) (parts : β → α) (make : α → β) (make_parts : ∀ b, make (parts b) = b)
    (parts_make : ∀ a, parts (make a) = a) : Codec β where
  encode b := c.encode (parts b)
  decode bs := c.under make bs
  decode_append b rest := by rw [c.under_append, make_parts]
  of_decode {bs b rest} h := by
    obtain ⟨a, rfl, hbytes⟩ := of_under h
    rw [parts_make, hbytes]

/-- One byte, of those that stand for a value. -/
def byte (toByte : α → UInt8) (ofByte : UInt8 → Option α)
    (ofByte_eq_some : ∀ b a, ofByte b = some a ↔ toByte a = b) : Codec α where
  encode a := [toByte a]
  decode
    | b :: bs => (ofByte b).map fun a ↦ (a, bs)
    | [] => none
  decode_append a rest := by
    rw [List.singleton_append]
    dsimp only
    rw [(ofByte_eq_some _ a).mpr rfl, Option.map_some]
  of_decode {bs a rest} h := by
    cases bs with
    | nil => cases h
    | cons b bs =>
      simp only [Option.map_eq_some_iff, Prod.mk.injEq] at h
      obtain ⟨a, ha, rfl, rfl⟩ := h
      rw [(ofByte_eq_some b a).mp ha, List.singleton_append]

/-- Fixed bytes before the value, which are checked. -/
def tagged (tag : List UInt8) (c : Codec α) : Codec α where
  encode a := tag ++ c.encode a
  decode bs := if bs.take tag.length = tag then c.decode (bs.drop tag.length) else none
  decode_append a rest := by
    rw [List.append_assoc, List.take_left, if_pos rfl, List.drop_left, c.decode_append]
  of_decode {bs a rest} h := by
    split_ifs at h with htag
    rw [List.append_assoc, c.of_decode h]
    conv_rhs => rw [← List.take_append_drop tag.length bs, htag]

/-- One byte, whatever it is. -/
def u8 : Codec UInt8 := byte id some fun b a ↦ by rw [Option.some_inj, id, eq_comm]

/-- `0` or `1`, and nothing else. -/
def bool : Codec Bool :=
  byte (fun b ↦ if b then 1 else 0)
    (fun | 0 => some false | 1 => some true | _ => none) fun b a ↦ by
    split <;> cases a <;> simp_all [eq_comm]

/-! ## Sizes -/

/-- Every encoding has the one length. -/
def Sized (c : Codec α) (n : ℕ) : Prop := ∀ a, (c.encode a).length = n

theorem sized_bytes (n : ℕ) : (bytes n).Sized n := fun _ ↦ Vector.length_toList

theorem sized_u64 : u64.Sized 8 := fun _ ↦ length_leBytes _ _

theorem sized_i64 : i64.Sized 8 := fun _ ↦ length_leBytes _ _

theorem sized_byte {toByte : α → UInt8} {ofByte : UInt8 → Option α}
    (h : ∀ b a, ofByte b = some a ↔ toByte a = b) : (byte toByte ofByte h).Sized 1 := fun _ ↦ rfl

variable {c : Codec α} {d : Codec β} {e : Codec γ} {m n offset offset' : ℕ}

theorem Sized.prod (hc : c.Sized m) (hd : d.Sized n) : (c.prod d).Sized (m + n) := fun p ↦ by
  rw [Codec.prod, List.length_append, hc, hd]

theorem Sized.length_flatMap (hc : c.Sized m) (as : List α) :
    (as.flatMap c.encode).length = as.length * m := by
  induction as with
  | nil => simp
  | cons a as ih =>
    rw [List.flatMap_cons, List.length_append, hc, ih, List.length_cons, Nat.succ_mul]
    omega

theorem Sized.vector (hc : c.Sized m) (n : ℕ) : (c.vector n).Sized (n * m) := fun v ↦ by
  rw [Codec.vector, hc.length_flatMap, Vector.length_toList]

theorem Sized.iso (hc : c.Sized n) {parts : β → α} {make : α → β}
    (make_parts : ∀ b, make (parts b) = b) (parts_make : ∀ a, parts (make a) = a) :
    (c.iso parts make make_parts parts_make).Sized n := fun b ↦ hc (parts b)

theorem Sized.tagged (hc : c.Sized m) (tag : List UInt8) :
    (c.tagged tag).Sized (tag.length + m) := fun a ↦ by
  rw [Codec.tagged, List.length_append, hc]

/-- Bytes of the right number that are read are all read, and are what would have been written. -/
theorem Sized.encode_of_decode (hc : c.Sized n) {bytes rest : List UInt8} {a : α}
    (hlength : bytes.length = n) (h : c.decode bytes = some (a, rest)) :
    rest = [] ∧ c.encode a = bytes := by
  have hbytes := c.of_decode h
  have hlen := congrArg List.length hbytes
  rw [List.length_append, hc, hlength] at hlen
  obtain rfl : rest = [] := List.length_eq_zero_iff.mp (by omega)
  exact ⟨rfl, by rwa [List.append_nil] at hbytes⟩

/-! ## Offsets -/

/-- The part `f a`, written by `d`, has its bytes from `offset` on. -/
def At (c : Codec α) (offset : ℕ) (d : Codec β) (f : α → β) : Prop :=
  ∀ a, ∃ front back, c.encode a = front ++ (d.encode (f a) ++ back) ∧ front.length = offset

/-- What is read at the offset of a part. -/
theorem At.slice_eq {f : α → β} (h : c.At offset d f) (hd : d.Sized n) (a : α) :
    slice (c.encode a) offset n = d.encode (f a) := by
  obtain ⟨front, back, hencode, rfl⟩ := h a
  rw [hencode, ← hd (f a)]
  exact slice_append _ _ _

/-- A part of a part. -/
theorem At.trans {f : α → β} {g : β → γ} (h : c.At offset d f) (h' : d.At offset' e g) :
    c.At (offset + offset') e (g ∘ f) := by
  intro a
  obtain ⟨front, back, hencode, rfl⟩ := h a
  obtain ⟨front', back', hencode', rfl⟩ := h' (f a)
  exact ⟨front ++ front', back' ++ back, by simp [hencode, hencode'], List.length_append⟩

/-- The first of a pair is where the pair is. -/
theorem At.head {f : α → β × γ} (h : c.At offset (d.prod e) f) :
    c.At offset d (Prod.fst ∘ f) := by
  have hfst : (d.prod e).At 0 d Prod.fst := fun p ↦ ⟨[], e.encode p.2, rfl, rfl⟩
  exact h.trans hfst

/-- The second of a pair comes after the first. -/
theorem At.next {f : α → β × γ} (h : c.At offset (d.prod e) f) (hd : d.Sized n) :
    c.At (offset + n) e (Prod.snd ∘ f) :=
  h.trans fun p ↦ ⟨d.encode p.1, [], by rw [List.append_nil, Codec.prod], hd p.1⟩

theorem At.tagged (tag : List UInt8) (c : Codec α) : (c.tagged tag).At tag.length c id :=
  fun a ↦ ⟨tag, [], by rw [List.append_nil, Codec.tagged, id], rfl⟩

/-- The parts of a value are where the value is. -/
theorem At.parts {f : α → β} {parts : β → γ} {make : γ → β} {make_parts : ∀ b, make (parts b) = b}
    {parts_make : ∀ a, parts (make a) = a}
    (h : c.At offset (e.iso parts make make_parts parts_make) f) :
    c.At offset e (parts ∘ f) := by
  have hparts : (e.iso parts make make_parts parts_make).At 0 e parts :=
    fun b ↦ ⟨[], [], by rw [List.append_nil, List.nil_append, Codec.iso], rfl⟩
  exact h.trans hparts

/-- Element `i` of an array comes after the `i` before it. -/
theorem At.element {f : α → Vector β n} (h : c.At offset (d.vector n) f) (hd : d.Sized m) {i : ℕ}
    (hi : i < n) : c.At (offset + i * m) d (fun a ↦ (f a)[i]) := by
  refine h.trans (g := fun v ↦ v[i]) fun v ↦ ?_
  have hi' : i < v.toList.length := by rwa [Vector.length_toList]
  refine ⟨(v.toList.take i).flatMap d.encode, (v.toList.drop (i + 1)).flatMap d.encode, ?_, ?_⟩
  · have hsplit : v.toList = v.toList.take i ++ v[i] :: v.toList.drop (i + 1) := by
      conv_lhs => rw [← List.take_append_drop i v.toList, List.drop_eq_getElem_cons hi']
      rw [Vector.getElem_toList]
    calc (d.vector n).encode v = v.toList.flatMap d.encode := rfl
      _ = (v.toList.take i ++ v[i] :: v.toList.drop (i + 1)).flatMap d.encode := by rw [← hsplit]
      _ = _ := by rw [List.flatMap_append, List.flatMap_cons]
  · rw [hd.length_flatMap, List.length_take, Nat.min_eq_left hi'.le]

end Codec
