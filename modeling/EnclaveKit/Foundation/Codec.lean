import Mathlib.Algebra.Group.Basic
import Mathlib.Tactic.NormNum

/-!
# Byte codecs

A codec writes values as bytes and reads them back off the front of a byte string, returning what is
left. Two laws make it *exact*: what it writes it reads back, whatever follows; and what it reads is
what it would have written.

Neither law mentions lengths, and together they say everything a length would: encodings are
injective, no encoding is a proper prefix of another, and a byte string is decoded in full exactly
when it is an encoding. Composite formats inherit all of it from their parts, which is how a format
with elements of several sizes and no length field is still read unambiguously.
-/

namespace ByteCodec

/-! ## Little-endian words -/

/-- The `width` lowest bytes of `n`, least significant first. -/
def leBytes : ℕ → ℕ → List UInt8
  | 0, _ => []
  | width + 1, n => UInt8.ofNat n :: leBytes width (n / 256)

/-- The number whose bytes these are, least significant first. -/
def ofLeBytes : List UInt8 → ℕ
  | [] => 0
  | b :: bytes => b.toNat + 256 * ofLeBytes bytes

@[simp] theorem length_leBytes (width n : ℕ) : (leBytes width n).length = width := by
  induction width generalizing n with
  | zero => rfl
  | succ width ih => rw [leBytes, List.length_cons, ih]

theorem ofLeBytes_leBytes {width n : ℕ} (h : n < 256 ^ width) :
    ofLeBytes (leBytes width n) = n := by
  induction width generalizing n with
  | zero =>
    rw [leBytes, ofLeBytes]
    omega
  | succ width ih =>
    have hdiv : n / 256 < 256 ^ width := Nat.div_lt_of_lt_mul (by rwa [pow_succ'] at h)
    rw [leBytes, ofLeBytes, ih hdiv, UInt8.toNat_ofNat']
    omega

theorem leBytes_ofLeBytes (bytes : List UInt8) :
    leBytes bytes.length (ofLeBytes bytes) = bytes := by
  induction bytes with
  | nil => rfl
  | cons b bytes ih =>
    have hb := b.toNat_lt
    have hdiv : (b.toNat + 256 * ofLeBytes bytes) / 256 = ofLeBytes bytes := by omega
    have hmod : UInt8.ofNat (b.toNat + 256 * ofLeBytes bytes) = b := by
      rw [← UInt8.toNat_inj, UInt8.toNat_ofNat']
      omega
    rw [List.length_cons, ofLeBytes, leBytes, hdiv, hmod, ih]

theorem ofLeBytes_lt (bytes : List UInt8) : ofLeBytes bytes < 256 ^ bytes.length := by
  induction bytes with
  | nil => simp [ofLeBytes]
  | cons b bytes ih =>
    have hb := b.toNat_lt
    rw [ofLeBytes, List.length_cons, pow_succ]
    omega

end ByteCodec

open ByteCodec

/-- An exact byte format for the values of `α`. -/
structure Codec (α : Type*) where
  /-- The bytes of a value. -/
  encode : α → List UInt8
  /-- Reads a value off the front and returns the rest. -/
  decode : List UInt8 → Option (α × List UInt8)
  /-- What is written is read back, whatever follows. -/
  decode_append : ∀ a rest, decode (encode a ++ rest) = some (a, rest)
  /-- What is read is what would have been written. -/
  of_decode : ∀ {bytes a rest}, decode bytes = some (a, rest) → encode a ++ rest = bytes

namespace Codec

variable {α β : Type*} (c : Codec α) (d : Codec β)

/-! ## What exactness gives -/

variable {c} in
/-- Two values followed by anything agree as bytes only when they agree. -/
theorem append_inj {a b : α} {r r' : List UInt8} (h : c.encode a ++ r = c.encode b ++ r') :
    a = b ∧ r = r' := by
  have hdec := c.decode_append a r
  rw [h, c.decode_append, Option.some_inj, Prod.mk.injEq] at hdec
  exact ⟨hdec.1.symm, hdec.2.symm⟩

theorem encode_injective : Function.Injective c.encode := by
  intro a b h
  have happend : c.encode a ++ [] = c.encode b ++ [] := by rw [h]
  exact (append_inj happend).1

variable {c} in
/-- **Prefix freeness.** No encoding is a proper prefix of another. -/
theorem eq_of_prefix {a b : α} (h : c.encode a <+: c.encode b) : a = b := by
  obtain ⟨r, hr⟩ := h
  rw [← List.append_nil (c.encode b)] at hr
  exact (append_inj hr).1

/-- Reads the whole byte string or nothing. -/
def decodeAll (bytes : List UInt8) : Option α :=
  match c.decode bytes with
  | some (a, []) => some a
  | _ => none

variable {c} in
/-- A byte string is decoded in full exactly when it is an encoding. -/
theorem decodeAll_eq_some {bytes : List UInt8} {a : α} :
    c.decodeAll bytes = some a ↔ c.encode a = bytes := by
  constructor
  · intro h
    rw [decodeAll] at h
    split at h
    · rename_i b hdec
      rw [Option.some_inj] at h
      rw [← c.of_decode hdec, h, List.append_nil]
    · cases h
  · rintro rfl
    have hdec := c.decode_append a []
    rw [List.append_nil] at hdec
    rw [decodeAll, hdec]

variable {c} in
/-- Part of an encoding is refused. -/
theorem decodeAll_of_truncated {a : α} {bytes : List UInt8} (h : bytes <+: c.encode a)
    (hne : bytes ≠ c.encode a) : c.decodeAll bytes = none := by
  rw [Option.eq_none_iff_forall_ne_some]
  intro b hb
  rw [decodeAll_eq_some] at hb
  obtain rfl : b = a := by
    rw [← hb] at h
    exact eq_of_prefix h
  exact hne hb.symm

variable {c} in
/-- So is an encoding with something after it. -/
theorem decodeAll_of_trailing {a : α} {extra : List UInt8} (h : extra ≠ []) :
    c.decodeAll (c.encode a ++ extra) = none := by
  have hdec := c.decode_append a extra
  obtain ⟨b, rest, rfl⟩ := List.exists_cons_of_ne_nil h
  rw [decodeAll, hdec]

variable {c} in
theorem decodeAll_of_decode {bytes : List UInt8} (h : c.decode bytes = none) :
    c.decodeAll bytes = none := by
  rw [decodeAll, h]

/-! ## Words and byte arrays -/

/-- A fixed number of bytes as they are. -/
def bytes (n : ℕ) : Codec (Vector UInt8 n) where
  encode v := v.toList
  decode bs :=
    if h : n ≤ bs.length then
      some (⟨(bs.take n).toArray, by simp [h]⟩, bs.drop n)
    else none
  decode_append v rest := by
    have hlen : v.toList.length = n := Vector.length_toList
    rw [dif_pos (by rw [List.length_append, hlen]; omega), List.drop_left' hlen]
    refine congrArg some (Prod.ext (Vector.toList_inj.mp ?_) rfl)
    exact List.take_left' hlen
  of_decode {bs v rest} h := by
    split_ifs at h with hle
    simp only [Option.some_inj, Prod.mk.injEq] at h
    obtain ⟨rfl, rfl⟩ := h
    simp

/-- A word of `width` bytes, least significant first, as the numbers of a type in bijection with
those below `256 ^ width`. -/
def word (width : ℕ) (toNat : α → ℕ) (ofNat : ℕ → α) (lt : ∀ a, toNat a < 256 ^ width)
    (ofNat_toNat : ∀ a, ofNat (toNat a) = a)
    (toNat_ofNat : ∀ n, n < 256 ^ width → toNat (ofNat n) = n) : Codec α where
  encode a := leBytes width (toNat a)
  decode bs :=
    if width ≤ bs.length then some (ofNat (ofLeBytes (bs.take width)), bs.drop width) else none
  decode_append a rest := by
    have hlen := length_leBytes width (toNat a)
    rw [if_pos (by rw [List.length_append, hlen]; omega), List.take_left' hlen,
      List.drop_left' hlen, ofLeBytes_leBytes (lt a), ofNat_toNat]
  of_decode {bs a rest} h := by
    split_ifs at h with hle
    simp only [Option.some_inj, Prod.mk.injEq] at h
    obtain ⟨rfl, rfl⟩ := h
    have hlen : (bs.take width).length = width := by rw [List.length_take, Nat.min_eq_left hle]
    have hlt := ofLeBytes_lt (bs.take width)
    rw [hlen] at hlt
    have hbytes := leBytes_ofLeBytes (bs.take width)
    rw [hlen] at hbytes
    rw [toNat_ofNat _ hlt, hbytes, List.take_append_drop]

/-- `u64`, little-endian. -/
def u64 : Codec UInt64 :=
  word 8 UInt64.toNat UInt64.ofNat (fun n ↦ n.toNat_lt) (fun _ ↦ UInt64.ofNat_toNat)
    fun n h ↦ by rw [UInt64.toNat_ofNat', Nat.mod_eq_of_lt (by norm_num at h ⊢; omega)]

/-- `i64`, little-endian two's complement. -/
def i64 : Codec Int64 :=
  word 8 (fun n ↦ n.toUInt64.toNat) (fun n ↦ (UInt64.ofNat n).toInt64)
    (fun n ↦ n.toUInt64.toNat_lt) (fun n ↦ by rw [UInt64.ofNat_toNat, Int64.toInt64_toUInt64])
    fun n h ↦ by
      rw [UInt64.toUInt64_toInt64, UInt64.toNat_ofNat',
        Nat.mod_eq_of_lt (by norm_num at h ⊢; omega)]

/-! ## Composites -/

/-- One value after the other. -/
def prod : Codec (α × β) where
  encode p := c.encode p.1 ++ d.encode p.2
  decode bs :=
    (c.decode bs).bind fun (a, bs) ↦ (d.decode bs).map fun (b, bs) ↦ ((a, b), bs)
  decode_append p rest := by
    simp only [List.append_assoc, c.decode_append, Option.bind_some, d.decode_append,
      Option.map_some]
  of_decode {bs p rest} h := by
    simp only [Option.bind_eq_some_iff, Option.map_eq_some_iff, Prod.mk.injEq] at h
    obtain ⟨⟨a, bs'⟩, ha, ⟨b, bs''⟩, hb, rfl, rfl⟩ := h
    rw [List.append_assoc, d.of_decode hb, c.of_decode ha]

/-- Reads the payload of a variant and builds the value it belongs to. -/
def under (make : α → β) (bs : List UInt8) : Option (β × List UInt8) :=
  (c.decode bs).map fun (a, bs) ↦ (make a, bs)

@[simp] theorem under_append (make : α → β) (a : α) (rest : List UInt8) :
    c.under make (c.encode a ++ rest) = some (make a, rest) := by
  rw [under, c.decode_append, Option.map_some]

variable {c} in
theorem of_under {make : α → β} {bs rest : List UInt8} {b : β}
    (h : c.under make bs = some (b, rest)) : ∃ a, make a = b ∧ c.encode a ++ rest = bs := by
  simp only [under, Option.map_eq_some_iff, Prod.mk.injEq] at h
  obtain ⟨⟨a, bs'⟩, ha, rfl, rfl⟩ := h
  exact ⟨a, rfl, c.of_decode ha⟩

/-- Decodes `n` values in a row. -/
def decodeList : ℕ → List UInt8 → Option (List α × List UInt8)
  | 0, bs => some ([], bs)
  | n + 1, bs =>
    (c.decode bs).bind fun (a, bs) ↦ (decodeList n bs).map fun (as, bs) ↦ (a :: as, bs)

theorem decodeList_append (as : List α) (rest : List UInt8) :
    c.decodeList as.length (as.flatMap c.encode ++ rest) = some (as, rest) := by
  induction as with
  | nil => rfl
  | cons a as ih =>
    simp only [List.length_cons, decodeList, List.flatMap_cons, List.append_assoc,
      c.decode_append, Option.bind_some, ih, Option.map_some]

variable {c} in
theorem of_decodeList {n : ℕ} {bs rest : List UInt8} {as : List α}
    (h : c.decodeList n bs = some (as, rest)) :
    as.length = n ∧ as.flatMap c.encode ++ rest = bs := by
  induction n generalizing bs as with
  | zero =>
    simp only [decodeList, Option.some_inj, Prod.mk.injEq] at h
    obtain ⟨rfl, rfl⟩ := h
    exact ⟨rfl, rfl⟩
  | succ n ih =>
    simp only [decodeList, Option.bind_eq_some_iff, Option.map_eq_some_iff, Prod.mk.injEq] at h
    obtain ⟨⟨a, bs'⟩, ha, ⟨as', bs''⟩, has, rfl, rfl⟩ := h
    obtain ⟨hlen, hbytes⟩ := ih has
    refine ⟨by rw [List.length_cons, hlen], ?_⟩
    rw [List.flatMap_cons, List.append_assoc, hbytes, c.of_decode ha]

variable {c} in
/-- Nothing is read where one of the values is not, however many were read before it. -/
theorem decodeList_of_decode {n : ℕ} {as : List α} {bs : List UInt8} (hlen : as.length < n)
    (h : c.decode bs = none) : c.decodeList n (as.flatMap c.encode ++ bs) = none := by
  induction as generalizing n with
  | nil =>
    obtain ⟨m, rfl⟩ := Nat.exists_eq_add_of_lt hlen
    rw [List.flatMap_nil, List.nil_append, decodeList, h, Option.bind_none]
  | cons a as ih =>
    obtain ⟨m, rfl⟩ := Nat.exists_eq_succ_of_ne_zero (Nat.ne_zero_of_lt hlen)
    have hrest := ih (Nat.lt_of_succ_lt_succ hlen)
    simp only [List.flatMap_cons, List.append_assoc, decodeList, c.decode_append, Option.bind_some,
      hrest, Option.map_none]

/-- A fixed-size array: its elements in order, no length. The elements may differ in size. -/
def vector (n : ℕ) : Codec (Vector α n) where
  encode v := v.toList.flatMap c.encode
  decode bs :=
    match h : c.decodeList n bs with
    | some (as, rest) => some (⟨as.toArray, by simp [(of_decodeList h).1]⟩, rest)
    | none => none
  decode_append v rest := by
    have hdec := c.decodeList_append v.toList rest
    rw [Vector.length_toList] at hdec
    split
    · rename_i as rest' h
      rw [hdec, Option.some_inj, Prod.mk.injEq] at h
      obtain ⟨rfl, rfl⟩ := h
      exact congrArg some (Prod.ext (Vector.toList_inj.mp rfl) rfl)
    · rename_i h
      rw [hdec] at h
      cases h
  of_decode {bs v rest} h := by
    split at h
    · rename_i as rest' hdec
      simp only [Option.some_inj, Prod.mk.injEq] at h
      obtain ⟨rfl, rfl⟩ := h
      simpa using (of_decodeList hdec).2
    · cases h

variable {c} in
theorem vector_of_decode {n : ℕ} {as : List α} {bs : List UInt8} (hlen : as.length < n)
    (h : c.decode bs = none) : (c.vector n).decode (as.flatMap c.encode ++ bs) = none := by
  have hnone := decodeList_of_decode hlen h
  rw [vector]
  dsimp only
  split
  · rename_i hdec
    rw [hnone] at hdec
    cases hdec
  · rfl

end Codec
