import EnclaveKit.Foundation.Layout

/-!
# Tagged unions

A value of one of several kinds is written as a tag that tells the kind, and then in the format of
that kind. The tags are one byte string of a fixed size for each kind, all different (`Codec.enum`),
and the format of the rest depends on the tag that was read (`Codec.sigma`).

The reader takes the first kind whose tag the bytes begin with and never goes back to another. With
different tags of one size there is at most one, so the order in which the kinds are tried does not
matter, and a union of exact formats is exact.

Readers that stop where the value stops and do not look at what follows are common, and lose one of
the two laws: `decodeFront` accepts whatever begins with an encoding, and nothing else.
-/

namespace Codec

variable {κ : Type*}

/-! ## The tags -/

section Enum

variable {n : ℕ} (tag : κ → Vector UInt8 n)

/-- The kind whose tag the bytes begin with. -/
def kindOf (kinds : List κ) (bytes : List UInt8) : Option κ :=
  kinds.find? fun k ↦ (tag k).toList.isPrefixOf bytes

variable {tag}

theorem prefix_of_kindOf {kinds : List κ} {bytes : List UInt8} {k : κ}
    (h : kindOf tag kinds bytes = some k) : (tag k).toList <+: bytes := by
  have hprefix := List.find?_some h
  rwa [List.isPrefixOf_iff_prefix] at hprefix

/-- Two tags of one size that begin the same bytes are the same. -/
theorem tag_eq_of_prefix {bytes : List UInt8} {t t' : Vector UInt8 n} (h : t.toList <+: bytes)
    (h' : t'.toList <+: bytes) : t = t' := by
  have hlength : t.toList.length = t'.toList.length := by
    rw [Vector.length_toList, Vector.length_toList]
  have heq := (List.prefix_of_prefix_length_le h h' hlength.le).eq_of_length hlength
  exact Vector.toList_inj.mp heq

theorem kindOf_eq_some {kinds : List κ} (hkinds : ∀ k, k ∈ kinds)
    (hinjective : Function.Injective tag) {bytes : List UInt8} {k : κ} :
    kindOf tag kinds bytes = some k ↔ (tag k).toList <+: bytes := by
  constructor
  · exact prefix_of_kindOf
  · intro h
    cases hfound : kindOf tag kinds bytes with
    | none =>
      have hnone := List.find?_eq_none.mp hfound k (hkinds k)
      rw [List.isPrefixOf_iff_prefix] at hnone
      exact absurd h hnone
    | some k' =>
      have heq := tag_eq_of_prefix (prefix_of_kindOf hfound) h
      rw [hinjective heq]

variable (tag)

/-- A tag. -/
def enum (kinds : List κ) (hkinds : ∀ k, k ∈ kinds) (hinjective : Function.Injective tag) :
    Codec κ where
  encode k := (tag k).toList
  decode bs := (kindOf tag kinds bs).map fun k ↦ (k, bs.drop n)
  decode_append k rest := by
    have hfound : kindOf tag kinds ((tag k).toList ++ rest) = some k :=
      (kindOf_eq_some hkinds hinjective).mpr (List.prefix_append _ _)
    have hlength : (tag k).toList.length = n := Vector.length_toList
    rw [hfound, Option.map_some, List.drop_left' hlength]
  of_decode {bs k rest} h := by
    simp only [Option.map_eq_some_iff, Prod.mk.injEq] at h
    obtain ⟨k, hfound, rfl, rfl⟩ := h
    obtain ⟨rest, rfl⟩ := prefix_of_kindOf hfound
    have hlength : (tag k).toList.length = n := Vector.length_toList
    rw [List.drop_left' hlength]

theorem sized_enum (kinds : List κ) (hkinds : ∀ k, k ∈ kinds)
    (hinjective : Function.Injective tag) : (enum tag kinds hkinds hinjective).Sized n :=
  fun _ ↦ Vector.length_toList

end Enum

/-! ## The union -/

variable {α : κ → Type*} (c : Codec κ) (d : ∀ k, Codec (α k))

/-- The tag, then the value in the format of its kind. -/
def sigma : Codec (Σ k, α k) where
  encode p := c.encode p.1 ++ (d p.1).encode p.2
  decode bs := (c.decode bs).bind fun (k, bs) ↦ (d k).under (Sigma.mk k) bs
  decode_append p rest := by
    simp only [List.append_assoc, c.decode_append, Option.bind_some, under_append]
  of_decode {bs p rest} h := by
    simp only [Option.bind_eq_some_iff] at h
    obtain ⟨⟨k, bs'⟩, hk, hrest⟩ := h
    obtain ⟨a, rfl, hbytes⟩ := of_under hrest
    rw [List.append_assoc, hbytes, c.of_decode hk]

variable {c d}

/-- A part that every kind has at one place comes after the tag. -/
theorem At.sigma {β : Type*} {e : Codec β} {f : ∀ k, α k → β} {n offset : ℕ} (hc : c.Sized n)
    (h : ∀ k, (d k).At offset e (f k)) :
    (c.sigma d).At (n + offset) e fun p ↦ f p.1 p.2 := by
  intro p
  obtain ⟨front, back, hencode, rfl⟩ := h p.1 p.2
  refine ⟨c.encode p.1 ++ front, back, ?_, by rw [List.length_append, hc]⟩
  change c.encode p.1 ++ (d p.1).encode p.2 = _
  rw [hencode, List.append_assoc]

/-! ## Reading the front -/

section Front

variable {γ : Type*} (c : Codec γ)

/-- Reads a value and does not look at what follows it. -/
def decodeFront (bytes : List UInt8) : Option γ := (c.decode bytes).map Prod.fst

variable {c}

/-- **What begins with an encoding is read, and nothing else.** -/
theorem decodeFront_eq_some {bytes : List UInt8} {a : γ} :
    c.decodeFront bytes = some a ↔ c.encode a <+: bytes := by
  rw [decodeFront, Option.map_eq_some_iff]
  constructor
  · rintro ⟨⟨a, rest⟩, hdecode, rfl⟩
    exact ⟨rest, c.of_decode hdecode⟩
  · rintro ⟨rest, rfl⟩
    exact ⟨(a, rest), c.decode_append a rest, rfl⟩

end Front

end Codec
