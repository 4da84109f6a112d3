import EnclaveKit.Solana.Platform

/-!
# Rent states

The last word on a transaction is the runtime's. When every instruction of it has succeeded, the
runtime compares what each writable account is left with to what it had: an account may end empty or
rent-exempt, and one that was neither may stay so as long as it is not paid anything. Otherwise the
whole transaction is undone, though no program refused it.
-/

namespace Solana

/-- `1nc1nerator11111111111111111111111111111111`, whose rent nobody asks about. -/
def INCINERATOR : Pubkey :=
  #v[0x00, 0x33, 0x90, 0x72, 0x8d, 0x34, 0x11, 0x60, 0x79, 0xbd, 0xc9, 0x11, 0xbf, 0xff, 0x00, 0xdb,
    0xd4, 0x4d, 0x2e, 0xcd, 0xcc, 0xf7, 0x9c, 0xa6, 0xe1, 0x00, 0x38, 0xe1, 0x00, 0x00, 0x00, 0x00]

/-- What the runtime makes of the balance of an account. -/
inductive RentState where
  | uninitialized
  | rentPaying (size lamports : ℕ)
  | rentExempt
  deriving DecidableEq

/-- The rent state of an account of so many bytes with so many lamports. -/
def Platform.rentState (P : Platform) (size lamports : ℕ) : RentState :=
  if lamports = 0 then .uninitialized
  else if (P.minimumBalance size).toNat ≤ lamports then .rentExempt
  else .rentPaying size lamports

namespace RentState

/-- `transition_allowed`. -/
def Allows : RentState → RentState → Prop
  | _, uninitialized => True
  | _, rentExempt => True
  | rentPaying size lamports, rentPaying size' lamports' => size' = size ∧ lamports' ≤ lamports
  | uninitialized, rentPaying _ _ => False
  | rentExempt, rentPaying _ _ => False

theorem Allows.refl (s : RentState) : s.Allows s := by
  cases s with
  | uninitialized | rentExempt => trivial
  | rentPaying => exact ⟨rfl, le_rfl⟩

/-- Whatever it was before, an account may end empty or rent-exempt. -/
theorem allows_of_le {P : Platform} {size lamports : ℕ} (s : RentState)
    (h : lamports = 0 ∨ (P.minimumBalance size).toNat ≤ lamports) :
    s.Allows (P.rentState size lamports) := by
  rw [Platform.rentState]
  split_ifs with hzero hexempt
  · cases s <;> trivial
  · cases s <;> trivial
  · exact absurd (h.resolve_left hzero) hexempt

end RentState

end Solana
