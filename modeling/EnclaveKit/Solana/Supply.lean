import EnclaveKit.Solana.Ledger
import Mathlib.Algebra.BigOperators.Group.Finset.Piecewise
import Mathlib.Algebra.BigOperators.Ring.Finset
import Mathlib.Algebra.Order.BigOperators.Group.Finset
import Mathlib.Data.Finset.Lattice.Basic

/-!
# The supply

A System transfer out of a System account fails for want of lamports, or because the destination
would exceed a word. The second does not happen where all the lamports there are fit in a word
together, which is what `SupplyFits` says of a ledger. Moves conserve every sum that takes in both
their ends, so what is reached by moves from such a ledger is such a ledger.

The two lemmas at the end are the converses of `transfer_eq_ok` and `close_eq_ok`. A transfer of
nothing needs no room, and is asked for none.
-/

namespace Solana

open MachineInt

/-! ## Conservation -/

theorem Move.sum_net {m : Move} {s : Finset Pubkey} (hsource : m.source ∈ s) (hdest : m.dest ∈ s) :
    ∑ a ∈ s, m.net a = 0 := by
  simp only [Move.net, Finset.sum_sub_distrib, Finset.sum_ite_eq', hsource, hdest, if_true,
    sub_self]

/-- Moves conserve a sum over accounts that takes in both ends of each. -/
theorem sum_netChange {ms : List Move} {s : Finset Pubkey}
    (h : ∀ m ∈ ms, m.source ∈ s ∧ m.dest ∈ s) : ∑ a ∈ s, netChange ms a = 0 := by
  induction ms with
  | nil => simp
  | cons m ms ih =>
    obtain ⟨hsource, hdest⟩ := h m List.mem_cons_self
    simp only [netChange_cons, Finset.sum_add_distrib, Move.sum_net hsource hdest, zero_add]
    exact ih fun m' hm' ↦ h m' (List.mem_cons_of_mem m hm')

namespace Ledger

variable {σ : Type}

theorem Moved.sum_balance {l l' : Ledger σ} {ms : List Move} {s : Finset Pubkey}
    (h : Moved l ms l') (hs : ∀ m ∈ ms, m.source ∈ s ∧ m.dest ∈ s) :
    ∑ a ∈ s, l'.balance a = ∑ a ∈ s, l.balance a := by
  have hsum : ∑ a ∈ s, (l'.balance a : ℤ) = ∑ a ∈ s, (l.balance a + netChange ms a) :=
    Finset.sum_congr rfl fun a _ ↦ h a
  rw [Finset.sum_add_distrib, sum_netChange hs, add_zero] at hsum
  rw [← Nat.cast_sum, ← Nat.cast_sum] at hsum
  exact Nat.cast_inj.mp hsum

/-! ## A supply that fits -/

/-- The lamports of any accounts together fit in a word. -/
def SupplyFits (l : Ledger σ) : Prop := ∀ s : Finset Pubkey, ∑ a ∈ s, l.balance a < 2 ^ 64

/-- **Moves conserve the supply**, and so that it fits. -/
theorem Moved.supplyFits {l l' : Ledger σ} {ms : List Move} (h : Moved l ms l')
    (hfits : l.SupplyFits) : l'.SupplyFits := by
  intro s
  let ends : Finset Pubkey := (ms.flatMap fun m ↦ [m.source, m.dest]).toFinset
  have hends : ∀ m ∈ ms, m.source ∈ s ∪ ends ∧ m.dest ∈ s ∪ ends := by
    intro m hm
    simp only [Finset.mem_union, ends, List.mem_toFinset, List.mem_flatMap, List.mem_cons,
      List.not_mem_nil, or_false]
    exact ⟨.inr ⟨m, hm, .inl rfl⟩, .inr ⟨m, hm, .inr rfl⟩⟩
  calc ∑ a ∈ s, l'.balance a
      ≤ ∑ a ∈ s ∪ ends, l'.balance a := Finset.sum_le_sum_of_subset Finset.subset_union_left
    _ = ∑ a ∈ s ∪ ends, l.balance a := h.sum_balance hends
    _ < 2 ^ 64 := hfits _

/-- Two accounts hold less than a word together. -/
theorem SupplyFits.pair {l : Ledger σ} (h : l.SupplyFits) {a b : Pubkey} (hne : a ≠ b) :
    l.balance a + l.balance b < 2 ^ 64 := by
  have hsum := h {a, b}
  rwa [Finset.sum_pair hne] at hsum

/-! ## Transfers that do not fail -/

/-- **A transfer fails only for lack of lamports**, out of an account of System. -/
theorem transfer_of_covered {l : Ledger σ} {source : Pubkey} {lamports : UInt64} (dest : Pubkey)
    (hsystem : (l source).holding = .system) (hcovered : lamports.toNat ≤ l.balance source)
    (hfits : lamports ≠ 0 → l.SupplyFits) : ∃ l', l.transfer source dest lamports = .ok l' := by
  rw [transfer, hsystem]
  dsimp only
  cases hsub : checkedSub (l source).lamports lamports with
  | none =>
    rw [checkedSub_eq_none, UInt64.le_iff_toNat_le] at hsub
    exact absurd hcovered hsub
  | some rest =>
    rw [checkedSub_eq_some] at hsub
    dsimp only
    cases hadd : checkedAdd ((l.setLamports source rest) dest).lamports lamports with
    | some total => exact ⟨_, rfl⟩
    | none =>
      rw [checkedAdd_eq_none, ← balance, balance_setLamports] at hadd
      exfalso
      -- Paid to its source, the amount fits back where it was; paid elsewhere, both fit.
      by_cases hd : dest = source
      · rw [if_pos hd] at hadd
        have hlt := (l source).lamports.toNat_lt
        omega
      · rw [if_neg hd] at hadd
        -- Nothing needs no room, so the supply is asked about only where something is paid.
        by_cases hzero : lamports = 0
        · rw [hzero, UInt64.toNat_zero] at hadd
          have hlt := (l dest).lamports.toNat_lt
          rw [balance] at hadd
          omega
        · have hpair := (hfits hzero).pair hd
          omega

/-- What a transfer that fails says. -/
theorem transfer_eq_error {l : Ledger σ} {source dest : Pubkey} {lamports : UInt64}
    {e : SystemError}
    (hfits : l.SupplyFits) (h : l.transfer source dest lamports = .error e) :
    e = .invalidArgument ∧ (l source).holding ≠ .system ∨
      e = .resultWithNegativeLamports ∧ l.balance source < lamports.toNat := by
  by_cases hsystem : (l source).holding = .system
  · by_cases hcovered : lamports.toNat ≤ l.balance source
    · obtain ⟨l', hok⟩ := transfer_of_covered dest hsystem hcovered fun _ ↦ hfits
      rw [h] at hok
      cases hok
    · have hsub : checkedSub (l source).lamports lamports = none := by
        rw [checkedSub_eq_none, UInt64.le_iff_toNat_le]
        exact hcovered
      rw [transfer, hsystem] at h
      simp only [hsub] at h
      cases h
      exact .inr ⟨rfl, not_le.mp hcovered⟩
  · rw [transfer] at h
    split at h
    · rename_i hholding
      exact absurd hholding hsystem
    · cases h
      exact .inl ⟨rfl, hsystem⟩

theorem close_of_fits {l : Ledger σ} {account dest : Pubkey} (hne : account ≠ dest)
    (hfits : l.balance account ≠ 0 → l.SupplyFits) : ∃ l', l.close account dest = .ok l' := by
  rw [close]
  cases hadd : checkedAdd (l dest).lamports (l account).lamports with
  | some total => exact ⟨_, rfl⟩
  | none =>
    rw [checkedAdd_eq_none] at hadd
    have hlt := (l dest).lamports.toNat_lt
    have hnonzero : l.balance account ≠ 0 := by
      rw [balance]
      omega
    have hpair := (hfits hnonzero).pair hne.symm
    rw [balance, balance] at hpair
    omega

end Ledger

end Solana
