import EnclaveKit.Foundation.MachineInt
import Mathlib.Algebra.BigOperators.Group.List.Basic
import Mathlib.Data.Vector.Defs
import Mathlib.Logic.Function.Basic
import Mathlib.Tactic.Abel

/-!
# The account ledger

Accounts as one program sees them: an address holds lamports, and is owned by System, by the
program, or by somebody else. An account that does not exist is an account of System holding
nothing, which is also how the runtime presents it.

The program's own states are kept decoded, as values of an arbitrary type `σ`. How they are encoded
is a separate matter, settled where the encoding is.

## Moves

What an instruction does to balances is described by the list of its *moves*, each taking lamports
from one address to another. The description is exact in the signed integers and indifferent to
aliasing: a move from an address to itself is a move, and nets to nothing. `Moved` says that a list
of moves accounts for the whole difference between two ledgers, and composes by appending.
-/

namespace Solana

open MachineInt

/-- An address. -/
abbrev Pubkey := Vector UInt8 32

/-- Who owns an account, and the state it holds if the program does. -/
inductive Holding (σ : Type) where
  /-- System owns it and it has no data. Accounts that do not exist are of this kind. -/
  | system
  /-- The program owns it and wrote `state` to it. -/
  | owned (state : σ)
  /-- Anything else: another program's, or data the program did not write. -/
  | foreign
  deriving DecidableEq

structure Account (σ : Type) where
  lamports : UInt64
  holding : Holding σ

/-- All accounts, by address. -/
abbrev Ledger (σ : Type) := Pubkey → Account σ

namespace Ledger

variable {σ : Type}

/-- The balance of an address, as a number. -/
def balance (l : Ledger σ) (a : Pubkey) : ℕ := (l a).lamports.toNat

def setLamports (l : Ledger σ) (a : Pubkey) (n : UInt64) : Ledger σ :=
  Function.update l a { l a with lamports := n }

def setHolding (l : Ledger σ) (a : Pubkey) (h : Holding σ) : Ledger σ :=
  Function.update l a { l a with holding := h }

@[simp] theorem holding_setLamports (l : Ledger σ) (a b : Pubkey) (n : UInt64) :
    (l.setLamports a n b).holding = (l b).holding := by
  rw [setLamports, Function.update_apply]
  split_ifs with h
  · rw [h]
  · rfl

theorem balance_setLamports (l : Ledger σ) (a b : Pubkey) (n : UInt64) :
    (l.setLamports a n).balance b = if b = a then n.toNat else l.balance b := by
  rw [balance, setLamports, Function.update_apply]
  split_ifs <;> rfl

@[simp] theorem balance_setHolding (l : Ledger σ) (a b : Pubkey) (h : Holding σ) :
    (l.setHolding a h).balance b = l.balance b := by
  rw [balance, setHolding, Function.update_apply]
  split_ifs with hb
  · rw [hb]
    rfl
  · rfl

theorem holding_setHolding (l : Ledger σ) (a b : Pubkey) (h : Holding σ) :
    (l.setHolding a h b).holding = if b = a then h else (l b).holding := by
  rw [setHolding, Function.update_apply]
  split_ifs <;> rfl

@[simp] theorem holding_setHolding_self (l : Ledger σ) (a : Pubkey) (h : Holding σ) :
    (l.setHolding a h a).holding = h := by
  rw [holding_setHolding, if_pos rfl]

theorem holding_setHolding_of_ne (l : Ledger σ) {a b : Pubkey} (h : Holding σ) (hb : b ≠ a) :
    (l.setHolding a h b).holding = (l b).holding := by
  rw [holding_setHolding, if_neg hb]

/-- An account is its balance and its holding. -/
theorem account_eq {l l' : Ledger σ} {a : Pubkey} (hbalance : l'.balance a = l.balance a)
    (hholding : (l' a).holding = (l a).holding) : l' a = l a := by
  rw [balance, balance, UInt64.toNat_inj] at hbalance
  calc l' a = ⟨(l' a).lamports, (l' a).holding⟩ := rfl
    _ = ⟨(l a).lamports, (l a).holding⟩ := by rw [hbalance, hholding]

end Ledger

/-! ## Moves -/

/-- Lamports going from one address to another. -/
structure Move where
  source : Pubkey
  dest : Pubkey
  lamports : ℕ
  deriving DecidableEq

/-- What a move adds to the balance of `a`. -/
def Move.net (m : Move) (a : Pubkey) : ℤ :=
  (if a = m.dest then (m.lamports : ℤ) else 0) - (if a = m.source then (m.lamports : ℤ) else 0)

/-- What a list of moves adds to the balance of `a`. -/
def netChange (ms : List Move) (a : Pubkey) : ℤ := (ms.map (Move.net · a)).sum

@[simp] theorem netChange_nil (a : Pubkey) : netChange [] a = 0 := rfl

@[simp] theorem netChange_cons (m : Move) (ms : List Move) (a : Pubkey) :
    netChange (m :: ms) a = m.net a + netChange ms a := by
  rw [netChange, List.map_cons, List.sum_cons, netChange]

@[simp] theorem netChange_append (ms ms' : List Move) (a : Pubkey) :
    netChange (ms ++ ms') a = netChange ms a + netChange ms' a := by
  rw [netChange, List.map_append, List.sum_append, netChange, netChange]

/-- An address no move takes from does not lose. -/
theorem netChange_nonneg {ms : List Move} {a : Pubkey} (h : ∀ m ∈ ms, m.source ≠ a) :
    0 ≤ netChange ms a := by
  induction ms with
  | nil => simp
  | cons m ms ih =>
    have hm : a ≠ m.source := (h m List.mem_cons_self).symm
    have hnet : 0 ≤ m.net a := by
      rw [Move.net, if_neg hm]
      split_ifs <;> omega
    have hrest := ih fun m' hm' ↦ h m' (List.mem_cons_of_mem m hm')
    rw [netChange_cons]
    omega

/-- An address no move touches keeps its balance. -/
theorem netChange_eq_zero {ms : List Move} {a : Pubkey}
    (h : ∀ m ∈ ms, m.source ≠ a ∧ m.dest ≠ a) : netChange ms a = 0 := by
  induction ms with
  | nil => rfl
  | cons m ms ih =>
    obtain ⟨hs, hd⟩ := h m List.mem_cons_self
    rw [netChange_cons, ih fun m' hm' ↦ h m' (List.mem_cons_of_mem m hm'), Move.net,
      if_neg hs.symm, if_neg hd.symm]
    rfl

namespace Ledger

variable {σ : Type}

/-- The moves `ms` account for every balance of `l'`, given those of `l`. -/
def Moved (l : Ledger σ) (ms : List Move) (l' : Ledger σ) : Prop :=
  ∀ a, (l'.balance a : ℤ) = l.balance a + netChange ms a

theorem Moved.refl (l : Ledger σ) : Moved l [] l := fun a ↦ by simp

theorem Moved.trans {l l' l'' : Ledger σ} {ms ms' : List Move} (h : Moved l ms l')
    (h' : Moved l' ms' l'') : Moved l (ms ++ ms') l'' := by
  intro a
  rw [h' a, h a, netChange_append]
  abel

theorem Moved.setHolding {l l' : Ledger σ} {ms : List Move} (h : Moved l ms l') (a : Pubkey)
    (x : Holding σ) : Moved l ms (l'.setHolding a x) := by
  intro b
  rw [balance_setHolding]
  exact h b

/-! ## The System transfer -/

end Ledger

/-- The reasons System refuses a transfer. -/
inductive SystemError where
  /-- The source carries data or is not System's. -/
  | invalidArgument
  /-- The source does not hold the amount. -/
  | resultWithNegativeLamports
  /-- The destination would exceed a word. -/
  | arithmeticOverflow
  deriving DecidableEq

namespace Ledger

variable {σ : Type}

/-- Debits the source, then credits the destination. -/
def transfer (l : Ledger σ) (source dest : Pubkey) (lamports : UInt64) :
    Except SystemError (Ledger σ) :=
  match (l source).holding with
  | .system =>
    match checkedSub (l source).lamports lamports with
    | none => .error .resultWithNegativeLamports
    | some rest =>
      let debited := l.setLamports source rest
      match checkedAdd (debited dest).lamports lamports with
      | none => .error .arithmeticOverflow
      | some total => .ok (debited.setLamports dest total)
  | _ => .error .invalidArgument

/-- **A transfer moves exactly the amount or fails**, and touches nothing but the two balances. -/
theorem transfer_eq_ok {l l' : Ledger σ} {source dest : Pubkey} {lamports : UInt64}
    (h : l.transfer source dest lamports = .ok l') :
    (l source).holding = .system ∧ lamports.toNat ≤ l.balance source ∧
      Moved l [⟨source, dest, lamports.toNat⟩] l' ∧ ∀ a, (l' a).holding = (l a).holding := by
  rw [transfer] at h
  split at h
  · rename_i hsystem
    split at h
    · cases h
    · rename_i rest hrest
      rw [checkedSub_eq_some] at hrest
      dsimp only at h
      split at h
      · cases h
      · rename_i total htotal
        rw [checkedAdd_eq_some, ← balance, balance_setLamports] at htotal
        cases h
        refine ⟨hsystem, by rw [balance]; omega, fun a ↦ ?_, fun a ↦ by simp⟩
        rw [balance_setLamports, balance_setLamports, netChange_cons, netChange_nil, Move.net]
        have hsource : l.balance source = lamports.toNat + rest.toNat := hrest
        -- The credit is read after the debit, so aliasing needs no case of its own.
        by_cases hd : a = dest <;> by_cases hs : a = source
        · subst hd
          subst hs
          rw [if_pos rfl] at htotal
          simp only [↓reduceIte]
          omega
        · subst hd
          rw [if_neg hs] at htotal
          simp only [↓reduceIte, if_neg hs]
          omega
        · subst hs
          simp only [↓reduceIte, if_neg hd]
          omega
        · simp only [if_neg hd, if_neg hs]
          omega
  · cases h

/-- Empties `account` into `dest` and gives it back to System. -/
def close (l : Ledger σ) (account dest : Pubkey) : Except SystemError (Ledger σ) :=
  match checkedAdd (l dest).lamports (l account).lamports with
  | none => .error .arithmeticOverflow
  | some total =>
    .ok (((l.setLamports dest total).setLamports account 0).setHolding account .system)

theorem close_eq_ok {l l' : Ledger σ} {account dest : Pubkey} (hne : account ≠ dest)
    (h : l.close account dest = .ok l') :
    Moved l [⟨account, dest, l.balance account⟩] l' ∧ (l' account).holding = .system ∧
      ∀ a, a ≠ account → (l' a).holding = (l a).holding := by
  rw [close] at h
  split at h
  · cases h
  · rename_i total htotal
    rw [checkedAdd_eq_some] at htotal
    cases h
    refine ⟨fun a ↦ ?_, by simp, fun a ha ↦ by simp [holding_setHolding_of_ne _ _ ha]⟩
    rw [balance_setHolding, balance_setLamports, balance_setLamports, netChange_cons,
      netChange_nil, Move.net]
    have hdest : total.toNat = l.balance dest + l.balance account := htotal
    by_cases hd : a = dest
    · subst hd
      simp only [↓reduceIte, if_neg hne.symm]
      omega
    · by_cases hs : a = account
      · subst hs
        simp only [↓reduceIte, if_neg hd, UInt64.toNat_zero]
        omega
      · simp only [if_neg hd, if_neg hs]
        omega

end Ledger

end Solana
