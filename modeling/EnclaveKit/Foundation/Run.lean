import Mathlib.Algebra.Order.BigOperators.Group.Finset
import Mathlib.Data.List.Induction
import Mathlib.Tactic.Common

/-!
# Runs of a labelled transition system

A transition system is a set of initial states and a labelled step relation. Its runs carry their
*trace*, the list of labels in chronological order, because the properties proved about them speak
of the past: what was done before, and what was not done since.

## Appending on the right

A run is extended at its end. History arguments then read the way they are told: the induction
hypothesis is about the past, and the last step is the present.

## The rules

- `Run.invariant`: what every step preserves holds along every run.
- `Run.split`: a label of the trace is a step of the run, with a run on each side of it.
- `Run.since`: what holds at the end and not at the start became true at some step, and has held
  since.
- `Run.simulation`: if every step maps to a step of another system, every run maps to a run of it.
- `Run.expand`: if every step is a run of a system of smaller steps, every run is.
- `Run.foldl_view`: if every step's observations fold one view into the next, the observations of a
  whole run fold the first view into the last.
- `Run.le_add_sum`: if every step that costs something takes a ticket, and none twice, a run costs
  no more than the tickets there are.
-/

/-- Initial states and labelled steps. -/
structure TransitionSystem (σ α : Type*) where
  /-- The states a run may start from. -/
  init : σ → Prop
  /-- `step s a s'`: from `s`, the action `a` may lead to `s'`. -/
  step : σ → α → σ → Prop

namespace TransitionSystem

variable {σ α β γ : Type*} (S : TransitionSystem σ α)

/-- `S.Run s₀ tr s`: the actions `tr`, in order, lead from `s₀` to `s`. -/
inductive Run (s₀ : σ) : List α → σ → Prop where
  | nil : Run s₀ [] s₀
  | snoc {tr : List α} {s s' : σ} {a : α} (run : Run s₀ tr s) (last : S.step s a s') :
      Run s₀ (tr ++ [a]) s'

/-- The states some run from an initial state ends in. -/
def Reachable (s : σ) : Prop := ∃ s₀ tr, S.init s₀ ∧ S.Run s₀ tr s

variable {S}

theorem Run.single {s s' : σ} {a : α} (h : S.step s a s') : S.Run s [a] s' :=
  show S.Run s ([] ++ [a]) s' from .snoc .nil h

theorem Run.append {s₀ s s' : σ} {tr tr' : List α} (h : S.Run s₀ tr s) (h' : S.Run s tr' s') :
    S.Run s₀ (tr ++ tr') s' := by
  induction h' with
  | nil => rwa [List.append_nil]
  | snoc run last ih =>
    rw [← List.append_assoc]
    exact ih.snoc last

theorem Run.cons {s s' s'' : σ} {a : α} {tr : List α} (h : S.step s a s') (h' : S.Run s' tr s'') :
    S.Run s (a :: tr) s'' := (Run.single h).append h'

theorem Run.eq_of_nil {s s' : σ} (h : S.Run s [] s') : s' = s := by
  generalize htr : ([] : List α) = tr at h
  cases h with
  | nil => rfl
  | snoc run last => exact absurd htr.symm (by simp)

theorem Run.of_snoc {s₀ s' : σ} {tr : List α} {a : α} (h : S.Run s₀ (tr ++ [a]) s') :
    ∃ s, S.Run s₀ tr s ∧ S.step s a s' := by
  generalize htr : tr ++ [a] = tr' at h
  cases h with
  | nil => exact absurd htr (by simp)
  | snoc run last =>
    obtain ⟨rfl, ha⟩ := List.append_inj' htr rfl
    obtain rfl : a = _ := by simpa using ha
    exact ⟨_, run, last⟩

theorem Run.of_append {s₀ s' : σ} {tr tr' : List α} (h : S.Run s₀ (tr ++ tr') s') :
    ∃ s, S.Run s₀ tr s ∧ S.Run s tr' s' := by
  induction tr' using List.reverseRecOn generalizing s' with
  | nil =>
    rw [List.append_nil] at h
    exact ⟨s', h, .nil⟩
  | append_singleton tr' a ih =>
    rw [← List.append_assoc] at h
    obtain ⟨t, hrun, hlast⟩ := h.of_snoc
    obtain ⟨s, hfst, hsnd⟩ := ih hrun
    exact ⟨s, hfst, hsnd.snoc hlast⟩

theorem Run.of_cons {s s' : σ} {a : α} {tr : List α} (h : S.Run s (a :: tr) s') :
    ∃ t, S.step s a t ∧ S.Run t tr s' := by
  obtain ⟨t, hfst, hsnd⟩ := Run.of_append (show S.Run s ([a] ++ tr) s' from h)
  obtain ⟨u, hnil, hstep⟩ := Run.of_snoc (show S.Run s ([] ++ [a]) t from hfst)
  rw [hnil.eq_of_nil] at hstep
  exact ⟨t, hstep, hsnd⟩

/-- **Splitting.** A label of the trace is a step of the run. -/
theorem Run.split {s₀ s' : σ} {xs ys : List α} {a : α} (h : S.Run s₀ (xs ++ a :: ys) s') :
    ∃ s t, S.Run s₀ xs s ∧ S.step s a t ∧ S.Run t ys s' := by
  obtain ⟨s, hxs, hys⟩ := h.of_append
  obtain ⟨t, hstep, hrest⟩ := hys.of_cons
  exact ⟨s, t, hxs, hstep, hrest⟩

theorem Run.exists_step {s₀ s' : σ} {tr : List α} {a : α} (h : S.Run s₀ tr s') (ha : a ∈ tr) :
    ∃ s t, S.step s a t := by
  obtain ⟨xs, ys, rfl⟩ := List.append_of_mem ha
  obtain ⟨s, t, -, hstep, -⟩ := h.split
  exact ⟨s, t, hstep⟩

theorem Reachable.of_init {s : σ} (h : S.init s) : S.Reachable s := ⟨s, [], h, .nil⟩

theorem Reachable.trans {s s' : σ} {tr : List α} (h : S.Reachable s) (h' : S.Run s tr s') :
    S.Reachable s' := by
  obtain ⟨s₀, pre, hinit, hrun⟩ := h
  exact ⟨s₀, pre ++ tr, hinit, hrun.append h'⟩

theorem Reachable.step {s s' : σ} {a : α} (h : S.Reachable s) (h' : S.step s a s') :
    S.Reachable s' := h.trans (Run.single h')

/-! ## Invariants -/

/-- What the steps of a run preserve, its labels being taken from its own trace. -/
theorem Run.invariant_of_mem {I : σ → Prop} {s₀ s : σ} {tr : List α} (h : S.Run s₀ tr s)
    (h₀ : I s₀) (hstep : ∀ s a s', a ∈ tr → I s → S.step s a s' → I s') : I s := by
  induction h with
  | nil => exact h₀
  | snoc run last ih =>
    refine hstep _ _ _ (by simp) (ih fun s a s' ha ↦ hstep s a s' ?_) last
    exact List.mem_append_left _ ha

/-- **Invariance.** What every step preserves holds along every run. -/
theorem Run.invariant {I : σ → Prop} {s₀ s : σ} {tr : List α} (h : S.Run s₀ tr s) (h₀ : I s₀)
    (hstep : ∀ s a s', I s → S.step s a s' → I s') : I s :=
  h.invariant_of_mem h₀ fun s a s' _ ↦ hstep s a s'

theorem Reachable.invariant {I : σ → Prop} {s : σ} (h : S.Reachable s)
    (h₀ : ∀ s, S.init s → I s) (hstep : ∀ s a s', I s → S.step s a s' → I s') : I s := by
  obtain ⟨s₀, tr, hinit, hrun⟩ := h
  exact hrun.invariant (h₀ s₀ hinit) hstep

/-! ## Restrictions -/

/-- The system without the steps that miss the condition. -/
def only (S : TransitionSystem σ α) (C : σ → α → Prop) : TransitionSystem σ α where
  init := S.init
  step s a s' := C s a ∧ S.step s a s'

theorem Run.of_only {C : σ → α → Prop} {s₀ s : σ} {tr : List α} (h : (S.only C).Run s₀ tr s) :
    S.Run s₀ tr s := by
  induction h with
  | nil => exact .nil
  | snoc run last ih => exact ih.snoc last.2

/-! ## Since -/

/-- The system confined to `P`: its steps are those that stay there. -/
def within (S : TransitionSystem σ α) (P : σ → Prop) : TransitionSystem σ α where
  init s := S.init s ∧ P s
  step s a s' := P s ∧ S.step s a s' ∧ P s'

theorem Run.of_within {P : σ → Prop} {s₀ s : σ} {tr : List α} (h : (S.within P).Run s₀ tr s) :
    S.Run s₀ tr s := by
  induction h with
  | nil => exact .nil
  | snoc run last ih => exact ih.snoc last.2.1

/-- **Since.** What holds at the end of a run and not at its start became true at one of its steps,
and has held ever since. -/
theorem Run.since {P : σ → Prop} {s₀ s : σ} {tr : List α} (h : S.Run s₀ tr s) (h₀ : ¬P s₀)
    (hs : P s) :
    ∃ xs a ys s₁ s₂, tr = xs ++ a :: ys ∧ S.Run s₀ xs s₁ ∧ ¬P s₁ ∧ S.step s₁ a s₂ ∧ P s₂ ∧
      (S.within P).Run s₂ ys s := by
  induction h with
  | nil => exact absurd hs h₀
  | @snoc tr s s' a run last ih =>
    -- It held one step earlier, and the induction knows since when, or this is the step.
    by_cases hP : P s
    · obtain ⟨xs, b, ys, s₁, s₂, rfl, hxs, h₁, hb, h₂, hys⟩ := ih hP
      exact ⟨xs, b, ys ++ [a], s₁, s₂, by simp, hxs, h₁, hb, h₂, hys.snoc ⟨hP, last, hs⟩⟩
    · exact ⟨tr, a, [], s, s', rfl, run, hP, last, hs, .nil⟩

/-! ## Simulation -/

/-- **Simulation.** Where `f` maps every step taken from a state of the invariant to a step of `T`
with the same label, it maps every run to a run of `T` with the same trace. -/
theorem Run.simulation {T : TransitionSystem γ α} {f : σ → γ} {I : σ → Prop} {s₀ s : σ}
    {tr : List α} (h : S.Run s₀ tr s) (h₀ : I s₀)
    (hstep : ∀ s a s', I s → S.step s a s' → I s')
    (hsim : ∀ s a s', I s → S.step s a s' → T.step (f s) a (f s')) : T.Run (f s₀) tr (f s) := by
  induction h with
  | nil => exact .nil
  | snoc run last ih => exact ih.snoc (hsim _ _ _ (run.invariant h₀ hstep) last)

/-- **Expansion.** Where every step is a run of `T`, with the actions `g` of its label, so is every
run. -/
theorem Run.expand {T : TransitionSystem σ β} {g : α → List β} {s₀ s : σ} {tr : List α}
    (h : S.Run s₀ tr s) (hstep : ∀ s a s', S.step s a s' → T.Run s (g a) s') :
    T.Run s₀ (tr.flatMap g) s := by
  induction h with
  | nil => exact .nil
  | snoc run last ih =>
    rw [List.flatMap_append, List.flatMap_singleton]
    exact ih.append (hstep _ _ _ last)

/-! ## Observations -/

/-- **Folding observations.** If the observations of every step taken from a state of the invariant
fold the view of that state into the view of the next, then those of a run do. -/
theorem Run.foldl_view {I : σ → Prop} {obs : α → List β} {view : σ → γ} {apply : γ → β → γ}
    {s₀ s : σ} {tr : List α} (h : S.Run s₀ tr s) (h₀ : I s₀)
    (hstep : ∀ s a s', I s → S.step s a s' → I s')
    (hview : ∀ s a s', I s → S.step s a s' → (obs a).foldl apply (view s) = view s') :
    (tr.flatMap obs).foldl apply (view s₀) = view s := by
  induction h with
  | nil => rfl
  | snoc run last ih =>
    rw [List.flatMap_append, List.foldl_append, ih]
    simpa using hview _ _ _ (run.invariant h₀ hstep) last

/-! ## Budgets -/

/-- **Budgets.** Every step keeps what is taken, and either costs nothing or takes a ticket that was
not taken and costs no more than its price. Then a run costs no more than the tickets, in whatever
order they come and however often each is tried. -/
theorem Run.le_add_sum {ι : Type*} [DecidableEq ι] {tickets : Finset ι} {taken : ι → σ → Prop}
    {value : σ → ℕ} {price : ι → ℕ} {I : σ → Prop} {s₀ s : σ} {tr : List α} (h : S.Run s₀ tr s)
    (h₀ : I s₀) (hI : ∀ s a s', I s → S.step s a s' → I s')
    (hkeeps : ∀ s a s', a ∈ tr → I s → S.step s a s' → ∀ i ∈ tickets, taken i s → taken i s')
    (htakes : ∀ s a s', a ∈ tr → I s → S.step s a s' → value s ≤ value s' ∨
      ∃ i ∈ tickets, ¬taken i s ∧ taken i s' ∧ value s ≤ value s' + price i) :
    value s₀ ≤ value s + ∑ i ∈ tickets, price i := by
  -- The tickets taken so far pay for the run so far.
  suffices h' : ∃ used ⊆ tickets, (∀ i ∈ used, taken i s) ∧
      value s₀ ≤ value s + ∑ i ∈ used, price i by
    obtain ⟨used, hused, -, hle⟩ := h'
    have hsum : ∑ i ∈ used, price i ≤ ∑ i ∈ tickets, price i :=
      Finset.sum_le_sum_of_subset hused
    omega
  induction h with
  | nil => exact ⟨∅, Finset.empty_subset tickets, by simp, by simp⟩
  | @snoc tr s s' a run last ih =>
    have hpast : ∀ b ∈ tr, b ∈ tr ++ [a] := fun b hb ↦ List.mem_append_left _ hb
    obtain ⟨used, hused, htaken, hle⟩ := ih (fun s b s' hb ↦ hkeeps s b s' (hpast b hb))
      fun s b s' hb ↦ htakes s b s' (hpast b hb)
    have hs := run.invariant h₀ hI
    have hkept : ∀ i ∈ used, taken i s' := fun i hi ↦
      hkeeps s a s' (by simp) hs last i (hused hi) (htaken i hi)
    rcases htakes s a s' (by simp) hs last with hfree | ⟨i, hi, hnew, hnow, hcost⟩
    · exact ⟨used, hused, hkept, hle.trans (Nat.add_le_add_right hfree _)⟩
    · have hfresh : i ∉ used := fun hmem ↦ hnew (htaken i hmem)
      refine ⟨insert i used, Finset.insert_subset hi hused, ?_, ?_⟩
      · intro j hj
        rcases Finset.mem_insert.mp hj with rfl | hj
        · exact hnow
        · exact hkept j hj
      · rw [Finset.sum_insert hfresh]
        omega

end TransitionSystem
