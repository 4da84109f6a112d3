import Mathlib.Data.List.Perm.Basic

/-!
# Schedules

Actions of several owners, done one after the other on a shared state. Two lists of them have the
`SameOrder` when each owner's actions are the same, in the same order; how the owners' actions are
interleaved is left open.

Where actions of different owners commute, the interleaving does not matter. Commuting is asked for
only while a condition holds of the state and of the actions still to come (`Commutes`), which may
so speak of resources that the actions use up. Then schedules of the same order lead to one state
(`Commutes.schedule`), and every owner is answered as if it were alone (`Commutes.answers_filter`).
-/

namespace Schedule

variable {σ α β ι : Type*}

/-- Actions of different owners commute, and are answered alike, while `I` holds of the state and of
the actions to come. -/
structure Commutes (f : σ → α → σ) (out : σ → α → β) (owner : α → ι) (I : σ → List α → Prop) :
    Prop where
  perm : ∀ {s l l'}, l.Perm l' → I s l → I s l'
  step : ∀ {s a l}, I s (a :: l) → I (f s a) l
  comm : ∀ {s a b l}, I s (a :: b :: l) → owner a ≠ owner b → f (f s a) b = f (f s b) a
  out_eq : ∀ {s a b l}, I s (a :: b :: l) → owner a ≠ owner b → out (f s a) b = out s b

/-- An action goes before those of others. -/
theorem Commutes.foldl_front {f : σ → α → σ} {out : σ → α → β} {owner : α → ι}
    {I : σ → List α → Prop} {s : σ} {a : α} {p q : List α} (h : Commutes f out owner I)
    (hI : I s (p ++ a :: q)) (hothers : ∀ b ∈ p, owner b ≠ owner a) :
    (p ++ a :: q).foldl f s = (p ++ q).foldl f (f s a) := by
  induction p generalizing s with
  | nil => rfl
  | cons b p ih =>
    have hswap : I s (b :: a :: (p ++ q)) := h.perm (List.perm_middle.cons b) hI
    rw [List.cons_append, List.foldl_cons,
      ih (h.step hI) fun c hc ↦ hothers c (List.mem_cons_of_mem b hc),
      h.comm hswap (hothers b List.mem_cons_self)]
    rfl

variable [DecidableEq ι]

/-! ## Orders and answers -/

/-- The same actions, those of each owner in the same order. -/
def SameOrder (owner : α → ι) (l l' : List α) : Prop :=
  ∀ i, l.filter (owner · = i) = l'.filter (owner · = i)

/-- What the actions of `i` are answered. -/
def answers (f : σ → α → σ) (out : σ → α → β) (owner : α → ι) (i : ι) : σ → List α → List β
  | _, [] => []
  | s, a :: l =>
    if owner a = i then out s a :: answers f out owner i (f s a) l
    else answers f out owner i (f s a) l

section Answers

variable {f : σ → α → σ} {out : σ → α → β} {owner : α → ι} {i : ι}

theorem answers_append (s : σ) (l l' : List α) :
    answers f out owner i s (l ++ l')
      = answers f out owner i s l ++ answers f out owner i (l.foldl f s) l' := by
  induction l generalizing s with
  | nil => rfl
  | cons a l ih =>
    rw [List.cons_append, answers, answers, ih]
    split_ifs <;> rfl

theorem answers_eq_nil {l : List α} (h : ∀ a ∈ l, owner a ≠ i) (s : σ) :
    answers f out owner i s l = [] := by
  induction l generalizing s with
  | nil => rfl
  | cons a l ih =>
    rw [answers, if_neg (h a List.mem_cons_self)]
    exact ih (fun b hb ↦ h b (List.mem_cons_of_mem a hb)) _

end Answers

section SameOrder

variable {owner : α → ι} {l l' : List α}

theorem sameOrder_swap {a b : α} (hne : owner a ≠ owner b) :
    SameOrder owner (a :: b :: l) (b :: a :: l) := by
  intro i
  by_cases ha : owner a = i
  · have hb : owner b ≠ i := fun hb ↦ hne (ha.trans hb.symm)
    simp [ha, hb]
  · simp [List.filter_cons, ha]

/-- The first action of one schedule is in the other behind actions of others. -/
theorem SameOrder.exists_front {a : α} (h : SameOrder owner (a :: l) l') :
    ∃ p q, l' = p ++ a :: q ∧ (∀ b ∈ p, owner b ≠ owner a) ∧ SameOrder owner l (p ++ q) := by
  have hown : l'.filter (owner · = owner a) = a :: l.filter (owner · = owner a) := by
    rw [← h (owner a)]
    simp
  rw [List.filter_eq_cons_iff] at hown
  obtain ⟨p, q, rfl, hp, -, hq⟩ := hown
  have hothers : ∀ b ∈ p, owner b ≠ owner a := fun b hb ↦ by simpa using hp b hb
  refine ⟨p, q, rfl, hothers, fun i ↦ ?_⟩
  by_cases hi : owner a = i
  · subst hi
    rw [List.filter_append, List.filter_eq_nil_iff.mpr hp, List.nil_append, hq]
  · have hrest := h i
    simpa [hi] using hrest

theorem SameOrder.perm (h : SameOrder owner l l') : l.Perm l' := by
  induction l generalizing l' with
  | nil =>
    cases l' with
    | nil => exact .nil
    | cons a l' => simpa using h (owner a)
  | cons a l ih =>
    obtain ⟨p, q, rfl, -, hrest⟩ := h.exists_front
    exact ((ih hrest).cons a).trans List.perm_middle.symm

/-- The actions of `i` may all go first. -/
theorem sameOrder_filter (owner : α → ι) (i : ι) (l : List α) :
    SameOrder owner l (l.filter (owner · = i) ++ l.filter (owner · ≠ i)) := by
  intro j
  rw [List.filter_append, List.filter_filter, List.filter_filter]
  by_cases hj : j = i
  · subst hj
    have hnone : l.filter (fun a ↦ decide (owner a = j) && decide (owner a ≠ j)) = [] :=
      List.filter_eq_nil_iff.mpr (by simp)
    rw [hnone]
    simp
  · have hnone : l.filter (fun a ↦ decide (owner a = j) && decide (owner a = i)) = [] := by
      refine List.filter_eq_nil_iff.mpr fun a _ ↦ ?_
      simp only [Bool.and_eq_true, decide_eq_true_eq]
      exact fun ⟨ha, ha'⟩ ↦ hj (ha.symm.trans ha')
    rw [hnone, List.nil_append]
    refine List.filter_congr fun a _ ↦ ?_
    by_cases ha : owner a = j
    · simp [ha, hj]
    · simp [ha]

end SameOrder

namespace Commutes

variable {f : σ → α → σ} {out : σ → α → β} {owner : α → ι} {I : σ → List α → Prop} {s : σ}
  (h : Commutes f out owner I)

include h

/-- An action that goes before those of others is not noticed. -/
theorem answers_front {a : α} {p q : List α} (hI : I s (p ++ a :: q))
    (hothers : ∀ b ∈ p, owner b ≠ owner a) (i : ι) :
    answers f out owner i s (p ++ a :: q) = answers f out owner i s (a :: (p ++ q)) := by
  induction p generalizing s with
  | nil => rfl
  | cons b p ih =>
    have hswap : I s (b :: a :: (p ++ q)) := h.perm (List.perm_middle.cons b) hI
    have hne := hothers b List.mem_cons_self
    have hfirst : out (f s b) a = out s a := h.out_eq hswap hne
    have hsecond : out (f s a) b = out s b :=
      h.out_eq (h.perm (List.Perm.swap a b _) hswap) hne.symm
    have hstate := h.comm hswap hne
    have hrest := ih (h.step hI) fun c hc ↦ hothers c (List.mem_cons_of_mem b hc)
    simp only [List.cons_append, answers, hrest, hfirst, hsecond, hstate]
    -- The two have different owners, so at most one is answered here.
    by_cases hb : owner b = i
    · have ha : owner a ≠ i := fun ha ↦ hne (hb.trans ha.symm)
      simp only [if_pos hb, if_neg ha]
    · simp only [if_neg hb]

/-! ## Whole schedules -/

/-- **One state and the same answers**, in every schedule of the same order. -/
theorem schedule {l l' : List α} (hsame : SameOrder owner l l') (hI : I s l) :
    l.foldl f s = l'.foldl f s ∧ ∀ i, answers f out owner i s l = answers f out owner i s l' := by
  induction l generalizing s l' with
  | nil =>
    rw [List.nil_perm.mp hsame.perm]
    exact ⟨rfl, fun _ ↦ rfl⟩
  | cons a l ih =>
    have hI' := h.perm hsame.perm hI
    obtain ⟨p, q, rfl, hothers, hrest⟩ := hsame.exists_front
    obtain ⟨hstate, hanswers⟩ := ih hrest (h.step hI)
    refine ⟨?_, fun i ↦ ?_⟩
    · rw [List.foldl_cons, hstate, h.foldl_front hI' hothers]
    · rw [h.answers_front hI' hothers, answers, answers, hanswers]

/-- **As if alone.** An owner is answered what it would be without the others. -/
theorem answers_filter {l : List α} (hI : I s l) (i : ι) :
    answers f out owner i s l = answers f out owner i s (l.filter (owner · = i)) := by
  have hothers : ∀ a ∈ l.filter (owner · ≠ i), owner a ≠ i := by
    intro a ha
    simpa using (List.mem_filter.mp ha).2
  rw [(h.schedule (sameOrder_filter owner i l) hI).2 i, answers_append, answers_eq_nil hothers,
    List.append_nil]

end Commutes

end Schedule
