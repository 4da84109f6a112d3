import EnclaveKit.Chain.Life
import EnclaveKit.Chain.Vectors

/-!
# Nonces in sequence

One counter serves the active key and every guardian. `carried` is what a run tells of it: the
nonces of the signed instructions accepted for a wallet, in order. Over a life of the wallet they
are `0, 1, 2, …`, and the stored nonce is how many there have been.

A step either carries no nonce and leaves the counter, or carries the counter's value and leaves the
next (`WalletStep.carries`). The rest is by induction on the life.
-/

namespace EnclaveKit

open Solana TransitionSystem

/-- The nonce of a signed instruction for wallet `w`. -/
def Label.nonceFor (w : WalletId) : Label → Option ℕ
  | invoke inv _ =>
    if inv.call.walletId = w then inv.call.authorization.map (·.nonce.toNat) else none
  | external => none

/-- The nonces of the signed instructions for wallet `w`, in the order they were accepted. -/
def carried (w : WalletId) (tr : List Label) : List ℕ := tr.filterMap (Label.nonceFor w)

theorem nonceFor_confirm {w w' : WalletId} {inv : Invocation}
    (h : inv.call = .confirmRotation w') (events : List Event) :
    (Label.invoke inv events).nonceFor w = none := by
  rw [Label.nonceFor, h]
  exact ite_self _

theorem carried_append (w : WalletId) (tr tr' : List Label) :
    carried w (tr ++ tr') = carried w tr ++ carried w tr' := List.filterMap_append

/-- The nonce the next instruction has to carry. -/
def counter : Option SmartWallet → ℕ
  | some wallet => wallet.nonce.toNat
  | none => 0

section Life

variable {D : Deployment} {w : WalletId}

/-- The header carries what the counter says. -/
theorem SignedStep.nonce_eq_counter {inv : Invocation} {events : List Event}
    {before after : Option SmartWallet} (h : SignedStep D w inv events before after) :
    h.auth.nonce.toNat = counter before := by
  obtain ⟨auth, _, _, _, _, _, _, _, _, _, _, _, _, opens⟩ := h
  cases opens with
  | found nonce_eq => exact congrArg UInt64.toNat nonce_eq
  | created _ _ nonce_eq => exact congrArg UInt64.toNat nonce_eq

/-- No effect changes the nonce verification left. -/
theorem Enacts.nonce_eq {inv : Invocation} {auth : Authorization} {chain : Chain}
    {wallet after : SmartWallet} {signer : PublicKey} {moves : List Move} {event : Event}
    (h : Enacts D inv auth chain wallet signer (some after) moves event) :
    after.nonce = wallet.nonce := by
  cases h <;> rfl

/-- **One step.** It carries nothing and leaves the counter, or it carries what the counter says and
leaves the next. -/
theorem WalletStep.carries {label : Label} {before after : Option SmartWallet}
    (h : WalletStep D w before label after) :
    label.nonceFor w = none ∧ after.map (·.nonce) = before.map (·.nonce) ∨
      label.nonceFor w = some (counter before) ∧
        (∀ wallet, after = some wallet → wallet.nonce.toNat = counter before + 1) ∧
        (¬Closes w label → counter after = counter before + 1) := by
  cases h with
  | idle other =>
    left
    refine ⟨?_, rfl⟩
    cases label with
    | external => rfl
    | invoke inv events => exact if_neg fun hid ↦ other (congrArg some hid)
  | confirmed call =>
    left
    exact ⟨nonceFor_confirm call _, rfl⟩
  | @signed inv events _ _ signed =>
    right
    have hnonce := signed.nonce_eq_counter
    have hid := (Call.walletId_of_authorization signed.call_authorization).trans signed.walletId
    refine ⟨?_, fun wallet hafter ↦ ?_, fun hopen ↦ ?_⟩
    · rw [Label.nonceFor, if_pos hid, signed.call_authorization, Option.map_some, hnonce]
    · subst hafter
      rw [signed.enacts.nonce_eq, signed.nonce.2, hnonce]
    · obtain ⟨wallet, hafter, hnext⟩ := signed.survives hopen
      rw [hafter, counter, hnext, hnonce]

theorem carried_singleton (label : Label) :
    carried w [label] = (label.nonceFor w).toList := by
  cases hnonce : label.nonceFor w <;> simp [carried, hnonce]

/-- **Until the wallet is closed** the nonces are in order, and the counter says how many. -/
theorem carried_of_run {tr : List Label} {after : Option SmartWallet}
    (h : (walletSystem D w).Run none tr after) (hopen : ∀ label ∈ tr, ¬Closes w label) :
    carried w tr = List.range (counter after) := by
  induction h with
  | nil => rfl
  | @snoc tr before after label run last ih =>
    have hrange := ih fun label' hmem ↦ hopen label' (List.mem_append_left _ hmem)
    rw [carried_append, carried_singleton, hrange]
    -- Nothing is carried and the counter stands, or the counter is carried and moves on.
    rcases WalletStep.carries last with ⟨hnone, hsame⟩ | ⟨hsome, -, hnext⟩
    · have hcounter : counter after = counter before := by
        cases before <;> cases after <;> simp_all [counter]
      rw [hnone, hcounter]
      exact List.append_nil _
    · rw [hsome, hnext (hopen label (by simp)), List.range_succ]
      rfl

/-- **A whole life**, its closing included. -/
theorem carried_of_life {life : List Label} {after : Option SmartWallet}
    (h : (walletSystem D w).Run none life after)
    (hlife : ∀ label ∈ life.dropLast, ¬Closes w label) :
    carried w life = List.range (carried w life).length ∧
      ∀ wallet, after = some wallet → wallet.nonce.toNat = (carried w life).length := by
  induction life using List.reverseRecOn with
  | nil =>
    refine ⟨rfl, fun wallet hafter ↦ ?_⟩
    rw [h.eq_of_nil] at hafter
    cases hafter
  | append_singleton life label =>
    rw [List.dropLast_concat] at hlife
    obtain ⟨before, hrun, hlast⟩ := h.of_snoc
    have hrange := carried_of_run hrun hlife
    have hlength : (carried w life).length = counter before := by rw [hrange, List.length_range]
    rw [carried_append, carried_singleton]
    -- The last label may close the wallet, and even then it carries the counter there was.
    rcases WalletStep.carries hlast with ⟨hnone, hsame⟩ | ⟨hsome, hnext, -⟩
    · rw [hnone, Option.toList_none, List.append_nil, hlength]
      refine ⟨hrange, fun wallet hafter ↦ ?_⟩
      subst hafter
      cases before with
      | none => cases hsame
      | some wallet' => exact congrArg UInt64.toNat (Option.some_inj.mp hsame)
    · rw [hsome, Option.toList_some, List.length_append, List.length_singleton, hlength, hrange]
      exact ⟨List.range_succ.symm, hnext⟩

/-- In a life, the nonce of an instruction is how many came before it. -/
theorem nonce_eq_length {life : List Label}
    (h : carried w life = List.range (carried w life).length)
    {earlier later : List Label} {inv : Invocation} {events : List Event} {auth : Authorization}
    (hsplit : life = earlier ++ .invoke inv events :: later) (hw : inv.call.walletId = w)
    (hauth : inv.call.authorization = some auth) :
    auth.nonce.toNat = (carried w earlier).length := by
  have hlabel : carried w [Label.invoke inv events] = [auth.nonce.toNat] := by
    rw [carried_singleton, Label.nonceFor, if_pos hw, hauth]
    rfl
  have hcarried : carried w life
      = carried w earlier ++ auth.nonce.toNat :: carried w later := by
    rw [hsplit, carried_append, ← List.singleton_append, carried_append, hlabel]
    rfl
  have hget : (carried w life)[(carried w earlier).length]? = some auth.nonce.toNat := by
    rw [hcarried, List.getElem?_append_right le_rfl, Nat.sub_self]
    rfl
  rw [h, List.getElem?_range] at hget
  · exact (Option.some_inj.mp hget).symm
  · rw [hcarried, List.length_append, List.length_cons]
    omega

/-- The counter does not wrap: at its last value nothing signed is accepted. -/
theorem execute_ne_ok_of_max {chain : Chain} {wallet : SmartWallet} {inv : Invocation}
    {auth : Authorization} (hinv : Invariant D chain) (hdist : DistinctAddresses D w)
    (hstored : stored D chain w = some wallet) (hmax : wallet.nonce.toNat = 2 ^ 64 - 1)
    (hw : inv.call.walletId = w) (hauth : inv.call.authorization = some auth)
    (result : Chain × List Event) : execute D inv chain ≠ .ok result := by
  intro haccepted
  rcases effect_of_execute haccepted with ⟨⟨h⟩⟩ | ⟨⟨h⟩⟩
  · rw [h.walletId_eq] at hw
    subst hw
    rw [stored_eq_stateAt (h.walletAddress_eq hinv hdist), stateAt_eq_some] at hstored
    have hlt := h.spent.nonce.toNat_lt
    cases h.origin hinv with
    | found holding _ _ _ nonce_succ =>
      rw [holding] at hstored
      cases hstored
      omega
    | created holding =>
      rw [holding] at hstored
      cases hstored
  · rw [h.call] at hauth
    cases hauth

end Life

/-! ## Every life -/

/-- **Nonces in sequence.** In every life of a wallet, from where it is not there to its closing or
to the end of the run, the nonces of the signed instructions accepted for it are `0, 1, 2, …` in
order, whoever signed them; the stored nonce is how many there were; and each is accepted after
exactly as many others as its nonce says. A confirmation does not move the nonce, and the last value
is refused. -/
theorem nonces_in_sequence {D : Deployment} {w : WalletId} (hzero : NoZeroKey D)
    (hdist : DistinctAddresses D w) {chain : Chain} (hreach : (system D).Reachable chain) :
    (∀ life chain', (system D).Run chain life chain' → stored D chain w = none →
      (∀ label ∈ life.dropLast, ¬Closes w label) →
        carried w life = List.range (carried w life).length ∧ (carried w life).Nodup ∧
        (∀ wallet, stored D chain' w = some wallet →
          wallet.nonce.toNat = (carried w life).length) ∧
        ∀ earlier inv events later auth, life = earlier ++ .invoke inv events :: later →
          inv.call.walletId = w → inv.call.authorization = some auth →
            auth.nonce.toNat = (carried w earlier).length) ∧
    (∀ label time chain', Step D chain label chain' → Confirms w label time →
      (stored D chain' w).map (·.nonce) = (stored D chain w).map (·.nonce)) ∧
    ∀ wallet inv auth, stored D chain w = some wallet → wallet.nonce.toNat = 2 ^ 64 - 1 →
      inv.call.walletId = w → inv.call.authorization = some auth →
        ∀ result, execute D inv chain ≠ .ok result := by
  refine ⟨fun life chain' hrun hnone hlife ↦ ?_, fun label time chain' hstep hconfirms ↦ ?_,
    fun wallet inv auth hstored hmax hw hauth ↦
      execute_ne_ok_of_max (invariant_of_reachable hzero hreach) hdist hstored hmax hw hauth⟩
  · have hwallet := wallet_run hzero hdist hreach hrun
    rw [hnone] at hwallet
    obtain ⟨hrange, hcount⟩ := carried_of_life hwallet hlife
    refine ⟨hrange, ?_, hcount, fun earlier inv events later auth ↦ nonce_eq_length hrange⟩
    rw [hrange]
    exact List.nodup_range
  · rcases (wallet_step hzero hdist hreach hstep).carries with ⟨-, hsame⟩ | ⟨hsome, -⟩
    · exact hsame
    · obtain ⟨inv, events, rfl, hcall, -⟩ := hconfirms
      rw [nonceFor_confirm hcall] at hsome
      cases hsome

/-- A guardian's proposal comes second, and its confirmation does not count. -/
theorem nonces_in_sequence_recovered :
    carried Vectors.walletId Vectors.recovered.labels
        = List.range (carried Vectors.walletId Vectors.recovered.labels).length ∧
      Vectors.rotatedWallet.nonce.toNat
        = (carried Vectors.walletId Vectors.recovered.labels).length := by
  have hlife : ∀ label ∈ Vectors.recovered.labels.dropLast, ¬Closes Vectors.walletId label := by
    intro label hmem
    simp only [Vectors.Stage.labels, Vectors.recovered, trace, List.dropLast, List.mem_cons,
      List.not_mem_nil, or_false] at hmem
    rcases hmem with rfl | rfl <;> rintro ⟨_, _, _, _, _, ⟨⟩, hcall, -⟩ <;> cases hcall
  obtain ⟨hsequence, -⟩ := nonces_in_sequence Vectors.deployment_noZeroKey
    (Vectors.deployment_distinctAddresses _) (.of_init Vectors.genesis_init)
  obtain ⟨hrange, -, hcount, -⟩ :=
    hsequence _ _ Vectors.recovered.run (stored_of_init Vectors.genesis_init) hlife
  exact ⟨hrange, hcount _ Vectors.recovered.stored_eq⟩

end EnclaveKit
