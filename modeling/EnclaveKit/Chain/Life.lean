import EnclaveKit.Chain.Wallet

/-!
# A wallet's life

A life begins with the action that creates the wallet and ends with the `close_wallet` that gives
its state up. Within a life the nonce only grows, and the key changes in two ways; over a closing
nothing is kept.

The facts are about the machine of one wallet. Each is a step lemma and the run lemma that follows
from it.
-/

namespace EnclaveKit

open Solana TransitionSystem

variable {D : Deployment} {w : WalletId}

/-! ## What a signed step does to the nonce -/

/-- The header carries the nonce there was, and verification leaves the next. -/
theorem SignedStep.nonce {inv : Invocation} {events : List Event}
    {before after : Option SmartWallet} (h : SignedStep D w inv events before after) :
    (∀ wallet, before = some wallet → h.auth.nonce = wallet.nonce) ∧
      h.spent.nonce.toNat = h.auth.nonce.toNat + 1 := by
  obtain ⟨auth, _, _, spent, _, _, _, _, _, _, _, _, _, opens⟩ := h
  cases opens with
  | found nonce_eq nonce_succ =>
    refine ⟨fun wallet h ↦ ?_, ?_⟩
    · rw [← Option.some_inj.mp h]
      exact nonce_eq
    · change spent.nonce.toNat = auth.nonce.toNat + 1
      rw [nonce_succ, nonce_eq]
  | created _ _ nonce_eq =>
    refine ⟨by simp, ?_⟩
    change (1 : UInt64).toNat = auth.nonce.toNat + 1
    rw [nonce_eq]
    rfl

/-! ## Closing -/

/-- The end of a life of wallet `w`. -/
def Closes (w : WalletId) (label : Label) : Prop :=
  ∃ inv events auth dest relayerFee, label = .invoke inv events ∧
    inv.call = .closeWallet auth dest relayerFee ∧ auth.walletId = w

/-- Only `close_wallet` leaves no wallet, and no effect changes the nonce verification left. -/
theorem Enacts.nonce {inv : Invocation} {auth : Authorization} {chain : Chain}
    {wallet : SmartWallet} {after : Option SmartWallet} {signer : PublicKey} {moves : List Move}
    {event : Event} (h : Enacts D inv auth chain wallet signer after moves event) :
    (∃ dest relayerFee, inv.call = .closeWallet auth dest relayerFee) ∨
      ∃ wallet', after = some wallet' ∧ wallet'.nonce = wallet.nonce := by
  cases h with
  | closeWallet call => exact .inl ⟨_, _, call⟩
  | transferSol | sweepVault | setGuardians | cancelRotation | rotate | propose =>
    exact .inr ⟨_, rfl, rfl⟩

theorem SignedStep.survives {inv : Invocation} {events : List Event}
    {before after : Option SmartWallet} (h : SignedStep D w inv events before after)
    (hopen : ¬Closes w (.invoke inv events)) :
    ∃ wallet, after = some wallet ∧ wallet.nonce.toNat = h.auth.nonce.toNat + 1 := by
  rcases h.enacts.nonce with ⟨dest, relayerFee, call⟩ | ⟨wallet, hafter, hnonce⟩
  · exact absurd ⟨_, _, _, _, _, rfl, call, h.walletId⟩ hopen
  · exact ⟨wallet, hafter, by rw [hnonce, h.nonce.2]⟩

/-- **One step.** A wallet that is not closed is there afterwards, and its nonce is no less. -/
theorem WalletStep.survives {label : Label} {wallet : SmartWallet} {after : Option SmartWallet}
    (h : WalletStep D w (some wallet) label after) (hopen : ¬Closes w label) :
    ∃ wallet', after = some wallet' ∧ wallet.nonce.toNat ≤ wallet'.nonce.toNat := by
  cases h with
  | idle => exact ⟨wallet, rfl, le_rfl⟩
  | signed signed =>
    obtain ⟨wallet', hafter, hnonce⟩ := signed.survives hopen
    refine ⟨wallet', hafter, ?_⟩
    rw [hnonce, signed.nonce.1 wallet rfl]
    exact Nat.le_succ _
  | confirmed => exact ⟨_, rfl, le_rfl⟩

/-- **Within a life the nonce only grows.** -/
theorem survives_of_run {tr : List Label} {wallet : SmartWallet} {after : Option SmartWallet}
    (h : (walletSystem D w).Run (some wallet) tr after) (hopen : ∀ label ∈ tr, ¬Closes w label) :
    ∃ wallet', after = some wallet' ∧ wallet.nonce.toNat ≤ wallet'.nonce.toNat := by
  induction h with
  | nil => exact ⟨wallet, rfl, le_rfl⟩
  | @snoc tr before after label run last ih =>
    obtain ⟨wallet₁, rfl, hle₁⟩ := ih fun label' hmem ↦ hopen label' (List.mem_append_left _ hmem)
    obtain ⟨wallet₂, hafter, hle₂⟩ := WalletStep.survives last (hopen label (by simp))
    exact ⟨wallet₂, hafter, hle₁.trans hle₂⟩

/-- A wallet that is gone was closed. -/
theorem closed_of_run {tr : List Label} {wallet : SmartWallet}
    (h : (walletSystem D w).Run (some wallet) tr none) : ∃ label ∈ tr, Closes w label := by
  by_contra hnone
  obtain ⟨_, hsome, -⟩ := survives_of_run h fun label hmem hcloses ↦ hnone ⟨label, hmem, hcloses⟩
  cases hsome

/-! ## The key -/

/-- The owner hands the wallet over: the active key signs for the next. -/
def HandsOver (w : WalletId) (label : Label) (activeKey newKey : PublicKey) : Prop :=
  ∃ inv events auth relayerFee, label = .invoke inv events ∧
    inv.call = .proposeRotation auth newKey relayerFee ∧ auth.walletId = w ∧
    inv.signer = some activeKey

/-- A confirmation for wallet `w`, at a time. -/
def Confirms (w : WalletId) (label : Label) (time : Int64) : Prop :=
  ∃ inv events, label = .invoke inv events ∧ inv.call = .confirmRotation w ∧
    inv.sysvars.unixTimestamp = time

/-- An effect leaves the key of the wallet or hands it over. -/
theorem Enacts.activeKey {inv : Invocation} {auth : Authorization} {chain : Chain}
    {wallet after : SmartWallet} {signer : PublicKey} {moves : List Move} {event : Event}
    (h : Enacts D inv auth chain wallet signer (some after) moves event) :
    after.activeKey = wallet.activeKey ∨
      signer = wallet.activeKey ∧
        ∃ relayerFee, inv.call = .proposeRotation auth after.activeKey relayerFee := by
  cases h with
  | transferSol | sweepVault | setGuardians | cancelRotation | propose => exact .inl rfl
  | rotate call _ owner => exact .inr ⟨owner, _, call⟩

/-- A step that changes the key of a wallet hands it over or confirms a proposal. -/
theorem WalletStep.activeKey {label : Label} {before after : SmartWallet}
    (h : WalletStep D w (some before) label (some after))
    (hchanged : after.activeKey ≠ before.activeKey) :
    HandsOver w label before.activeKey after.activeKey ∨ ∃ time, Confirms w label time := by
  cases h with
  | idle => exact absurd rfl hchanged
  | signed signed =>
    obtain ⟨auth, _, signer, spent, _, _, _, _, _, hpayload, hid, _, _, opens, _, enacts, _⟩ :=
      signed
    have hsigner := Invocation.signer_of_payload hpayload
    obtain ⟨hkey, -, -⟩ := opens.kept
    rcases enacts.activeKey with hsame | ⟨howner, relayerFee, call⟩
    · exact absurd (hsame.trans hkey) hchanged
    · left
      rw [← hkey, ← howner]
      exact ⟨_, _, auth, relayerFee, rfl, call, hid, hsigner⟩
  | confirmed call => exact .inr ⟨_, _, _, rfl, call, rfl⟩

/-- A step after which there is a wallet where there was none creates it, for the key that signs. -/
theorem WalletStep.creates {label : Label} {wallet : SmartWallet}
    (h : WalletStep D w none label (some wallet)) :
    ∃ inv events, label = .invoke inv events ∧ inv.call.walletId = w ∧
      inv.call.mayCreate = true ∧ inv.signer = some wallet.activeKey ∧
      D.sha256 wallet.activeKey.toList = w := by
  cases h with
  | @signed inv events _ _ signed =>
    obtain ⟨auth, _, signer, spent, _, _, _, hauth, _, hpayload, rfl, _, _, opens, _, enacts, _⟩ :=
      signed
    cases opens with
    | created mayCreate creator =>
      obtain ⟨_, hsame, hkey⟩ := enacts.after_of_mayCreate mayCreate
      obtain rfl := Option.some_inj.mp hsame
      rw [hkey]
      exact ⟨inv, events, rfl, Call.walletId_of_authorization hauth, mayCreate,
        Invocation.signer_of_payload hpayload, creator⟩

end EnclaveKit
