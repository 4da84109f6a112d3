import EnclaveKit.Client.Published
import EnclaveKit.Properties.Acceptance

/-!
# From the client to the chain

What the client builds and what the program checks are written apart, and agree. The pair a request
signs is a transaction, and what is left to decide whether both its instructions succeed is not in
the pair: the wallet there is, its nonce, the clock, and what the vault holds. There is nothing a
client could get wrong in between, no check that its pair fails in every state, and none it passes
by accident.

The runtime then looks at the rent of the accounts. That is not the program's to decide, but the
program keeps the wallet's own account out of it: only what the vault, the relayer and the
destination are left with can still undo the pair.
-/

namespace EnclaveKit

open Solana EnclaveRequest LawfulEnclaveRequest

/-- The wallet a call signed by a key meets on chain: the one it is for, or the one it makes. -/
inductive Meets (D : Deployment) (call : Call) (auth : Authorization) (key : EnclaveKey)
    (relayer : Pubkey) (chain : Chain) : SmartWallet → Prop where
  /-- It is there, and the nonce is its nonce. -/
  | found {wallet : SmartWallet} (stored_eq : stored D chain auth.walletId = some wallet)
      (nonce : auth.nonce = wallet.nonce) (room : wallet.nonce.toNat + 1 < 2 ^ 64) :
      Meets D call auth key relayer chain wallet
  /-- It is not, the call may make it for this key, and the relayer can advance its rent. -/
  | first {bumps : Bumps} {a v : Pubkey} (mayCreate : call.mayCreate = true)
      (creator : key.walletId D = auth.walletId) (nonce : auth.nonce = 0)
      (walletFound : D.findProgramAddress [WALLET_SEED, auth.walletId.toList] ID
        = some (a, bumps.wallet))
      (vaultFound : D.findProgramAddress [VAULT_SEED, auth.walletId.toList] ID
        = some (v, bumps.vault))
      (vacant : (chain a).holding = .system) (vaultSystem : (chain v).holding = .system)
      (advances : Advances D ⟨a, v, relayer, true⟩ chain) :
      Meets D call auth key relayer chain
        (SmartWallet.created auth.walletId key.compressedPubkey bumps)

/-! ## The pair -/

section Pair

variable {D : Deployment} {call : Call} {auth : Authorization} {action : Encoding.Action}
  {key : EnclaveKey} {relayer wallet vault : Pubkey} {now : Int64} {chain : Chain}

/-- The program reads back what was signed. -/
theorem payload_pairInvocation {message : List UInt8} (accounts : Accounts)
    (hauth : call.authorization = some auth) (hlength : message.length < 65536) :
    (pairInvocation key message accounts call now).payload
      = some ⟨key.compressedPubkey, message⟩ := by
  have hload := load_newSecp256r1Instruction (key.sign message) key.compressedPubkey hlength
  have hcall : (pairInvocation key message accounts call now).call.authorization = some auth :=
    hauth
  have hprevious : (pairInvocation key message accounts call now).sysvars.previous
      = some (newSecp256r1Instruction message (key.sign message) key.compressedPubkey) := rfl
  rw [Invocation.payload, hcall, hprevious, hload]

theorem admitted_pairInvocation {message : List UInt8} {accounts : Accounts}
    (hlength : message.length < 65536) (hkey : key.SignsFor D message)
    (hrelayer : ¬D.IsDerived ID accounts.relayer) :
    Admitted D (pairInvocation key message accounts call now) where
  signer _ := hrelayer
  verified ix signature hix _ := by
    obtain rfl := Option.some_inj.mp hix
    exact verifies_precompileInstruction hlength hkey signature

/-- **The client's part is done.** Of what a signed instruction is judged by, the pair leaves the
clock and the wallet it meets. -/
theorem opening_pair_iff {signer : PublicKey} {found : SmartWallet}
    (hwallet : walletAddress D auth.walletId = some wallet)
    (hvault : vaultAddress D auth.walletId = some vault) (hauth : call.authorization = some auth)
    (haction : call.action = some action)
    (hlength : (auth.preimage action).toBytes.length < 65536) :
    Opening D auth.walletId
        (pairInvocation key (auth.preimage action).toBytes ⟨wallet, vault, relayer, true⟩ call now)
        auth signer chain found ↔
      signer = key.compressedPubkey ∧ now < auth.expiresAt ∧
        Meets D call auth key relayer chain found := by
  have hmessage : call.message = some (auth.preimage action).toBytes := by
    rw [Call.message, hauth, haction]
    rfl
  have hpayload : (pairInvocation key (auth.preimage action).toBytes ⟨wallet, vault, relayer, true⟩
      call now).payload = some ⟨key.compressedPubkey, (auth.preimage action).toBytes⟩ :=
    payload_pairInvocation _ hauth hlength
  have hpresented : ∀ wallet', auth.nonce = SmartWallet.nonce wallet' → now < auth.expiresAt →
      Presented D auth.walletId wallet' (pairInvocation key (auth.preimage action).toBytes
        ⟨wallet, vault, relayer, true⟩ call now) auth key.compressedPubkey :=
    fun wallet' hnonce hunexpired ↦ ⟨hwallet, hvault, rfl, hauth, rfl, hnonce, hunexpired,
      _, hmessage, hpayload⟩
  have hsigner : ∀ wallet', Presented D auth.walletId wallet' (pairInvocation key
      (auth.preimage action).toBytes ⟨wallet, vault, relayer, true⟩ call now) auth signer →
      signer = key.compressedPubkey := by
    rintro wallet' ⟨-, -, -, -, -, -, -, message, -, hsigned⟩
    rw [hpayload, Option.some_inj] at hsigned
    exact (congrArg SignedPayload.pubkey hsigned).symm
  constructor
  · rintro (⟨hstored, hpres, hroom⟩ | ⟨hfirst⟩)
    · exact ⟨hsigner _ hpres, hpres.unexpired, .found hstored hpres.nonce hroom⟩
    · obtain rfl := hsigner _ hfirst.toPresented
      exact ⟨rfl, hfirst.unexpired, .first hfirst.mayCreate hfirst.creator hfirst.nonce
        hfirst.walletFound hfirst.vaultFound hfirst.vacant hfirst.vaultSystem hfirst.advances⟩
  · rintro ⟨rfl, hunexpired, hmeets⟩
    cases hmeets with
    | found hstored hnonce hroom => exact .found hstored (hpresented _ hnonce hunexpired) hroom
    | @first bumps a v mayCreate creator nonce walletFound vaultFound vacant vaultSystem advances =>
      obtain rfl : a = wallet :=
        Option.some_inj.mp ((walletAddress_eq_some.mpr ⟨_, walletFound⟩).symm.trans hwallet)
      obtain rfl : v = vault :=
        Option.some_inj.mp ((vaultAddress_eq_some.mpr ⟨_, vaultFound⟩).symm.trans hvault)
      exact .first {
        hpresented (SmartWallet.created auth.walletId key.compressedPubkey bumps) nonce
          hunexpired with
        mayCreate := mayCreate
        creator := creator
        walletFound := walletFound
        vaultFound := vaultFound
        vacant := vacant
        vaultSystem := vaultSystem
        advances := advances }

end Pair

/-! ## Requests -/

section Request

variable {ρ : Type} [EnclaveRequest ρ] [LawfulEnclaveRequest ρ] {D : Deployment} {request : ρ}
  {key : EnclaveKey} {relayer vault : Pubkey} {ixs : List TransactionInstruction} {now : Int64}
  {chain : Chain}

theorem sign_eq_some (h : sign D request key relayer = some ixs) :
    ∃ wallet vault authority, walletAddress D (authorization request).walletId = some wallet ∧
      vaultAddress D (authorization request).walletId = some vault ∧
      eventAuthority D = some authority ∧
      ixs = [key.precompileInstruction (preimage request),
        (call request).instruction ⟨wallet, vault, relayer, true⟩ authority] := by
  have hid := Call.walletId_of_authorization (call_authorization request)
  rw [sign, instruction_eq, Option.map_eq_some_iff] at h
  obtain ⟨ix, hix, rfl⟩ := h
  rw [requestInstruction, hid] at hix
  simp only [Option.bind_eq_bind, Option.bind_eq_some_iff, Option.some_inj] at hix
  obtain ⟨wallet, hwallet, vault, hvault, authority, hauthority, rfl⟩ := hix
  exact ⟨wallet, vault, authority, hwallet, hvault, hauthority, rfl⟩

/-- The generator of the vectors builds the same instruction, from what is signed. -/
theorem programInstruction_eq (D : Deployment) (request : ρ) (relayer : Pubkey) :
    programInstruction D relayer (authorization request) (call request).relayerFee (action request)
      = EnclaveRequest.instruction D request relayer := by
  have hcall := Call.ofAction_eq_some.mpr
    ⟨call_authorization request, call_action request, rfl⟩
  rw [programInstruction, hcall, Option.bind_some, instruction_eq]

/-- The signed pair commits when the policy allows it. -/
theorem commits_sign_iff (hzero : NoZeroKey D)
    (hdist : DistinctAddresses D (authorization request).walletId)
    (hreach : (system D).Reachable chain) (hfits : chain.SupplyFits)
    (hrelayer : ¬D.IsDerived ID relayer) (hkey : key.SignsFor D (preimage request))
    (hvault : vaultAddress D (authorization request).walletId = some vault)
    (hsign : sign D request key relayer = some ixs) :
    (∃ tr record chain', Commits D now none ixs chain tr record chain') ↔
      now < (authorization request).expiresAt ∧ ∃ wallet,
        Meets D (call request) (authorization request) key relayer chain wallet ∧
        Entitles D (call request) wallet key.compressedPubkey now ∧
        Covers D (call request) (authorization request) (chain.balance vault) := by
  have hauth := call_authorization request
  have hlength := length_preimage_lt request
  obtain ⟨wallet, vault', authority, hwallet, hvault', hauthority, rfl⟩ := sign_eq_some hsign
  obtain rfl := Option.some_inj.mp (hvault.symm.trans hvault')
  rw [commits_pair_iff hauthority hauth hlength hkey hrelayer,
    accepts_signed_iff hzero hdist hreach (admitted_pairInvocation hlength hkey hrelayer) hfits
      hauth]
  have hopening : ∀ signer found, Opening D (authorization request).walletId
      (pairInvocation key (preimage request) ⟨wallet, vault, relayer, true⟩ (call request) now)
      (authorization request) signer chain found ↔ signer = key.compressedPubkey ∧
        now < (authorization request).expiresAt ∧
        Meets D (call request) (authorization request) key relayer chain found :=
    fun signer found ↦ opening_pair_iff hwallet hvault hauth (call_action request) hlength
  constructor
  · rintro ⟨signer, found, hopen, hallowed⟩
    obtain ⟨rfl, hunexpired, hmeets⟩ := (hopening signer found).mp hopen
    exact ⟨hunexpired, found, hmeets, hallowed⟩
  · rintro ⟨hunexpired, found, hmeets, hallowed⟩
    exact ⟨key.compressedPubkey, found, (hopening _ found).mpr ⟨rfl, hunexpired, hmeets⟩, hallowed⟩

/-- What the pair does to anything but the vault, the relayer and the destination is allowed. -/
theorem rentAllowed_sign {foreign : Pubkey → ℕ} {tr : List Label}
    {record : List TransactionInstruction} {chain' : Chain} {a : Pubkey} (hzero : NoZeroKey D)
    (hdist : DistinctAddresses D (authorization request).walletId)
    (hreach : (system D).Reachable chain) (hrelayer : ¬D.IsDerived ID relayer)
    (hkey : key.SignsFor D (preimage request))
    (hvault : vaultAddress D (authorization request).walletId = some vault)
    (hsign : sign D request key relayer = some ixs)
    (h : Commits D now none ixs chain tr record chain') (hne_vault : a ≠ vault)
    (hne_relayer : a ≠ relayer) (hne_dest : (call request).dest ≠ some a) :
    RentAllowed D foreign chain chain' a := by
  have hauth := call_authorization request
  obtain ⟨wallet, vault', authority, hwallet, hvault', hauthority, rfl⟩ := sign_eq_some hsign
  obtain rfl := Option.some_inj.mp (hvault.symm.trans hvault')
  obtain ⟨events, -, hexecute⟩ := commits_pair hauthority hauth h
  have hadmitted : Admitted D (pairInvocation key (preimage request)
      ⟨wallet, vault, relayer, true⟩ (call request) now) :=
    admitted_pairInvocation (length_preimage_lt request) hkey hrelayer
  rw [← Call.walletId_of_authorization hauth] at hdist
  exact Step.rentAllowed hzero hdist hreach (.invoke hadmitted hexecute) hne_vault hne_relayer
    hne_dest

end Request

/-- The device's transfer, as the client has it. -/
def Vectors.transferRequest : TransferSolRequest where
  walletId := walletId
  dest := dest
  lamports := 100000000
  nonce := 0
  expiresAt := 1700000000
  maxRelayerFee := 10000
  relayerFee := 5000

/-- The device transfers. -/
def Vectors.postedTransfer : Posted where
  approved := [transfer]
  state := some fresh
  signed := by
    intro s hs
    obtain rfl := List.mem_singleton.mp hs
    exact ⟨by simp [approvals], Option.some_ne_none _⟩
  computed := by decide +kernel

section Confirmation

variable {D : Deployment} {w : WalletId} {a authority : Pubkey}

theorem confirmRotationInstruction_eq_some {ix : TransactionInstruction} :
    confirmRotationInstruction D w = some ix ↔ ∃ a authority, walletAddress D w = some a ∧
      eventAuthority D = some authority ∧
      (Call.confirmRotation w).instruction ⟨a, a, a, false⟩ authority = ix := by
  simp only [confirmRotationInstruction, Option.bind_eq_bind, Option.bind_eq_some_iff,
    Option.some_inj]
  constructor
  · rintro ⟨a, ha, authority, hauthority, rfl⟩
    exact ⟨a, authority, ha, hauthority, rfl⟩
  · rintro ⟨a, authority, ha, hauthority, rfl⟩
    exact ⟨a, ha, authority, hauthority, rfl⟩

theorem invocationOf_confirming (sysvars : Sysvars)
    (hauthority : eventAuthority D = some authority) :
    invocationOf D sysvars ((Call.confirmRotation w).instruction ⟨a, a, a, false⟩ authority)
      = some ⟨.confirmRotation w, ⟨a, a, a, false⟩, sysvars⟩ := by
  have hload : loadAccounts D .confirmRotation
      ((Call.confirmRotation w).accountMetas ⟨a, a, a, false⟩ authority ++ [])
        = some (⟨a, a, a, false⟩, a) := loadAccounts_confirming [] w hauthority
  rw [List.append_nil] at hload
  refine invocationOf_eq_some.mpr
    ⟨(Call.confirmRotation w).arguments, ⟨a, a, a, false⟩, a, ?_, hload, rfl⟩
  exact Codec.decodeFront_eq_some.mpr List.prefix_rfl

/-- No account of the list signs. -/
theorem privileged_confirming :
    Privileged D ((Call.confirmRotation w).instruction ⟨a, a, a, false⟩ authority) := by
  intro account hmem hsigner
  change account ∈ (Call.confirmRotation w).accountMetas ⟨a, a, a, false⟩ authority at hmem
  simp only [Call.accountMetas, List.mem_cons, List.not_mem_nil, or_false] at hmem
  rcases hmem with rfl | rfl | rfl <;> cases hsigner

end Confirmation

/-- **A confirmation is up to the proposal.** The client's instruction commits in a reachable state,
whoever sends it and whatever comes before it, if and only if the wallet has a proposal that is open
and not expired. It then installs the proposed key and ends the rotation, and touches nothing
else. -/
theorem confirmation_commits_iff {D : Deployment} {w : WalletId} {ix : TransactionInstruction}
    {previous : Option TransactionInstruction} {now : Int64} {chain chain' : Chain}
    (hzero : NoZeroKey D) (hdist : DistinctAddresses D w) (hreach : (system D).Reachable chain)
    (hix : confirmRotationInstruction D w = some ix) :
    (∃ tr record, Commits D now previous [ix] chain tr record chain') ↔
      ∃ a wallet proposal, walletAddress D w = some a ∧ stored D chain w = some wallet ∧
        wallet.rotation.get = some proposal ∧ proposal.opensAt D.build ≤ now ∧
        proposal.isExpired D.build now = false ∧
        chain' = chain.setHolding a (.owned (wallet.rekeyed proposal.newKey)) := by
  obtain ⟨a, authority, ha, hauthority, rfl⟩ := confirmRotationInstruction_eq_some.mp hix
  -- What the confirmation of a proposal that is open does.
  have hconfirms : ∀ wallet proposal, stored D chain w = some wallet →
      wallet.rotation.get = some proposal → proposal.opensAt D.build ≤ now →
      proposal.isExpired D.build now = false →
      execute D ⟨.confirmRotation w, ⟨a, a, a, false⟩,
          ⟨previous.map TransactionInstruction.seen, now⟩⟩ chain
        = .ok (chain.setHolding a (.owned (wallet.rekeyed proposal.newKey)),
          [.keyRotated ⟨wallet.walletId, proposal.newKey, true⟩]) := by
    intro wallet proposal hstored hpending hopens hunexpired
    obtain ⟨hfound, hwellFormed, hid⟩ := wellFormed_of_stored hzero hdist hreach ha hstored
    have hseeds := Platform.createProgramAddress_of_find hwellFormed.address
    rw [hid] at hseeds
    exact execute_of_confirmable rfl hfound hseeds hpending hopens hunexpired
  constructor
  · rintro ⟨tr, record, h⟩
    obtain ⟨events, -, hexecute⟩ := commits_single rfl (invocationOf_confirming _ hauthority) h
    have haccepts : accepts D chain ⟨.confirmRotation w, ⟨a, a, a, false⟩,
        ⟨previous.map TransactionInstruction.seen, now⟩⟩ = true := by
      rw [accepts, hexecute]
    obtain ⟨wallet, proposal, -, hstored, hpending, hopens, hunexpired⟩ :=
      (accepts_confirm_iff hzero hdist hreach rfl).mp haccepts
    have heq := hconfirms wallet proposal hstored hpending hopens hunexpired
    rw [hexecute] at heq
    exact ⟨a, wallet, proposal, ha, hstored, hpending, hopens, hunexpired,
      congrArg Prod.fst (Except.ok.inj heq)⟩
  · rintro ⟨a', wallet, proposal, ha', hstored, hpending, hopens, hunexpired, rfl⟩
    obtain rfl := Option.some_inj.mp (ha.symm.trans ha')
    obtain ⟨record, hcommits⟩ := exists_commits_single rfl privileged_confirming hauthority
      (invocationOf_confirming _ hauthority)
      (hconfirms wallet proposal hstored hpending hopens hunexpired)
    exact ⟨_, record, hcommits⟩

/-- The guardian's proposal, the second it opens. -/
theorem confirmation_commits_iff_proposed : ∃ ix,
    confirmRotationInstruction Vectors.published Vectors.walletId = some ix ∧ ∃ tr record,
      Commits Vectors.published 1699259200 none [ix] Vectors.postedProposal.chain tr record
        (Vectors.postedProposal.chain.setHolding Vectors.wallet
          (.owned (Vectors.proposedWallet.rekeyed Vectors.nextKey))) := by
  obtain ⟨history, hrun⟩ := Vectors.postedProposal.exists_history
  have hreach : (system Vectors.published).Reachable Vectors.postedProposal.chain :=
    ⟨_, _, Vectors.published_init, run_of_history hrun⟩
  have haddress : walletAddress Vectors.published Vectors.walletId = some Vectors.wallet := rfl
  have hix := confirmRotationInstruction_eq_some.mpr
    ⟨Vectors.wallet, Vectors.eventAuthority, haddress, Vectors.eventAuthority_eq, rfl⟩
  have hpending : Vectors.proposedWallet.rotation.get
      = some ⟨Vectors.nextKey, 1699000000, 0⟩ := rfl
  exact ⟨_, hix, (confirmation_commits_iff Vectors.published_noZeroKey
    (Vectors.published_distinctAddresses _) hreach hix).mpr ⟨Vectors.wallet, Vectors.proposedWallet,
      _, haddress, Vectors.postedProposal.stored_eq, hpending, by decide, by decide, rfl⟩⟩

end EnclaveKit
