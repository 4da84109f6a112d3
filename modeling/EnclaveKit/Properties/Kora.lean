import EnclaveKit.Client.Kora
import EnclaveKit.Properties.Relayer
import EnclaveKit.Properties.Requests
import EnclaveKit.Properties.Spending
import EnclaveKit.Properties.Stability

/-!
# The example's reckoning

The script reads the chain three times and signs what it worked out from the readings, while the
chain goes on. It has left enough room: as long as the wallet itself does nothing meanwhile, the
pair it signs commits at any time until it expires, the relayer has its fee and the rent back, and
what the script wanted left in the vault is left there. Others can only have added to what it read.
-/

namespace EnclaveKit

open Solana MachineInt TransitionSystem EnclaveRequest LawfulEnclaveRequest

/-! ## The steps of others -/

section Others

variable {D : Deployment} {w : WalletId} {chain chain' chain'' : Chain}

theorem Others.trans (h : Others D w chain chain') (h' : Others D w chain' chain'') :
    Others D w chain chain'' := by
  obtain ⟨tr, hrun, hothers⟩ := h
  obtain ⟨tr', hrun', hothers'⟩ := h'
  refine ⟨tr ++ tr', hrun.append hrun', fun label hmem ↦ ?_⟩
  rcases List.mem_append.mp hmem with hmem | hmem
  · exact hothers label hmem
  · exact hothers' label hmem

theorem Others.refl : Others D w chain chain := ⟨[], .nil, by simp⟩

theorem Others.untouched {a v : Pubkey} (h : Others D w chain chain')
    (hdist : DistinctAddresses D w)
    (ha : walletAddress D w = some a) (hv : vaultAddress D w = some v) :
    Untouched D w a v chain chain' := by
  obtain ⟨tr, hrun, hothers⟩ := h
  exact untouched_of_run hrun hdist ha hv hothers

/-- A System transfer is somebody else's step. -/
theorem external_of_transfer {source dest : Pubkey} {lamports : UInt64}
    (h : chain.transfer source dest lamports = .ok chain') (hsource : ¬D.IsDerived ID source) :
    External D chain chain' := by
  obtain ⟨-, -, hmoved, hholding⟩ := Ledger.transfer_eq_ok h
  constructor
  · intro a wallet
    rw [hholding]
  · intro a hderived
    refine ⟨hholding a, ?_⟩
    have hnet : 0 ≤ netChange [⟨source, dest, lamports.toNat⟩] a := by
      refine netChange_nonneg fun m hm heq ↦ hsource ?_
      rw [List.mem_singleton.mp hm] at heq
      rwa [show source = a from heq]
    have hbalance := hmoved a
    omega

end Others

/-! ## The destination -/

section Destination

variable {D : Deployment} {inv : Invocation} {chain chain' : Chain} {auth : Authorization}
  {dest : Pubkey} {lamports relayerFee : UInt64}

theorem Enacts.netChange_dest {auth' : Authorization} {wallet : SmartWallet} {signer : PublicKey}
    {after : Option SmartWallet} {moves : List Move} {event : Event}
    (h : Enacts D inv auth' chain wallet signer after moves event)
    (call : inv.call = .transferSol auth dest lamports relayerFee)
    (hvault : dest ≠ inv.accounts.vault) (hrelayer : dest ≠ inv.accounts.relayer) :
    netChange moves dest = lamports.toNat := by
  cases h with
  | transferSol call' =>
    rw [call] at call'
    cases call'
    simp [refundMove, vaultMove, Move.net, hvault, hrelayer]
  | sweepVault call' | setGuardians call' | cancelRotation call' | rotate call' | propose call'
  | closeWallet call' =>
    rw [call] at call'
    cases call'

/-- A transfer pays its destination the amount, if that has no other part in it. -/
theorem Accepted.dest_eq {events : List Event} (h : Accepted D inv chain chain' events)
    (call : inv.call = .transferSol auth dest lamports relayerFee) (hdest : ¬D.IsDerived ID dest)
    (hrelayer : dest ≠ inv.accounts.relayer) :
    chain'.balance dest = chain.balance dest + lamports.toNat := by
  have hwallet : dest ≠ inv.accounts.wallet := by
    intro heq
    exact hdest (heq ▸ ⟨_, h.loaded.walletSeeds⟩)
  have hvault : dest ≠ inv.accounts.vault := by
    intro heq
    exact hdest (heq ▸ ⟨_, h.loaded.vaultSeeds⟩)
  have hcreation : netChange h.creation dest = 0 := by
    refine netChange_eq_zero fun m hm ↦ ?_
    rw [h.loaded.source_eq m hm, h.loaded.dest_eq m hm]
    exact ⟨hrelayer.symm, hwallet.symm⟩
  have hmoved := h.moved_all dest
  rw [netChange_append, hcreation, h.enacts.netChange_dest call hvault hrelayer] at hmoved
  omega

end Destination

namespace Kora

/-! ## The quote -/

section Quote

variable {D : Deployment} {account : Account SmartWallet} {q : Quote}

/-- What a quote knows of the state it was made for. -/
inductive Quote.Reads (D : Deployment) (q : Quote) (account : Account SmartWallet) : Prop where
  /-- It is there. -/
  | found {state : SmartWallet} (holding : account.holding = .owned state)
      (nonce : q.nonce = state.nonce) (relayerFee : q.relayerFee.toNat = TRANSACTION_FEE.toNat)
  /-- It is not, and nobody has paid to the address. -/
  | first (holding : account.holding = .system) (nonce : q.nonce = 0)
      (relayerFee : q.relayerFee.toNat
        = (D.minimumBalance SmartWallet.SPACE).toNat + TRANSACTION_FEE.toNat)

theorem reads_of_quote (h : quote D account = some q) : q.Reads D account := by
  simp only [quote, Option.bind_eq_bind, Option.bind_eq_some_iff, Option.some_inj,
    checkedAdd_eq_some] at h
  obtain ⟨nonce, hnonce, relayerFee, hfee, -, -, -, -, rfl⟩ := h
  rw [walletNonce] at hnonce
  split at hnonce
  · rename_i state hstate
    obtain rfl := Option.some_inj.mp hnonce
    exact .found hstate rfl (by simpa using hfee)
  · rename_i hsystem
    split_ifs at hnonce
    obtain rfl := Option.some_inj.mp hnonce
    exact .first hsystem rfl hfee
  · cases hnonce

theorem toNat_needed (h : quote D account = some q) :
    q.needed.toNat = LAMPORTS.toNat + q.relayerFee.toNat + VAULT_RESERVE.toNat := by
  simp only [quote, Option.bind_eq_bind, Option.bind_eq_some_iff, Option.some_inj,
    checkedAdd_eq_some] at h
  obtain ⟨-, -, relayerFee, -, spent, hspent, needed, hneeded, rfl⟩ := h
  rw [hneeded, hspent]

/-- The vault holds what is needed once the missing is there. -/
theorem Quote.needed_le {held : UInt64} :
    q.needed.toNat ≤ held.toNat + ((q.missing held).getD 0).toNat := by
  rw [missing]
  split_ifs with hlt
  · rw [UInt64.lt_iff_toNat_lt] at hlt
    rw [Option.getD_some, UInt64.toNat_sub_of_le _ _ (UInt64.le_iff_toNat_le.mpr hlt.le)]
    omega
  · rw [UInt64.lt_iff_toNat_lt] at hlt
    omega

end Quote

/-! ## The session -/

/-- What the script takes for granted. A wallet that is there is this key's; if there is none, the
relayer can advance the rent. -/
structure Ready (D : Deployment) (key : EnclaveKey) (accounts : Accounts) (start chain : Chain) :
    Prop where
  active : ∀ state, stored D start (key.walletId D) = some state →
    state.activeKey = key.compressedPubkey ∧ state.nonce.toNat + 1 < 2 ^ 64
  first : stored D start (key.walletId D) = none →
    (start accounts.vault).holding = .system ∧ Advances D accounts chain

namespace Session

variable {D : Deployment} {key : EnclaveKey} {funder dest relayer : Pubkey} {start chain : Chain}
  (s : Session D key funder dest start)

/-- The accounts the pair will name. -/
def accounts (relayer : Pubkey) : Accounts := ⟨s.wallet, s.vault, relayer, true⟩

theorem request_eq_mk : s.request =
    { walletId := key.walletId D
      dest := dest
      lamports := LAMPORTS
      nonce := s.quote.nonce
      expiresAt := s.now + AUTHORIZATION_TTL
      maxRelayerFee := s.quote.relayerFee
      relayerFee := s.quote.relayerFee } := by
  have h := s.request_eq
  rw [Quote.request] at h
  split_ifs at h
  exact (Option.some_inj.mp h).symm

/-- The clock the message is good for. -/
theorem lt_expiresAt {t : Int64} (ht : t.toInt < s.now.toInt + AUTHORIZATION_TTL.toInt) :
    t < s.request.expiresAt := by
  have h := s.request_eq
  rw [Quote.request] at h
  split_ifs at h with hroom
  rw [s.request_eq_mk, Int64.lt_iff_toInt_lt]
  have httl : AUTHORIZATION_TTL.toInt = 120 := rfl
  have hlow := s.now.le_toInt
  rw [httl] at ht hroom
  rw [Int64.toInt_add, httl, Int.bmod_eq_of_le (by omega) (by omega)]
  exact ht

/-- All in all the script is a run of others. -/
theorem others (hfunder : ¬D.IsDerived ID funder) : Others D (key.walletId D) start s.funded := by
  refine (s.reading.trans s.waiting).trans ?_
  have h := s.funding
  split at h
  · exact ⟨_, .single (.external (external_of_transfer h hfunder)), by simp [Label.walletId]⟩
  · rw [h]
    exact .refl

/-- **It pays in enough**, whatever came in between. -/
theorem needed_le (hdist : DistinctAddresses D (key.walletId D))
    (hfunder : ¬D.IsDerived ID funder) :
    s.quote.needed.toNat ≤ s.funded.balance s.vault := by
  have hwaited := (s.waiting.untouched hdist s.wallet_eq s.vault_eq).vault_le
  have hneeded : s.quote.needed.toNat ≤ (s.read s.vault).lamports.toNat
      + ((s.quote.missing (s.read s.vault).lamports).getD 0).toNat := s.quote.needed_le
  have hread : s.read.balance s.vault = (s.read s.vault).lamports.toNat := rfl
  have h := s.funding
  split at h
  · rename_i lamports hmissing
    obtain ⟨_, hseeds⟩ := createProgramAddress_of_vaultAddress s.vault_eq
    have hne : s.vault ≠ funder := by
      intro heq
      exact hfunder (heq ▸ ⟨_, hseeds⟩)
    obtain ⟨-, -, hmoved, -⟩ := Ledger.transfer_eq_ok h
    have hpaid := hmoved s.vault
    rw [netChange_cons, netChange_nil, Move.net, if_pos rfl, if_neg hne] at hpaid
    dsimp only at hpaid
    rw [hmissing, Option.getD_some] at hneeded
    omega
  · rename_i hmissing
    rw [h]
    rw [hmissing, Option.getD_none, UInt64.toNat_zero] at hneeded
    omega

/-- The wallet the pair will meet. -/
theorem meets (hdist : DistinctAddresses D (key.walletId D)) (hfunder : ¬D.IsDerived ID funder)
    (hothers : Others D (key.walletId D) s.funded chain)
    (hready : Ready D key (s.accounts relayer) start chain) :
    ∃ found, Meets D (call s.request) (authorization s.request) key relayer chain found ∧
      found.activeKey = key.compressedPubkey := by
  have hkept := ((s.others hfunder).trans hothers).untouched hdist s.wallet_eq s.vault_eq
  have hstored : stored D start (key.walletId D) = stateAt start s.wallet :=
    stored_eq_stateAt s.wallet_eq
  rw [s.request_eq_mk]
  cases reads_of_quote s.quote_eq with
  | @found state holding nonce =>
    rw [stateAt_eq_some.mpr holding] at hstored
    obtain ⟨hactive, hroom⟩ := hready.active state hstored
    exact ⟨state, .found (hkept.stored_eq.trans hstored) nonce hroom, hactive⟩
  | first holding nonce =>
    rw [stateAt_of_holdingOf (show _ = holdingOf none from holding)] at hstored
    obtain ⟨hvault, hadvances⟩ := hready.first hstored
    obtain ⟨walletBump, hwallet⟩ := walletAddress_eq_some.mp s.wallet_eq
    obtain ⟨vaultBump, hvaultFound⟩ := vaultAddress_eq_some.mp s.vault_eq
    refine ⟨SmartWallet.created (key.walletId D) key.compressedPubkey ⟨walletBump, vaultBump⟩, ?_,
      rfl⟩
    exact .first rfl rfl nonce hwallet hvaultFound (hkept.holding_wallet.trans holding)
      (hkept.holding_vault.trans hvault) hadvances

end Session

/-! ## What the pair does -/

section Pair

variable {D : Deployment} {key : EnclaveKey} {funder dest relayer : Pubkey} {start chain : Chain}
  (s : Session D key funder dest start)

/-- The rent the relayer advances is in its fee. -/
theorem Session.rentDue_add_le (hdist : DistinctAddresses D (key.walletId D))
    (hfunder : ¬D.IsDerived ID funder) (hothers : Others D (key.walletId D) s.funded chain)
    {inv : Invocation} (hwallet : inv.accounts.wallet = s.wallet) :
    rentDue D chain inv inv.accounts.relayer + TRANSACTION_FEE.toNat
      ≤ s.request.relayerFee.toNat := by
  have hkept := ((s.others hfunder).trans hothers).untouched hdist s.wallet_eq s.vault_eq
  have hfee : s.request.relayerFee = s.quote.relayerFee := by rw [s.request_eq_mk]
  rw [hfee]
  cases reads_of_quote s.quote_eq with
  | found holding _ relayerFee =>
    rw [rentDue, if_neg, relayerFee, zero_add]
    rintro ⟨-, -, hvacant⟩
    rw [hwallet, hkept.holding_wallet, holding] at hvacant
    cases hvacant
  | first _ _ relayerFee =>
    have hdue : rentDue D chain inv inv.accounts.relayer
        ≤ (D.minimumBalance SmartWallet.SPACE).toNat := by
      rw [rentDue, creationMove]
      dsimp only
      split_ifs <;> omega
    omega

/-- **What the instruction does**, once it is accepted. -/
theorem Session.paid (hzero : NoZeroKey D) (hdist : DistinctAddresses D (key.walletId D))
    (hreach : (system D).Reachable start) (hfunder : ¬D.IsDerived ID funder)
    (hothers : Others D (key.walletId D) s.funded chain) {inv : Invocation} {chain' : Chain}
    {events : List Event} (hadmitted : Admitted D inv)
    (hexecute : execute D inv chain = .ok (chain', events)) (hcall : inv.call = call s.request)
    (haccounts : inv.accounts = s.accounts relayer) :
    chain.balance relayer + TRANSACTION_FEE.toNat ≤ chain'.balance relayer ∧
    VAULT_RESERVE.toNat ≤ chain'.balance s.vault ∧
    (dest ≠ relayer → ¬D.IsDerived ID dest →
      chain'.balance dest = chain.balance dest + LAMPORTS.toNat) := by
  have hinv : Invariant D chain := by
    obtain ⟨_, hrun, -⟩ := (s.others hfunder).trans hothers
    exact invariant_of_reachable hzero (hreach.trans hrun)
  have hsent : inv.accounts.relayer = relayer := congrArg Accounts.relayer haccounts
  have hcall' : inv.call = .transferSol ⟨key.walletId D, s.quote.nonce, s.now + AUTHORIZATION_TTL,
      s.quote.relayerFee⟩ dest LAMPORTS s.quote.relayerFee := by
    rw [hcall, s.request_eq_mk]
    rfl
  rcases effect_of_execute hexecute with ⟨⟨h⟩⟩ | ⟨⟨h⟩⟩
  · have hauth := h.call_authorization
    have haction := h.call_action
    rw [hcall'] at hauth haction
    refine ⟨?_, ?_, fun hne hdest ↦ h.dest_eq hcall' hdest (hsent ▸ hne)⟩
    · have hpaid := h.relayer_le hadmitted (by simp [hcall'])
      have hdue := s.rentDue_add_le hdist hfunder hothers (congrArg Accounts.wallet haccounts)
      have hrefund : (refundOf inv.call h.auth).toNat = s.request.relayerFee.toNat := by
        rw [refundOf, hcall', ← Option.some_inj.mp hauth, s.request_eq_mk, toNat_min]
        exact min_self _
      rw [hsent] at hpaid hdue
      omega
    · have hown := h.ownVault hadmitted hinv hdist s.vault_eq (by rw [hcall']; rfl)
      have hspent := h.enacts.le_add_budget hown h.call_action
        (by rw [← Option.some_inj.mp haction]; rfl) (h.moved s.vault)
      rw [← Option.some_inj.mp hauth, ← Option.some_inj.mp haction, Approval.budget] at hspent
      dsimp only at hspent
      have hkept := (hothers.untouched hdist s.wallet_eq s.vault_eq).vault_le
      have henough := s.needed_le hdist hfunder
      have hsum := toNat_needed s.quote_eq
      omega
  · have hconfirm := h.call
    rw [hcall'] at hconfirm
    cases hconfirm

end Pair

end Kora

/-- **The script's transfer goes through.** Take any run of the script from a reachable state, among
the steps of others, and any steps of others after it. Within two minutes of the script's clock the
signed pair commits, if the wallet is the key's or the relayer can advance its rent; and whenever it
commits, the relayer has at least its transaction fee and the rent back, the destination has the
amount, and the vault keeps the reserve. -/
theorem kora_transfer {D : Deployment} {key : EnclaveKey} {funder dest relayer : Pubkey}
    {start chain : Chain} {ixs : List TransactionInstruction} {t : Int64} (hzero : NoZeroKey D)
    (hdist : DistinctAddresses D (key.walletId D)) (hreach : (system D).Reachable start)
    (s : Kora.Session D key funder dest start) (hfunder : ¬D.IsDerived ID funder)
    (hrelayer : ¬D.IsDerived ID relayer) (hothers : Others D (key.walletId D) s.funded chain)
    (hfits : chain.SupplyFits) (hkey : key.SignsFor D (preimage s.request))
    (hsign : sign D s.request key relayer = some ixs) :
    (Kora.Ready D key (s.accounts relayer) start chain → D.minimumBalance 0 ≤ Kora.VAULT_RESERVE →
      t.toInt < s.now.toInt + Kora.AUTHORIZATION_TTL.toInt →
        ∃ tr record chain', Commits D t none ixs chain tr record chain') ∧
    ∀ tr record chain', Commits D t none ixs chain tr record chain' →
      chain.balance relayer + Kora.TRANSACTION_FEE.toNat ≤ chain'.balance relayer ∧
      Kora.VAULT_RESERVE.toNat ≤ chain'.balance s.vault ∧
      (dest ≠ relayer → ¬D.IsDerived ID dest →
        chain'.balance dest = chain.balance dest + Kora.LAMPORTS.toNat) := by
  have hid : (authorization s.request).walletId = key.walletId D := by
    rw [s.request_eq_mk]
    rfl
  refine ⟨fun hready hreserve ht ↦ ?_, fun tr record chain' h ↦ ?_⟩
  · have hreach' : (system D).Reachable chain := by
      obtain ⟨_, hrun, -⟩ := (s.others hfunder).trans hothers
      exact hreach.trans hrun
    obtain ⟨found, hmeets, hactive⟩ := s.meets hdist hfunder hothers hready
    refine (commits_sign_iff hzero (hid ▸ hdist) hreach' hfits hrelayer hkey (hid ▸ s.vault_eq)
      hsign).mpr ⟨s.lt_expiresAt ht, found, hmeets, hactive.symm, ?_⟩
    have hkept := (hothers.untouched hdist s.wallet_eq s.vault_eq).vault_le
    have henough := s.needed_le hdist hfunder
    have hsum := Kora.toNat_needed s.quote_eq
    rw [UInt64.le_iff_toNat_le] at hreserve
    have hcovered : Kora.LAMPORTS.toNat + s.quote.relayerFee.toNat + (D.minimumBalance 0).toNat
        ≤ chain.balance s.vault := by omega
    rw [s.request_eq_mk]
    exact hcovered
  · obtain ⟨wallet, vault, authority, hwallet, hvault, hauthority, rfl⟩ := sign_eq_some hsign
    rw [hid] at hwallet hvault
    obtain rfl := Option.some_inj.mp (s.wallet_eq.symm.trans hwallet)
    obtain rfl := Option.some_inj.mp (s.vault_eq.symm.trans hvault)
    obtain ⟨events, -, hexecute⟩ := commits_pair hauthority (call_authorization s.request) h
    exact s.paid hzero hdist hreach hfunder hothers
      (admitted_pairInvocation (length_preimage_lt s.request) hkey hrelayer) hexecute rfl rfl

/-! ## A session -/

namespace Vectors

/-- The device, on the one message of its session. -/
def koraKey : EnclaveKey where
  compressedPubkey := deviceKey
  sign _ :=
    #v[0xc0, 0x25, 0x3c, 0x7e, 0x9b, 0x6b, 0xe2, 0xce, 0x61, 0x44, 0x96, 0xdd, 0xce, 0x95, 0x43,
      0xc8, 0x9f, 0x5d, 0x47, 0x74, 0x77, 0x4f, 0x72, 0xe3, 0xfc, 0xd3, 0x5c, 0x3b, 0x2c, 0x85,
      0x6d, 0x49, 0x4f, 0x18, 0xc8, 0x14, 0x2b, 0xf5, 0x81, 0x5a, 0xd7, 0x09, 0xd3, 0xc6, 0x4a,
      0x46, 0x4b, 0x04, 0x7f, 0x06, 0x59, 0xad, 0x2b, 0xb6, 0x32, 0x57, 0x53, 0x51, 0x9c, 0xa8,
      0x91, 0x24, 0x5e, 0xd3]

def funder : Pubkey := Vector.replicate 32 0x66

/-- The session's destination. -/
def koraDest : Pubkey := Vector.replicate 32 0x22

/-- The wallet's first use: the relayer's fee is the rent and the transaction fee. -/
def koraRequest : TransferSolRequest where
  walletId := walletId
  dest := koraDest
  lamports := 10000000
  nonce := 0
  expiresAt := 1699000120
  maxRelayerFee := 3162880
  relayerFee := 3162880

def koraTables : Tables :=
  { publishedTables with
    signatures := [⟨koraKey.compressedPubkey.toList, (koraKey.sign (preimage koraRequest)).toList,
      preimage koraRequest⟩] }

def kora : Deployment := koraTables.deployment

/-- The start of the vectors, but for the vault: what it held is the funder's. -/
def koraStart : Chain := (genesis.setLamports vault 0).setLamports funder 1000000000

theorem koraStart_eq : genesis.transfer vault funder 1000000000 = .ok koraStart := rfl

theorem koraStart_system (a : Pubkey) : (koraStart a).holding = .system := by
  rw [koraStart, Ledger.holding_setLamports, Ledger.holding_setLamports, genesis]
  split_ifs <;> rfl

theorem koraStart_init : (system kora).init koraStart := by
  intro a wallet
  rw [koraStart_system]
  simp

theorem koraStart_supplyFits : koraStart.SupplyFits :=
  (Ledger.transfer_eq_ok koraStart_eq).2.2.1.supplyFits genesis_supplyFits

/-- The script reads, has the whole of what is needed paid in, and signs. -/
def koraSession {funded : Chain} (h : koraStart.transfer funder vault 18162880 = .ok funded) :
    Kora.Session kora koraKey funder koraDest koraStart where
  wallet := wallet
  vault := vault
  wallet_eq := rfl
  vault_eq := rfl
  quote := ⟨0, 3162880, 18162880⟩
  quote_eq := rfl
  read := koraStart
  reading := .refl
  before := koraStart
  waiting := .refl
  funded := funded
  funding := h
  now := 1699000000
  request := koraRequest
  request_eq := rfl

end Vectors

/-- The pair of the session commits in its last second, and leaves the relayer with its fee. -/
theorem kora_transfer_first : ∃ funded ixs tr record chain',
    Vectors.koraStart.transfer Vectors.funder Vectors.vault 18162880 = .ok funded ∧
    sign Vectors.kora Vectors.koraRequest Vectors.koraKey Vectors.relayer = some ixs ∧
    Commits Vectors.kora 1699000119 none ixs funded tr record chain' ∧
    funded.balance Vectors.relayer + 10000 ≤ chain'.balance Vectors.relayer := by
  obtain ⟨funded, hfunded⟩ := Ledger.transfer_of_covered Vectors.vault
    (Vectors.koraStart_system Vectors.funder)
    (show (18162880 : UInt64).toNat ≤ Vectors.koraStart.balance Vectors.funder by decide)
    fun _ ↦ Vectors.koraStart_supplyFits
  obtain ⟨-, -, hmoved, hholding⟩ := Ledger.transfer_eq_ok hfunded
  have hderived : ∀ a, a ∉ Vectors.koraTables.addresses.map Prod.snd →
      ¬Vectors.kora.IsDerived ID a := fun _ ↦ Tables.not_isDerived
  have hkey : Vectors.koraKey.SignsFor Vectors.kora (preimage Vectors.koraRequest) :=
    show decide (_ ∈ Vectors.koraTables.signatures) = true from decide_eq_true List.mem_cons_self
  obtain ⟨ixs, hsign⟩ : ∃ ixs, sign Vectors.kora Vectors.koraRequest Vectors.koraKey Vectors.relayer
      = some ixs := ⟨_, rfl⟩
  obtain ⟨hcommits, hpaid⟩ := kora_transfer (t := 1699000119) (Tables.noZeroKey (by decide))
    (Tables.distinctAddresses (by decide) _) (.of_init Vectors.koraStart_init)
    (Vectors.koraSession hfunded) (hderived Vectors.funder (by decide))
    (hderived Vectors.relayer (by decide)) .refl
    (hmoved.supplyFits Vectors.koraStart_supplyFits) hkey hsign
  have hready : Kora.Ready Vectors.kora Vectors.koraKey
      ((Vectors.koraSession hfunded).accounts Vectors.relayer) Vectors.koraStart funded := by
    constructor
    · intro state hstored
      obtain ⟨a, -, hstate⟩ := stored_eq_some.mp hstored
      rw [Vectors.koraStart_system] at hstate
      cases hstate
    · intro _
      refine ⟨Vectors.koraStart_system _, fun _ ↦
        ⟨(hholding _).trans (Vectors.koraStart_system _), ?_⟩⟩
      have hrelayer := hmoved Vectors.relayer
      rw [netChange_cons, netChange_nil, Move.net, if_neg (by decide), if_neg (by decide)]
        at hrelayer
      have hheld : Vectors.koraStart.balance Vectors.relayer = 10000000000 := rfl
      have hrent : (Vectors.kora.minimumBalance SmartWallet.SPACE).toNat = 3152880 := rfl
      rw [lack, toNat_saturatingSub, hrent]
      change 3152880 - _ ≤ funded.balance Vectors.relayer
      omega
  have htime : (1699000119 : Int64).toInt
      < (1699000000 : Int64).toInt + Kora.AUTHORIZATION_TTL.toInt := by decide
  obtain ⟨tr, record, chain', h⟩ := hcommits hready (by decide) htime
  exact ⟨funded, ixs, tr, record, chain', hfunded, hsign, h, (hpaid _ _ _ h).1⟩

end EnclaveKit
