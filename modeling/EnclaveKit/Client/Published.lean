import EnclaveKit.Chain.Vectors
import EnclaveKit.Client.Pair

/-!
# The published vectors, sent

The deployment of the vectors with the address the instructions and the events need besides: the
event authority, of bump 252. What was signed for the vectors is sent here as whole transactions.
-/

namespace EnclaveKit

open Solana

namespace Vectors

def eventAuthority : Pubkey :=
  #v[0x1f, 0x4a, 0xd7, 0x33, 0xa7, 0xc6, 0xee, 0x27, 0xd9, 0x9b, 0x99, 0x33, 0x64, 0x3b, 0x14, 0x07,
    0x9d, 0x91, 0xd0, 0xa5, 0x0e, 0x49, 0x82, 0x1b, 0x85, 0x05, 0x98, 0x7a, 0x10, 0x28, 0xe5, 0xf1]

def publishedTables : Tables :=
  { tables with addresses := tables.addresses ++ [([EVENT_AUTHORITY_SEED, [252]], eventAuthority)] }

def published : Deployment := publishedTables.deployment

theorem eventAuthority_eq : EnclaveKit.eventAuthority published = some eventAuthority := rfl

theorem published_noZeroKey : NoZeroKey published := Tables.noZeroKey (by decide)

theorem published_distinctAddresses (w : WalletId) : DistinctAddresses published w :=
  Tables.distinctAddresses (by decide) w

theorem published_init : (system published).init genesis := genesis_init

theorem published_relayer : ¬published.IsDerived ID relayer := Tables.not_isDerived (by decide)

/-- The key of an approval, on the one message it is there for. -/
def Signed.enclave (s : Signed) : EnclaveKey := ⟨s.key, fun _ ↦ s.signature⟩

theorem signsFor_enclave {s : Signed} (h : s ∈ approvals) :
    s.enclave.SignsFor published s.message :=
  decide_eq_true (List.mem_map_of_mem h)

/-- An approval as a transaction. -/
def Signed.pair (s : Signed) : List TransactionInstruction :=
  [s.enclave.precompileInstruction s.message, s.call.instruction s.accounts eventAuthority]

/-- What is accepted is committed. -/
theorem exists_commits {s : Signed} (h : s ∈ approvals) {chain : Chain} {auth : Authorization}
    (hauth : s.call.authorization = some auth) (haccepts : accepts published chain s.sent = true) :
    ∃ events record, Commits published s.time none s.pair chain [.invoke s.sent events] record
      (next published chain s.sent) := by
  have hrelayer : ¬published.IsDerived ID s.accounts.relayer := by
    rw [relayer_of_mem s h]
    exact published_relayer
  obtain ⟨tr, record, chain', hcommits⟩ :=
    (commits_pair_iff eventAuthority_eq hauth s.length_message_lt (signsFor_enclave h) hrelayer).mpr
      haccepts
  obtain ⟨events, rfl, hexecute⟩ := commits_pair eventAuthority_eq hauth hcommits
  obtain rfl : chain' = next published chain s.sent := by
    have hnext : execute published s.sent chain = .ok (chain', events) := hexecute
    rw [next, hnext]
  exact ⟨events, record, hcommits⟩

/-! ## A history -/

/-- Approvals accepted one after the other are transactions of a history. -/
theorem exists_history_of_acceptsAll {approved : List Signed} {chain : Chain}
    (hsigned : ∀ s ∈ approved, s ∈ approvals ∧ s.call.authorization ≠ none)
    (h : acceptsAll published chain (approved.map Signed.sent) = true) :
    ∃ history, (transactions published).Run chain history
      ((approved.map Signed.sent).foldl (next published) chain) := by
  induction approved generalizing chain with
  | nil => exact ⟨[], .nil⟩
  | cons s rest ih =>
    rw [List.map_cons, acceptsAll, Bool.and_eq_true] at h
    obtain ⟨hmem, hauth⟩ := hsigned s List.mem_cons_self
    obtain ⟨auth, hauth⟩ := Option.ne_none_iff_exists'.mp hauth
    obtain ⟨events, record, hcommits⟩ := exists_commits hmem hauth h.1
    obtain ⟨history, hrun⟩ := ih (fun t ht ↦ hsigned t (List.mem_cons_of_mem s ht)) h.2
    exact ⟨_, hrun.cons (.commit hcommits)⟩

/-- Approvals accepted one after the other from the start, and what is stored afterwards. -/
structure Posted where
  approved : List Signed
  state : Option SmartWallet
  signed : ∀ s ∈ approved, s ∈ approvals ∧ s.call.authorization ≠ none
  computed : acceptsAll published genesis (approved.map Signed.sent) = true ∧
    stateAt ((approved.map Signed.sent).foldl (next published) genesis) wallet = state

namespace Posted

variable (p : Posted)

def chain : Chain := (p.approved.map Signed.sent).foldl (next published) genesis

theorem stored_eq : stored published p.chain walletId = p.state :=
  (stored_eq_stateAt (show walletAddress published walletId = some wallet from rfl)).trans
    p.computed.2

theorem exists_history : ∃ history, (transactions published).Run genesis history p.chain :=
  exists_history_of_acceptsAll p.signed p.computed.1

/-- The first of them is accepted at the start. -/
theorem accepts_head {s : Signed} {rest : List Signed} (h : p.approved = s :: rest) :
    accepts published genesis s.sent = true := by
  have haccepted := p.computed.1
  rw [h, List.map_cons, acceptsAll, Bool.and_eq_true] at haccepted
  exact haccepted.1

end Posted

/-- The device lists a guardian, and the guardian proposes. -/
def postedProposal : Posted where
  approved := [setGuardians, propose]
  state := some proposedWallet
  signed := by
    intro s hs
    rcases List.mem_pair.mp hs with rfl | rfl
    · exact ⟨List.mem_cons_self, Option.some_ne_none _⟩
    · exact ⟨by simp [approvals], Option.some_ne_none _⟩
  computed := by decide +kernel

theorem accepts_setGuardians : accepts published genesis setGuardians.sent = true :=
  postedProposal.accepts_head rfl

end Vectors

end EnclaveKit
