import EnclaveKit.Foundation.Union
import EnclaveKit.Program.Instructions
import EnclaveKit.Solana.Transaction
import Mathlib.Data.List.Nodup

/-!
# From bytes to a handler

What the runtime hands to the program is bytes and a list of accounts. Eight bytes of discriminator
tell the instruction, its arguments follow, and its accounts come in the order of its struct.
`processInstruction` is that reading with the handler after it; `execute` starts where it ends.

Clients write what is read here: `Call.data` and `Call.accountMetas` are what the generated builders
put into an instruction. The layout of the data is the one of the published instruction vectors, and
is the same on both sides because it is one codec. The account `to` is the exception among the
arguments: it is named by the accounts and not by the data.

Bytes after the arguments and accounts after the struct's are not looked at.
-/

namespace EnclaveKit

open Solana Fallible Codec

/-! ## Instruction data -/

/-- The methods of the program, in the order of the source. -/
inductive Method where
  | transferSol
  | setGuardians
  | cancelRotation
  | proposeRotation
  | confirmRotation
  | sweepVault
  | closeWallet
  deriving DecidableEq

namespace Method

/-- Anchor's: the first bytes of the SHA-256 of `global:` and the name. -/
def DISCRIMINATOR : Method → Vector UInt8 8
  | transferSol => #v[0x4e, 0x0a, 0xec, 0xf7, 0x6d, 0x75, 0x15, 0x4c]
  | setGuardians => #v[0xa6, 0x45, 0x8c, 0xb7, 0x9d, 0xa9, 0xfd, 0x28]
  | cancelRotation => #v[0x21, 0xb5, 0x19, 0x2b, 0x64, 0x22, 0x38, 0xfa]
  | proposeRotation => #v[0xc5, 0x2b, 0x9b, 0xa9, 0x9b, 0x4b, 0x5e, 0x7d]
  | confirmRotation => #v[0x81, 0x25, 0x66, 0x0f, 0x8f, 0x23, 0x71, 0xf6]
  | sweepVault => #v[0x89, 0x5c, 0x09, 0x01, 0x8c, 0xed, 0xd6, 0x8c]
  | closeWallet => #v[0x23, 0xd4, 0xea, 0xe0, 0xf4, 0xd0, 0x1f, 0xcc]

def all : List Method :=
  [transferSol, setGuardians, cancelRotation, proposeRotation, confirmRotation, sweepVault,
    closeWallet]

theorem mem_all (method : Method) : method ∈ all := by
  cases method <;> decide

theorem DISCRIMINATOR_injective : Function.Injective DISCRIMINATOR := by
  have hnodup : (all.map DISCRIMINATOR).Nodup := by decide
  intro method method' h
  exact List.inj_on_of_nodup_map hnodup (mem_all method) (mem_all method') h

def codec : Codec Method := Codec.enum DISCRIMINATOR all mem_all DISCRIMINATOR_injective

/-- The arguments of a method. -/
abbrev Args : Method → Type
  | transferSol => Authorization × UInt64 × UInt64
  | setGuardians => Authorization × Vector Guardian MAX_GUARDIANS × UInt64
  | cancelRotation => Authorization × UInt64
  | proposeRotation => Authorization × PublicKey × UInt64
  | confirmRotation => WalletId
  | sweepVault => Authorization × UInt64
  | closeWallet => Authorization × UInt64

end Method

/-- The four arguments every signed method begins with. -/
def Authorization.codec : Codec Authorization :=
  ((Codec.bytes 32).prod (Codec.u64.prod (Codec.i64.prod Codec.u64))).iso
    (fun auth ↦ (auth.walletId, auth.nonce, auth.expiresAt, auth.maxRelayerFee))
    (fun (walletId, nonce, expiresAt, maxRelayerFee) ↦ ⟨walletId, nonce, expiresAt, maxRelayerFee⟩)
    (fun _ ↦ rfl) fun _ ↦ rfl

/-- The program's side of a guardian of the crate's. -/
def Guardian.ofEncoding : Encoding.Guardian → Guardian
  | .none => none
  | .p256 key => p256 key
  | .webAuthn key => webAuthn key

theorem Guardian.ofEncoding_toEncoding (guardian : Guardian) :
    ofEncoding guardian.toEncoding = guardian := by
  cases guardian <;> rfl

theorem Guardian.toEncoding_ofEncoding (guardian : Encoding.Guardian) :
    (ofEncoding guardian).toEncoding = guardian := by
  cases guardian <;> rfl

/-- Both enums have the same variants in the same order, so borsh writes them alike. -/
def Guardian.codec : Codec Guardian :=
  Encoding.Guardian.codec.iso toEncoding ofEncoding ofEncoding_toEncoding toEncoding_ofEncoding

def Method.argsCodec : (method : Method) → Codec method.Args
  | transferSol => Authorization.codec.prod (Codec.u64.prod Codec.u64)
  | setGuardians =>
    Authorization.codec.prod ((Guardian.codec.vector MAX_GUARDIANS).prod Codec.u64)
  | cancelRotation => Authorization.codec.prod Codec.u64
  | proposeRotation =>
    Authorization.codec.prod ((Codec.bytes COMPRESSED_PUBKEY_LEN).prod Codec.u64)
  | confirmRotation => Codec.bytes 32
  | sweepVault => Authorization.codec.prod Codec.u64
  | closeWallet => Authorization.codec.prod Codec.u64

/-- A method with its arguments: what the data says. -/
abbrev Arguments := Σ method : Method, method.Args

def Arguments.codec : Codec Arguments := Method.codec.sigma Method.argsCodec

namespace Call

def arguments : Call → Arguments
  | transferSol auth _ lamports fee => ⟨.transferSol, auth, lamports, fee⟩
  | setGuardians auth guardians fee => ⟨.setGuardians, auth, guardians, fee⟩
  | cancelRotation auth fee => ⟨.cancelRotation, auth, fee⟩
  | proposeRotation auth newKey fee => ⟨.proposeRotation, auth, newKey, fee⟩
  | confirmRotation walletId => ⟨.confirmRotation, walletId⟩
  | sweepVault auth _ fee => ⟨.sweepVault, auth, fee⟩
  | closeWallet auth _ fee => ⟨.closeWallet, auth, fee⟩

/-- The call, with the account `to` where there is one. -/
def ofArguments (dest : Pubkey) : Arguments → Call
  | ⟨.transferSol, auth, lamports, fee⟩ => transferSol auth dest lamports fee
  | ⟨.setGuardians, auth, guardians, fee⟩ => setGuardians auth guardians fee
  | ⟨.cancelRotation, auth, fee⟩ => cancelRotation auth fee
  | ⟨.proposeRotation, auth, newKey, fee⟩ => proposeRotation auth newKey fee
  | ⟨.confirmRotation, walletId⟩ => confirmRotation walletId
  | ⟨.sweepVault, auth, fee⟩ => sweepVault auth dest fee
  | ⟨.closeWallet, auth, fee⟩ => closeWallet auth dest fee

def method (call : Call) : Method := call.arguments.1

/-- `InstructionData::data`. -/
def data (call : Call) : List UInt8 := Arguments.codec.encode call.arguments

@[simp] theorem arguments_ofArguments (dest : Pubkey) (arguments : Arguments) :
    (ofArguments dest arguments).arguments = arguments := by
  obtain ⟨method, args⟩ := arguments
  cases method <;> rfl

/-- The data and the account `to` are the whole call. -/
theorem ofArguments_arguments {call : Call} {dest : Pubkey} (h : ∀ a ∈ call.dest, a = dest) :
    ofArguments dest call.arguments = call := by
  cases call <;> simp_all [arguments, ofArguments, Call.dest]

theorem eq_of_arguments {call call' : Call} (h : call.arguments = call'.arguments)
    (hdest : call.dest = call'.dest) : call = call' := by
  obtain ⟨dest, hcall⟩ : ∃ dest, ∀ a ∈ call.dest, a = dest := by
    cases hcases : call.dest with
    | none => exact ⟨ID, by simp⟩
    | some dest => exact ⟨dest, by simp⟩
  have hcall' : ∀ a ∈ call'.dest, a = dest := by rwa [← hdest]
  rw [← ofArguments_arguments hcall, ← ofArguments_arguments hcall', h]

end Call

/-! ## Accounts

The structs differ in two ways: some have `to`, and `confirm_rotation` has the wallet alone. All end
with the two accounts of the self-CPI that carries the events. -/

/-- The seed of the event authority: `b"__event_authority"`. -/
def EVENT_AUTHORITY_SEED : List UInt8 :=
  [0x5f, 0x5f, 0x65, 0x76, 0x65, 0x6e, 0x74, 0x5f, 0x61, 0x75, 0x74, 0x68, 0x6f, 0x72, 0x69, 0x74,
    0x79]

/-- The PDA that signs the self-CPI of each event. -/
def eventAuthority (D : Deployment) : Option Pubkey :=
  (D.findProgramAddress [EVENT_AUTHORITY_SEED] ID).map Prod.fst

/-- The accounts a client lists, in the order of the struct: `to_account_metas`. -/
def Call.accountMetas (call : Call) (accounts : Accounts) (authority : Pubkey) :
    List AccountMeta :=
  match call with
  | confirmRotation _ =>
    [.new accounts.wallet false, .newReadonly authority false, .newReadonly ID false]
  | _ =>
    [.new accounts.wallet false, .new accounts.vault false]
      ++ call.dest.toList.map (.new · false)
      ++ [.new accounts.relayer accounts.relayerIsSigner,
        .newReadonly INSTRUCTIONS_SYSVAR false, .newReadonly SYSTEM_PROGRAM false,
        .newReadonly authority false, .newReadonly ID false]

/-- The addresses and privileges that do not depend on what the accounts hold. The program has to be
among the accounts for the self-CPI, wherever it is. -/
def Fixed (D : Deployment) (metas writable : List AccountMeta) (authority : AccountMeta) : Prop :=
  (∀ account ∈ writable, account.isWritable = true) ∧
    eventAuthority D = some authority.pubkey ∧ ∃ account ∈ metas, account.pubkey = ID

instance (D : Deployment) (metas writable : List AccountMeta) (authority : AccountMeta) :
    Decidable (Fixed D metas writable authority) :=
  inferInstanceAs (Decidable (_ ∧ _ ∧ _))

/-- The sysvar and the program that every struct of a signed method pins. -/
def Pinned (sysvar system : AccountMeta) : Prop :=
  sysvar.pubkey = INSTRUCTIONS_SYSVAR ∧ system.pubkey = SYSTEM_PROGRAM

instance (sysvar system : AccountMeta) : Decidable (Pinned sysvar system) :=
  inferInstanceAs (Decidable (_ ∧ _))

/-- The structs with `to`. -/
def loadPaying (D : Deployment) (metas : List AccountMeta) : Option (Accounts × Pubkey) :=
  match metas with
  | wallet :: vault :: dest :: relayer :: sysvar :: system :: authority :: _ =>
    if Fixed D metas [wallet, vault, dest, relayer] authority ∧ Pinned sysvar system then
      some (⟨wallet.pubkey, vault.pubkey, relayer.pubkey, relayer.isSigner⟩, dest.pubkey)
    else none
  | _ => none

/-- The structs without. The second component is not read. -/
def loadSigned (D : Deployment) (metas : List AccountMeta) : Option (Accounts × Pubkey) :=
  match metas with
  | wallet :: vault :: relayer :: sysvar :: system :: authority :: _ =>
    if Fixed D metas [wallet, vault, relayer] authority ∧ Pinned sysvar system then
      some (⟨wallet.pubkey, vault.pubkey, relayer.pubkey, relayer.isSigner⟩, wallet.pubkey)
    else none
  | _ => none

/-- The struct of `confirm_rotation`: of what it makes only the wallet is read. -/
def loadConfirming (D : Deployment) (metas : List AccountMeta) : Option (Accounts × Pubkey) :=
  match metas with
  | wallet :: authority :: _ =>
    if Fixed D metas [wallet] authority then
      some (⟨wallet.pubkey, wallet.pubkey, wallet.pubkey, false⟩, wallet.pubkey)
    else none
  | _ => none

/-- The accounts of a method's struct, and `to`. -/
def loadAccounts (D : Deployment) : Method → List AccountMeta → Option (Accounts × Pubkey)
  | .transferSol | .sweepVault | .closeWallet => loadPaying D
  | .setGuardians | .cancelRotation | .proposeRotation => loadSigned D
  | .confirmRotation => loadConfirming D

/-! ## The entry point -/

/-- How an instruction ends before or in its handler. -/
inductive EntryError where
  /-- `InstructionFallbackNotFound`: the data begins with no discriminator. -/
  | fallbackNotFound
  /-- `InstructionDidNotDeserialize`: the arguments do not follow. -/
  | didNotDeserialize
  /-- The accounts are not those of the struct. -/
  | accounts
  | handler (error : Error)
  deriving DecidableEq

/-- Anchor's event tag, which no discriminator is. -/
def EVENT_IX_TAG_LE : Vector UInt8 8 := #v[0xe4, 0x45, 0xa5, 0x2e, 0x51, 0xcb, 0x9a, 0x1d]

/-- The self-CPI of an event does nothing. Only the event authority may make it. -/
def dispatchEvent (D : Deployment) (metas : List AccountMeta) (chain : Chain) :
    Except EntryError (Chain × List Event) :=
  match metas with
  | authority :: _ =>
    if eventAuthority D = some authority.pubkey ∧ authority.isSigner = true then .ok (chain, [])
    else .error .accounts
  | [] => .error .accounts

/-- The handler for the arguments and the accounts read. -/
def dispatch (D : Deployment) (arguments : Arguments) (metas : List AccountMeta)
    (sysvars : Sysvars) (chain : Chain) : Except EntryError (Chain × List Event) :=
  match loadAccounts D arguments.1 metas with
  | some (accounts, dest) =>
    (execute D ⟨.ofArguments dest arguments, accounts, sysvars⟩ chain).mapError .handler
  | none => .error .accounts

/-- One instruction as the runtime hands it over. -/
def processInstruction (D : Deployment) (ix : TransactionInstruction) (sysvars : Sysvars)
    (chain : Chain) : Except EntryError (Chain × List Event) :=
  match Codec.kindOf Method.DISCRIMINATOR Method.all ix.data with
  | some _ =>
    match Arguments.codec.decodeFront ix.data with
    | some arguments => dispatch D arguments ix.accounts sysvars chain
    | none => .error .didNotDeserialize
  | none =>
    if EVENT_IX_TAG_LE.toList <+: ix.data then dispatchEvent D ix.accounts chain
    else .error .fallbackNotFound

/-- The call an instruction makes, with its accounts. -/
def invocationOf (D : Deployment) (sysvars : Sysvars) (ix : TransactionInstruction) :
    Option Invocation := do
  let arguments ← Arguments.codec.decodeFront ix.data
  let (accounts, dest) ← loadAccounts D arguments.1 ix.accounts
  some ⟨.ofArguments dest arguments, accounts, sysvars⟩

/-- The instruction a client sends for a call. -/
def Call.instruction (call : Call) (accounts : Accounts) (authority : Pubkey) :
    TransactionInstruction where
  programId := ID
  accounts := call.accountMetas accounts authority
  data := call.data

/-! ## Reading the data -/

section Data

variable {arguments arguments' : Arguments} {data : List UInt8}

/-- The data begins with the discriminator of its method. -/
theorem DISCRIMINATOR_isPrefix (h : Arguments.codec.encode arguments <+: data) :
    arguments.1.DISCRIMINATOR.toList <+: data := by
  have hfront : arguments.1.DISCRIMINATOR.toList <+: Arguments.codec.encode arguments :=
    List.prefix_append _ _
  exact hfront.trans h

theorem kindOf_data (h : Arguments.codec.encode arguments <+: data) :
    kindOf Method.DISCRIMINATOR Method.all data = some arguments.1 :=
  (kindOf_eq_some Method.mem_all Method.DISCRIMINATOR_injective).mpr (DISCRIMINATOR_isPrefix h)

/-- No data is that of two calls. -/
theorem arguments_eq_of_isPrefix (h : Arguments.codec.encode arguments <+: data)
    (h' : Arguments.codec.encode arguments' <+: data) : arguments = arguments' := by
  rw [← decodeFront_eq_some] at h h'
  exact Option.some_inj.mp (h.symm.trans h')

/-- The event tag begins the data of no call. -/
theorem not_eventTag_isPrefix (h : Arguments.codec.encode arguments <+: data) :
    ¬EVENT_IX_TAG_LE.toList <+: data := by
  intro htag
  have hne : ∀ method, Method.DISCRIMINATOR method ≠ EVENT_IX_TAG_LE := by
    intro method
    cases method <;> decide
  -- Two tags of the same size that begin the same bytes are one.
  have heq := tag_eq_of_prefix (DISCRIMINATOR_isPrefix h) htag
  exact hne _ heq

end Data

/-! ## Reading the accounts -/

section Loading

variable {D : Deployment} {accounts : Accounts} {authority : Pubkey} (rest : List AccountMeta)

/-- The program is among the accounts. -/
private theorem program_mem_accountMetas (call : Call) :
    ∃ account ∈ call.accountMetas accounts authority ++ rest, account.pubkey = ID := by
  refine ⟨.newReadonly ID false, List.mem_append_left _ ?_, rfl⟩
  cases call <;> simp [Call.accountMetas]

/-- The accounts a client lists are in the places the struct reads them from. -/
theorem loadAccounts_accountMetas (call : Call) (accounts : Accounts)
    (h : eventAuthority D = some authority) (hauth : call.authorization ≠ none) :
    ∃ dest, (∀ a ∈ call.dest, a = dest) ∧
      loadAccounts D call.method (call.accountMetas accounts authority ++ rest)
        = some (accounts, dest) := by
  cases call with
  | confirmRotation => exact absurd rfl hauth
  | transferSol _ dest | sweepVault _ dest | closeWallet _ dest =>
    refine ⟨dest, fun a ha ↦ (Option.some_inj.mp ha).symm, ?_⟩
    exact if_pos ⟨⟨by simp [AccountMeta.new], h, program_mem_accountMetas rest _⟩, rfl, rfl⟩
  | setGuardians | cancelRotation | proposeRotation =>
    refine ⟨accounts.wallet, fun a ha ↦ (by cases ha), ?_⟩
    exact if_pos ⟨⟨by simp [AccountMeta.new], h, program_mem_accountMetas rest _⟩, rfl, rfl⟩

theorem loadAccounts_confirming (walletId : WalletId) (h : eventAuthority D = some authority) :
    loadAccounts D .confirmRotation
        ((Call.confirmRotation walletId).accountMetas accounts authority ++ rest)
      = some (⟨accounts.wallet, accounts.wallet, accounts.wallet, false⟩, accounts.wallet) :=
  if_pos ⟨by simp [AccountMeta.new], h, program_mem_accountMetas rest _⟩

end Loading

/-- The list of a signed call. -/
theorem accountMetas_of_authorization {call : Call} {auth : Authorization}
    (h : call.authorization = some auth) (accounts : Accounts) (authority : Pubkey) :
    call.accountMetas accounts authority
      = [.new accounts.wallet false, .new accounts.vault false]
        ++ call.dest.toList.map (.new · false)
        ++ [.new accounts.relayer accounts.relayerIsSigner,
          .newReadonly INSTRUCTIONS_SYSVAR false, .newReadonly SYSTEM_PROGRAM false,
          .newReadonly authority false, .newReadonly ID false] := by
  cases call with
  | confirmRotation => cases h
  | _ => rfl

/-- The relayer is in the client's list of a signed call, as the signer it is. -/
theorem relayer_mem_accountMetas {call : Call} {auth : Authorization} {accounts : Accounts}
    {authority : Pubkey} (h : call.authorization = some auth) :
    AccountMeta.new accounts.relayer accounts.relayerIsSigner
      ∈ call.accountMetas accounts authority := by
  rw [accountMetas_of_authorization h]
  exact List.mem_append_right _ List.mem_cons_self

/-- So is the account it pays to. -/
theorem dest_mem_accountMetas {call : Call} {auth : Authorization} {accounts : Accounts}
    {authority a : Pubkey} (h : call.authorization = some auth) (hdest : call.dest = some a) :
    AccountMeta.new a false ∈ call.accountMetas accounts authority := by
  rw [accountMetas_of_authorization h, hdest]
  exact List.mem_append_left _ (List.mem_append_right _ List.mem_cons_self)

/-- A confirmation reads the wallet's account and no other. -/
theorem execute_confirmRotation_congr (D : Deployment) (walletId : WalletId)
    {accounts accounts' : Accounts} (sysvars : Sysvars) (chain : Chain)
    (h : accounts.wallet = accounts'.wallet) :
    execute D ⟨.confirmRotation walletId, accounts, sysvars⟩ chain
      = execute D ⟨.confirmRotation walletId, accounts', sysvars⟩ chain := by
  simp only [execute, Accounts.confirming, loadWallet, writeBack, h]

/-! ## Both ways -/

section Process

variable {D : Deployment} {ix : TransactionInstruction} {sysvars : Sysvars} {chain : Chain}

theorem processInstruction_of_data {arguments : Arguments}
    (h : Arguments.codec.encode arguments <+: ix.data) :
    processInstruction D ix sysvars chain = dispatch D arguments ix.accounts sysvars chain := by
  rw [processInstruction, kindOf_data h, decodeFront_eq_some.mpr h]

theorem dispatch_of_load {arguments : Arguments} {metas : List AccountMeta} {accounts : Accounts}
    {dest : Pubkey} (h : loadAccounts D arguments.1 metas = some (accounts, dest)) :
    dispatch D arguments metas sysvars chain
      = (execute D ⟨.ofArguments dest arguments, accounts, sysvars⟩ chain).mapError .handler := by
  rw [dispatch, h]

theorem mapError_eq_ok {α ε ε' : Type} {x : Except ε α} {f : ε → ε'} {a : α} :
    x.mapError f = .ok a ↔ x = .ok a := by
  cases x <;> simp [Except.mapError]

theorem invocationOf_eq_some {inv : Invocation} :
    invocationOf D sysvars ix = some inv ↔ ∃ arguments accounts dest,
      Arguments.codec.decodeFront ix.data = some arguments ∧
      loadAccounts D arguments.1 ix.accounts = some (accounts, dest) ∧
      (⟨.ofArguments dest arguments, accounts, sysvars⟩ : Invocation) = inv := by
  rw [invocationOf, Option.bind_eq_bind, Option.bind_eq_some_iff]
  refine exists_congr fun arguments ↦ ?_
  rw [Option.bind_eq_bind, Option.bind_eq_some_iff, Prod.exists]
  simp only [Option.some_inj, exists_and_left]

/-- The self-CPI of an event needs its authority, and does nothing. -/
theorem of_dispatchEvent {metas : List AccountMeta} {result : Chain × List Event}
    (h : dispatchEvent D metas chain = .ok result) :
    result = (chain, []) ∧
      ∃ account ∈ metas, eventAuthority D = some account.pubkey ∧ account.isSigner = true := by
  cases metas with
  | nil => cases h
  | cons account rest =>
    rw [dispatchEvent] at h
    split_ifs at h with hsigned
    cases h
    exact ⟨rfl, account, List.mem_cons_self, hsigned⟩

/-- **What is acted on is one call**, or the self-CPI of an event. -/
theorem execute_of_processInstruction {result : Chain × List Event}
    (h : processInstruction D ix sysvars chain = .ok result) :
    (EVENT_IX_TAG_LE.toList <+: ix.data ∧ dispatchEvent D ix.accounts chain = .ok result) ∨
      ∃ inv, invocationOf D sysvars ix = some inv ∧ execute D inv chain = .ok result := by
  rw [processInstruction] at h
  split at h
  · split at h
    · rename_i arguments hfront
      right
      rw [dispatch] at h
      split at h
      · rename_i accounts dest hload
        rw [mapError_eq_ok] at h
        exact ⟨_, invocationOf_eq_some.mpr ⟨arguments, accounts, dest, hfront, hload, rfl⟩, h⟩
      · cases h
    · cases h
  · split_ifs at h with htag
    exact .inl ⟨htag, h⟩

theorem processInstruction_of_invocation {inv : Invocation}
    (h : invocationOf D sysvars ix = some inv) :
    processInstruction D ix sysvars chain = (execute D inv chain).mapError .handler := by
  obtain ⟨arguments, accounts, dest, hfront, hload, rfl⟩ := invocationOf_eq_some.mp h
  rw [processInstruction_of_data (decodeFront_eq_some.mp hfront), dispatch_of_load hload]

/-- The call is what the data says, with the account `to` where there is one. -/
theorem data_of_invocationOf {inv : Invocation} (h : invocationOf D sysvars ix = some inv) :
    inv.call.data <+: ix.data ∧ inv.sysvars = sysvars ∧ ∃ dest, (∀ a ∈ inv.call.dest, a = dest) ∧
      loadAccounts D inv.call.method ix.accounts = some (inv.accounts, dest) := by
  obtain ⟨arguments, accounts, dest, hfront, hload, rfl⟩ := invocationOf_eq_some.mp h
  rw [decodeFront_eq_some] at hfront
  refine ⟨?_, rfl, dest, ?_, ?_⟩
  · rw [Call.data, Call.arguments_ofArguments]
    exact hfront
  · obtain ⟨method, args⟩ := arguments
    cases method <;> simp [Call.ofArguments, Call.dest]
  · rw [Call.method, Call.arguments_ofArguments]
    exact hload

/-- **What a client sends is what is executed**, whatever comes after the arguments and after the
accounts. -/
theorem processInstruction_instruction (call : Call) (accounts : Accounts) {authority : Pubkey}
    (h : eventAuthority D = some authority) (more : List UInt8) (rest : List AccountMeta) :
    processInstruction D ⟨ID, call.accountMetas accounts authority ++ rest, call.data ++ more⟩
        sysvars chain
      = (execute D ⟨call, accounts, sysvars⟩ chain).mapError .handler := by
  have hdata : Arguments.codec.encode call.arguments <+: call.data ++ more := List.prefix_append _ _
  rw [processInstruction_of_data hdata]
  by_cases hauth : call.authorization = none
  · cases call with
    | confirmRotation walletId =>
      refine (dispatch_of_load (loadAccounts_confirming rest walletId h)).trans ?_
      exact congrArg _ (execute_confirmRotation_congr D walletId sysvars chain rfl)
    | _ => cases hauth
  · obtain ⟨dest, hdest, hload⟩ := loadAccounts_accountMetas rest call accounts h hauth
    refine (dispatch_of_load hload).trans ?_
    rw [Call.ofArguments_arguments hdest]

end Process

/-! ## The places of the struct -/

/-- The accounts are in the places of the client's list, with the privileges it asks for. The last
of the list, the program, may be anywhere. -/
structure Placed (metas asked : List AccountMeta) : Prop where
  places : asked.dropLast.map AccountMeta.pubkey <+: metas.map AccountMeta.pubkey
  granted : ∀ account ∈ asked, ∃ given ∈ metas, given.Grants account

section Placed

variable {given body : List AccountMeta}

/-- A writable account grants what is asked of it. -/
private theorem grants_new {account : AccountMeta} (h : account.isWritable = true) :
    account.Grants (.new account.pubkey false) :=
  ⟨rfl, fun _ ↦ h, fun hsigner ↦ (by cases hsigner)⟩

private theorem grants_signer {account : AccountMeta} (h : account.isWritable = true) :
    account.Grants (.new account.pubkey account.isSigner) :=
  ⟨rfl, fun _ ↦ h, id⟩

/-- Any account at the address does. -/
private theorem grants_newReadonly {account : AccountMeta} {a : Pubkey} (h : account.pubkey = a) :
    account.Grants (.newReadonly a false) :=
  ⟨h, fun hwritable ↦ (by cases hwritable), fun hsigner ↦ (by cases hsigner)⟩

theorem pubkeys_of_grants (h : List.Forall₂ AccountMeta.Grants given body) :
    body.map AccountMeta.pubkey = given.map AccountMeta.pubkey := by
  induction h with
  | nil => rfl
  | cons hgrants _ ih => rw [List.map_cons, List.map_cons, hgrants.1, ih]

theorem exists_grants (h : List.Forall₂ AccountMeta.Grants given body) {account : AccountMeta}
    (hmem : account ∈ body) : ∃ account' ∈ given, account'.Grants account := by
  induction h with
  | nil => cases hmem
  | cons hgrants _ ih =>
    rcases List.mem_cons.mp hmem with rfl | hmem
    · exact ⟨_, List.mem_cons_self, hgrants⟩
    · obtain ⟨account', hmem', hgrants'⟩ := ih hmem
      exact ⟨account', List.mem_cons_of_mem _ hmem', hgrants'⟩

theorem placed_of_grants (given body rest : List AccountMeta)
    (h : List.Forall₂ AccountMeta.Grants given body)
    (hprogram : ∃ account ∈ given ++ rest, account.pubkey = ID) :
    Placed (given ++ rest) (body ++ [.newReadonly ID false]) := by
  constructor
  · rw [List.dropLast_concat, List.map_append, pubkeys_of_grants h]
    exact List.prefix_append _ _
  · intro account hmem
    rcases List.mem_append.mp hmem with hmem | hmem
    · obtain ⟨account', hmem', hgrants⟩ := exists_grants h hmem
      exact ⟨account', List.mem_append_left _ hmem', hgrants⟩
    · obtain ⟨account', hmem', hid⟩ := hprogram
      rw [List.mem_singleton] at hmem
      rw [hmem]
      exact ⟨account', hmem', grants_newReadonly hid⟩

variable {D : Deployment} {metas : List AccountMeta} {accounts : Accounts} {dest : Pubkey}

/-- **The struct is where the client's list puts it.** -/
theorem placed_of_loadAccounts {call : Call} (hdest : ∀ a ∈ call.dest, a = dest)
    (h : loadAccounts D call.method metas = some (accounts, dest)) :
    ∃ authority, eventAuthority D = some authority ∧
      Placed metas (call.accountMetas accounts authority) := by
  cases call with
  | transferSol _ dest' | sweepVault _ dest' | closeWallet _ dest' =>
    obtain rfl : dest' = dest := hdest _ rfl
    change loadPaying D metas = some (accounts, dest') at h
    unfold loadPaying at h
    split at h
    · rename_i wallet vault to' relayer sysvar system given rest
      split_ifs at h with hchecks
      obtain ⟨⟨hwritable, hgiven, hprogram⟩, hsysvar, hsystem⟩ := hchecks
      cases h
      refine ⟨_, hgiven,
        placed_of_grants [_, _, _, _, _, _, _] [_, _, _, _, _, _, _] rest ?_ hprogram⟩
      simp only [List.forall_mem_cons] at hwritable
      obtain ⟨hw, hv, hto, hr, -⟩ := hwritable
      exact .cons (grants_new hw) <| .cons (grants_new hv) <| .cons (grants_new hto) <|
        .cons (grants_signer hr) <| .cons (grants_newReadonly hsysvar) <|
        .cons (grants_newReadonly hsystem) <| .cons (grants_newReadonly rfl) .nil
    · cases h
  | setGuardians | cancelRotation | proposeRotation =>
    change loadSigned D metas = some (accounts, dest) at h
    unfold loadSigned at h
    split at h
    · rename_i wallet vault relayer sysvar system given rest
      split_ifs at h with hchecks
      obtain ⟨⟨hwritable, hgiven, hprogram⟩, hsysvar, hsystem⟩ := hchecks
      cases h
      refine ⟨_, hgiven, placed_of_grants [_, _, _, _, _, _] [_, _, _, _, _, _] rest ?_ hprogram⟩
      simp only [List.forall_mem_cons] at hwritable
      obtain ⟨hw, hv, hr, -⟩ := hwritable
      exact .cons (grants_new hw) <| .cons (grants_new hv) <| .cons (grants_signer hr) <|
        .cons (grants_newReadonly hsysvar) <| .cons (grants_newReadonly hsystem) <|
        .cons (grants_newReadonly rfl) .nil
    · cases h
  | confirmRotation =>
    change loadConfirming D metas = some (accounts, dest) at h
    unfold loadConfirming at h
    split at h
    · rename_i wallet given rest
      split_ifs at h with hchecks
      obtain ⟨hwritable, hgiven, hprogram⟩ := hchecks
      cases h
      refine ⟨_, hgiven, placed_of_grants [_, _] [_, _] rest ?_ hprogram⟩
      simp only [List.forall_mem_cons] at hwritable
      exact .cons (grants_new hwritable.1) <| .cons (grants_newReadonly rfl) .nil
    · cases h

theorem placed_of_invocationOf {ix : TransactionInstruction} {sysvars : Sysvars} {inv : Invocation}
    (h : invocationOf D sysvars ix = some inv) :
    ∃ authority, eventAuthority D = some authority ∧
      Placed ix.accounts (inv.call.accountMetas inv.accounts authority) := by
  obtain ⟨-, -, dest, hdest, hload⟩ := data_of_invocationOf h
  exact placed_of_loadAccounts hdest hload

theorem Placed.writable {asked : List AccountMeta} (h : Placed metas asked) {account : AccountMeta}
    (hmem : account ∈ asked) (hwritable : account.isWritable = true) :
    ∃ given ∈ metas, given.pubkey = account.pubkey ∧ given.isWritable = true := by
  obtain ⟨given, hgiven, hpubkey, hwrite, -⟩ := h.granted account hmem
  exact ⟨given, hgiven, hpubkey, hwrite hwritable⟩

theorem Placed.signer {asked : List AccountMeta} (h : Placed metas asked) {account : AccountMeta}
    (hmem : account ∈ asked) (hsigner : account.isSigner = true) :
    ∃ given ∈ metas, given.pubkey = account.pubkey ∧ given.isSigner = true := by
  obtain ⟨given, hgiven, hpubkey, -, hsign⟩ := h.granted account hmem
  exact ⟨given, hgiven, hpubkey, hsign hsigner⟩

/-- The relayer signs where it is said to. -/
theorem signer_of_invocationOf {ix : TransactionInstruction} {sysvars : Sysvars} {inv : Invocation}
    (h : invocationOf D sysvars ix = some inv) (hsigner : inv.accounts.relayerIsSigner = true) :
    ∃ account ∈ ix.accounts, account.pubkey = inv.accounts.relayer ∧ account.isSigner = true := by
  cases hauth : inv.call.authorization with
  | some auth =>
    obtain ⟨authority, -, hplaced⟩ := placed_of_invocationOf h
    exact hplaced.signer (relayer_mem_accountMetas hauth) hsigner
  | none =>
    -- A confirmation has no relayer.
    obtain ⟨-, -, dest, -, hload⟩ := data_of_invocationOf h
    cases hcall : inv.call with
    | confirmRotation =>
      rw [hcall] at hload
      change loadConfirming D ix.accounts = _ at hload
      unfold loadConfirming at hload
      split at hload
      · split_ifs at hload
        rw [Option.some_inj, Prod.mk.injEq] at hload
        rw [← hload.1] at hsigner
        cases hsigner
      · cases hload
    | _ =>
      rw [hcall] at hauth
      cases hauth

end Placed

end EnclaveKit
