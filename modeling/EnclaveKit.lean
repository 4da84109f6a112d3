import EnclaveKit.Foundation.Codec
import EnclaveKit.Foundation.Fallible
import EnclaveKit.Foundation.MachineInt
import EnclaveKit.Foundation.Run
import EnclaveKit.Foundation.Schedule
import EnclaveKit.Foundation.Layout
import EnclaveKit.Foundation.Union
import EnclaveKit.Solana.Ledger
import EnclaveKit.Solana.Platform
import EnclaveKit.Solana.Rent
import EnclaveKit.Solana.Supply
import EnclaveKit.Solana.Transaction
import EnclaveKit.Encoding.Action
import EnclaveKit.Encoding.Preimage
import EnclaveKit.Encoding.State
import EnclaveKit.Program.State
import EnclaveKit.Program.Layout
import EnclaveKit.Program.Error
import EnclaveKit.Program.Precompile
import EnclaveKit.Program.Authorization
import EnclaveKit.Program.Accounts
import EnclaveKit.Program.Instructions
import EnclaveKit.Program.Entry
import EnclaveKit.Program.Events
import EnclaveKit.Program.Effect
import EnclaveKit.Program.Enabled
import EnclaveKit.Program.Frame
import EnclaveKit.Chain.System
import EnclaveKit.Chain.Invariant
import EnclaveKit.Chain.Wallet
import EnclaveKit.Chain.Life
import EnclaveKit.Chain.Proposal
import EnclaveKit.Chain.Vault
import EnclaveKit.Chain.Presented
import EnclaveKit.Chain.Rent
import EnclaveKit.Chain.Policy
import EnclaveKit.Chain.Transaction
import EnclaveKit.Chain.Vectors
import EnclaveKit.Client.Request
import EnclaveKit.Client.Pair
import EnclaveKit.Client.Published
import EnclaveKit.Client.Kora
import EnclaveKit.Properties.Format
import EnclaveKit.Properties.Payload
import EnclaveKit.Properties.Signing
import EnclaveKit.Properties.Identity
import EnclaveKit.Properties.Authority
import EnclaveKit.Properties.Discovery
import EnclaveKit.Properties.Guardians
import EnclaveKit.Properties.Balances
import EnclaveKit.Properties.Indexer
import EnclaveKit.Properties.Timelock
import EnclaveKit.Properties.Proposals
import EnclaveKit.Properties.Lockout
import EnclaveKit.Properties.Transfer
import EnclaveKit.Properties.Emptying
import EnclaveKit.Properties.Interference
import EnclaveKit.Properties.Sequencing
import EnclaveKit.Properties.Replay
import EnclaveKit.Properties.Revocation
import EnclaveKit.Properties.Entry
import EnclaveKit.Properties.Acceptance
import EnclaveKit.Properties.Refusals
import EnclaveKit.Properties.Stability
import EnclaveKit.Properties.Spending
import EnclaveKit.Properties.Relayer
import EnclaveKit.Properties.Recovery
import EnclaveKit.Properties.Isolation
import EnclaveKit.Properties.Transactions
import EnclaveKit.Properties.Requests
import EnclaveKit.Properties.Kora
