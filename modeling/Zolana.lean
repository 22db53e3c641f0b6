import Zolana.Basic.Oracle
import Zolana.Basic.BigEndian
import Zolana.Basic.HashChain
import Zolana.Basic.Ledger
import Zolana.Basic.Paging
import Zolana.Basic.Polling
import Zolana.Basic.Refinement
import Zolana.Basic.Custody
import Zolana.Basic.Layout
import Zolana.Spp.Field
import Zolana.Spp.Gnark
import Zolana.Spp.Crypto
import Zolana.Spp.Program
import Zolana.Spp.Transact
import Zolana.Spp.System
import Zolana.Spp.Custody
import Zolana.Spp.Deployment
import Zolana.Spp.Wallet
import Zolana.Spp.Client
import Zolana.Spp.Reclaim
import Zolana.Spp.Agreement
import Zolana.Spp.Prover
import Zolana.Spp.ProofInputMap
import Zolana.Spp.Execution
import Zolana.Swap.Circuits
import Zolana.Swap.Program
import Zolana.Swap.Settlement
import Zolana.Swap.Confinement
import Zolana.Swap.Lifecycle
import Zolana.Swap.Custody
import Zolana.Swap.Making
import Zolana.Swap.Order
import Zolana.Swap.Commitment
import Zolana.Swap.Recovery
import Zolana.Swap.Index
import Zolana.Swap.MakerIndex
import Zolana.Swap.MakerPass
import Zolana.Swap.Polling
import Zolana.Swap.Discovery
import Zolana.Swap.Registry
import Zolana.Swap.Instruction
import Zolana.Accounts
import Zolana.Spp.Progress
import Zolana.Swap.Proof
import Zolana.Swap.TermsHash
import Zolana.Swap.Witness
import Zolana.Swap.WitnessEncryption
import Zolana.Swap.Reclaim
import Zolana.Swap.Agreement
import Zolana.Swap.Prover
import Zolana.Swap.ProofInputMap
import Zolana.Swap.SettleInstruction
import Zolana.Swap.Delivery
import Zolana.Swap.CancelDelivery
import Zolana.Swap.MakeDelivery
import Zolana.Swap.FoundOrders
import Zolana.TimelockEscrow.Circuits
import Zolana.TimelockEscrow.Program
import Zolana.TimelockEscrow.Timelock
import Zolana.TimelockEscrow.Custody
import Zolana.TimelockEscrow.Proof
import Zolana.TimelockEscrow.Reclaim
import Zolana.TimelockEscrow.Agreement
import Zolana.TimelockEscrow.Prover
import Zolana.TimelockEscrow.ProofInputMap
import Zolana.TimelockEscrow.Delivery
import Zolana.Funding
import Zolana.Interleaving
