import Savitri.CellCertification
import Savitri.CellConfluence
import Savitri.CommitPoller
import Savitri.ExecutorAgreement
import Savitri.CommitSupply
import Savitri.CommitOrder
import Savitri.SchedulerCursors
import Savitri.SchedulerLosers
import Savitri.SchedulerConfluence
import Savitri.VoteSections
import Savitri.VoteRoots
import Savitri.Agreement
import Savitri.TxSignature
import Savitri.DagOrder
import Savitri.LatencyCache
import Savitri.GroupApproval
import Savitri.MempoolCounters
import Savitri.DrainPairing
import Savitri.FinalValidation
import Savitri.StorageRoot
import Savitri.TokenOwnership
import Savitri.EvmJumps
import Savitri.MerkleTrie
import Savitri.ConsensusMerkle
import Savitri.Bonds
import Savitri.TreasuryBalance
import Savitri.ProposalLifecycle
import Savitri.GroupMembership
import Savitri.Slashing
import Savitri.CertificateIndexes
import Savitri.CertificateValidation
import Savitri.BftRuns
import Savitri.SlotLeaders
import Savitri.PivotShares
import Savitri.PouState
import Savitri.EvmStraightLine
import Savitri.MempoolBatches
import Savitri.QueuedRuns
import Savitri.NonceConflicts
