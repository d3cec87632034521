import Gouroboros.Ledger.Shelley.VrfKeys
import Gouroboros.Ledger.Conway.ValuePreservation
import Gouroboros.Ledger.Conway.CertificateSplit
import Gouroboros.Ledger.Dijkstra.AccountAgreement
import Gouroboros.Ledger.Common.AdaPots
import Gouroboros.Pipeline.ReorderBuffer
import Gouroboros.Protocol.ChainSync.ClientLocks
import Gouroboros.Protocol.TxSubmission.Windows
import Gouroboros.Ledger.Leios.QuorumIntersection
import Gouroboros.Protocol.BlockFetch.InStep
import Gouroboros.Ledger.Common.StackedQueries
import Gouroboros.Consensus.Byron.Pbft
import Gouroboros.Kes.Binding
import Gouroboros.Consensus.EligibilityDomain
import Gouroboros.Protocol.Stream.EndToEnd
import Gouroboros.Protocol.BlockFetch.Range.Segment
import Gouroboros.Consensus.HeaderChain
import Gouroboros.Muxer.Egress
import Gouroboros.Ledger.Common.NativeScript
import Gouroboros.Consensus.Tachys
import Gouroboros.Ledger.Dijkstra.AssetGroup
import Gouroboros.Ledger.Conway.RefScriptFee
import Gouroboros.Consensus.Byron.MinFee
import Gouroboros.Consensus.Byron.DelegationRestart
import Gouroboros.Ledger.Byron.BodyProof
