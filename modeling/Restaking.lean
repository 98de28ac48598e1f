import Restaking.Lib.OrderedMap
import Restaking.Lib.Run
import Restaking.Lib.Threshold
import Restaking.Lib.Ballot
import Restaking.Wire
import Restaking.TaskBook
import Restaking.TaskBookSpec
import Restaking.TaskBookAnswers
import Restaking.NodeReporter
import Restaking.TipMirror
import Restaking.Scheme
import Restaking.CertReporter
import Restaking.Sequencer
import Restaking.Submitter
import Restaking.Router
import Restaking.RouterSteps
import Restaking.ReleaseBuild
import Restaking.SerialAssignment
import Restaking.DirectiveStream
import Restaking.Submissions
import Restaking.OnChain
import Restaking.Leftovers
import Restaking.Automaton
import Restaking.Cluster
import Restaking.TaskBookOrigins
import Restaking.TaskAgreement
import Restaking.SplitVote
import Restaking.Supersede
import Restaking.Lib.FirstSeen
import Restaking.AnswerOrder
import Restaking.Answerable
import Restaking.SafeTip
import Restaking.CertificateTap
import Restaking.CertificateIndex
import Restaking.HeightBound
import Restaking.Lib.Codec
import Restaking.Lib.Leb128
import Restaking.DirectiveCodec
import Restaking.Lib.FixedWidth
import Restaking.Lib.CompressedPoint
import Restaking.Bn254
import Restaking.Lib.Pairing
import Restaking.Signing
import Restaking.Multisig
import Restaking.TaskBookState
import Restaking.SigningPaths
import Restaking.RetryBudget
import Restaking.TaskDigests
import Restaking.Lib.Settling
import Restaking.Submitting
import Restaking.SubmitterOutcomes
import Restaking.SubmitterSchedule
import Restaking.SkipClassification
import Restaking.OperatorCache
import Restaking.Deliveries
import Restaking.CertifiedDigests
import Restaking.OwnCertificates
import Restaking.CounterApp
import Restaking.Lib.Simulation
import Restaking.Worklist
import Restaking.TaskPipeline
import Restaking.Lib.Liveness
import Restaking.RouterQueues
import Restaking.Progress
import Restaking.Restarts
import Restaking.Lib.RateLimit
import Restaking.Intake
import Restaking.Proposals
import Restaking.OperatorSet
import Restaking.RetrySchedule
import Restaking.Queries
import Restaking.TimerProgress
import Restaking.TaskBookWaiters
import Restaking.ProposalSteps
import Restaking.ProposalProgress
import Restaking.Lib.Component
import Restaking.HeightOutcomes
import Restaking.DeploymentProgress
