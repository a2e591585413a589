import Sunstorm.Await.Proofs.ProcProofs
import Sunstorm.Await.Proofs.StepProofs
import Sunstorm.Machine.Proofs.MachineProofs
import Sunstorm.Dict.Proofs.DictProofs
import Sunstorm.Codec.Proofs.DecimalProofs
import Sunstorm.Codec.Proofs.JoinProofs
import Sunstorm.Codec.Proofs.ReaderProofs
import Sunstorm.Sorting.Proofs.SortingProofs
import Sunstorm.Tally.Proofs.TallyProofs
import Sunstorm.Commitment.Proofs.CommitmentProofs
import Sunstorm.Postgres.Proofs.FrameProofs
import Sunstorm.Experiment.Proofs.CollectorProofs
import Sunstorm.Experiment.Proofs.TagProofs
import Sunstorm.Tools.Proofs.DeploymentProofs
import Sunstorm.Tools.Proofs.NeonctlProofs
import Sunstorm.Xactserver.Proofs.AbandonProofs
import Sunstorm.Xactserver.Proofs.AgreementProofs
import Sunstorm.Xactserver.Proofs.AtomicityProofs
import Sunstorm.Xactserver.Proofs.BlameProofs
import Sunstorm.Xactserver.Proofs.CallsProofs
import Sunstorm.Xactserver.Proofs.ChannelProofs
import Sunstorm.Xactserver.Proofs.ClusterProofs
import Sunstorm.Xactserver.Proofs.DecisionProofs
import Sunstorm.Xactserver.Proofs.DuplicateProofs
import Sunstorm.Xactserver.Proofs.EquivocationProofs
import Sunstorm.Xactserver.Proofs.FormatProofs
import Sunstorm.Xactserver.Proofs.HonestProofs
import Sunstorm.Xactserver.Proofs.LaunchProofs
import Sunstorm.Xactserver.Proofs.LifecycleProofs
import Sunstorm.Xactserver.Proofs.NumberingProofs
import Sunstorm.Xactserver.Proofs.RepeatProofs
import Sunstorm.Xactserver.Proofs.ReplyProofs
import Sunstorm.Xactserver.Proofs.StandingProofs
import Sunstorm.Xactserver.Proofs.UndisturbedProofs
import Sunstorm.Xactserver.Proofs.OutcomeProofs
import Sunstorm.Xactserver.Proofs.IsolationProofs
import Sunstorm.Xactserver.Proofs.MetricsProofs
import Sunstorm.Experiment.Proofs.ReloadProofs
import Sunstorm.Tools.Proofs.ReportProofs
import Sunstorm.Xactserver.Proofs.ProcessProofs
import Sunstorm.Tools.Proofs.NeoncloneProofs
import Sunstorm.Tools.Proofs.RunBenchmarkProofs
