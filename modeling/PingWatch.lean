import PingWatch.Main
import PingWatch.Supervisor.Run
import PingWatch.Echo.Round
import PingWatch.Proofs.Supervisor.FirstFailure
import PingWatch.Proofs.Supervisor.Ceiling
import PingWatch.Proofs.Supervisor.Startup
import PingWatch.Proofs.Prober.Conservation
import PingWatch.Proofs.Prober.Flush
import PingWatch.Proofs.Prober.FanOut
import PingWatch.Proofs.Prober.Admission
import PingWatch.Proofs.Metric.Refusals
import PingWatch.Proofs.Prober.Independence
import PingWatch.Proofs.Config.Accepted
import PingWatch.Proofs.Prober.Capacity
import PingWatch.Proofs.Prober.Agenda
import PingWatch.Proofs.Prober.Progress
import PingWatch.Proofs.Prober.Schedule
import PingWatch.Proofs.Supervisor.Loops
import PingWatch.Proofs.Supervisor.Probers
import PingWatch.Echo.Check
import PingWatch.Proofs.Config.Timing
import PingWatch.Proofs.Echo.Deadline
import PingWatch.Proofs.Echo.Replies
import PingWatch.Proofs.Prober.EchoChecks
import PingWatch.Proofs.Echo.Prompt
import PingWatch.Proofs.Echo.Course
import PingWatch.Proofs.Echo.Shares
import PingWatch.Proofs.Metric.Sinks
import PingWatch.Proofs.Metric.Collected
import PingWatch.Proofs.Text.Numeral
import PingWatch.Proofs.Text.Trimming
import PingWatch.Proofs.Text.Cutting
import PingWatch.Proofs.Duration.Written
import PingWatch.Proofs.Config.Lines
import PingWatch.Proofs.Outcome
import PingWatch.Proofs.Config.Readers
import PingWatch.Proofs.Config.KeyByKey
import PingWatch.Proofs.Target.Loading
import PingWatch.Proofs.Text.Entries
import PingWatch.Proofs.Target.Listing
import PingWatch.Proofs.Config.Separation
import PingWatch.Proofs.Aggregate.Histories
import PingWatch.Proofs.Address.Figures
import PingWatch.Proofs.Address.Printed
import PingWatch.Proofs.Address.Server
import PingWatch.Proofs.Echo.Summaries
