import SbGateway.Agent.XraySafety
import SbGateway.PolicyDns.Load
import SbGateway.Agent.HealthConfirmed
import SbGateway.RuntimeConfig.DnsCompaction
import SbGateway.RuntimeConfig.SourceOwner
import SbGateway.RuntimeConfig.NodeLoop
import SbGateway.RouterOS.Runs
import SbGateway.RuntimeConfig.CandidateRuns
import SbGateway.ControlPlane.PasswordChange
import SbGateway.ControlPlane.SubscriptionQuota
import SbGateway.ControlPlane.SubscriptionCrash
import SbGateway.PolicyDns.Questions
import SbGateway.PolicyDns.Sharing
import SbGateway.Agent.ProbeBudget
import SbGateway.Recovery.PendingAtomic
import SbGateway.RuntimeConfig.RouterOSDelta
import SbGateway.MemoryBudget.Loan
import SbGateway.ControlPlane.SubscriptionIdentity
import SbGateway.Watchdog.Discipline
import SbGateway.Appliance.DiagnosticLog
import SbGateway.Appliance.Supervisor
import SbGateway.ClientProfile.CIDRs
import SbGateway.Rulesets.ActivePacks
import SbGateway.RuntimeConfig.ListenerConflicts
import SbGateway.Agent.Reservoir
import SbGateway.Agent.EmergencyChoice
import SbGateway.ClientProfile.Exceptions
