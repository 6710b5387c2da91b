import ConPaaS.Autoscaling.Averages
import ConPaaS.Autoscaling.Candidates
import ConPaaS.Autoscaling.Clustering
import ConPaaS.Autoscaling.CostRanking
import ConPaaS.Autoscaling.Costs
import ConPaaS.Autoscaling.DecisionConsistency
import ConPaaS.Autoscaling.Forecasts
import ConPaaS.Autoscaling.NewResources
import ConPaaS.Autoscaling.NodeWeights
import ConPaaS.Autoscaling.RemovalCandidates
import ConPaaS.Autoscaling.ScalingActions
import ConPaaS.Autoscaling.ScalingDecisions
import ConPaaS.Autoscaling.TimeStamps
import ConPaaS.Core.Arguments
import ConPaaS.Core.Git
import ConPaaS.Core.Ipop
import ConPaaS.Core.NodeIdentity
import ConPaaS.Director.ApplicationNames
import ConPaaS.Director.ApplicationStatus
import ConPaaS.Director.Billing
import ConPaaS.Director.Certificates
import ConPaaS.Director.CreditExhaustion
import ConPaaS.Director.CreditRuns
import ConPaaS.Director.FloatingIps
import ConPaaS.Director.LaunchedMachines
import ConPaaS.Director.Listing
import ConPaaS.Director.ManagerIsolation
import ConPaaS.Director.ManifestImport
import ConPaaS.Director.NodeTransport
import ConPaaS.Director.NodeVolumes
import ConPaaS.Director.SanityChecks
import ConPaaS.Director.ServiceRecords
import ConPaaS.Generic.Removals
import ConPaaS.HTC.BagRuns
import ConPaaS.HTC.CostRuns
import ConPaaS.HTC.Dynamic
import ConPaaS.HTC.Greedy
import ConPaaS.Https.Multipart
import ConPaaS.Https.RoleCheck
import ConPaaS.Https.Rpc
import ConPaaS.Https.RpcCalls
import ConPaaS.Lib.PythonJson
import ConPaaS.Lib.QueryString
import ConPaaS.Lib.Transition
import ConPaaS.Manager.ArchiveMembers
import ConPaaS.Manager.CodeVersions
import ConPaaS.Manager.Exclusion
import ConPaaS.Manager.NodeRoles
import ConPaaS.Manager.OperationsInTurn
import ConPaaS.Manager.Registration
import ConPaaS.Manager.RoleNormalisation
import ConPaaS.Manager.Transient
import ConPaaS.Manager.VolumeSafety
import ConPaaS.MySQL.Bookkeeping
import ConPaaS.Scalaris.NodeRemoval
import ConPaaS.TaskFarm.CreditCallback
import ConPaaS.TaskFarm.Dismissal
import ConPaaS.TaskFarm.HandOver
import ConPaaS.TaskFarm.LeaseCharges
import ConPaaS.TaskFarm.PlannedCost
import ConPaaS.TaskFarm.Reconfiguration
import ConPaaS.TaskFarm.Replication
import ConPaaS.TaskFarm.RequestReading
import ConPaaS.TaskFarm.RequestTranslation
import ConPaaS.TaskFarm.Restart
import ConPaaS.TaskFarm.ServiceApi
import ConPaaS.TaskFarm.Starvation
import ConPaaS.TaskFarm.TailReplication
import ConPaaS.Webservers.AddedRoles
import ConPaaS.Webservers.Coverage
import ConPaaS.Webservers.NodeWeightUpdates
import ConPaaS.Webservers.PhpSettings
import ConPaaS.Webservers.PlatformRuns
import ConPaaS.Webservers.Removal
import ConPaaS.XtreemFS.Snapshot
