import ModularPipelines.Journal.AppendedOnce
import ModularPipelines.Journal.CheckpointLossless
import ModularPipelines.Journal.CommandResults
import ModularPipelines.Journal.Refresh
import ModularPipelines.Journal.Restoration
import ModularPipelines.Participants.Healthy
import ModularPipelines.Resources.HistoryPages
import ModularPipelines.Runner.ChangeExact
import ModularPipelines.Runner.CursorLaw
import ModularPipelines.Runner.Savers
import ModularPipelines.Runner.Visits
import ModularPipelines.Server.Receipts
import ModularPipelines.Snapshots.NewestKept
import ModularPipelines.Snapshots.RequestedMode
import ModularPipelines.Snapshots.Resumable
import ModularPipelines.Snapshots.Rollback
import ModularPipelines.Snapshots.Snapshotable
import ModularPipelines.Journal.PagesComplete
import ModularPipelines.Modules.Retried
import ModularPipelines.Results.DepthBudget
import ModularPipelines.Services.Exhausted
import ModularPipelines.Stages.RetryLoop
import ModularPipelines.Stages.ArtifactRuns
import ModularPipelines.Resources.Suspension
import ModularPipelines.Dashboard.AlertRuns
import ModularPipelines.Server.Changes
import ModularPipelines.Server.Capacity
import ModularPipelines.Server.Enqueued
import ModularPipelines.Server.Outcomes
import ModularPipelines.Server.Resubmitted
import ModularPipelines.Server.ChainOrder
import ModularPipelines.Server.ControllerOutcomes
import ModularPipelines.Server.Moves
import ModularPipelines.Server.Preemption
import ModularPipelines.Server.StopAdmitted
import ModularPipelines.Server.BeginsOnce
