import XpressClaw.Workflow.Join
import XpressClaw.Workflow.Gate
import XpressClaw.Workflow.Untouched
import XpressClaw.Workflow.Durations
import XpressClaw.Workflow.Outputs
import XpressClaw.Workflow.Waits
import XpressClaw.Workflow.Shadows
import XpressClaw.Workflow.Budgets
import XpressClaw.Workflow.DefaultTasks
import XpressClaw.Tasks.Finality
import XpressClaw.Tasks.Ownership
import XpressClaw.Tasks.Cancellation
import XpressClaw.Tasks.Reconcile
import XpressClaw.Schedules.Crash
import XpressClaw.Connect.Authority
import XpressClaw.Connect.Receipts
import XpressClaw.Conversations.Partition
import XpressClaw.Conversations.Deletions
import XpressClaw.Conversations.Mentions
import XpressClaw.Connect.Lanes
import XpressClaw.Projects.Scope
import XpressClaw.Projects.Merged
import XpressClaw.Projects.Cascade
import XpressClaw.Docker.Retention
import XpressClaw.Github.Gate
import XpressClaw.Github.Feedback
import XpressClaw.Server.Transcripts
import XpressClaw.Budget.Periods
import XpressClaw.Tools.Policy
import XpressClaw.Workers.Reply
import XpressClaw.Workers.Artifacts
import XpressClaw.Memory.Updates
import XpressClaw.Projects.Emptied
import XpressClaw.Sync.Settings
import XpressClaw.Sync.Legacy
import XpressClaw.Server.Guesses
import XpressClaw.Tasks.RollUp
import XpressClaw.Tasks.Plans
import XpressClaw.Tasks.Reorder
import XpressClaw.Tasks.StartAfter
import XpressClaw.Repositories.Boundary
import XpressClaw.Repositories.Proposals
import XpressClaw.Sync.Exchange
