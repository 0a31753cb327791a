import BeeApi.Wallet.Returnable
import BeeApi.Batch.Representation
import BeeApi.Batch.ExactlyOnce
import BeeApi.Lifecycle.Drain
import BeeApi.Lifecycle.Group
import BeeApi.Subscription.Bound
import BeeApi.Subscription.Refund
import BeeApi.Subscription.Upgrade
import BeeApi.Payment.Fulfilment
import BeeApi.Payment.Credit
import BeeApi.Subscription.Exhaustion
import BeeApi.ContentBackup.Stats
import BeeApi.Relay.CapacityLimits
import BeeApi.Dashboard.Once
import BeeApi.Relay.SameCandidates
import BeeApi.Relay.DisabledKey
import BeeApi.Relay.Mirror
import BeeApi.LogMigration.BackfillOnce
import BeeApi.LogMigration.RestoreOnce
import BeeApi.RelayConvert.ClaudeConversation
import BeeApi.RelayConvert.ClaudeAnswer
import BeeApi.RelayConvert.ChatConversation
import BeeApi.RelayConvert.ClaudeStreamBlocks
import BeeApi.RelayConvert.ResponsesConversation
import BeeApi.Payment.Redemption
import BeeApi.SensitiveAudit.Once
import BeeApi.IQTest.Exclusive
import BeeApi.IQTest.Ownership
import BeeApi.Sessions.Refresh
import BeeApi.Sessions.RevokedSessions
import BeeApi.UserAuth.AuthVersion
import BeeApi.Polling.FailedMidjourney
import BeeApi.ContentBackup.Reap
import BeeApi.ContentBackup.BudgetExact
import BeeApi.ContentBackup.CaptureMemory
import BeeApi.RateLimit.SamePolicy
import BeeApi.Setting.Config
import BeeApi.Setting.StatusCodes
import BeeApi.Polling.RealtimeFetch
import BeeApi.Polling.Attribution
import BeeApi.Relay.OaiStream
import BeeApi.Relay.StreamDelivery
import BeeApi.Relay.OneAnswer
import BeeApi.Relay.NoWayRound
import BeeApi.UserAuth.TwoFactorLimits
import BeeApi.Payment.CommissionOnce
import BeeApi.Relay.MappedAttempts
import BeeApi.Relay.MoveValue
import BeeApi.Relay.NegativeIndex
import BeeApi.Relay.PruneObjects
import BeeApi.Lifecycle.Periodic
import BeeApi.Relay.RemovalJustified
import BeeApi.Relay.WeightedDraw
import BeeApi.RelayConvert.ChatToGeminiStream
import BeeApi.RelayConvert.ClaudeUsage
import BeeApi.RelayConvert.GeminiToChatRequest
import BeeApi.Billing.NoCredit
import BeeApi.Subscription.ResetProgress
import BeeApi.ContentBackup.JobListing
import BeeApi.Batch.StopAndFlush
import BeeApi.PriceNotify.ViewCache
import BeeApi.RateLimit.ChannelCapacity
