import Kintrinsic.GuardedRun
import Kintrinsic.MachineWord
import Kintrinsic.WireTypes
import Kintrinsic.ConsumedIds
import Kintrinsic.VerifyGrant
import Kintrinsic.SingleUse
import Kintrinsic.CivilDate
import Kintrinsic.LocalTime
import Kintrinsic.Minutes
import Kintrinsic.PreRollChain
import Kintrinsic.UsageLedger
import Kintrinsic.Streaks
import Kintrinsic.IdleRuns
import Kintrinsic.BucketViews
import Kintrinsic.RelayConfig
import Kintrinsic.RelayLaw
import Kintrinsic.LearningClause
import Kintrinsic.SiteApps
import Kintrinsic.ProcessIdentity
import Kintrinsic.FreeTime
import Kintrinsic.AuditSpool
import Kintrinsic.OverrideLaw
import Kintrinsic.Newest
import Kintrinsic.CuratorLists
import Kintrinsic.CuratorLaw
import Kintrinsic.WardenGrant
import Kintrinsic.GuardianTexts
import Kintrinsic.NamedGroups
import Kintrinsic.GroupBuckets
import Kintrinsic.GroupRound
import Kintrinsic.GiftOpens
import Kintrinsic.RelayReads
import Kintrinsic.RelayReading
import Kintrinsic.RelayPublishing
import Kintrinsic.RelayPolls
import Kintrinsic.WardenCredits
import Kintrinsic.HoldsAgree
import Kintrinsic.Base64
import Kintrinsic.JsonText
import Kintrinsic.Nip44
import Kintrinsic.GiftWrap
import Kintrinsic.TimesWire
import Kintrinsic.TimesChecks
import Kintrinsic.TimesSent
import Kintrinsic.TimesRead
import Kintrinsic.UsageReaders
import Kintrinsic.HighWater
import Kintrinsic.UsageUntrusted
import Kintrinsic.UsageMirrors
import Kintrinsic.UsageExcursion
import Kintrinsic.UsageReconcile
import Kintrinsic.UsageSaveGuard
import Kintrinsic.CivilWeeks
import Kintrinsic.UsageRecovery
import Kintrinsic.ExcursionNights
import Kintrinsic.FirstSeen
import Kintrinsic.ExtensionLedger
import Kintrinsic.ExtensionRuns
import Kintrinsic.ExtensionToday
import Kintrinsic.ClauseShapes
import Kintrinsic.ScheduleEval
import Kintrinsic.Countdown
import Kintrinsic.RunningClock
import Kintrinsic.ZoneClock
import Kintrinsic.DayScan
import Kintrinsic.ScheduleCountdown
import Kintrinsic.Budget
import Kintrinsic.Remaining
import Kintrinsic.RemainingLaws
import Kintrinsic.LockedBurns
import Kintrinsic.ChildPolicy
import Kintrinsic.EffectRun
import Kintrinsic.EnforcerTick
import Kintrinsic.Registry
import Kintrinsic.Lifecycle
import Kintrinsic.ClauseStore
import Kintrinsic.VerifyClause
import Kintrinsic.ClauseIntake
import Kintrinsic.ClauseFloor
import Kintrinsic.Broker
import Kintrinsic.RequestLife
import Kintrinsic.RequestMoves
import Kintrinsic.Enactment
import Kintrinsic.CancelGrant
import Kintrinsic.Release
import Kintrinsic.SlidingWindow
import Kintrinsic.CallerCaps
import Kintrinsic.StandDownGrace
import Kintrinsic.MultiChild
import Kintrinsic.InstantCredits
import Kintrinsic.ChildCharge
import Kintrinsic.ChildRestart
import Kintrinsic.Hex
import Kintrinsic.LinkTypes
import Kintrinsic.GuardianLink
import Kintrinsic.LinkRun
import Kintrinsic.LinkFrames
import Kintrinsic.LinkPresence
import Kintrinsic.QueueLaw
import Kintrinsic.QueueRuns
import Kintrinsic.LinkProofs
import Kintrinsic.FrameCodec
import Kintrinsic.LinkHandshake
import Kintrinsic.LinkAgreement
import Kintrinsic.StagedFile
import Kintrinsic.LinkInbox
import Kintrinsic.InboxRuns
import Kintrinsic.InboxStored
import Kintrinsic.KeyShares
import Kintrinsic.PersistThreads
import Kintrinsic.WardOutbox
import Kintrinsic.OutboxRuns
import Kintrinsic.OutboxLaw
import Kintrinsic.PooledUse
import Kintrinsic.TimePools
import Kintrinsic.LocalLimits
import Kintrinsic.ChildConfigFile
import Kintrinsic.ChildConfigFormat
import Kintrinsic.PinLink
import Kintrinsic.PairCommit
import Kintrinsic.PoolProofBudget
import Kintrinsic.SextetGroups
import Kintrinsic.MinuteCodec
import Kintrinsic.MinuteMarks
import Kintrinsic.AppBuckets
import Kintrinsic.TornClauses
import Kintrinsic.RecordCopies
import Kintrinsic.PairingEpochs
import Kintrinsic.WebAllow
import Kintrinsic.Text
import Kintrinsic.WebPolicy
import Kintrinsic.DomainNames
import Kintrinsic.WebQuorum
import Kintrinsic.WebDeny
import Kintrinsic.IntakeRecords
import Kintrinsic.NamedTimes
import Kintrinsic.WebReconcile
import Kintrinsic.Gifts
import Kintrinsic.GiftRuns
import Kintrinsic.GiftDelivery
import Kintrinsic.GuardianDates
import Kintrinsic.TimeExtend
import Kintrinsic.ExtendCap
import Kintrinsic.TimesEval
import Kintrinsic.GuardianTimes
import Kintrinsic.TimesAgree
import Kintrinsic.Binary64
import Kintrinsic.StatusSeq
import Kintrinsic.DeviceStatus
import Kintrinsic.StatusOrder
import Kintrinsic.LocalDrain
import Kintrinsic.DrainRuns
import Kintrinsic.EnactedRuns
import Kintrinsic.SoftwareRelease
import Kintrinsic.SelfUpdate
import Kintrinsic.UpdateRound
import Kintrinsic.UpdateMoves
import Kintrinsic.TwoKeys
import Kintrinsic.ChildTold
import Kintrinsic.TimesRouting
import Kintrinsic.TimesLocks
import Kintrinsic.ClauseAck
import Kintrinsic.WardenIntake
import Kintrinsic.FirstGrant
import Kintrinsic.WardenTimes
import Kintrinsic.PoolRouting
import Kintrinsic.LocalAdjust
import Kintrinsic.AdjustPair
import Kintrinsic.AdjustCancel
import Kintrinsic.LedgerTouches
import Kintrinsic.AdjustRuns
import Kintrinsic.AdjustLaw
import Kintrinsic.SecondPasses
import Kintrinsic.Records
import Kintrinsic.AppHolds
import Kintrinsic.TimeApps
import Kintrinsic.TimeWeb
import Kintrinsic.UsableStarts
import Kintrinsic.GuardianNext
import Kintrinsic.NextAgree
import Kintrinsic.Folds
import Kintrinsic.JsMinutes
import Kintrinsic.UsageHistory
import Kintrinsic.UsageSync
import Kintrinsic.WebFiles
import Kintrinsic.WebMemory
import Kintrinsic.GuardianApps
import Kintrinsic.SplitPolicy
import Kintrinsic.SplitClauses
import Kintrinsic.TimeWindows
import Kintrinsic.WindowEdits
import Kintrinsic.TimeRemoval
import Kintrinsic.WardenLedger
import Kintrinsic.TwoWardens
import Kintrinsic.TimesRefine
import Kintrinsic.TimesSpan
import Kintrinsic.NextWindow
