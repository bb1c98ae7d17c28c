import AtmCore.AckAtomicity
import AtmCore.ClearEffects
import AtmCore.CronBacklog
import AtmCore.CronFence
import AtmCore.CronNotices
import AtmCore.EventRuns
import AtmCore.HandoffStops
import AtmCore.HerdrBreaker
import AtmCore.HookOrder
import AtmCore.LeaseCache
import AtmCore.LedgerAuthority
import AtmCore.ListParity
import AtmCore.NudgeFences
import AtmCore.PeerRuns
import AtmCore.PoolAccounts
import AtmCore.QueueRotation
import AtmCore.ReadTail
import AtmCore.ReaderExpiry
import AtmCore.ReloadRetry
import AtmCore.ReminderTallies
import AtmCore.RetryRuns
import AtmCore.RosterMirror
import AtmCore.StateForward
import AtmCore.StrictJson
import AtmCore.TemplateIsolation
import AtmCore.TemplateParity
import AtmCore.TimestampTexts
import AtmCore.WalkBounds
