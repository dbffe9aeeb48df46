import PapeSdk.Dialogues
import PapeSdk.DottedText
import PapeSdk.UserCenterFiles
import PapeSdk.UserCenterForms
import PapeSdk.MySqlRenumbering
import PapeSdk.RouteArchives
import PapeSdk.ProxyCertificates
import PapeSdk.UserReports
import PapeSdk.RequestForms
import PapeSdk.AdminRequests
import PapeSdk.AdminAccounts
import PapeSdk.Listings
import PapeSdk.GameLogins
import PapeSdk.BatchedPasses
import PapeSdk.CancellationProgress
import PapeSdk.StuckCancellations
import PapeSdk.FloatTexts
import PapeSdk.IntegerFields
import PapeSdk.RowSteps
import PapeSdk.LongTokens
import PapeSdk.JoinedPairs
import PapeSdk.RequestSignatures
import PapeSdk.CheckedOpening
import PapeSdk.SafeStatus
import PapeSdk.UploadGrants
import PapeSdk.PolicyDocuments
import PapeSdk.UrlSegments
import PapeSdk.Utf8Texts
import PapeSdk.UpstreamTargets
import PapeSdk.DeletedAccounts
import PapeSdk.JsoncFiles
import PapeSdk.JsoncDocuments
import PapeSdk.FirstListed
import PapeSdk.CodeConsumption
import PapeSdk.VerificationSystem
import PapeSdk.SupersededCodes
import PapeSdk.RecoveryReplies
import PapeSdk.ProxyClosure
import PapeSdk.ProxyAuthorities
import PapeSdk.ProxyServer
import PapeSdk.Authorities
import PapeSdk.ApplicationScoping
import PapeSdk.Applications
import PapeSdk.FilePaths
import PapeSdk.EnvelopeRoundTrip
import PapeSdk.Envelopes
import PapeSdk.TextCodecs
import PapeSdk.BlockModes
import PapeSdk.AsciiBytes
import PapeSdk.SilentSends
import PapeSdk.SendLimits
import PapeSdk.SendSystem
import PapeSdk.SlidingWindows
import PapeSdk.DeletionSafety
import PapeSdk.GameServers
import PapeSdk.FirstLogins
import PapeSdk.FirstLoginSystem
import PapeSdk.Restarts
import PapeSdk.RegistrationAtomicity
import PapeSdk.AccountFrames
import PapeSdk.RegistrationPolicy
import PapeSdk.CodeLogins
import PapeSdk.AuthSoundness
import PapeSdk.SingleUse
import PapeSdk.HandlerChanges
import PapeSdk.Unbinding
import PapeSdk.Handlers
import PapeSdk.Requests
import PapeSdk.Withdrawals
import PapeSdk.CancellationSafety
import PapeSdk.CancellationSystem
import PapeSdk.Renumbering
import PapeSdk.KeyRenaming
import PapeSdk.AccountIds
import PapeSdk.AccountBindings
import PapeSdk.Revocation
import PapeSdk.SessionRotation
import PapeSdk.SessionLedger
import PapeSdk.TokenLedger
import PapeSdk.StoreInvariant
import PapeSdk.OperationEffects
import PapeSdk.StoreChanges
import PapeSdk.StoreRuns
import PapeSdk.Startup
import PapeSdk.Verifications
import PapeSdk.Accounts
import PapeSdk.AuthSessions
import PapeSdk.Database
import PapeSdk.Identifiers
import PapeSdk.KeyedTables
import PapeSdk.EventRuns
import PapeSdk.GameRoles
import PapeSdk.MailedCodes
import PapeSdk.MailDelivery
