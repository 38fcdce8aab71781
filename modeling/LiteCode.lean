import LiteCode.Lib.System
import LiteCode.Lib.CondVar
import LiteCode.Lib.Bytes
import LiteCode.Lib.Utf8
import LiteCode.Lib.Json
import LiteCode.Lib.JsonText
import LiteCode.Lib.JsonLiteral
import LiteCode.Judge.Common
import LiteCode.Judge.Result
import LiteCode.Judge.Script
import LiteCode.Judge.Loop
import LiteCode.Judge.RoundTrip
import LiteCode.Db.SubmissionRepo
import LiteCode.Db.Lifecycle
import LiteCode.Scheduler.RunOneTask
import LiteCode.Scheduler.Queue
import LiteCode.Scheduler.Shutdown
import LiteCode.Scheduler.WarmPool
import LiteCode.Scheduler.WakeUp
import LiteCode.Auth.RefreshToken
import LiteCode.Auth.Replay
import LiteCode.Auth.Rotation
import LiteCode.Routes.CreateSubmission
import LiteCode.Auth.LoginTracker
import LiteCode.Auth.Lockout
import LiteCode.Routes.Login
import LiteCode.Routes.LoginLockout
import LiteCode.Lib.TokenBucket
import LiteCode.Middleware.RateLimit
import LiteCode.Scheduler.Notifier
import LiteCode.Scheduler.Publish
import LiteCode.Middleware.RateMeter
import LiteCode.Routes.PendingRows
import LiteCode.Lib.FileTree
import LiteCode.Scheduler.TaskMount
import LiteCode.Judge.Comparator
import LiteCode.Routes.StoredCases
import LiteCode.Routes.Sse
import LiteCode.Judge.LogFrames
import LiteCode.Scheduler.Cleanup
import LiteCode.Scheduler.PoolOwnership
import LiteCode.Db.Likes
import LiteCode.Db.UserRepo
import LiteCode.Lib.Stoi
import LiteCode.Routes.AdminRole
import LiteCode.Routes.Usernames
import LiteCode.Routes.SuperAdmin
import LiteCode.Routes.SubmissionAccess
import LiteCode.Lib.TextDecoder
import LiteCode.Web.EventStream
import LiteCode.Db.ProblemRevisions
import LiteCode.Db.Replies
import LiteCode.Routes.NotifyAuthor
import LiteCode.Scheduler.TaskDirs
import LiteCode.Db.Checkin
import LiteCode.Db.ProblemRepo
import LiteCode.Routes.BulkImport
import LiteCode.Scheduler.SampleRunner
import LiteCode.Routes.Broadcaster
import LiteCode.Web.ResponseCache
import LiteCode.Web.Session
import LiteCode.Judge.Compare
import LiteCode.Judge.Strictness
import LiteCode.Judge.TimeLimit
import LiteCode.Judge.FloatEps
import LiteCode.Middleware.RetryAfter
import LiteCode.Middleware.FreeRejections
import LiteCode.Middleware.Prune
import LiteCode.Auth.LockoutEnds
import LiteCode.Middleware.Bearer
import LiteCode.Auth.StoreIntegrity
import LiteCode.Scheduler.Counting
import LiteCode.Scheduler.RefillBound
import LiteCode.Routes.SanitizeUtf8
import LiteCode.Routes.SolutionList
import LiteCode.Db.TagRepo
import LiteCode.Db.ReplaceAll
import LiteCode.Routes.Rename
import LiteCode.Routes.Profile
import LiteCode.Db.ProblemUpdate
import LiteCode.Routes.AdminProblem
import LiteCode.Routes.OptionalFields
import LiteCode.Routes.IdParams
import LiteCode.Config.Numbers
import LiteCode.Config.LoadConfig
import LiteCode.Config.HardTimeout
import LiteCode.Routes.IntFields
import LiteCode.Lib.SortedList
import LiteCode.Routes.ProblemNavigation
import LiteCode.Routes.Ranking
import LiteCode.Db.UserList
import LiteCode.Web.AutoRefresh
import LiteCode.Web.StreamErrors
import LiteCode.Web.StreamLifecycle
import LiteCode.Routes.Emails
import LiteCode.Judge.EndpointUrl
import LiteCode.Utils.Cookies
import LiteCode.Lib.Base64
import LiteCode.Middleware.Base64Url
import LiteCode.Lib.SortedMap
import LiteCode.Routes.Metrics
import LiteCode.Lib.JsonEscape
import LiteCode.Logging.Format
import LiteCode.Logging.Rotation
import LiteCode.Lib.Program
import LiteCode.Routes.Items
import LiteCode.Routes.ItemIds
import LiteCode.Web.IdleTimeout
import LiteCode.Lib.Shape
import LiteCode.Utils.Validators
import LiteCode.Auth.Blowfish
import LiteCode.Auth.Bcrypt
import LiteCode.Auth.PasswordHash
import LiteCode.Db.ConnectionPool
import LiteCode.Auth.JwtUtils
import LiteCode.Lib.Happened
import LiteCode.Middleware.AuthMiddleware
import LiteCode.Db.AuditLog
import LiteCode.Lib.Pages
import LiteCode.Routes.AdminAuditLog
import LiteCode.Lib.Disk
import LiteCode.Utils.Uuid
import LiteCode.Routes.Uploads
import LiteCode.Lib.Hiding
import LiteCode.Db.ProblemTables
import LiteCode.Routes.PublicProblems
import LiteCode.Routes.HiddenData
import LiteCode.Routes.TagCounts
import LiteCode.Lib.Binary64
