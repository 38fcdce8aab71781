import LiteCode.Config.Numbers
import LiteCode.Lib.Lines
import LiteCode.Routes.ErrorHandler

/-!
# The configuration

`src/config.h`: the configuration of the service is read from the environment, to which the
variables of a `.env` file are added first. A variable that is missing, empty or not readable gives
the default of its setting; a setting out of its range stops the service, with an error that names
the variable.

* `loadEnvFile`: the environment after the `.env` file;
* `loadConfig`: the settings, section by section, or the first error;
* `loadConfig_ok_iff`: a configuration is accepted if each of its sections is.
-/

namespace LiteCode.Config

/-! ## The environment -/

/-- The environment of the process. -/
abbrev Env := Bytes → Option Bytes

/-- `getenv_or`. -/
def Env.getOr (env : Env) (key : String) (fallback : Bytes) : Bytes :=
  (getenvOpt (env (bytes key))).getD fallback

/-- `getenv_int_or`. -/
def Env.intOr (env : Env) (T : IntType) (key : String) (fallback : Int) : Int :=
  getenvIntOr T (env (bytes key)) fallback

/-- `getenv_bool_or`. -/
def Env.boolOr (env : Env) (key : String) (fallback : Bool) : Bool :=
  match getenvOpt (env (bytes key)) with
  | none => fallback
  | some v =>
    let s := v.map toLower
    if s ∈ [bytes "1", bytes "true", bytes "yes", bytes "on", bytes "y"] then true
    else if s ∈ [bytes "0", bytes "false", bytes "no", bytes "off", bytes "n"] then false
    else fallback

/-- `strip_inline_comment`: the text up to a `#` outside of quotes. -/
def stripInlineComment (inSingle inDouble : Bool) : Bytes → Bytes
  | [] => []
  | c :: s =>
    if c = 0x27 ∧ inDouble = false then c :: stripInlineComment (!inSingle) inDouble s
    else if c = 0x22 ∧ inSingle = false then c :: stripInlineComment inSingle (!inDouble) s
    else if c = 0x23 ∧ inSingle = false ∧ inDouble = false then []
    else c :: stripInlineComment inSingle inDouble s

/-- One pair of quotes around a value is taken off. -/
def unquote (value : Bytes) : Bytes :=
  if 2 ≤ value.length ∧ (value.head? = some 0x22 ∧ value.getLast? = some 0x22 ∨
      value.head? = some 0x27 ∧ value.getLast? = some 0x27) then
    value.tail.dropLast
  else value

/-- `parse_env_line`: the key and the value of a line. -/
def parseEnvLine (raw : Bytes) : Option (Bytes × Bytes) :=
  let line := trim (stripInlineComment false false raw)
  if 0x3D ∈ line then
    let key := trim (line.takeWhile (· ≠ 0x3D))
    if key.isEmpty then none
    else some (key, unquote (trim (line.dropWhile (· ≠ 0x3D)).tail))
  else none

/-- `c_str`: what a function of C sees of a string. -/
def cStr (s : Bytes) : Bytes := s.takeWhile (· ≠ 0)

/-- One line of the file. An existing variable is kept, unless the file is to win; `setenv` refuses
    an empty name. -/
def applyLine (overrideEnv : Bool) (env : Env) (raw : Bytes) : Env :=
  match parseEnvLine raw with
  | none => env
  | some (key, value) =>
    if cStr key = [] ∨ overrideEnv = false ∧ env (cStr key) ≠ none then env
    else fun k => if k = cStr key then some (cStr value) else env k

/-- `getline`: the last line may have no end. -/
def fileLines (text : Bytes) : List Bytes :=
  let (ls, last) := lines 0x0A text
  if last.isEmpty then ls else ls ++ [last]

/-- `load_env_file`, for the text of the file, if it can be opened. -/
def loadEnvFile (file : Option Bytes) (overrideEnv : Bool) (env : Env) : Env :=
  match file with
  | none => env
  | some text => (fileLines text).foldl (applyLine overrideEnv) env

/-! ## The settings -/

structure ServerConfig where
  host : Bytes := bytes "0.0.0.0"
  port : Int := 8080
  threadPoolSize : Int := 16
  deriving DecidableEq, Repr

structure DatabaseConfig where
  host : Bytes := bytes "127.0.0.1"
  port : Int := 33060
  user : Bytes := bytes "litecode"
  password : Bytes := []
  database : Bytes := bytes "litecode"
  socketPath : Bytes := []
  poolMinSize : Int := 4
  poolMaxSize : Int := 16
  connectionTimeoutSeconds : Int := 10
  deriving DecidableEq, Repr

structure JwtConfig where
  secret : Bytes := []
  issuer : Bytes := bytes "litecode"
  accessTtlSeconds : Int := 60 * 60
  refreshTtlSeconds : Int := 7 * 24 * 3600
  deriving DecidableEq, Repr

structure JudgeConfig where
  defaultTimeLimitMs : Int := 1000
  defaultMemoryLimitMb : Int := 256
  compileTimeoutSeconds : Int := 10
  runTimeoutSeconds : Int := 30
  judgeHardTimeoutSeconds : Int := 30
  maxConcurrentJudges : Int := 4
  warmPoolSize : Int := 2
  maxQueueSize : Int := 50
  outputLimitBytes : Int := 16 * 1024 * 1024
  dockerSocketUrl : Bytes := []
  judgeImage : Bytes := bytes "litecode-judge:latest"
  networkMode : Bytes := bytes "none"
  pidsLimit : Bytes := bytes "50"
  taskDirParent : Bytes := []
  taskVolumeName : Bytes := []
  cppCompileFlags : Bytes := bytes "-O2 -std=c++17 -pipe -fstack-protector-strong " ++
    bytes "-D_FORTIFY_SOURCE=2 -Wformat -Wformat-security -Wl,-z,now -Wl,-z,relro"
  compileErrorTruncateBytes : Int := 4 * 1024
  runtimeErrorTruncateBytes : Int := 2 * 1024
  sampleMaxCases : Int := 3
  sampleCaseTimeoutMs : Int := 3000
  sampleMaxConcurrent : Int := 2
  sampleCompileTimeoutMs : Int := 10000
  deriving DecidableEq, Repr

structure RedisConfig where
  host : Bytes := bytes "127.0.0.1"
  port : Int := 6379
  password : Bytes := []
  db : Int := 0
  connectionTimeoutSeconds : Int := 5
  enabled : Bool := false
  deriving DecidableEq, Repr

structure LoggingConfig where
  level : Bytes := bytes "INFO"
  format : Bytes := bytes "json"
  filePath : Bytes := []
  rotationMaxSize : Bytes := bytes "10M"
  rotationMaxFiles : Int := 3
  includeRequestId : Bool := true
  deriving DecidableEq, Repr

structure CorsConfig where
  allowedOrigins : Bytes := bytes "http://localhost:8080,http://127.0.0.1:8080"
  allowCredentials : Bool := true
  deriving DecidableEq, Repr

structure RateLimitConfig where
  authRegisterPerMinutePerIp : Int := 5
  authLoginPerMinutePerIp : Int := 10
  problemsPublicPerMinutePerIp : Int := 60
  submissionPerMinutePerUser : Int := 30
  adminWritePerMinute : Int := 30
  bulkImportPerHour : Int := 5
  statsRankingPerMinutePerIp : Int := 30
  adminUsersListPerMinute : Int := 60
  adminUsersRolePerMinute : Int := 10
  adminAuditLogsPerMinute : Int := 60
  adminQueuePerMinute : Int := 60
  sampleRunPerMinutePerUser : Int := 60
  deriving DecidableEq, Repr

structure LoginLockoutConfig where
  enabled : Bool := true
  threshold : Int := 5
  windowSeconds : Int := 900
  lockoutDurationSeconds : Int := 900
  deriving DecidableEq, Repr

structure CookieConfig where
  enabled : Bool := true
  httpOnly : Bool := true
  secure : Bool := false
  sameSite : Bytes := bytes "Strict"
  path : Bytes := bytes "/api/v1/auth"
  name : Bytes := bytes "lc_refresh"
  maxAgeSeconds : Int := 0
  allowBodyFallback : Bool := true
  deriving DecidableEq, Repr

structure AdminBootstrapConfig where
  username : Bytes := []
  password : Bytes := []
  email : Bytes := []
  enabled : Bool := false
  deriving DecidableEq, Repr

structure AppConfig where
  server : ServerConfig
  database : DatabaseConfig
  jwt : JwtConfig
  judge : JudgeConfig
  redis : RedisConfig
  logging : LoggingConfig
  cors : CorsConfig
  rateLimit : RateLimitConfig
  loginLockout : LoginLockoutConfig
  cookie : CookieConfig
  adminBootstrap : AdminBootstrapConfig
  envFilePath : Bytes
  envOverride : Bool
  deriving DecidableEq, Repr

/-! ## Reading the settings -/

/-- `if (bad) throw ConfigError(error)`. -/
def throwIf (bad : Prop) [Decidable bad] (error : Bytes) : Except Bytes Unit :=
  if bad then .error error else .ok ()

/-- `std::toupper`. -/
def toUpper (b : UInt8) : UInt8 := if 0x61 ≤ b ∧ b ≤ 0x7A then b - 0x20 else b

variable (env : Env)

def loadServer : Except Bytes ServerConfig := do
  let d : ServerConfig := {}
  let c : ServerConfig := {
    host := env.getOr "SERVER_HOST" d.host
    port := env.intOr .uint16 "SERVER_PORT" d.port
    threadPoolSize := env.intOr .int "SERVER_THREAD_POOL_SIZE" d.threadPoolSize }
  throwIf (c.port = 0) (bytes "SERVER_PORT must be 1..65535")
  throwIf (c.threadPoolSize < 1) (bytes "SERVER_THREAD_POOL_SIZE must be >= 1")
  return c

def loadDatabase : Except Bytes DatabaseConfig := do
  let d : DatabaseConfig := {}
  let c : DatabaseConfig := {
    host := env.getOr "DB_HOST" d.host
    port := env.intOr .uint16 "DB_PORT" d.port
    user := env.getOr "DB_USER" d.user
    password := env.getOr "DB_PASSWORD" d.password
    database := env.getOr "DB_NAME" d.database
    socketPath := env.getOr "DB_SOCKET" d.socketPath
    poolMinSize := env.intOr .int "DB_POOL_MIN" d.poolMinSize
    poolMaxSize := env.intOr .int "DB_POOL_MAX" d.poolMaxSize
    connectionTimeoutSeconds :=
      env.intOr .int "DB_CONN_TIMEOUT_SECONDS" d.connectionTimeoutSeconds }
  throwIf (c.host = [] ∧ c.socketPath = []) (bytes "DB_HOST (or DB_SOCKET) must be set")
  throwIf (c.user = []) (bytes "DB_USER must be set")
  throwIf (c.database = []) (bytes "DB_NAME must be set")
  throwIf (c.poolMinSize < 1) (bytes "DB_POOL_MIN must be >= 1")
  throwIf (c.poolMaxSize < c.poolMinSize)
    (bytes "DB_POOL_MAX (" ++ decimalInt c.poolMaxSize ++ bytes ") must be >= DB_POOL_MIN (" ++
      decimalInt c.poolMinSize ++ bytes ")")
  throwIf (c.connectionTimeoutSeconds < 1) (bytes "DB_CONN_TIMEOUT_SECONDS must be >= 1")
  return c

/-- The secret of a service that is allowed to start without one. -/
def placeholderSecret : Bytes :=
  bytes "INSECURE_DEV_ONLY_auto_generated_DO_NOT_USE_IN_PRODUCTION_" ++ List.replicate 32 0x21

def loadJwt : Except Bytes JwtConfig := do
  let d : JwtConfig := {}
  let given := env.getOr "JWT_SECRET" []
  throwIf (given = [] ∧ env.boolOr "LITECODE_ALLOW_INSECURE_DEFAULTS" false = false)
    (bytes "JWT_SECRET must be set (>= 32 bytes). Generate with `openssl rand -base64 48`. " ++
      bytes "For local dev only, set LITECODE_ALLOW_INSECURE_DEFAULTS=1 to use an ephemeral " ++
      bytes "placeholder secret.")
  let c : JwtConfig := {
    secret := if given = [] then placeholderSecret else given
    issuer := env.getOr "JWT_ISSUER" d.issuer
    accessTtlSeconds := env.intOr .int "JWT_ACCESS_TTL_SECONDS" d.accessTtlSeconds
    refreshTtlSeconds := env.intOr .int "JWT_REFRESH_TTL_SECONDS" d.refreshTtlSeconds }
  throwIf (c.secret.length < 32)
    (bytes "JWT_SECRET must be at least 32 bytes (got " ++ decimal c.secret.length ++ bytes ")")
  throwIf (c.accessTtlSeconds < 60) (bytes "JWT_ACCESS_TTL_SECONDS must be >= 60")
  throwIf (c.refreshTtlSeconds < c.accessTtlSeconds)
    (bytes "JWT_REFRESH_TTL_SECONDS must be >= JWT_ACCESS_TTL_SECONDS")
  return c

/-- The settings of the judge, before they are checked. -/
def readJudge : JudgeConfig :=
  let d : JudgeConfig := {}
  { defaultTimeLimitMs := env.intOr .int "JUDGE_DEFAULT_TIME_LIMIT_MS" d.defaultTimeLimitMs
    defaultMemoryLimitMb := env.intOr .int "JUDGE_DEFAULT_MEMORY_LIMIT_MB" d.defaultMemoryLimitMb
    compileTimeoutSeconds := env.intOr .int "JUDGE_COMPILE_TIMEOUT_SECONDS" d.compileTimeoutSeconds
    runTimeoutSeconds := env.intOr .int "JUDGE_RUN_TIMEOUT_SECONDS" d.runTimeoutSeconds
    judgeHardTimeoutSeconds := env.intOr .int "JUDGE_HARD_TIMEOUT_SECONDS" d.judgeHardTimeoutSeconds
    maxConcurrentJudges := env.intOr .int "JUDGE_MAX_CONCURRENT" d.maxConcurrentJudges
    warmPoolSize := env.intOr .int "JUDGE_WARM_POOL_SIZE" d.warmPoolSize
    maxQueueSize := env.intOr .int "JUDGE_MAX_QUEUE_SIZE" d.maxQueueSize
    taskDirParent := env.getOr "JUDGE_TASK_DIR_PARENT" []
    taskVolumeName := env.getOr "JUDGE_TASK_VOLUME_NAME" d.taskVolumeName
    outputLimitBytes := env.intOr .int "JUDGE_OUTPUT_LIMIT_BYTES" d.outputLimitBytes
    dockerSocketUrl := env.getOr "DOCKER_SOCKET_URL" d.dockerSocketUrl
    judgeImage := env.getOr "JUDGE_IMAGE" d.judgeImage
    networkMode := env.getOr "JUDGE_NETWORK_MODE" d.networkMode
    pidsLimit := env.getOr "JUDGE_PIDS_LIMIT" d.pidsLimit
    cppCompileFlags := env.getOr "JUDGE_CPP_COMPILE_FLAGS" d.cppCompileFlags
    compileErrorTruncateBytes :=
      env.intOr .int "JUDGE_CE_TRUNCATE_BYTES" d.compileErrorTruncateBytes
    runtimeErrorTruncateBytes :=
      env.intOr .int "JUDGE_RE_TRUNCATE_BYTES" d.runtimeErrorTruncateBytes
    sampleMaxCases := env.intOr .int "SAMPLE_MAX_CASES" d.sampleMaxCases
    sampleCaseTimeoutMs := env.intOr .int "SAMPLE_CASE_TIMEOUT_MS" d.sampleCaseTimeoutMs
    sampleMaxConcurrent := env.intOr .int "SAMPLE_MAX_CONCURRENT" d.sampleMaxConcurrent
    sampleCompileTimeoutMs := env.intOr .int "SAMPLE_COMPILE_TIMEOUT_MS" d.sampleCompileTimeoutMs }

def loadJudge : Except Bytes JudgeConfig := do
  let c := readJudge env
  throwIf (c.maxConcurrentJudges < 1) (bytes "JUDGE_MAX_CONCURRENT must be >= 1")
  throwIf (c.warmPoolSize < 0 ∨ c.maxConcurrentJudges < c.warmPoolSize)
    (bytes "JUDGE_WARM_POOL_SIZE must be in [0, JUDGE_MAX_CONCURRENT]")
  throwIf (c.maxQueueSize < 1) (bytes "JUDGE_MAX_QUEUE_SIZE must be >= 1")
  throwIf (c.compileTimeoutSeconds < 1 ∨ 60 < c.compileTimeoutSeconds)
    (bytes "JUDGE_COMPILE_TIMEOUT_SECONDS must be in [1, 60]")
  throwIf (c.runTimeoutSeconds < 1) (bytes "JUDGE_RUN_TIMEOUT_SECONDS must be >= 1")
  throwIf (c.defaultTimeLimitMs < 1) (bytes "JUDGE_DEFAULT_TIME_LIMIT_MS must be >= 1")
  throwIf (c.defaultMemoryLimitMb < 16) (bytes "JUDGE_DEFAULT_MEMORY_LIMIT_MB must be >= 16")
  throwIf (c.outputLimitBytes < 1024) (bytes "JUDGE_OUTPUT_LIMIT_BYTES must be >= 1024")
  throwIf (c.sampleMaxCases < 1 ∨ 4 < c.sampleMaxCases) (bytes "SAMPLE_MAX_CASES must be in [1, 4]")
  throwIf (c.sampleCaseTimeoutMs < 100 ∨ 30000 < c.sampleCaseTimeoutMs)
    (bytes "SAMPLE_CASE_TIMEOUT_MS must be in [100, 30000]")
  throwIf (c.sampleMaxConcurrent < 1 ∨ 8 < c.sampleMaxConcurrent)
    (bytes "SAMPLE_MAX_CONCURRENT must be in [1, 8]")
  throwIf (c.sampleCompileTimeoutMs < 1000) (bytes "SAMPLE_COMPILE_TIMEOUT_MS must be >= 1000")
  return c

def loadRedis : RedisConfig :=
  let d : RedisConfig := {}
  { host := env.getOr "REDIS_HOST" d.host
    port := env.intOr .uint16 "REDIS_PORT" d.port
    password := env.getOr "REDIS_PASSWORD" d.password
    db := env.intOr .int "REDIS_DB" d.db
    connectionTimeoutSeconds :=
      env.intOr .int "REDIS_CONN_TIMEOUT_SECONDS" d.connectionTimeoutSeconds
    enabled := env.boolOr "REDIS_ENABLED" d.enabled }

def loadLogging : Except Bytes LoggingConfig := do
  let d : LoggingConfig := {}
  -- the two words are kept in capitals
  let c : LoggingConfig := {
    level := (env.getOr "LOG_LEVEL" d.level).map toUpper
    format := (env.getOr "LOG_FORMAT" d.format).map toUpper
    filePath := env.getOr "LOG_FILE" d.filePath
    rotationMaxSize := env.getOr "LOG_ROTATION_MAX_SIZE" d.rotationMaxSize
    rotationMaxFiles := env.intOr .int "LOG_ROTATION_MAX_FILES" d.rotationMaxFiles
    includeRequestId := env.boolOr "LOG_INCLUDE_REQUEST_ID" d.includeRequestId }
  throwIf (c.level ∉ [bytes "TRACE", bytes "DEBUG", bytes "INFO", bytes "WARN", bytes "ERROR"])
    (bytes "LOG_LEVEL must be one of TRACE/DEBUG/INFO/WARN/ERROR")
  throwIf (c.format ∉ [bytes "JSON", bytes "TEXT"]) (bytes "LOG_FORMAT must be JSON or TEXT")
  return c

def loadCors : CorsConfig :=
  let d : CorsConfig := {}
  { allowedOrigins := env.getOr "CORS_ALLOWED_ORIGINS" d.allowedOrigins
    allowCredentials := env.boolOr "CORS_ALLOW_CREDENTIALS" d.allowCredentials }

def loadLoginLockout : Except Bytes LoginLockoutConfig := do
  let d : LoginLockoutConfig := {}
  let c : LoginLockoutConfig := {
    enabled := env.boolOr "LOGIN_LOCKOUT_ENABLED" d.enabled
    threshold := env.intOr .int "LOGIN_LOCKOUT_THRESHOLD" d.threshold
    windowSeconds := env.intOr .int "LOGIN_LOCKOUT_WINDOW_SECONDS" d.windowSeconds
    lockoutDurationSeconds :=
      env.intOr .int "LOGIN_LOCKOUT_DURATION_SECONDS" d.lockoutDurationSeconds }
  throwIf (c.threshold < 1) (bytes "LOGIN_LOCKOUT_THRESHOLD must be >= 1")
  throwIf (c.windowSeconds < 1) (bytes "LOGIN_LOCKOUT_WINDOW_SECONDS must be >= 1")
  throwIf (c.lockoutDurationSeconds < 1) (bytes "LOGIN_LOCKOUT_DURATION_SECONDS must be >= 1")
  return c

/-- The quotas that are checked. -/
def RateLimitConfig.quotas (c : RateLimitConfig) : List Int :=
  [c.authRegisterPerMinutePerIp, c.authLoginPerMinutePerIp, c.submissionPerMinutePerUser,
    c.adminWritePerMinute, c.bulkImportPerHour, c.statsRankingPerMinutePerIp,
    c.adminUsersListPerMinute, c.adminUsersRolePerMinute, c.adminAuditLogsPerMinute,
    c.adminQueuePerMinute, c.sampleRunPerMinutePerUser]

def loadRateLimit : Except Bytes RateLimitConfig := do
  let d : RateLimitConfig := {}
  let c : RateLimitConfig := {
    authRegisterPerMinutePerIp :=
      env.intOr .int "RATE_LIMIT_REGISTER_PER_MIN" d.authRegisterPerMinutePerIp
    authLoginPerMinutePerIp := env.intOr .int "RATE_LIMIT_LOGIN_PER_MIN" d.authLoginPerMinutePerIp
    -- no variable sets this one
    problemsPublicPerMinutePerIp := d.problemsPublicPerMinutePerIp
    submissionPerMinutePerUser :=
      env.intOr .int "RATE_LIMIT_SUBMIT_PER_MIN" d.submissionPerMinutePerUser
    adminWritePerMinute := env.intOr .int "RATE_LIMIT_ADMIN_WRITE_PER_MIN" d.adminWritePerMinute
    bulkImportPerHour := env.intOr .int "RATE_LIMIT_BULK_IMPORT_PER_HOUR" d.bulkImportPerHour
    statsRankingPerMinutePerIp :=
      env.intOr .int "RATE_LIMIT_RANKING_PER_MIN" d.statsRankingPerMinutePerIp
    adminUsersListPerMinute :=
      env.intOr .int "RATE_LIMIT_ADMIN_USERS_LIST_PER_MIN" d.adminUsersListPerMinute
    adminUsersRolePerMinute :=
      env.intOr .int "RATE_LIMIT_ADMIN_USERS_ROLE_PER_MIN" d.adminUsersRolePerMinute
    adminAuditLogsPerMinute :=
      env.intOr .int "RATE_LIMIT_ADMIN_AUDIT_LOGS_PER_MIN" d.adminAuditLogsPerMinute
    adminQueuePerMinute := env.intOr .int "RATE_LIMIT_ADMIN_QUEUE_PER_MIN" d.adminQueuePerMinute
    sampleRunPerMinutePerUser :=
      env.intOr .int "SAMPLE_RUN_RATE_PER_MINUTE_PER_USER" d.sampleRunPerMinutePerUser }
  throwIf (∃ q ∈ c.quotas, q < 1) (bytes "rate-limit quotas must be >= 1")
  return c

/-- The first letter of a word in capitals. -/
def capitalize : Bytes → Bytes
  | [] => []
  | b :: s => toUpper b :: s

def loadCookie : Except Bytes CookieConfig := do
  let d : CookieConfig := {}
  let sameSite := (env.getOr "COOKIE_SAME_SITE" d.sameSite).map toLower
  let c : CookieConfig := {
    enabled := env.boolOr "COOKIE_ENABLED" true
    httpOnly := env.boolOr "COOKIE_HTTP_ONLY" true
    secure := env.boolOr "COOKIE_SECURE" (env.getOr "LITECODE_ENV" [] = bytes "production")
    sameSite := capitalize sameSite
    path := env.getOr "COOKIE_PATH" d.path
    name := env.getOr "COOKIE_NAME" d.name
    maxAgeSeconds := env.intOr .int "COOKIE_MAX_AGE_SECONDS" 0
    allowBodyFallback := env.boolOr "COOKIE_ALLOW_BODY_FALLBACK" true }
  throwIf (sameSite ∉ [bytes "strict", bytes "lax", bytes "none"])
    (bytes "COOKIE_SAME_SITE must be Strict, Lax, or None")
  throwIf (sameSite = bytes "none" ∧ c.secure = false)
    (bytes "COOKIE_SAME_SITE=None requires COOKIE_SECURE=true " ++
      bytes "(browsers reject SameSite=None without Secure)")
  throwIf (c.path.head? ≠ some 0x2F) (bytes "COOKIE_PATH must start with '/'")
  throwIf (c.name = [] ∨ ∃ b ∈ c.name, b ∈ bytes " ;,=\"")
    (bytes "COOKIE_NAME must be a non-empty token (no spaces / ; , = or quotes)")
  throwIf (c.maxAgeSeconds < 0)
    (bytes "COOKIE_MAX_AGE_SECONDS must be >= 0 (0 means: " ++
      bytes "follow refresh_ttl_seconds at handler time)")
  return c

def loadAdminBootstrap : AdminBootstrapConfig :=
  let username := env.getOr "ADMIN_USERNAME" []
  let password := env.getOr "ADMIN_PASSWORD" []
  { username, password
    email := env.getOr "ADMIN_EMAIL" []
    enabled := !username.isEmpty && !password.isEmpty }

/-- The environment that the settings are read from. -/
def effectiveEnv (file : Option Bytes) (envFilePath : Bytes) (overrideEnv : Bool) : Env :=
  if envFilePath = [] then env else loadEnvFile file overrideEnv env

/-- `load_config`, for the file at the path, if it can be opened. -/
def loadConfig (file : Option Bytes) (envFilePath : Bytes) (overrideEnv : Bool) :
    Except Bytes AppConfig := do
  let env := effectiveEnv env file envFilePath overrideEnv
  let server ← loadServer env
  let database ← loadDatabase env
  let jwt ← loadJwt env
  let judge ← loadJudge env
  let logging ← loadLogging env
  let loginLockout ← loadLoginLockout env
  let rateLimit ← loadRateLimit env
  let cookie ← loadCookie env
  return {
    server, database, jwt, judge, logging, loginLockout, rateLimit, cookie, envFilePath
    redis := loadRedis env
    cors := loadCors env
    adminBootstrap := loadAdminBootstrap env
    envOverride := overrideEnv }

/-! ## Accepted configurations -/

variable {env} {file : Option Bytes} {envFilePath : Bytes} {overrideEnv : Bool}

open ErrorHandler (bind_eq_ok)

theorem throwIf_eq_ok_iff {bad : Prop} [Decidable bad] {error : Bytes} {u : Unit} :
    throwIf bad error = .ok u ↔ ¬bad := by
  rw [throwIf]
  split_ifs with h
  · exact iff_of_false nofun (not_not.2 h)
  · exact iff_of_true rfl h

/-- The ranges of the settings of the judge. -/
structure JudgeConfig.Valid (c : JudgeConfig) : Prop where
  maxConcurrentJudges : 1 ≤ c.maxConcurrentJudges
  warmPoolSize : 0 ≤ c.warmPoolSize ∧ c.warmPoolSize ≤ c.maxConcurrentJudges
  maxQueueSize : 1 ≤ c.maxQueueSize
  compileTimeoutSeconds : 1 ≤ c.compileTimeoutSeconds ∧ c.compileTimeoutSeconds ≤ 60
  runTimeoutSeconds : 1 ≤ c.runTimeoutSeconds
  defaultTimeLimitMs : 1 ≤ c.defaultTimeLimitMs
  defaultMemoryLimitMb : 16 ≤ c.defaultMemoryLimitMb
  outputLimitBytes : 1024 ≤ c.outputLimitBytes
  sampleMaxCases : 1 ≤ c.sampleMaxCases ∧ c.sampleMaxCases ≤ 4
  sampleCaseTimeoutMs : 100 ≤ c.sampleCaseTimeoutMs ∧ c.sampleCaseTimeoutMs ≤ 30000
  sampleMaxConcurrent : 1 ≤ c.sampleMaxConcurrent ∧ c.sampleMaxConcurrent ≤ 8
  sampleCompileTimeoutMs : 1000 ≤ c.sampleCompileTimeoutMs

/-- The settings of the judge are accepted if they are in these ranges. -/
theorem loadJudge_ok_iff {c : JudgeConfig} :
    loadJudge env = .ok c ↔ c = readJudge env ∧ c.Valid := by
  simp only [loadJudge, bind_eq_ok, throwIf_eq_ok_iff, exists_const, pure, Except.pure,
    Except.ok.injEq, not_or, Int.not_lt]
  constructor
  · rintro ⟨h₁, h₂, h₃, h₄, h₅, h₆, h₇, h₈, h₉, h₁₀, h₁₁, h₁₂, rfl⟩
    exact ⟨rfl, ⟨h₁, h₂, h₃, h₄, h₅, h₆, h₇, h₈, h₉, h₁₀, h₁₁, h₁₂⟩⟩
  · rintro ⟨rfl, h⟩
    exact ⟨h.maxConcurrentJudges, h.warmPoolSize, h.maxQueueSize, h.compileTimeoutSeconds,
      h.runTimeoutSeconds, h.defaultTimeLimitMs, h.defaultMemoryLimitMb, h.outputLimitBytes,
      h.sampleMaxCases, h.sampleCaseTimeoutMs, h.sampleMaxConcurrent, h.sampleCompileTimeoutMs, rfl⟩

/-- A configuration is accepted if each of its sections is. -/
theorem loadConfig_ok_iff {c : AppConfig} :
    loadConfig env file envFilePath overrideEnv = .ok c ↔
      let e := effectiveEnv env file envFilePath overrideEnv
      loadServer e = .ok c.server ∧ loadDatabase e = .ok c.database ∧ loadJwt e = .ok c.jwt ∧
        loadJudge e = .ok c.judge ∧ loadLogging e = .ok c.logging ∧
        loadLoginLockout e = .ok c.loginLockout ∧ loadRateLimit e = .ok c.rateLimit ∧
        loadCookie e = .ok c.cookie ∧ c.redis = loadRedis e ∧ c.cors = loadCors e ∧
        c.adminBootstrap = loadAdminBootstrap e ∧ c.envFilePath = envFilePath ∧
        c.envOverride = overrideEnv := by
  simp only [loadConfig, bind_eq_ok, pure, Except.pure, Except.ok.injEq]
  constructor
  · rintro ⟨server, h₁, database, h₂, jwt, h₃, judge, h₄, logging, h₅, lockout, h₆, limit, h₇,
      cookie, h₈, rfl⟩
    exact ⟨h₁, h₂, h₃, h₄, h₅, h₆, h₇, h₈, rfl, rfl, rfl, rfl, rfl⟩
  · rintro ⟨h₁, h₂, h₃, h₄, h₅, h₆, h₇, h₈, h₉, h₁₀, h₁₁, h₁₂, h₁₃⟩
    refine ⟨_, h₁, _, h₂, _, h₃, _, h₄, _, h₅, _, h₆, _, h₇, _, h₈, ?_⟩
    rw [← h₉, ← h₁₀, ← h₁₁, ← h₁₂, ← h₁₃]

end LiteCode.Config
