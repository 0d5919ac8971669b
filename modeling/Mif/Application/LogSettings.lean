import Mif.Common.Fault
import Mif.Application.Config
import Mif.Serialization.XmlText

set_option autoImplicit false

/- How `Application::Run` and `Application::InitLog` come from the command line and the config
file to the arguments of `InitFileLog` and `InitConsoleLog`. -/
namespace Mif.Application.LogSettings

/-- `Common::Log::Level` -/
inductive Level
  | fatal
  | error
  | warning
  | info
  | trace
  deriving DecidableEq, Repr

namespace Level

def value : Level → UInt32
  | fatal => 0
  | error => 1
  | warning => 2
  | info => 3
  | trace => 4

/-- `static_cast` to the enum. Numbers above `trace` are refused before it. -/
def ofValue (value : UInt32) : Level :=
  if value = fatal.value then fatal
  else if value = error.value then error
  else if value = warning.value then warning
  else if value = info.value then info
  else trace

end Level

/-- `m_options`, as far as `Run` and `InitLog` look into it. -/
structure Options where
  help : Bool
  version : Bool
  daemon : Bool
  config : Bool
  logDir : Option String
  logPattern : Option String
  logLevel : Option UInt32

/-- The members of `Application` that the config file may change. -/
structure Members (Config : Type) where
  config : Option Config
  runAsDaemon : Bool
  logDirName : String
  logPattern : String
  logLevel : UInt32

/-- The members after `notify(m_options)`. -/
def Options.members {Config : Type} (options : Options) : Members Config where
  config := none
  runAsDaemon := false
  logDirName := options.logDir.getD ""
  logPattern := options.logPattern.getD ""
  logLevel := options.logLevel.getD Level.trace.value

/-- The members and the flags of `Run`. -/
structure Settings (Config : Type) where
  members : Members Config
  pathFromConfig : Bool
  levelFromConfig : Bool

/-- The path of the executable, taken apart. -/
structure Executable where
  parentPath : String
  filename : String

/-- The file system. `executable` is `canonical(system_complete(m_argv[0]))`. -/
structure FileSystem where
  executable : Outcome Executable
  pathExists : String → Outcome Bool
  createDirectories : String → Outcome Bool

/-- The call that sets the log up. -/
inductive Log
  | file (level : Level) (dirName pattern : String)
  | console (level : Level)
  deriving DecidableEq, Repr

/-- `GetValue<std::uint32_t>`, from the text of the value. -/
def uint32OfText (text : String) : UInt32 :=
  UInt32.ofBitVec (Serialization.XmlText.toInt .uint32 text 0)

section

variable {Config : Type} (api : IConfig Config)

/-- A pointer that is followed. -/
def pointee (pointer : Option Config) : Outcome Config :=
  match pointer with
  | some config => .ok config
  | none => undefined .nullDereference

/-- A value that the config is asked for when the command line does not have it. -/
def readUnless (given : Bool) (log : Option Config) (key : String) : Outcome (Option String) :=
  if given then .ok none
  else do
    let log ← pointee log
    if api.existsAt log key then (api.getValue log key).map some else .ok none

/-- A value that is asked for and, when it is there, stored. -/
def readSetting (given : Bool) (log : Option Config) (key : String)
    (store : String → Settings Config → Settings Config) (settings : Settings Config) :
    Outcome (Settings Config) :=
  (readUnless api given log key).map fun found =>
    found.elim settings fun text => store text settings

def readDir (options : Options) (log : Option Config) :
    Settings Config → Outcome (Settings Config) :=
  readSetting api options.logDir.isSome log "dir" fun text settings =>
    { settings with
      members := { settings.members with logDirName := text }, pathFromConfig := true }

def readPattern (options : Options) (log : Option Config) :
    Settings Config → Outcome (Settings Config) :=
  readSetting api options.logPattern.isSome log "pattern" fun text settings =>
    { settings with
      members := { settings.members with logPattern := text }, pathFromConfig := true }

def readLevel (options : Options) (log : Option Config) :
    Settings Config → Outcome (Settings Config) :=
  readSetting api options.logLevel.isSome log "level" fun text settings =>
    { settings with
      members := { settings.members with logLevel := uint32OfText text }, levelFromConfig := true }

def readDaemon (options : Options) (common : Config) :
    Settings Config → Outcome (Settings Config) :=
  readSetting api options.daemon (some common) "daemon" fun text settings =>
    { settings with members :=
      { settings.members with runAsDaemon := Serialization.XmlText.toBool text false } }

def readData (config : Config) (settings : Settings Config) : Outcome (Settings Config) :=
  if api.existsAt config "data" then do
    let data ← api.getConfig config "data"
    .ok { settings with members := { settings.members with config := data } }
  else .ok settings

def readLog (options : Options) (common : Config) (settings : Settings Config) :
    Outcome (Settings Config) :=
  if api.existsAt common "log" then do
    let log ← api.getConfig common "log"
    readDir api options log settings >>= readPattern api options log >>= readLevel api options log
  else .ok settings

def readCommon (options : Options) (config : Config) (settings : Settings Config) :
    Outcome (Settings Config) :=
  if api.existsAt config "common" then do
    let common ← api.getConfig config "common" >>= pointee
    readDaemon api options common settings >>= readLog api options common
  else .ok settings

/-- What `Run` takes from the config file. -/
def readConfig (options : Options) (loadConfig : Outcome (Option Config)) :
    Outcome (Settings Config) :=
  let settings := ⟨options.members, false, false⟩
  if options.config then do
    match ← loadConfig with
    | some config => readData api config settings >>= readCommon api options config
    | none => .ok settings
  else .ok settings

def levelMessage (level : UInt32) : String :=
  "[Mif::Application::Application::Run] Invalid log level valie \"" ++ toString level ++
    "\". The value of the logging level should not exceed \"" ++ toString Level.trace.value ++
    "\"."

/-- The directory is made when it is not there. -/
def makeDirectory (files : FileSystem) (dirName : String) : Outcome Unit := do
  let there ← files.pathExists dirName
  if there then .ok ()
  else do
    let created ← files.createDirectories dirName
    demand created ("[Mif::Application::Application::Run] Failed to create log directory \"" ++
      dirName ++ "\"")

/-- A member that the command line has set, or the default that takes its place. -/
def orDefault (given : Bool) (member : String) (default : Outcome String) : Outcome String :=
  if given then .ok member else default

/-- The branch of `InitLog` for a log file. -/
def initFileLog (files : FileSystem) (options : Options) (members : Members Config) :
    Outcome (Option Log) := do
  let dirName ← orDefault options.logDir.isSome members.logDirName
    (files.executable.map Executable.parentPath)
  let pattern ← orDefault options.logPattern.isSome members.logPattern
    (files.executable.map fun executable => executable.filename ++ "_%5N.log")
  let level := if options.logLevel.isSome then members.logLevel else Level.trace.value
  makeDirectory files dirName
  .ok (some (.file (Level.ofValue level) dirName pattern))

/-- `Application::InitLog`, with the call that it ends in, if any. -/
def initLog (files : FileSystem) (options : Options) (settings : Settings Config) :
    Outcome (Option Log) := do
  let leveled := options.logLevel.isSome || settings.levelFromConfig
  demand (!(leveled && decide (Level.trace.value < settings.members.logLevel)))
    (levelMessage settings.members.logLevel)
  if options.logDir.isSome || options.logPattern.isSome || settings.pathFromConfig then
    initFileLog files options settings.members
  else if leveled then .ok (some (.console (Level.ofValue settings.members.logLevel)))
  else .ok none

/-- `Application::Run`, up to `Start`. -/
def run (files : FileSystem) (options : Options) (loadConfig : Outcome (Option Config)) :
    Outcome (Option Log) :=
  if options.help || options.version then .ok none
  else readConfig api options loadConfig >>= initLog files options

/-- The section under a key. -/
def sectionAt (config : Config) (key : String) : Option Config :=
  if api.existsAt config key then (api.getConfig config key).toOption.join else none

/-- The value that a section has under a key. -/
def valueAt (log : Option Config) (key : String) : Option String :=
  log.bind fun log => if api.existsAt log key then (api.getValue log key).toOption else none

/-- The config file, when there is one. -/
def loaded (options : Options) (loadConfig : Outcome (Option Config)) : Option Config :=
  if options.config then loadConfig.toOption.join else none

/-- The value of `common.log` in the config file under a key. -/
def configured (options : Options) (loadConfig : Outcome (Option Config)) (key : String) :
    Option String :=
  valueAt api ((loaded options loadConfig).bind fun config =>
    (sectionAt api config "common").bind fun common => sectionAt api common "log") key

end

/-- A setting is the value of the command line, failing it the one of the config file, and
failing both the default. -/
def Precedence {α : Type} (given configured : Option α) (default : Outcome α) (value : α) : Prop :=
  match given.or configured with
  | some wanted => value = wanted
  | none => default = .ok value

section

variable (files : FileSystem) (options : Options) (configured : String → Option String)

/-- The level that the config file asks for. -/
def configuredLevel : Option Level := (configured "level").map fun text =>
  Level.ofValue (uint32OfText text)

/-- The arguments of the call are as the command line and the config file want them. -/
def Respected : Log → Prop
  | .file level dirName pattern =>
      Precedence options.logDir (configured "dir")
          (files.executable.map Executable.parentPath) dirName ∧
        Precedence options.logPattern (configured "pattern")
          (files.executable.map fun executable => executable.filename ++ "_%5N.log") pattern ∧
        Precedence (options.logLevel.map Level.ofValue) (configuredLevel configured)
          (.ok .trace) level
  | .console level =>
      Precedence (options.logLevel.map Level.ofValue) (configuredLevel configured)
        (.ok .trace) level

/-- The command line or the config file asks for a log file. -/
def AsksForFile : Prop :=
  options.logDir.isSome ∨ options.logPattern.isSome ∨
    (configured "dir").isSome ∨ (configured "pattern").isSome

/-- The command line gives the setting, or the config file does not have it, or has the
default. -/
def Undisputed {α : Type} (given configured : Option α) (default : Outcome α) : Prop :=
  given.isSome ∨ ∀ wanted, configured = some wanted → default = .ok wanted

/-- No setting of the config file differs from the default when there is a log file, unless the
command line gives it. -/
def Kept : Prop :=
  AsksForFile options configured →
    Undisputed options.logDir (configured "dir") (files.executable.map Executable.parentPath) ∧
      Undisputed options.logPattern (configured "pattern")
        (files.executable.map fun executable => executable.filename ++ "_%5N.log") ∧
      Undisputed (options.logLevel.map Level.ofValue) (configuredLevel configured) (.ok .trace)

end

/-- The members and flags after the config file was read. -/
structure Reads {Config : Type} (options : Options) (configured : String → Option String)
    (settings : Settings Config) : Prop where
  dir : settings.members.logDirName = (options.logDir.or (configured "dir")).getD ""
  pattern : settings.members.logPattern = (options.logPattern.or (configured "pattern")).getD ""
  level : settings.members.logLevel =
    (options.logLevel.or ((configured "level").map uint32OfText)).getD Level.trace.value
  path : settings.pathFromConfig = ((options.logDir.isNone && (configured "dir").isSome) ||
    (options.logPattern.isNone && (configured "pattern").isSome))
  fromConfig : settings.levelFromConfig =
    (options.logLevel.isNone && (configured "level").isSome)

/- What the config file leaves in the members. -/
section

variable {Config : Type} {api : IConfig Config} {options : Options}
  {settings result : Settings Config}

theorem readUnless_ok {given : Bool} {log : Option Config} {key : String}
    {found : Option String} (read : readUnless api given log key = .ok found) :
    found = if given then none else valueAt api log key := by
  unfold readUnless at read
  cases given with
  | true =>
      cases read
      rfl
  | false =>
      rw [if_neg Bool.false_ne_true] at read ⊢
      obtain ⟨pointed, follows, asked⟩ := bind_eq_ok.mp read
      cases log with
      | none => cases follows
      | some log =>
          cases follows
          rw [valueAt, Option.bind_some]
          cases there : api.existsAt pointed key with
          | false =>
              rw [there] at asked
              cases asked
              rfl
          | true =>
              rw [there, if_pos rfl] at asked
              rw [if_pos rfl]
              cases answer : api.getValue pointed key with
              | error fault =>
                  rw [answer] at asked
                  cases asked
              | ok value =>
                  rw [answer] at asked
                  cases asked
                  rfl

theorem readSetting_ok {given : Bool} {log : Option Config} {key : String}
    {store : String → Settings Config → Settings Config}
    (read : readSetting api given log key store settings = .ok result) :
    result = (if given then none else valueAt api log key).elim settings fun text =>
      store text settings := by
  unfold readSetting at read
  cases asked : readUnless api given log key with
  | error fault =>
      rw [asked] at read
      cases read
  | ok found =>
      rw [asked] at read
      cases read
      rw [readUnless_ok asked]

theorem readDir_ok {log : Option Config} (read : readDir api options log settings = .ok result) :
    ∃ found, found = (if options.logDir.isSome then none else valueAt api log "dir") ∧
      result = ⟨{ settings.members with logDirName := found.getD settings.members.logDirName },
        found.isSome || settings.pathFromConfig, settings.levelFromConfig⟩ := by
  refine ⟨_, rfl, (readSetting_ok read).trans ?_⟩
  cases (if options.logDir.isSome then none else valueAt api log "dir") with
  | none => rfl
  | some text => rfl

theorem readPattern_ok {log : Option Config}
    (read : readPattern api options log settings = .ok result) :
    ∃ found, found = (if options.logPattern.isSome then none else valueAt api log "pattern") ∧
      result = ⟨{ settings.members with logPattern := found.getD settings.members.logPattern },
        found.isSome || settings.pathFromConfig, settings.levelFromConfig⟩ := by
  refine ⟨_, rfl, (readSetting_ok read).trans ?_⟩
  cases (if options.logPattern.isSome then none else valueAt api log "pattern") with
  | none => rfl
  | some text => rfl

theorem readLevel_ok {log : Option Config}
    (read : readLevel api options log settings = .ok result) :
    ∃ found, found = (if options.logLevel.isSome then none else valueAt api log "level") ∧
      result = ⟨{ settings.members with
          logLevel := (found.map uint32OfText).getD settings.members.logLevel },
        settings.pathFromConfig, found.isSome || settings.levelFromConfig⟩ := by
  refine ⟨_, rfl, (readSetting_ok read).trans ?_⟩
  cases (if options.logLevel.isSome then none else valueAt api log "level") with
  | none => rfl
  | some text => rfl

theorem reads_readData {config : Config} {configured : String → Option String}
    (read : readData api config settings = .ok result) (start : Reads options configured settings) :
    Reads options configured result := by
  unfold readData at read
  split at read
  · obtain ⟨data, -, stored⟩ := bind_eq_ok.mp read
    cases stored
    exact ⟨start.dir, start.pattern, start.level, start.path, start.fromConfig⟩
  · cases read
    exact start

theorem reads_readDaemon {common : Config} {configured : String → Option String}
    (read : readDaemon api options common settings = .ok result)
    (start : Reads options configured settings) : Reads options configured result := by
  rw [readSetting_ok read]
  cases (if options.daemon then none else valueAt api (some common) "daemon") with
  | none => exact start
  | some text => exact ⟨start.dir, start.pattern, start.level, start.path, start.fromConfig⟩

/-- What is taken from `common.log`, in the order of the source. -/
theorem reads_readLog {common : Config} (read : readLog api options common settings = .ok result)
    (start : Reads options (fun _ => none) settings) :
    Reads options (valueAt api (sectionAt api common "log")) result := by
  unfold readLog at read
  rw [sectionAt]
  by_cases there : api.existsAt common "log" = true
  · rw [if_pos there] at read ⊢
    obtain ⟨log, got, asked⟩ := bind_eq_ok.mp read
    obtain ⟨second, earlier, last⟩ := bind_eq_ok.mp asked
    obtain ⟨first, opening, middle⟩ := bind_eq_ok.mp earlier
    obtain ⟨dir, dirFound, rfl⟩ := readDir_ok opening
    obtain ⟨pattern, patternFound, rfl⟩ := readPattern_ok middle
    obtain ⟨level, levelFound, rfl⟩ := readLevel_ok last
    have pointer : (api.getConfig common "log").toOption.join = log := by
      rw [got]
      rfl
    rw [pointer, dirFound, patternFound, levelFound]
    constructor
    · cases given : options.logDir with
      | none => simp [start.dir, given]
      | some text => simp [start.dir, given]
    · cases given : options.logPattern with
      | none => simp [start.pattern, given]
      | some text => simp [start.pattern, given]
    · cases given : options.logLevel with
      | none => simp [start.level, given]
      | some number => simp [start.level, given]
    · cases options.logDir with
      | none =>
          cases options.logPattern with
          | none => simp [start.path, Bool.or_comm]
          | some text => simp [start.path]
      | some text =>
          cases options.logPattern with
          | none => simp [start.path]
          | some text => simp [start.path]
    · cases options.logLevel with
      | none => simp [start.fromConfig]
      | some number => simp [start.fromConfig]
  · rw [if_neg there] at read ⊢
    cases read
    exact start

theorem reads_readCommon {config : Config}
    (read : readCommon api options config settings = .ok result)
    (start : Reads options (fun _ => none) settings) :
    Reads options (valueAt api ((sectionAt api config "common").bind fun common =>
      sectionAt api common "log")) result := by
  unfold readCommon at read
  rw [sectionAt]
  by_cases there : api.existsAt config "common" = true
  · rw [if_pos there] at read ⊢
    obtain ⟨common, got, asked⟩ := bind_eq_ok.mp read
    obtain ⟨pointer, answered, follows⟩ := bind_eq_ok.mp got
    obtain ⟨daemon, first, last⟩ := bind_eq_ok.mp asked
    cases pointer with
    | none => cases follows
    | some pointed =>
        cases follows
        rw [answered]
        exact reads_readLog last (reads_readDaemon first start)
  · rw [if_neg there] at read ⊢
    cases read
    exact start

/-- The settings are those of the command line and, behind them, those of the config file. -/
theorem reads_readConfig {loadConfig : Outcome (Option Config)}
    (read : readConfig api options loadConfig = .ok result) :
    Reads options (configured api options loadConfig) result := by
  have start : Reads options (fun _ => none)
      (⟨options.members, false, false⟩ : Settings Config) := by
    constructor
    · simp [Options.members]
    · simp [Options.members]
    · simp [Options.members]
    · simp
    · simp
  unfold readConfig at read
  unfold configured loaded
  dsimp only at read
  by_cases given : options.config = true
  · rw [if_pos given] at read ⊢
    obtain ⟨pointer, got, asked⟩ := bind_eq_ok.mp read
    rw [got]
    cases pointer with
    | none =>
        cases asked
        exact start
    | some config =>
        obtain ⟨data, first, last⟩ := bind_eq_ok.mp asked
        exact reads_readCommon last (reads_readData first start)
  · rw [if_neg given] at read ⊢
    cases read
    exact start

end

/-- A value that was chosen without the config file agrees with it where it is undisputed. -/
theorem precedence_iff {α : Type} {given configured : Option α} {default : Outcome α} {value : α}
    (chosen : Precedence given none default value) :
    Precedence given configured default value ↔ Undisputed given configured default := by
  unfold Precedence at chosen ⊢
  unfold Undisputed
  cases given with
  | some wanted => exact iff_of_true chosen (Or.inl rfl)
  | none =>
      have own : default = .ok value := chosen
      rw [own]
      cases configured with
      | none => simp
      | some wanted => simp

/- What `InitLog` does with the settings. -/
section

variable {Config : Type} {files : FileSystem} {options : Options}
  {configured : String → Option String} {settings : Settings Config} {log : Log}

theorem asksForFile_iff (reads : Reads options configured settings) :
    (options.logDir.isSome || options.logPattern.isSome || settings.pathFromConfig) = true ↔
      AsksForFile options configured := by
  rw [reads.path, AsksForFile]
  cases options.logDir with
  | some text => simp
  | none =>
      cases options.logPattern with
      | some text => simp
      | none => simp

/-- The log file gets what the command line gives, and the defaults for the rest. -/
theorem initLog_file (reads : Reads options configured settings)
    (asks : AsksForFile options configured)
    (reached : initLog files options settings = .ok (some log)) :
    ∃ level dirName pattern, log = .file level dirName pattern ∧
      Precedence (options.logLevel.map Level.ofValue) none (.ok .trace) level ∧
      Precedence options.logDir none (files.executable.map Executable.parentPath) dirName ∧
      Precedence options.logPattern none
        (files.executable.map fun executable => executable.filename ++ "_%5N.log") pattern := by
  unfold initLog at reached
  obtain ⟨-, -, called⟩ := bind_eq_ok.mp reached
  rw [if_pos ((asksForFile_iff reads).mpr asks)] at called
  obtain ⟨dirName, dirs, called⟩ := bind_eq_ok.mp called
  obtain ⟨pattern, patterns, called⟩ := bind_eq_ok.mp called
  obtain ⟨-, -, called⟩ := bind_eq_ok.mp called
  cases called
  refine ⟨_, dirName, pattern, rfl, ?_, ?_, ?_⟩
  · have level := reads.level
    cases given : options.logLevel with
    | none => rfl
    | some number =>
        rw [given] at level
        exact congrArg Level.ofValue level
  · have dir := reads.dir
    cases given : options.logDir with
    | none =>
        rw [given] at dirs
        exact dirs
    | some text =>
        rw [given] at dirs dir
        cases dirs
        exact dir
  · have stored := reads.pattern
    cases given : options.logPattern with
    | none =>
        rw [given] at patterns
        exact patterns
    | some text =>
        rw [given] at patterns stored
        cases patterns
        exact stored

/-- The console gets the level of the command line or of the config file. -/
theorem initLog_console (reads : Reads options configured settings)
    (asks : ¬ AsksForFile options configured)
    (reached : initLog files options settings = .ok (some log)) :
    ∃ level, log = .console level ∧
      Precedence (options.logLevel.map Level.ofValue) (configuredLevel configured)
        (.ok .trace) level := by
  unfold initLog at reached
  obtain ⟨-, -, called⟩ := bind_eq_ok.mp reached
  rw [if_neg fun file => asks ((asksForFile_iff reads).mp file)] at called
  split at called
  · cases called
    refine ⟨_, rfl, ?_⟩
    rw [reads.level, configuredLevel]
    cases options.logLevel with
    | some number => rfl
    | none =>
        cases configured "level" with
        | none => rfl
        | some text => rfl
  · cases called

end

/-- The log is set up as the command line and the config file want it, exactly when the config
file does not ask for something else than the defaults of a log file. -/
theorem settings_respected_iff {Config : Type} (api : IConfig Config) (files : FileSystem)
    (options : Options) (loadConfig : Outcome (Option Config)) {log : Log}
    (reached : run api files options loadConfig = .ok (some log)) :
    Respected files options (configured api options loadConfig) log ↔
      Kept files options (configured api options loadConfig) := by
  unfold run at reached
  split at reached
  · cases reached
  · obtain ⟨settings, read, called⟩ := bind_eq_ok.mp reached
    have reads := reads_readConfig read
    by_cases asks : AsksForFile options (configured api options loadConfig)
    · obtain ⟨level, dirName, pattern, same, levels, dirs, patterns⟩ :=
        initLog_file reads asks called
      rw [same, Respected, precedence_iff levels, precedence_iff dirs, precedence_iff patterns]
      exact ⟨fun kept _ => kept, fun kept => kept asks⟩
    · obtain ⟨level, same, levels⟩ := initLog_console reads asks called
      rw [same]
      exact iff_of_true levels fun file => absurd file asks

/-- A program `/opt/service`, and directories that are all there. -/
def sampleFiles : FileSystem where
  executable := .ok ⟨"/opt", "service"⟩
  pathExists _ := .ok true
  createDirectories _ := .ok false

/-- Only a config file is given. -/
def sampleOptions : Options where
  help := false
  version := false
  daemon := false
  config := true
  logDir := none
  logPattern := none
  logLevel := none

/-- The config file `{"common": {"log": {"dir": dir}}}`. -/
def sampleConfig (dir : String) : Outcome (Option Serialization.Json) :=
  .ok (some (.object [("common", .object [("log", .object [("dir", .string dir)])])]))

/-- A directory that is the default one is kept. -/
theorem settings_respected_default :
    Respected sampleFiles sampleOptions
      (configured (jsonConfig Float.toString) sampleOptions (sampleConfig "/opt"))
      (.file .trace "/opt" "service_%5N.log") := by
  have reached : run (jsonConfig Float.toString) sampleFiles sampleOptions (sampleConfig "/opt") =
      .ok (some (.file .trace "/opt" "service_%5N.log")) := by
    rfl
  rw [settings_respected_iff _ _ _ _ reached]
  intro asks
  refine ⟨Or.inr ?_, Or.inr ?_, Or.inr ?_⟩
  · intro wanted found
    have same : some "/opt" = some wanted := found
    cases same
    rfl
  · intro wanted found
    have none : Option.none = some wanted := found
    cases none
  · intro wanted found
    have none : Option.none = some wanted := found
    cases none

/-- Another directory is lost. -/
theorem configured_directory_is_lost :
    run (jsonConfig Float.toString) sampleFiles sampleOptions (sampleConfig "/var/log") =
        .ok (some (.file .trace "/opt" "service_%5N.log")) ∧
      ¬ Respected sampleFiles sampleOptions
        (configured (jsonConfig Float.toString) sampleOptions (sampleConfig "/var/log"))
        (.file .trace "/opt" "service_%5N.log") := by
  refine ⟨rfl, ?_⟩
  intro respected
  have dir : "/opt" = "/var/log" := respected.1
  revert dir
  decide

end Mif.Application.LogSettings
