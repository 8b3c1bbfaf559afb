import P2PChat.FixedOverrides
import P2PChat.IniMap
import P2PChat.IniRoundTrip

namespace P2PChat

section Definitions

/-- What TCLAP finds on the command line of the values that override a setting. -/
structure Arguments where
  slots : Option Int32
  ports : List Int32
  deriving DecidableEq, Repr

namespace SettingName

def server : AString := [0x53, 0x65, 0x72, 0x76, 0x65, 0x72]

def maxPlayers : AString := [0x4d, 0x61, 0x78, 0x50, 0x6c, 0x61, 0x79, 0x65, 0x72, 0x73]

def port : AString := [0x50, 0x6f, 0x72, 0x74]

def authentication : AString := [0x41, 0x75, 0x74, 0x68, 0x65, 0x6e, 0x74, 0x69, 0x63, 0x61, 0x74, 0x69, 0x6f, 0x6e]

def authenticate : AString := [0x41, 0x75, 0x74, 0x68, 0x65, 0x6e, 0x74, 0x69, 0x63, 0x61, 0x74, 0x65]

def table : AString := [0x54, 0x61, 0x62, 0x6c, 0x65]

/-- `"sername"`, as the source has it. -/
def sername : AString := [0x73, 0x65, 0x72, 0x6e, 0x61, 0x6d, 0x65]

def password : AString := [0x50, 0x61, 0x73, 0x73, 0x77, 0x6f, 0x72, 0x64]

def salt : AString := [0x53, 0x61, 0x6c, 0x74]

/-- `"tb_users"`. -/
def tbUsers : AString := [0x74, 0x62, 0x5f, 0x75, 0x73, 0x65, 0x72, 0x73]

/-- `"username"`. -/
def usernameColumn : AString := [0x75, 0x73, 0x65, 0x72, 0x6e, 0x61, 0x6d, 0x65]

/-- `"password"`. -/
def passwordColumn : AString := [0x70, 0x61, 0x73, 0x73, 0x77, 0x6f, 0x72, 0x64]

/-- `"salt"`. -/
def saltColumn : AString := [0x73, 0x61, 0x6c, 0x74]

end SettingName

open SettingName

/-- `" This is the main server configuration"`. -/
def mainServerConfiguration : AString :=
  [0x20, 0x54, 0x68, 0x69, 0x73, 0x20, 0x69, 0x73, 0x20, 0x74, 0x68, 0x65, 0x20, 0x6d, 0x61, 0x69, 0x6e, 0x20, 0x73,
    0x65, 0x72, 0x76, 0x65, 0x72, 0x20, 0x63, 0x6f, 0x6e, 0x66, 0x69, 0x67, 0x75, 0x72, 0x61, 0x74, 0x69, 0x6f, 0x6e]

/-- `none` is a command line that TCLAP refuses or answers itself: `CmdLine::parse` catches what it throws and ends
the process, so that the handler behind it is never reached. -/
def parseArguments (order : HashOrder) : Option Arguments → Option MemorySettings
  | none => none
  | some arguments =>
    let repo := match arguments.slots with
      | some slots => MemorySettings.create.addValue order server maxPlayers (.int64 slots.toInt64)
      | none => .create
    let repo := arguments.ports.foldl (fun repo number => repo.addValue order server port (.int64 number.toInt64)) repo
    some repo.setReadOnly

/-- What `cRoot::Start` reads for a server and its authenticator; `none` where a number is undefined. -/
structure StartSettings where
  shouldAuthenticate : Option Bool
  port : Option Int32
  table : Option AString
  username : Option AString
  password : Option AString
  salt : Option AString
  deriving DecidableEq, Repr

namespace Repository

variable {σ : Type} (repository : Repository σ)

/-- What the getters of values have in common. -/
def ask {α : Type} (answered : SettingsAnswer → Option α) (call : SettingsCall) (state : σ) : Option α × σ :=
  match repository (.settings call) state with
  | (some (.settings answer), state) => (answered answer, state)
  | (_, state) => (none, state)

def getValueSet (keyName valueName defValue : AString) : σ → Option AString × σ :=
  repository.ask (fun | .string value => some value | _ => none) (.getValueSet keyName valueName defValue)

def getValueSetI (keyName valueName : AString) (defValue : Int32) : σ → Option Int32 × σ :=
  repository.ask (fun | .int value => some value | _ => none) (.getValueSetI keyName valueName defValue)

def getValueSetB (keyName valueName : AString) (defValue : Bool) : σ → Option Bool × σ :=
  repository.ask (fun | .bool value => some value | _ => none) (.getValueSetB keyName valueName defValue)

/-- The port that `InitServer` reads for a new `cServer`, which is not connected. -/
def initServer : σ → Option Int32 × σ := repository.getValueSetI server port 6666

/-- `cAuthenticator::ReadSettings`, and what was read before it. -/
def readSettings (shouldAuthenticate : Option Bool) (portNumber : Option Int32) (state : σ) : StartSettings × σ :=
  let (tableName, state) := repository.getValueSet authentication table tbUsers state
  let (usernameName, state) := repository.getValueSet authentication sername usernameColumn state
  let (passwordName, state) := repository.getValueSet authentication password passwordColumn state
  let (saltName, state) := repository.getValueSet authentication salt saltColumn state
  (⟨shouldAuthenticate, portNumber, tableName, usernameName, passwordName, saltName⟩, state)

/-- What one round of the loop of `cRoot::Start` reads. -/
def startSettings (state : σ) : StartSettings × σ :=
  let (shouldAuthenticate, state) := repository.getValueSetB authentication authenticate true state
  let (portNumber, state) := repository.initServer state
  repository.readSettings shouldAuthenticate portNumber state

end Repository

/-- The files `settings.ini` and `settings.example.ini`. -/
structure SettingsFiles where
  file : Option AString
  exampleFile : Option AString
  deriving DecidableEq, Repr

namespace SettingsFiles

/-- The object that `cRoot::Start` has after it has read `settings.ini`. -/
def ini (files : SettingsFiles) : IniFile :=
  let (ok, ini) := IniFile.create.readFileOr files.file files.exampleFile true
  if ok then ini else ini.addHeaderComment mainServerConfiguration

/-- `WriteFile`, if the file can be opened. -/
def write (written : Bool) (ini : IniFile) (files : SettingsFiles) : SettingsFiles :=
  if written then { files with file := some ini.writeFile } else files

/-- `ReadFile` writes what it has read from the example. -/
def redirected (written : Bool) (files : SettingsFiles) : SettingsFiles :=
  if files.file.isNone && (IniFile.create.readFileOr files.file files.exampleFile true).1 then
    files.write written files.ini
  else files

end SettingsFiles

/-- A run of the program, or of the process that it forks as a service: its command line, whether `MakeFileListener`
can open the log file, how often the server is restarted, whether `settings.ini` can be written, and where the hash
map places values. -/
structure Launch where
  arguments : Option Arguments
  logs : Bool
  restarts : Nat
  written : Bool
  order : HashOrder

namespace Launch

/-- The values of the command line; a run that TCLAP ends has none. -/
def overrides (launch : Launch) : MemorySettings := (parseArguments launch.order launch.arguments).getD .create

/-- The run comes to its settings: TCLAP does not end it, and `cRoot::Start` does not return for want of a log. -/
def begins (launch : Launch) : Bool := (parseArguments launch.order launch.arguments).isSome && launch.logs

/-- The run comes to its settings and can write them. -/
def writes (launch : Launch) : Bool := launch.begins && launch.written

/-- `settingsRepo`. -/
def repository (launch : Launch) : Repository (Overrides IniFile MemorySettings) :=
  Overrides.repository (IniFile.repository launch.written) (MemorySettings.repository launch.order)

def flush (launch : Launch) (state : Overrides IniFile MemorySettings) (files : SettingsFiles) : SettingsFiles :=
  if (MemorySettings.repository launch.order .flush state.overrides).1 = some (.bool true) then
    files.write launch.written state.main
  else files

/-- So many rounds of the loop of `cRoot::Start`, with what each of them reads. -/
def rounds (launch : Launch) : Nat → Overrides IniFile MemorySettings → SettingsFiles →
    List StartSettings × Overrides IniFile MemorySettings × SettingsFiles
  | 0, state, files => ([], state, files)
  | n + 1, state, files =>
    let (settings, state) := launch.repository.startSettings state
    let (rest, state, files) := launch.rounds n state (launch.flush state files)
    (settings :: rest, state, files)

/-- `main` and `cRoot::Start`: what each round reads, and what is in the files in the end. -/
def start (launch : Launch) (files : SettingsFiles) : List StartSettings × SettingsFiles :=
  if launch.begins then
    let (settings, state, files) :=
      launch.rounds (launch.restarts + 1) ⟨files.ini, launch.overrides⟩ (files.redirected launch.written)
    (settings, launch.flush state files)
  else ([], files)

end Launch

/-- A value with the text that it is given where it has none. -/
structure DefaultValue where
  keyName : AString
  valueName : AString
  text : AString
  deriving DecidableEq, Repr

/-- What `GetValueSet` leaves for each of these. -/
def IniFile.complete (defaults : List DefaultValue) (ini : IniFile) : IniFile :=
  defaults.foldl (fun ini d => (ini.getValueSet d.keyName d.valueName d.text).2) ini

def IniFile.valueOf (d : DefaultValue) (ini : IniFile) : AString := (ini.find d.keyName d.valueName).getD d.text

namespace Launch

def authenticateDefault : DefaultValue := ⟨authentication, authenticate, decimal 1⟩

def portDefault : DefaultValue := ⟨server, port, decimal 6666⟩

def tableDefault : DefaultValue := ⟨authentication, table, tbUsers⟩

def usernameDefault : DefaultValue := ⟨authentication, sername, usernameColumn⟩

def passwordDefault : DefaultValue := ⟨authentication, password, passwordColumn⟩

def saltDefault : DefaultValue := ⟨authentication, salt, saltColumn⟩

def defaults : List DefaultValue :=
  [authenticateDefault, portDefault, tableDefault, usernameDefault, passwordDefault, saltDefault]

/-- The values that a run with these overrides looks for in the file. -/
def asked (overrides : MemorySettings) : List DefaultValue :=
  defaults.filter fun d => !overrides.hasValue d.keyName d.valueName

/-- What a run with these overrides is to read: the port of the command line, or else what the file has, or else
the defaults. -/
def settled (overrides : MemorySettings) (ini : IniFile) : StartSettings where
  shouldAuthenticate := (atoi (ini.valueOf authenticateDefault)).map fun n => n != 0
  port := match overrides.find server port with
    | some value => value.getIntValue.map Int64.toInt32
    | none => atoi (ini.valueOf portDefault)
  table := some (ini.valueOf tableDefault)
  username := some (ini.valueOf usernameDefault)
  password := some (ini.valueOf passwordDefault)
  salt := some (ini.valueOf saltDefault)

end Launch

end Definitions

namespace IniFile

section Completion

variable {ini : IniFile} {defaults : List DefaultValue} {keyName valueName text : AString}

theorem Readable.aligned (h : ini.Readable) : ini.Aligned := ⟨h.paired, fun key hmem => (h.keys key hmem).paired⟩

theorem Aligned.getValueSet_find (h : ini.Aligned) (keyName valueName text : AString) :
    (ini.getValueSet keyName valueName text).2.Aligned ∧
      (ini.getValueSet keyName valueName text).2.checkCase = ini.checkCase ∧
      ∀ k n, (ini.getValueSet keyName valueName text).2.find k n =
        (ini.find k n).or (if ini.SamePair keyName valueName k n then some text else none) := by
  rw [h.getValueSet]
  rcases hfind : ini.find keyName valueName with _ | old
  · refine ⟨h.addValue, h.addValue_case, fun k n => ?_⟩
    rw [h.addValue_find]
    rfl
  · refine ⟨h, rfl, fun k n => ?_⟩
    by_cases hsame : ini.SamePair keyName valueName k n
    · rw [hsame.find, hfind]
      rfl
    · rw [if_neg hsame, Option.or_none]

/-- The values that there were stay, and the first default for a pair stands where there was none. -/
theorem Aligned.complete (h : ini.Aligned) (defaults : List DefaultValue) :
    (ini.complete defaults).Aligned ∧ (ini.complete defaults).checkCase = ini.checkCase ∧
      ∀ k n, (ini.complete defaults).find k n = (ini.find k n).or
        ((defaults.find? fun d => ini.SamePair d.keyName d.valueName k n).map DefaultValue.text) := by
  induction defaults generalizing ini with
  | nil => exact ⟨h, rfl, fun k n => Option.or_none.symm⟩
  | cons d defaults ih =>
    obtain ⟨haligned, hcase, hfind⟩ := h.getValueSet_find d.keyName d.valueName d.text
    obtain ⟨haligned', hcase', hfind'⟩ := ih haligned
    refine ⟨haligned', hcase'.trans hcase, fun k n => ?_⟩
    have hpairs : ∀ e : DefaultValue,
        (ini.getValueSet d.keyName d.valueName d.text).2.SamePair e.keyName e.valueName k n ↔
          ini.SamePair e.keyName e.valueName k n := by
      intro e
      rw [SamePair, SamePair, hcase]
    have hrest := hfind' k n
    simp only [hpairs] at hrest
    rw [List.find?_cons]
    by_cases hsame : ini.SamePair d.keyName d.valueName k n
    · rw [decide_eq_true hsame]
      refine hrest.trans ?_
      rw [hfind, if_pos hsame]
      rcases ini.find k n with _ | old
      · rfl
      · rfl
    · rw [decide_eq_false hsame]
      refine hrest.trans ?_
      rw [hfind, if_neg hsame, Option.or_none]

end Completion

section Kept

variable {ini : IniFile} {keyName valueName text : AString}

/-- What is read from a file and then given more values. -/
structure Plain (ini : IniFile) : Prop where
  readable : ini.Readable
  insensitive : ini.isCaseInsensitive = true

theorem Plain.addHeaderComment {comment : AString} (h : ini.Plain) (hcomment : 0x0a ∉ comment) :
    (ini.addHeaderComment comment).Plain :=
  ⟨h.readable.addHeaderComment hcomment, h.insensitive⟩

/-- A default that can be written on a line of its own. -/
structure Fits (d : DefaultValue) : Prop where
  keyName : 0x0a ∉ d.keyName
  valueName : ValueName d.valueName
  text : 0x0a ∉ d.text

theorem Plain.complete {defaults : List DefaultValue} (h : ini.Plain) (hfits : ∀ d ∈ defaults, Fits d) :
    (ini.complete defaults).Plain := by
  induction defaults generalizing ini with
  | nil => exact h
  | cons d defaults ih =>
    obtain ⟨hfirst, hrest⟩ := List.forall_mem_cons.mp hfits
    have hnext : (ini.getValueSet d.keyName d.valueName d.text).2.Plain := by
      rw [h.readable.aligned.getValueSet]
      split
      next =>
        refine ⟨h.readable.addValue hfirst.keyName hfirst.valueName hfirst.text, ?_⟩
        exact (addValue_isCaseInsensitive _ _ _ ini).trans h.insensitive
      next => exact h
    exact ih hnext hrest

end Kept

end IniFile

end P2PChat
