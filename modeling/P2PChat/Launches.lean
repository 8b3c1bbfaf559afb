import P2PChat.StartSettings

namespace P2PChat

open SettingName

/-- The ports on the command line. -/
def Launch.ports (launch : Launch) : List Int32 := (launch.arguments.map Arguments.ports).getD []

section CommandLine

variable {order : HashOrder} {settings : MemorySettings} {ports : List Int32}

end CommandLine

namespace Launch

section Reads

variable {ini : IniFile} {overrides : MemorySettings} {d : DefaultValue}

end Reads

section Settled

variable {ini : IniFile} {d : DefaultValue} {P : DefaultValue → Bool}

/-- A default can be written on a line of its own. -/
def fits (d : DefaultValue) : Bool :=
  !d.keyName.contains 0x0a && d.valueName.all (fun c => !IniFile.special c && isprint c && c != 0x0a) &&
    !d.text.contains 0x0a

end Settled

section Files

variable {ini : IniFile} {files : SettingsFiles}

end Files

section Histories

variable {files : SettingsFiles}

/-- One of these runs looks for the value in the file and can write it. -/
def leaves (launches : List Launch) (d : DefaultValue) : Bool :=
  launches.any fun launch => launch.writes && !launch.overrides.hasValue d.keyName d.valueName

end Histories

end Launch

end P2PChat
