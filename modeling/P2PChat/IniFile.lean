import P2PChat.Decimal

namespace P2PChat

/-- `isprint` of the C locale. -/
def isprint (c : UInt8) : Bool := 0x20 ≤ c && c ≤ 0x7e

structure IniKey where
  names : List AString
  values : List AString
  comments : List AString
  deriving DecidableEq, Repr

/-- A `cIniFile` but for the name of its file: what is in a key is at the same place in `keys` as its name in
`names`. -/
structure IniFile where
  isCaseInsensitive : Bool
  keys : List IniKey
  names : List AString
  comments : List AString
  deriving DecidableEq, Repr

def IniKey.empty : IniKey := ⟨[], [], []⟩

def IniKey.addValue (valueName value : AString) (key : IniKey) : IniKey :=
  { key with names := key.names ++ [valueName], values := key.values ++ [value] }

def IniKey.setValue (valueID : Nat) (value : AString) (key : IniKey) : IniKey :=
  { key with values := key.values.set valueID value }

def IniKey.deleteValue (valueID : Nat) (key : IniKey) : IniKey :=
  { key with names := key.names.eraseIdx valueID, values := key.values.eraseIdx valueID }

def IniKey.addComment (comment : AString) (key : IniKey) : IniKey :=
  { key with comments := key.comments ++ [comment] }

namespace IniFile

def create : IniFile := ⟨true, [], [], []⟩

def caseSensitive (ini : IniFile) : IniFile := { ini with isCaseInsensitive := false }

def caseInsensitive (ini : IniFile) : IniFile := { ini with isCaseInsensitive := true }

def checkCase (ini : IniFile) (s : AString) : AString := if ini.isCaseInsensitive then s.map tolower else s

/-- `none` for `noID`. -/
def findKey (keyName : AString) (ini : IniFile) : Option Nat :=
  ini.names.findIdx? fun name => ini.checkCase name == ini.checkCase keyName

def findValue (keyID : Nat) (valueName : AString) (ini : IniFile) : Option Nat :=
  ini.keys[keyID]?.bind fun key => key.names.findIdx? fun name => ini.checkCase name == ini.checkCase valueName

def addKeyName (keyName : AString) (ini : IniFile) : Nat × IniFile :=
  (ini.names.length, { ini with names := ini.names ++ [keyName], keys := ini.keys ++ [IniKey.empty] })

/-- The key with this name, which is added when there is none. -/
def demandKey (keyName : AString) (ini : IniFile) : Nat × IniFile :=
  match ini.findKey keyName with
  | some keyID => (keyID, ini)
  | none => ini.addKeyName keyName

def modifyKey (keyID : Nat) (f : IniKey → IniKey) (ini : IniFile) : IniFile :=
  { ini with keys := ini.keys.modify keyID f }

def addValue (keyName valueName value : AString) (ini : IniFile) : IniFile :=
  let (keyID, ini) := ini.demandKey keyName
  ini.modifyKey keyID (IniKey.addValue valueName value)

def addHeaderComment (comment : AString) (ini : IniFile) : IniFile :=
  { ini with comments := ini.comments ++ [comment] }

def addKeyComment (keyName comment : AString) (ini : IniFile) : Bool × IniFile :=
  match ini.findKey keyName with
  | some keyID =>
    if keyID < ini.keys.length then (true, ini.modifyKey keyID (IniKey.addComment comment)) else (false, ini)
  | none => (false, ini)

section Settings

/-- `keys[keyID]` for a place that `FindKey` gives. -/
def keyAt (keyID : Nat) (ini : IniFile) : IniKey := ini.keys.getD keyID IniKey.empty

/-- The value at a place that `FindValue` gives. -/
def valueAt (keyID valueID : Nat) (ini : IniFile) : AString := (ini.keyAt keyID).values.getD valueID []

def keyExists (keyName : AString) (ini : IniFile) : Bool := (ini.findKey keyName).isSome

def hasValue (keyName valueName : AString) (ini : IniFile) : Bool :=
  match ini.findKey keyName with
  | none => false
  | some keyID => (ini.findValue keyID valueName).isSome

def getValues (keyName : AString) (ini : IniFile) : List (AString × AString) :=
  match ini.findKey keyName with
  | none => []
  | some keyID => (ini.keyAt keyID).names.zip (ini.keyAt keyID).values

def getValue (keyName valueName defValue : AString) (ini : IniFile) : AString :=
  match ini.findKey keyName with
  | none => defValue
  | some keyID =>
    match ini.findValue keyID valueName with
    | none => defValue
    | some valueID => ini.valueAt keyID valueID

def setValue (keyName valueName value : AString) (createIfNotExists : Bool) (ini : IniFile) : Bool × IniFile :=
  if (ini.findKey keyName).isNone && !createIfNotExists then (false, ini)
  else
    let (keyID, ini) := ini.demandKey keyName
    match ini.findValue keyID valueName with
    | none => if createIfNotExists then (true, ini.modifyKey keyID (IniKey.addValue valueName value)) else (false, ini)
    | some valueID => (true, ini.modifyKey keyID (IniKey.setValue valueID value))

def setValueI (keyName valueName : AString) (value : Int32) (createIfNotExists : Bool) (ini : IniFile) :
    Bool × IniFile :=
  ini.setValue keyName valueName (decimal value.toInt) createIfNotExists

def getValueSet (keyName valueName defValue : AString) (ini : IniFile) : AString × IniFile :=
  match ini.findKey keyName with
  | none => (defValue, (ini.setValue keyName valueName defValue true).2)
  | some keyID =>
    match ini.findValue keyID valueName with
    | none => (defValue, (ini.setValue keyName valueName defValue true).2)
    | some valueID => (ini.valueAt keyID valueID, ini)

/-- `none` where `atoi` is undefined. -/
def getValueSetI (keyName valueName : AString) (defValue : Int32) (ini : IniFile) : Option Int32 × IniFile :=
  let (result, ini) := ini.getValueSet keyName valueName (decimal defValue.toInt)
  (atoi result, ini)

/-- The overload for `Int64`, `none` where `sscanf` is undefined. -/
def getValueSetI64 (keyName valueName : AString) (defValue : Int64) (ini : IniFile) : Option Int64 × IniFile :=
  let (result, ini) := ini.getValueSet keyName valueName (decimal defValue.toInt)
  (scanInt64 result defValue, ini)

def getValueSetB (keyName valueName : AString) (defValue : Bool) (ini : IniFile) : Option Bool × IniFile :=
  let (result, ini) := ini.getValueSetI keyName valueName (if defValue then 1 else 0)
  (result.map fun n => n != 0, ini)

def deleteValueByID (keyID valueID : Nat) (ini : IniFile) : Bool × IniFile :=
  if keyID < ini.keys.length ∧ valueID < (ini.keyAt keyID).names.length then
    (true, ini.modifyKey keyID (IniKey.deleteValue valueID))
  else (false, ini)

def deleteValue (keyName valueName : AString) (ini : IniFile) : Bool × IniFile :=
  match ini.findKey keyName with
  | none => (false, ini)
  | some keyID =>
    match ini.findValue keyID valueName with
    | none => (false, ini)
    | some valueID => ini.deleteValueByID keyID valueID

def deleteKey (keyName : AString) (ini : IniFile) : Bool × IniFile :=
  match ini.findKey keyName with
  | none => (false, ini)
  | some keyID => (true, { ini with names := ini.names.eraseIdx keyID, keys := ini.keys.eraseIdx keyID })

def clear (ini : IniFile) : IniFile := { ini with keys := [], names := [], comments := [] }

def deleteHeaderComments (ini : IniFile) : IniFile := { ini with comments := [] }

end Settings

section Reading

/-- The lines of `getline`: none after the last line feed. -/
def getlines (text : AString) : List AString :=
  let lines := text.splitOn 0x0a
  if lines.getLast? = some [] then lines.dropLast else lines

def removeBom (line : AString) : AString := if line.take 3 = [0xef, 0xbb, 0xbf] then line.drop 3 else line

def stripReturn (line : AString) : AString := if line.getLast? = some 0x0d then line.dropLast else line

/-- `";#[="`. -/
def special (c : UInt8) : Bool := c == 0x3b || c == 0x23 || c == 0x5b || c == 0x3d

def findLastOf (c : UInt8) (line : AString) : Option Nat :=
  (line.reverse.findIdx? fun d => d == c).map fun i => line.length - 1 - i

/-- What the `switch` makes of a line, with the name of the last section. -/
def readEntry (line : AString) (pLeft : Nat) (keyname : AString) (ini : IniFile) : AString × IniFile :=
  if (line)[pLeft]? = some 0x5b then
    match findLastOf 0x5d line with
    | some pRight =>
      if pLeft < pRight then
        let keyname := (line.drop (pLeft + 1)).take (pRight - pLeft - 1)
        (keyname, (ini.addKeyName keyname).2)
      else (keyname, ini)
    | none => (keyname, ini)
  else if (line)[pLeft]? = some 0x3d then
    (keyname, ini.addValue keyname (line.take pLeft) (line.drop (pLeft + 1)))
  else if ini.names.isEmpty then (keyname, ini.addHeaderComment (line.drop (pLeft + 1)))
  else (keyname, (ini.addKeyComment keyname (line.drop (pLeft + 1))).2)

/-- `none` when the binary check fails. -/
def readLine (line keyname : AString) (ini : IniFile) : Option (AString × IniFile) :=
  match line.head? with
  | none => some (keyname, ini)
  | some first =>
    if !isprint first then none
    else
      match line.findIdx? special with
      | none => some (keyname, ini)
      | some pLeft => some (readEntry line pLeft keyname ini)

def readLines : List AString → AString → IniFile → Bool × IniFile
  | [], _, ini => (true, ini)
  | line :: lines, keyname, ini =>
    match readLine (stripReturn line) keyname ini with
    | none => (false, ini)
    | some (keyname, ini) => readLines lines keyname ini

def isEmpty (ini : IniFile) : Bool := ini.keys.isEmpty && ini.names.isEmpty && ini.comments.isEmpty

/-- `ReadFile` of a file with this text. -/
def readFile (text : AString) (ini : IniFile) : Bool × IniFile :=
  let (accepted, ini) := readLines ((getlines text).modifyHead removeBom) [] ini
  (accepted && !ini.isEmpty, ini)

/-- `ReadFile`, which tries the example when there is no file with the name. -/
def readFileOr (file exampleFile : Option AString) (allowExampleRedirect : Bool) (ini : IniFile) : Bool × IniFile :=
  match file.or (if allowExampleRedirect then exampleFile else none) with
  | none => (false, ini)
  | some text => ini.readFile text

/-- `iniEOL`. -/
def iniEOL : AString := [0x0d, 0x0a]

def writeComments (comments : List AString) : AString := comments.flatMap fun comment => [0x3b] ++ comment ++ iniEOL

def writeKey (name : AString) (key : IniKey) : AString :=
  [0x5b] ++ name ++ [0x5d] ++ iniEOL ++ writeComments key.comments ++
    (List.zipWith (fun name value => name ++ [0x3d] ++ value ++ iniEOL) key.names key.values).flatten ++ iniEOL

/-- The text that `WriteFile` leaves in the file. -/
def writeFile (ini : IniFile) : AString :=
  writeComments ini.comments ++ (if 0 < ini.comments.length then iniEOL else []) ++
    (List.zipWith writeKey ini.names ini.keys).flatten

end Reading

end IniFile

end P2PChat
