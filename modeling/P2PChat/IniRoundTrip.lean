import P2PChat.IniEntries

namespace P2PChat

namespace IniFile

section Definitions

/-- The name of a value as a line can begin with it. -/
structure ValueName (name : AString) : Prop where
  plain : ∀ c ∈ name, special c = false
  oneLine : 0x0a ∉ name
  printable : ∀ c, name.head? = some c → isprint c = true

/-- A section that lines can be written for. -/
structure Section (key : IniKey) : Prop where
  paired : key.names.length = key.values.length
  names : ∀ name ∈ key.names, ValueName name
  values : ∀ value ∈ key.values, 0x0a ∉ value
  comments : ∀ comment ∈ key.comments, 0x0a ∉ comment

/-- No name is that of the key at this place but later ones. -/
def First (keyID : Nat) (ini : IniFile) : Prop :=
  ∀ name, ini.names[keyID]? = some name →
    ∀ earlier ∈ ini.names.take keyID, ini.checkCase earlier ≠ ini.checkCase name

/-- What `ReadFile` leaves: of several keys with one name only the first has something in it. -/
structure Readable (ini : IniFile) : Prop where
  paired : ini.keys.length = ini.names.length
  names : ∀ name ∈ ini.names, 0x0a ∉ name
  keys : ∀ key ∈ ini.keys, Section key
  comments : ∀ comment ∈ ini.comments, 0x0a ∉ comment
  first : ∀ (keyID : Nat) (key : IniKey), ini.keys[keyID]? = some key → key ≠ IniKey.empty → ini.First keyID

end Definitions

section Lines

theorem newline_not_mem {text line : AString} (h : line ∈ text.splitOn 0x0a) : 0x0a ∉ line := by
  induction text generalizing line with
  | nil =>
    rw [List.mem_singleton.mp h]
    exact List.not_mem_nil
  | cons c text ih =>
    rw [List.splitOn_cons_eq_if_modifyHead] at h
    split at h
    next =>
      rcases List.mem_cons.mp h with rfl | hmem
      · exact List.not_mem_nil
      · exact ih hmem
    next hc =>
      obtain ⟨first, rest, hsplit⟩ := List.exists_cons_of_ne_nil (List.splitOn_ne_nil (0x0a : UInt8) text)
      rw [hsplit, List.modifyHead_cons] at h
      rw [hsplit] at ih
      rcases List.mem_cons.mp h with rfl | hmem
      · have hfirst := ih List.mem_cons_self
        simp only [List.mem_cons, not_or]
        exact ⟨fun hsame => hc (by simp [← hsame]), hfirst⟩
      · exact ih (List.mem_cons_of_mem _ hmem)

theorem getlines_newline {text line : AString} (h : line ∈ getlines text) : 0x0a ∉ line := by
  unfold getlines at h
  dsimp only at h
  split at h
  next => exact newline_not_mem (List.dropLast_subset _ h)
  next => exact newline_not_mem h

/-- Lines that were written are read, with their returns. -/
theorem getlines_written {lines : List AString} (h : ∀ line ∈ lines, 0x0a ∉ line) :
    getlines (lines.flatMap fun line => line ++ iniEOL) = lines.map fun line => line ++ [0x0d] := by
  have hsplit : (lines.flatMap fun line => line ++ iniEOL).splitOn 0x0a =
      lines.map (fun line => line ++ [0x0d]) ++ [[]] := by
    induction lines with
    | nil => rfl
    | cons line lines ih =>
      obtain ⟨hline, hlines⟩ := List.forall_mem_cons.mp h
      have hreturn : (0x0a : UInt8) ∉ line ++ [0x0d] := by simp [hline]
      have hcons : ((line :: lines).flatMap fun line => line ++ iniEOL) =
          (line ++ [0x0d]) ++ 0x0a :: lines.flatMap fun line => line ++ iniEOL := by simp [iniEOL]
      rw [hcons, List.splitOn_append_cons_self_of_not_mem hreturn, ih hlines, List.map_cons, List.cons_append]
  rw [getlines, hsplit]
  simp

theorem stripReturn_return (line : AString) : stripReturn (line ++ [0x0d]) = line := by
  simp [stripReturn]

end Lines

section Reading

variable {ini : IniFile}

theorem findKey_first {keyName : AString} {keyID : Nat} (h : ini.findKey keyName = some keyID) :
    ini.First keyID := by
  obtain ⟨hlt, hsame, hearlier⟩ := List.findIdx?_eq_some_iff_getElem.mp h
  intro name hname earlier hmem
  obtain ⟨i, hi, rfl⟩ := List.mem_take_iff_getElem.mp hmem
  have hthis : ini.names[keyID] = name := Option.some.inj ((List.getElem?_eq_getElem hlt).symm.trans hname)
  have hnot := hearlier i (by omega)
  rw [← hthis]
  intro heq
  rw [beq_iff_eq.mp hsame] at heq
  exact hnot (beq_iff_eq.mpr heq)

theorem modifyKey_getElem? {keyID i : Nat} {f : IniKey → IniKey} {key : IniKey}
    (h : (ini.modifyKey keyID f).keys[i]? = some key) :
    ∃ old, ini.keys[i]? = some old ∧ (keyID = i ∧ key = f old ∨ keyID ≠ i ∧ key = old) := by
  have hkey : (ini.keys.modify keyID f)[i]? = some key := h
  rw [List.getElem?_modify] at hkey
  obtain ⟨old, hold, hnow⟩ := Option.map_eq_some_iff.mp hkey
  refine ⟨old, hold, ?_⟩
  split at hnow
  next hsame => exact .inl ⟨hsame, hnow.symm⟩
  next hother => exact .inr ⟨hother, hnow.symm⟩

theorem Readable.modifyKey {keyID : Nat} {f : IniKey → IniKey} (h : ini.Readable) (hfirst : ini.First keyID)
    (hf : ∀ key, Section key → Section (f key)) : (ini.modifyKey keyID f).Readable := by
  refine ⟨(List.length_modify _ _ _).trans h.paired, h.names, fun key hmem => ?_, h.comments, fun i key hkey hne => ?_⟩
  · obtain ⟨i, hi⟩ := List.mem_iff_getElem?.mp hmem
    obtain ⟨old, hold, ⟨_, rfl⟩ | ⟨_, rfl⟩⟩ := modifyKey_getElem? hi
    · exact hf old (h.keys old (List.mem_of_getElem? hold))
    · exact h.keys key (List.mem_of_getElem? hold)
  · obtain ⟨old, hold, ⟨rfl, _⟩ | ⟨_, rfl⟩⟩ := modifyKey_getElem? hkey
    · exact hfirst
    · exact h.first i key hold hne

theorem First.addKeyName {keyID : Nat} {keyName : AString} (h : ini.First keyID) (hlt : keyID < ini.names.length) :
    (ini.addKeyName keyName).2.First keyID := by
  intro name hname earlier hmem
  have hname : (ini.names ++ [keyName])[keyID]? = some name := hname
  have hmem : earlier ∈ (ini.names ++ [keyName]).take keyID := hmem
  rw [List.getElem?_append_left hlt] at hname
  rw [List.take_append_of_le_length (Nat.le_of_lt hlt)] at hmem
  exact h name hname earlier hmem

theorem Readable.addKeyName {keyName : AString} (h : ini.Readable) (hname : 0x0a ∉ keyName) :
    (ini.addKeyName keyName).2.Readable := by
  refine ⟨?_, ?_, ?_, h.comments, fun i key hkey hne => ?_⟩
  · show (ini.keys ++ [IniKey.empty]).length = (ini.names ++ [keyName]).length
    rw [List.length_append, List.length_append, h.paired]
    rfl
  · exact List.forall_mem_append.mpr ⟨h.names, List.forall_mem_singleton.mpr hname⟩
  · refine List.forall_mem_append.mpr ⟨h.keys, List.forall_mem_singleton.mpr ?_⟩
    exact ⟨rfl, nofun, nofun, nofun⟩
  · have hkey : (ini.keys ++ [IniKey.empty])[i]? = some key := hkey
    rcases Nat.lt_or_ge i ini.keys.length with hlt | hge
    · rw [List.getElem?_append_left hlt] at hkey
      exact (h.first i key hkey hne).addKeyName (by rw [← h.paired]; exact hlt)
    · rw [List.getElem?_append_right hge] at hkey
      have hempty : key = IniKey.empty := List.mem_singleton.mp (List.mem_of_getElem? hkey)
      exact absurd hempty hne

/-- The key that is demanded is the first with its name. -/
theorem Readable.demandKey {keyName : AString} (h : ini.Readable) (hname : 0x0a ∉ keyName) :
    (ini.demandKey keyName).2.Readable ∧ (ini.demandKey keyName).2.First (ini.demandKey keyName).1 := by
  unfold IniFile.demandKey
  rcases hfind : ini.findKey keyName with _ | keyID
  · refine ⟨h.addKeyName hname, fun name hthis earlier hmem => ?_⟩
    have hmem : earlier ∈ (ini.names ++ [keyName]).take ini.names.length := hmem
    have hthis : (ini.names ++ [keyName])[ini.names.length]? = some name := hthis
    rw [List.take_left] at hmem
    rw [List.getElem?_concat_length] at hthis
    rw [← Option.some.inj hthis]
    intro heq
    have hnot := List.findIdx?_eq_none_iff.mp hfind earlier hmem
    have heq : ini.checkCase earlier = ini.checkCase keyName := heq
    simp [heq] at hnot
  · exact ⟨h, findKey_first hfind⟩

theorem Section.addValue {key : IniKey} {name value : AString} (h : Section key) (hname : ValueName name)
    (hvalue : 0x0a ∉ value) : Section (key.addValue name value) := by
  refine ⟨?_, ?_, ?_, h.comments⟩
  · simp [IniKey.addValue, h.paired]
  · exact List.forall_mem_append.mpr ⟨h.names, List.forall_mem_singleton.mpr hname⟩
  · exact List.forall_mem_append.mpr ⟨h.values, List.forall_mem_singleton.mpr hvalue⟩

theorem Section.addComment {key : IniKey} {comment : AString} (h : Section key) (hcomment : 0x0a ∉ comment) :
    Section (key.addComment comment) :=
  ⟨h.paired, h.names, h.values, List.forall_mem_append.mpr ⟨h.comments, List.forall_mem_singleton.mpr hcomment⟩⟩

theorem Readable.addValue {keyName name value : AString} (h : ini.Readable) (hkey : 0x0a ∉ keyName)
    (hname : ValueName name) (hvalue : 0x0a ∉ value) : (ini.addValue keyName name value).Readable := by
  obtain ⟨hdemanded, hfirst⟩ := h.demandKey hkey
  exact hdemanded.modifyKey hfirst fun key hkey => hkey.addValue hname hvalue

theorem Readable.addKeyComment {keyName comment : AString} (h : ini.Readable) (hcomment : 0x0a ∉ comment) :
    (ini.addKeyComment keyName comment).2.Readable := by
  unfold IniFile.addKeyComment
  rcases hfind : ini.findKey keyName with _ | keyID
  · exact h
  · dsimp only
    split
    next => exact h.modifyKey (findKey_first hfind) fun key hkey => hkey.addComment hcomment
    next => exact h

theorem Readable.addHeaderComment {comment : AString} (h : ini.Readable) (hcomment : 0x0a ∉ comment) :
    (ini.addHeaderComment comment).Readable :=
  ⟨h.paired, h.names, h.keys, List.forall_mem_append.mpr ⟨h.comments, List.forall_mem_singleton.mpr hcomment⟩, h.first⟩

/-- What stands before the first special character names a value. -/
theorem valueName_take {line : AString} {first : UInt8} {pLeft : Nat} (hline : 0x0a ∉ line)
    (hfirst : line.head? = some first) (hprint : isprint first = true) (hleft : line.findIdx? special = some pLeft) :
    ValueName (line.take pLeft) := by
  obtain ⟨hlt, _, hearlier⟩ := List.findIdx?_eq_some_iff_getElem.mp hleft
  refine ⟨fun c hmem => ?_, fun hmem => hline (List.mem_of_mem_take hmem), fun c hc => ?_⟩
  · obtain ⟨i, hi, rfl⟩ := List.mem_take_iff_getElem.mp hmem
    exact Bool.not_eq_true _ ▸ hearlier i (by omega)
  · rcases Nat.eq_zero_or_pos pLeft with rfl | hpos
    · cases hc
    · rw [List.head?_take, if_neg (by omega), hfirst] at hc
      rw [← Option.some.inj hc]
      exact hprint

theorem readLine_readable {line keyname keyname' : AString} {ini' : IniFile} (h : ini.Readable)
    (hline : 0x0a ∉ line) (hkey : 0x0a ∉ keyname) (hok : readLine line keyname ini = some (keyname', ini')) :
    0x0a ∉ keyname' ∧ ini'.Readable := by
  obtain ⟨rfl, rfl⟩ | ⟨first, pLeft, hfirst, hprint, hleft, hentry⟩ := readLine_cases hok
  · exact ⟨hkey, h⟩
  · have hdrop : 0x0a ∉ line.drop (pLeft + 1) := fun hmem => hline (List.mem_of_mem_drop hmem)
    obtain ⟨pRight, rfl, rfl⟩ | ⟨rfl, rfl | rfl | rfl⟩ := hentry
    · have hname : 0x0a ∉ (line.drop (pLeft + 1)).take (pRight - pLeft - 1) :=
        fun hmem => hdrop (List.mem_of_mem_take hmem)
      exact ⟨hname, h.addKeyName hname⟩
    · exact ⟨hkey, h.addValue hkey (valueName_take hline hfirst hprint hleft) hdrop⟩
    · exact ⟨hkey, h.addHeaderComment hdrop⟩
    · exact ⟨hkey, h.addKeyComment hdrop⟩

theorem stripReturn_newline {line : AString} (h : 0x0a ∉ line) : 0x0a ∉ stripReturn line := by
  unfold stripReturn
  split
  next => exact fun hmem => h (List.dropLast_subset _ hmem)
  next => exact h

theorem readLines_readable {lines : List AString} {keyname : AString} {ini' : IniFile} (h : ini.Readable)
    (hlines : ∀ line ∈ lines, 0x0a ∉ line) (hkey : 0x0a ∉ keyname)
    (hok : readLines lines keyname ini = (true, ini')) : ini'.Readable := by
  induction lines generalizing keyname ini with
  | nil =>
    cases hok
    exact h
  | cons line lines ih =>
    obtain ⟨hline, hlines⟩ := List.forall_mem_cons.mp hlines
    unfold readLines at hok
    split at hok
    next => cases hok
    next keyname₁ ini₁ hread =>
      obtain ⟨hkey₁, h₁⟩ := readLine_readable h (stripReturn_newline hline) hkey hread
      exact ih h₁ hlines hkey₁ hok

theorem removeBom_newline {line : AString} (h : 0x0a ∉ line) : 0x0a ∉ removeBom line := by
  unfold removeBom
  split
  next => exact fun hmem => h (List.mem_of_mem_drop hmem)
  next => exact h

theorem readFile_readable {text : AString} {ini' : IniFile} (h : ini.Readable)
    (hok : ini.readFile text = (true, ini')) : ini'.Readable ∧ ini'.isEmpty = false := by
  obtain ⟨lines, hlines⟩ : ∃ lines, lines = (getlines text).modifyHead removeBom := ⟨_, rfl⟩
  have hnewline : ∀ line ∈ lines, 0x0a ∉ line := by
    rw [hlines]
    rcases hsplit : getlines text with _ | ⟨first, rest⟩
    · exact nofun
    · have hall : ∀ line ∈ first :: rest, 0x0a ∉ line := fun line hmem => getlines_newline (hsplit ▸ hmem)
      obtain ⟨hfirst, hrest⟩ := List.forall_mem_cons.mp hall
      exact List.forall_mem_cons.mpr ⟨removeBom_newline hfirst, hrest⟩
  rw [readFile, ← hlines] at hok
  rcases hread : readLines lines [] ini with ⟨accepted, ini₁⟩
  rw [hread] at hok
  obtain ⟨haccepted, rfl⟩ := Prod.mk.inj hok
  obtain ⟨rfl, hsome⟩ := Bool.and_eq_true_iff.mp haccepted
  exact ⟨readLines_readable h hnewline List.not_mem_nil hread, by simpa using hsome⟩

theorem addValue_isCaseInsensitive (keyName name value : AString) (ini : IniFile) :
    (ini.addValue keyName name value).isCaseInsensitive = ini.isCaseInsensitive := by
  unfold IniFile.addValue IniFile.demandKey
  rcases ini.findKey keyName with _ | keyID
  · rfl
  · rfl

theorem addKeyComment_isCaseInsensitive (keyName comment : AString) (ini : IniFile) :
    (ini.addKeyComment keyName comment).2.isCaseInsensitive = ini.isCaseInsensitive := by
  unfold IniFile.addKeyComment
  rcases ini.findKey keyName with _ | keyID
  · rfl
  · dsimp only
    split
    next => rfl
    next => rfl

theorem readLines_case (lines : List AString) (keyname : AString) (ini : IniFile) :
    (readLines lines keyname ini).2.isCaseInsensitive = ini.isCaseInsensitive := by
  induction lines generalizing keyname ini with
  | nil => rfl
  | cons line lines ih =>
    unfold readLines
    split
    next => rfl
    next keyname₁ ini₁ hread =>
      rw [ih]
      obtain ⟨_, rfl⟩ | ⟨_, _, _, _, _, ⟨_, _, rfl⟩ | ⟨_, rfl | rfl | rfl⟩⟩ := readLine_cases hread
      · rfl
      · rfl
      · exact addValue_isCaseInsensitive _ _ _ ini
      · rfl
      · exact addKeyComment_isCaseInsensitive _ _ ini

end Reading

section Writing

/-- The lines of a section, without their ends. -/
def keyLines (name : AString) (key : IniKey) : List AString :=
  ([0x5b] ++ name ++ [0x5d]) :: (key.comments.map fun comment => 0x3b :: comment) ++
    List.zipWith (fun name value => name ++ [0x3d] ++ value) key.names key.values ++ [[]]

/-- The lines that `WriteFile` writes, without their ends. -/
def lines (ini : IniFile) : List AString :=
  (ini.comments.map fun comment => 0x3b :: comment) ++ (if 0 < ini.comments.length then [[]] else []) ++
    (List.zipWith keyLines ini.names ini.keys).flatten

theorem writeComments_lines (comments : List AString) :
    writeComments comments = (comments.map fun comment => 0x3b :: comment).flatMap fun line => line ++ iniEOL := by
  simp [writeComments, List.flatMap_map]

theorem writeKey_lines (name : AString) (key : IniKey) :
    writeKey name key = (keyLines name key).flatMap fun line => line ++ iniEOL := by
  have hvalues : (List.zipWith (fun name value => name ++ [0x3d] ++ value ++ iniEOL) key.names key.values).flatten =
      (List.zipWith (fun name value => name ++ [0x3d] ++ value) key.names key.values).flatMap
        fun line => line ++ iniEOL := by
    rw [List.flatMap_def, List.map_zipWith]
  rw [writeKey, writeComments_lines, hvalues, keyLines, List.flatMap_append, List.flatMap_append, List.flatMap_cons]
  simp

theorem writeFile_lines (ini : IniFile) : ini.writeFile = ini.lines.flatMap fun line => line ++ iniEOL := by
  have hkeys : (List.zipWith writeKey ini.names ini.keys).flatten =
      (List.zipWith keyLines ini.names ini.keys).flatten.flatMap fun line => line ++ iniEOL := by
    have hkey : writeKey = fun name key => ((keyLines name key).map fun line => line ++ iniEOL).flatten := by
      funext name key
      rw [writeKey_lines, List.flatMap_def]
    rw [List.flatMap_def, List.map_flatten, List.flatten_flatten, List.map_zipWith, List.map_zipWith, hkey]
  have hblank : (if 0 < ini.comments.length then iniEOL else []) =
      (if 0 < ini.comments.length then [[]] else [] : List AString).flatMap fun line => line ++ iniEOL := by
    split
    next => rfl
    next => rfl
  rw [writeFile, writeComments_lines, hblank, hkeys, lines, List.flatMap_append, List.flatMap_append]

variable {ini ini' : IniFile} {keyname keyname' : AString}

theorem readLine_comment (comment : AString) : readLine (0x3b :: comment) keyname ini =
    some (if ini.names.isEmpty then (keyname, ini.addHeaderComment comment)
      else (keyname, (ini.addKeyComment keyname comment).2)) := by
  have hleft : (0x3b :: comment : AString).findIdx? special = some 0 := rfl
  rw [readLine, List.head?_cons]
  dsimp only
  rw [if_neg (by decide), hleft]
  dsimp only
  rw [readEntry, if_neg (by simp), if_neg (by simp)]
  split
  next => rfl
  next => rfl

theorem readLine_name (name : AString) :
    readLine ([0x5b] ++ name ++ [0x5d]) keyname ini = some (name, (ini.addKeyName name).2) := by
  have hleft : ([0x5b] ++ name ++ [0x5d] : AString).findIdx? special = some 0 := rfl
  have hright : findLastOf 0x5d ([0x5b] ++ name ++ [0x5d]) = some (name.length + 1) := by
    simp [findLastOf, List.findIdx?_cons]
  have hname : (([0x5b] ++ name ++ [0x5d]).drop (0 + 1)).take (name.length + 1 - 0 - 1) = name := by simp
  rw [readLine, show ([0x5b] ++ name ++ [0x5d] : AString).head? = some 0x5b from rfl]
  dsimp only
  rw [if_neg (by decide), hleft]
  dsimp only
  rw [readEntry, if_pos (show ([0x5b] ++ name ++ [0x5d] : AString)[0]? = some 0x5b from rfl), hright]
  dsimp only
  rw [if_pos (Nat.succ_pos _), hname]

theorem readLine_value {name : AString} (h : ValueName name) (value : AString) :
    readLine (name ++ [0x3d] ++ value) keyname ini = some (keyname, ini.addValue keyname name value) := by
  have hleft : (name ++ [0x3d] ++ value).findIdx? special = some name.length := by
    have hequals : ([0x3d] ++ value : AString).findIdx? special = some 0 := rfl
    rw [List.append_assoc, List.findIdx?_append, List.findIdx?_eq_none_iff.mpr h.plain, hequals]
    simp
  obtain ⟨first, hfirst, hprint⟩ : ∃ first, (name ++ [0x3d] ++ value).head? = some first ∧ isprint first = true := by
    rcases hname : name with _ | ⟨first, rest⟩
    · exact ⟨0x3d, rfl, rfl⟩
    · exact ⟨first, rfl, h.printable first (by rw [hname]; rfl)⟩
  have hthis : (name ++ [0x3d] ++ value)[name.length]? = some 0x3d := by simp
  rw [readLine, hfirst]
  dsimp only
  rw [if_neg (by simp [hprint]), hleft]
  dsimp only
  rw [readEntry, hthis, if_neg (by decide), if_pos rfl]
  simp

theorem readLines_return {line : AString} (h : readLine line keyname ini = some (keyname', ini'))
    (rest : List AString) :
    readLines ((line ++ [0x0d]) :: rest) keyname ini = readLines rest keyname' ini' := by
  rw [readLines, stripReturn_return, h]

theorem readLines_header (comments done rest : List AString) (b : Bool) :
    readLines ((comments.map fun comment => 0x3b :: comment ++ [0x0d]) ++ rest) keyname ⟨b, [], [], done⟩ =
      readLines rest keyname ⟨b, [], [], done ++ comments⟩ := by
  induction comments generalizing done with
  | nil => rw [List.append_nil, List.map_nil, List.nil_append]
  | cons comment comments ih =>
    rw [List.map_cons, List.cons_append, readLines_return (readLine_comment comment)]
    have hmore := ih (done ++ [comment])
    rw [List.append_assoc] at hmore
    exact hmore

section LastKey

variable {b : Bool} {ks : List IniKey} {ns cs : List AString} {name : AString} {key : IniKey}

/-- The last key is found if it is the first with its name. -/
theorem findKey_last (hfirst : (⟨b, ks, ns ++ [name], cs⟩ : IniFile).First ns.length) :
    (⟨b, ks, ns ++ [name], cs⟩ : IniFile).findKey name = some ns.length := by
  obtain ⟨ini, hini⟩ : ∃ ini : IniFile, ini = ⟨b, ks, ns ++ [name], cs⟩ := ⟨_, rfl⟩
  have hnames : ini.names = ns ++ [name] := by rw [hini]
  have hnone : ns.findIdx? (fun earlier => ini.checkCase earlier == ini.checkCase name) = none := by
    refine List.findIdx?_eq_none_iff.mpr fun earlier hmem => beq_eq_false_iff_ne.mpr ?_
    rw [← hini] at hfirst
    exact hfirst name (by rw [hnames]; exact List.getElem?_concat_length) earlier (by rw [hnames, List.take_left]; exact hmem)
  rw [← hini, findKey, hnames, List.findIdx?_append, hnone]
  simp

theorem modifyKey_last {f : IniKey → IniKey} (hpaired : ks.length = ns.length) :
    (⟨b, ks ++ [key], ns ++ [name], cs⟩ : IniFile).modifyKey ns.length f = ⟨b, ks ++ [f key], ns ++ [name], cs⟩ := by
  rw [modifyKey, ← hpaired, List.modify_eq_take_drop, List.take_left, List.drop_left]
  rfl

theorem readLines_comments (hpaired : ks.length = ns.length) {comments : List AString}
    (hfirst : comments ≠ [] → (⟨b, ks, ns ++ [name], cs⟩ : IniFile).First ns.length)
    (rest : List AString) :
    readLines ((comments.map fun comment => 0x3b :: comment ++ [0x0d]) ++ rest) name ⟨b, ks ++ [key], ns ++ [name], cs⟩ =
      readLines rest name ⟨b, ks ++ [{ key with comments := key.comments ++ comments }], ns ++ [name], cs⟩ := by
  induction comments generalizing key with
  | nil => rw [List.append_nil, List.map_nil, List.nil_append]
  | cons comment comments ih =>
    have hfound : (⟨b, ks ++ [key], ns ++ [name], cs⟩ : IniFile).findKey name = some ns.length :=
      findKey_last (hfirst (List.cons_ne_nil _ _))
    have hroom : ns.length < (ks ++ [key]).length := by simp [hpaired]
    have hread : readLine (0x3b :: comment) name ⟨b, ks ++ [key], ns ++ [name], cs⟩ =
        some (name, ⟨b, ks ++ [key.addComment comment], ns ++ [name], cs⟩) := by
      rw [readLine_comment, if_neg (by simp), addKeyComment, hfound]
      dsimp only
      rw [if_pos hroom, modifyKey_last hpaired]
    have hmore := @ih (key.addComment comment) fun _ => hfirst (List.cons_ne_nil _ _)
    rw [List.map_cons, List.cons_append, readLines_return hread, hmore]
    simp [IniKey.addComment]

theorem readLines_values (hpaired : ks.length = ns.length) {names values : List AString}
    (hsame : names.length = values.length) (hnames : ∀ name ∈ names, ValueName name)
    (hfirst : names ≠ [] → (⟨b, ks, ns ++ [name], cs⟩ : IniFile).First ns.length)
    (rest : List AString) :
    readLines (List.zipWith (fun name value => name ++ [0x3d] ++ value ++ [0x0d]) names values ++ rest) name
        ⟨b, ks ++ [key], ns ++ [name], cs⟩ =
      readLines rest name
        ⟨b, ks ++ [{ key with names := key.names ++ names, values := key.values ++ values }], ns ++ [name], cs⟩ := by
  induction names generalizing key values with
  | nil =>
    rw [List.length_eq_zero_iff.mp hsame.symm, List.append_nil, List.append_nil]
    rfl
  | cons valueName names ih =>
    obtain ⟨value, values, rfl⟩ := List.exists_cons_of_length_eq_add_one hsame.symm
    obtain ⟨hname, hnames⟩ := List.forall_mem_cons.mp hnames
    have hfound : (⟨b, ks ++ [key], ns ++ [name], cs⟩ : IniFile).findKey name = some ns.length :=
      findKey_last (hfirst (List.cons_ne_nil _ _))
    have hread : readLine (valueName ++ [0x3d] ++ value) name ⟨b, ks ++ [key], ns ++ [name], cs⟩ =
        some (name, ⟨b, ks ++ [key.addValue valueName value], ns ++ [name], cs⟩) := by
      rw [readLine_value hname, addValue, demandKey, hfound]
      dsimp only
      rw [modifyKey_last hpaired]
    have hmore := @ih (key.addValue valueName value) values (Nat.succ.inj hsame) hnames
      fun _ => hfirst (List.cons_ne_nil _ _)
    rw [List.zipWith_cons_cons, List.cons_append, readLines_return hread, hmore]
    simp [IniKey.addValue]

theorem readLines_key (hpaired : ks.length = ns.length) (hkey : Section key)
    (hfirst : key ≠ IniKey.empty → (⟨b, ks, ns ++ [name], cs⟩ : IniFile).First ns.length) (rest : List AString) :
    readLines ((keyLines name key).map (fun line => line ++ [0x0d]) ++ rest) keyname ⟨b, ks, ns, cs⟩ =
      readLines rest name ⟨b, ks ++ [key], ns ++ [name], cs⟩ := by
  have hcomments : key.comments ≠ [] → (⟨b, ks, ns ++ [name], cs⟩ : IniFile).First ns.length := by
    intro hne
    refine hfirst fun hempty => hne ?_
    rw [hempty]
    rfl
  have hnames : key.names ≠ [] → (⟨b, ks, ns ++ [name], cs⟩ : IniFile).First ns.length := by
    intro hne
    refine hfirst fun hempty => hne ?_
    rw [hempty]
    rfl
  have hlines : (keyLines name key).map (fun line => line ++ [0x0d]) ++ rest =
      ([0x5b] ++ name ++ [0x5d] ++ [0x0d]) :: ((key.comments.map fun comment => 0x3b :: comment ++ [0x0d]) ++
        (List.zipWith (fun name value => name ++ [0x3d] ++ value ++ [0x0d]) key.names key.values ++
          ([] ++ [0x0d]) :: rest)) := by
    simp [keyLines, List.map_zipWith]
  have hblank : readLine [] name ⟨b, ks ++ [key], ns ++ [name], cs⟩ =
      some (name, ⟨b, ks ++ [key], ns ++ [name], cs⟩) := rfl
  rw [hlines, readLines_return (readLine_name name), addKeyName]
  dsimp only
  rw [readLines_comments hpaired hcomments, readLines_values hpaired hkey.paired hkey.names hnames]
  simp only [IniKey.empty, List.nil_append]
  exact readLines_return hblank rest

/-- The sections that are left are read after those that have been. -/
theorem readLines_keys {ms : List AString} {ls : List IniKey} (hpaired : ks.length = ns.length)
    (h : (⟨b, ks ++ ls, ns ++ ms, cs⟩ : IniFile).Readable) :
    readLines ((List.zipWith keyLines ms ls).flatten.map fun line => line ++ [0x0d]) keyname ⟨b, ks, ns, cs⟩ =
      (true, ⟨b, ks ++ ls, ns ++ ms, cs⟩) := by
  have hlength : ls.length = ms.length := by
    have hall : (ks ++ ls).length = (ns ++ ms).length := h.paired
    simp only [List.length_append] at hall
    omega
  induction ms generalizing ks ns ls keyname with
  | nil =>
    rw [List.length_eq_zero_iff.mp hlength, List.append_nil, List.append_nil]
    rfl
  | cons name ms ih =>
    obtain ⟨key, ls, rfl⟩ := List.exists_cons_of_length_eq_add_one hlength
    have hks : ks ++ key :: ls = (ks ++ [key]) ++ ls := by simp
    have hns : ns ++ name :: ms = (ns ++ [name]) ++ ms := by simp
    have hkey : Section key := h.keys key (by simp)
    have hfirst : key ≠ IniKey.empty → (⟨b, ks, ns ++ [name], cs⟩ : IniFile).First ns.length := by
      intro hne found hfound earlier hmem
      have hat : (ks ++ key :: ls)[ns.length]? = some key := by simp [← hpaired]
      have hfound : (ns ++ [name])[ns.length]? = some found := hfound
      have hmem : earlier ∈ (ns ++ [name]).take ns.length := hmem
      rw [List.getElem?_concat_length] at hfound
      rw [List.take_left] at hmem
      refine h.first ns.length key hat hne found ?_ earlier ?_
      · show (ns ++ name :: ms)[ns.length]? = some found
        simpa using hfound
      · show earlier ∈ (ns ++ name :: ms).take ns.length
        rw [List.take_left]
        exact hmem
    rw [hks, hns] at h ⊢
    rw [List.zipWith_cons_cons, List.flatten_cons, List.map_append, readLines_key hpaired hkey hfirst]
    exact ih (by simp [hpaired]) h (Nat.succ.inj hlength)

end LastKey

/-- A readable file is read as it was written. -/
theorem readLines_lines (h : ini.Readable) :
    readLines (ini.lines.map fun line => line ++ [0x0d]) keyname ⟨ini.isCaseInsensitive, [], [], []⟩ = (true, ini) := by
  have hheader : (ini.comments.map fun comment => 0x3b :: comment).map (fun line => line ++ [0x0d]) =
      ini.comments.map fun comment => 0x3b :: comment ++ [0x0d] := by simp
  have hblank : ∀ (state : IniFile) (rest : List AString),
      readLines ((if 0 < ini.comments.length then [[]] else []).map (fun line => line ++ [0x0d]) ++ rest) keyname state =
        readLines rest keyname state := by
    intro state rest
    split
    next => exact readLines_return (show readLine [] keyname state = some (keyname, state) from rfl) rest
    next => rfl
  have hkeys : readLines ((List.zipWith keyLines ini.names ini.keys).flatten.map fun line => line ++ [0x0d]) keyname
      ⟨ini.isCaseInsensitive, [], [], ini.comments⟩ = (true, ini) := readLines_keys rfl h
  rw [lines, List.map_append, List.map_append, List.append_assoc, hheader, readLines_header, List.nil_append, hblank]
  exact hkeys

theorem mem_zipWith {α γ δ : Type} {f : α → γ → δ} {xs : List α} {ys : List γ} {z : δ} (h : z ∈ List.zipWith f xs ys) :
    ∃ x ∈ xs, ∃ y ∈ ys, f x y = z := by
  rw [← List.map_uncurry_zip_eq_zipWith] at h
  obtain ⟨⟨x, y⟩, hpair, hz⟩ := List.mem_map.mp h
  obtain ⟨hx, hy⟩ := List.of_mem_zip hpair
  exact ⟨x, hx, y, hy, hz⟩

theorem keyLines_newline {name : AString} {key : IniKey} (hname : 0x0a ∉ name) (hkey : Section key) :
    ∀ line ∈ keyLines name key, 0x0a ∉ line := by
  intro line hmem
  simp only [keyLines, List.mem_append, List.mem_cons, List.mem_map, List.not_mem_nil, or_false] at hmem
  rcases hmem with ((rfl | ⟨comment, hcomment, rfl⟩) | hvalue) | rfl
  · simp [hname]
  · simp [hkey.comments comment hcomment]
  · obtain ⟨valueName, hvalueName, value, hval, rfl⟩ := mem_zipWith hvalue
    simp [(hkey.names valueName hvalueName).oneLine, hkey.values value hval]
  · exact List.not_mem_nil

theorem lines_newline (h : ini.Readable) : ∀ line ∈ ini.lines, 0x0a ∉ line := by
  intro line hmem
  simp only [lines, List.mem_append, List.mem_map] at hmem
  rcases hmem with (⟨comment, hcomment, rfl⟩ | hblank) | hkeys
  · simp [h.comments comment hcomment]
  · split at hblank
    next =>
      rw [List.mem_singleton.mp hblank]
      exact List.not_mem_nil
    next => cases hblank
  · obtain ⟨section', hsection, hline⟩ := List.mem_flatten.mp hkeys
    obtain ⟨name, hname, key, hkey, rfl⟩ := mem_zipWith hsection
    exact keyLines_newline (h.names name hname) (h.keys key hkey) line hline

theorem removeBom_cons {c : UInt8} (h : c ≠ 0xef) (line : AString) : removeBom (c :: line) = c :: line := by
  rw [removeBom, if_neg]
  rw [List.take_succ_cons, List.cons.injEq]
  exact fun hbom => h hbom.1

/-- The first line that is written has no byte order mark. -/
theorem lines_removeBom (ini : IniFile) :
    (ini.lines.map fun line => line ++ [0x0d]).modifyHead removeBom = ini.lines.map fun line => line ++ [0x0d] := by
  rcases hcomments : ini.comments with _ | ⟨comment, comments⟩
  · rcases hnames : ini.names with _ | ⟨name, names⟩
    · simp [lines, hcomments, hnames]
    · rcases hkeys : ini.keys with _ | ⟨key, keys⟩
      · simp [lines, hcomments, hkeys]
      · simp [lines, hcomments, hnames, hkeys, keyLines, removeBom_cons]
  · simp [lines, hcomments, removeBom_cons]

/-- What was read is read again from what is written. -/
theorem readFile_writeFile {text : AString} {ini : IniFile} (h : create.readFile text = (true, ini)) :
    create.readFile ini.writeFile = (true, ini) := by
  have hcreate : create.Readable := ⟨rfl, nofun, nofun, nofun, nofun⟩
  obtain ⟨hreadable, hsome⟩ := readFile_readable hcreate h
  have hinsensitive : ini.isCaseInsensitive = true := by
    have hsame := readLines_case ((getlines text).modifyHead removeBom) [] create
    have hini : (readLines ((getlines text).modifyHead removeBom) [] create).2 = ini := congrArg Prod.snd h
    rw [hini] at hsame
    exact hsame
  have hread : readLines (ini.lines.map fun line => line ++ [0x0d]) [] create = (true, ini) := by
    have hfresh : create = ⟨ini.isCaseInsensitive, [], [], []⟩ := by
      rw [hinsensitive]
      rfl
    rw [hfresh]
    exact readLines_lines hreadable
  rw [readFile, writeFile_lines, getlines_written (lines_newline hreadable), lines_removeBom, hread]
  simp [hsome]

/-- A value before any section, a comment between values, and two sections whose names differ in case. -/
theorem readFile_writeFile_sections :
    create.readFile (writeFile ⟨true, [⟨[[0x61]], [[0x31]], []⟩, ⟨[[0x64]], [[]], [[0x63]]⟩, IniKey.empty],
      [[], [0x42], [0x62]], []⟩) =
      (true, ⟨true, [⟨[[0x61]], [[0x31]], []⟩, ⟨[[0x64]], [[]], [[0x63]]⟩, IniKey.empty], [[], [0x42], [0x62]], []⟩) :=
  @readFile_writeFile [0x61, 0x3d, 0x31, 0x0a, 0x5b, 0x42, 0x5d, 0x0d, 0x0a, 0x23, 0x63, 0x0a, 0x5b, 0x62, 0x5d, 0x0a,
    0x64, 0x3d] _ (by decide)

end Writing

end IniFile

end P2PChat
