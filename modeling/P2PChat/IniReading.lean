import P2PChat.IniRuns
import Mathlib.Algebra.GroupWithZero.Nat

namespace P2PChat

namespace IniFile

section Definitions

/-- The lines that the loop of `ReadFile` looks at. -/
def fileLines (text : AString) : List AString := ((getlines text).modifyHead removeBom).map stripReturn

/-- The binary check fails. -/
def binary (line : AString) : Bool := line.head?.any fun first => !isprint first

/-- A line that puts something into this file when no line before it did: a section, a value, or a comment unless there
are sections but none without a name. -/
def stores (ini : IniFile) (line : AString) : Bool :=
  match line.findIdx? special with
  | none => false
  | some pLeft =>
    if (line)[pLeft]? = some 0x5b then (findLastOf 0x5d line).any fun pRight => pLeft < pRight
    else (line)[pLeft]? = some 0x3d || ini.names.isEmpty || ini.keyExists []

/-- What a file has of names, values and comments. -/
def size (ini : IniFile) : Nat :=
  ini.names.length + ini.comments.length + (ini.keys.map fun key => key.names.length + key.comments.length).sum

end Definitions

section Sizes

variable {ini ini' : IniFile}

theorem sum_modify {α : Type} (weight : α → Nat) {f : α → α} {xs : List α} {i : Nat} (hi : i < xs.length)
    (hf : ∀ x, weight (f x) = weight x + 1) : ((xs.modify i f).map weight).sum = (xs.map weight).sum + 1 := by
  induction xs generalizing i with
  | nil => cases hi
  | cons x xs ih =>
    cases i with
    | zero =>
      rw [List.modify_zero_cons, List.map_cons, List.map_cons, List.sum_cons, List.sum_cons, hf]
      omega
    | succ i =>
      have hrest := ih (Nat.lt_of_succ_lt_succ hi)
      rw [List.modify_succ_cons, List.map_cons, List.map_cons, List.sum_cons, List.sum_cons, hrest]
      omega

theorem modifyKey_size {keyID : Nat} {f : IniKey → IniKey} (hlt : keyID < ini.keys.length)
    (hf : ∀ key, (f key).names.length + (f key).comments.length = key.names.length + key.comments.length + 1) :
    (ini.modifyKey keyID f).size = ini.size + 1 := by
  have hsum := sum_modify (fun key : IniKey => key.names.length + key.comments.length) hlt hf
  unfold size modifyKey
  dsimp only
  omega

theorem addKeyName_size (keyName : AString) (ini : IniFile) : (ini.addKeyName keyName).2.size = ini.size + 1 := by
  simp only [size, addKeyName, IniKey.empty, List.length_append, List.length_cons, List.length_nil, List.map_append,
    List.sum_append, List.map_cons, List.map_nil, List.sum_cons, List.sum_nil]
  omega

theorem Aligned.addValue_size (h : ini.Aligned) (keyName valueName value : AString) :
    ini.size < (ini.addValue keyName valueName value).size := by
  obtain ⟨haligned, hfind, _⟩ := h.demandKey keyName
  have hgrown : ini.size ≤ (ini.demandKey keyName).2.size := by
    unfold IniFile.demandKey
    split
    next => exact Nat.le_refl _
    next => exact addKeyName_size keyName ini ▸ Nat.le_succ _
  have hadded : (ini.addValue keyName valueName value).size = (ini.demandKey keyName).2.size + 1 := by
    apply modifyKey_size (List.getElem?_eq_some_iff.mp (haligned.keyAt hfind).1).1
    intro key
    simp only [IniKey.addValue, List.length_append, List.length_singleton]
    omega
  omega

theorem addHeaderComment_size (comment : AString) (ini : IniFile) :
    (ini.addHeaderComment comment).size = ini.size + 1 := by
  simp only [size, addHeaderComment, List.length_append, List.length_singleton]
  omega

/-- A comment is put in where there is the key. -/
theorem Aligned.addKeyComment_size (h : ini.Aligned) (keyName comment : AString) :
    (ini.addKeyComment keyName comment).2.size = ini.size + (if ini.keyExists keyName then 1 else 0) := by
  unfold IniFile.addKeyComment keyExists
  rcases hfind : ini.findKey keyName with _ | keyID
  · rfl
  · have hlt := (List.getElem?_eq_some_iff.mp (h.keyAt hfind).1).1
    dsimp only
    rw [if_pos hlt]
    apply modifyKey_size hlt
    intro key
    simp only [IniKey.addComment, List.length_append, List.length_singleton]
    omega

end Sizes

section Lines

variable {ini ini' : IniFile} {line keyname keyname' : AString}

theorem readLine_binary (keyname : AString) (ini : IniFile) :
    readLine line keyname ini = none ↔ binary line = true := by
  unfold readLine binary
  rcases line with _ | ⟨first, rest⟩
  · simp
  · simp only [List.head?_cons, Option.any_some]
    split
    next hfirst => simp [hfirst]
    next hfirst =>
      split
      next => simp [hfirst]
      next => simp [hfirst]

theorem Aligned.readLine_size (h : ini.Aligned) (hread : IniFile.readLine line keyname ini = some (keyname', ini')) :
    ini.size ≤ ini'.size := by
  obtain ⟨_, rfl⟩ | ⟨_, _, _, _, _, ⟨_, _, rfl⟩ | ⟨_, rfl | rfl | rfl⟩⟩ := readLine_cases hread
  · exact Nat.le_refl _
  · exact addKeyName_size keyname' ini ▸ Nat.le_succ _
  · exact Nat.le_of_lt (h.addValue_size keyname _ _)
  · exact addHeaderComment_size _ ini ▸ Nat.le_succ _
  · exact h.addKeyComment_size keyname _ ▸ Nat.le_add_right _ _

theorem Aligned.readLines_size (h : ini.Aligned) (lines : List AString) (keyname : AString) :
    ini.size ≤ (IniFile.readLines lines keyname ini).2.size := by
  induction lines generalizing keyname ini with
  | nil => exact Nat.le_refl _
  | cons line lines ih =>
    unfold IniFile.readLines
    split
    next => exact Nat.le_refl _
    next keyname₁ ini₁ hread => exact (h.readLine_size hread).trans (ih (h.readLine hread) keyname₁)

/-- A line that stores something makes the file larger; before it the lines do nothing, and there is no key name. -/
theorem Aligned.readLine_first (h : ini.Aligned) (hread : IniFile.readLine line [] ini = some (keyname', ini')) :
    if stores ini line then ini.size < ini'.size else keyname' = [] ∧ ini' = ini := by
  unfold IniFile.readLine at hread
  split at hread
  next hempty =>
    cases hread
    rw [List.head?_eq_none_iff.mp hempty]
    exact ⟨rfl, rfl⟩
  next =>
    split at hread
    next => cases hread
    next =>
      rcases hleft : line.findIdx? special with _ | pLeft
      · rw [hleft] at hread
        cases hread
        simp [stores, hleft]
      · rw [hleft] at hread
        have hentry : readEntry line pLeft [] ini = (keyname', ini') := Option.some.inj hread
        unfold readEntry at hentry
        split at hentry
        next hbracket =>
          rcases hright : findLastOf 0x5d line with _ | pRight
          · rw [hright] at hentry
            cases hentry
            simp [stores, hleft, hbracket, hright]
          · rw [hright] at hentry
            dsimp only at hentry
            split at hentry
            next hlt =>
              cases hentry
              simp [stores, hleft, hbracket, hright, hlt, addKeyName_size]
            next hge =>
              cases hentry
              simp [stores, hleft, hbracket, hright, hge]
        next hbracket =>
          split at hentry
          next hequals =>
            cases hentry
            simp [stores, hleft, hequals, h.addValue_size]
          next hequals =>
            split at hentry
            next hnames =>
              cases hentry
              simp [stores, hleft, hbracket, hnames, addHeaderComment_size]
            next hnames =>
              cases hentry
              rcases hkey : ini.keyExists [] with _ | _
              · have hnone : ini.findKey [] = none := by simpa [keyExists] using hkey
                simp [stores, hleft, hbracket, hequals, hnames, hkey, IniFile.addKeyComment, hnone]
              · simp [stores, hleft, hbracket, hequals, hnames, h.addKeyComment_size, hkey]

end Lines

section Files

variable {ini : IniFile}

theorem readLines_accepted (lines : List AString) (keyname : AString) (ini : IniFile) :
    (readLines lines keyname ini).1 = true ↔ ∀ line ∈ lines.map stripReturn, binary line = false := by
  induction lines generalizing keyname ini with
  | nil => simp [readLines]
  | cons line lines ih =>
    rw [List.map_cons, List.forall_mem_cons, readLines]
    split
    next hread => simp [(readLine_binary keyname ini).mp hread]
    next keyname₁ ini₁ hread =>
      have hfit : binary (stripReturn line) = false := by
        rw [← Bool.not_eq_true, ← readLine_binary keyname ini, hread]
        exact Option.some_ne_none _
      rw [ih]
      simp [hfit]

/-- Reading either leaves the file as it is or makes it larger. -/
theorem Aligned.readLines_changed (h : ini.Aligned) (lines : List AString) :
    (IniFile.readLines lines [] ini).2 = ini ∨ ini.size < (IniFile.readLines lines [] ini).2.size := by
  induction lines with
  | nil => exact .inl rfl
  | cons line lines ih =>
    unfold IniFile.readLines
    split
    next => exact .inl rfl
    next keyname₁ ini₁ hread =>
      have hfirst := h.readLine_first hread
      split at hfirst
      next => exact .inr (hfirst.trans_le ((h.readLine hread).readLines_size lines keyname₁))
      next =>
        obtain ⟨rfl, rfl⟩ := hfirst
        exact ih

/-- A bad line leaves the file as it was just when no line before it stores anything. -/
theorem Aligned.readLines_kept_iff (h : ini.Aligned) (lines : List AString) :
    ((IniFile.readLines lines [] ini).1 = false → (IniFile.readLines lines [] ini).2 = ini) ↔
      (∀ line ∈ lines.map stripReturn, binary line = false) ∨
        ∀ line ∈ (lines.map stripReturn).takeWhile (fun line => !binary line), stores ini line = false := by
  induction lines with
  | nil => simp [IniFile.readLines]
  | cons line lines ih =>
    rw [List.map_cons, List.takeWhile_cons, List.forall_mem_cons, IniFile.readLines]
    split
    next hread => simp [(readLine_binary [] ini).mp hread]
    next keyname₁ ini₁ hread =>
      have hfit : binary (stripReturn line) = false := by
        rw [← Bool.not_eq_true, ← readLine_binary [] ini, hread]
        exact Option.some_ne_none _
      have hfirst := h.readLine_first hread
      split at hfirst
      next hstores =>
        have hlarger := hfirst.trans_le ((h.readLine hread).readLines_size lines keyname₁)
        have hchanged : (IniFile.readLines lines keyname₁ ini₁).2 ≠ ini := by
          intro hsame
          rw [hsame] at hlarger
          exact Nat.lt_irrefl _ hlarger
        rw [← readLines_accepted lines keyname₁ ini₁]
        simp [hfit, hstores, hchanged]
      next hnothing =>
        obtain ⟨rfl, rfl⟩ := hfirst
        simp [hfit, hnothing, ih]

theorem Aligned.readFile_kept_iff (h : ini.Aligned) (text : AString) :
    ((ini.readFile text).1 = false → (ini.readFile text).2 = ini) ↔
      (∀ line ∈ fileLines text, binary line = false) ∨
        ∀ line ∈ (fileLines text).takeWhile (fun line => !binary line), stores ini line = false := by
  rw [fileLines, ← h.readLines_kept_iff]
  unfold readFile
  dsimp only
  constructor
  · intro hkept hrefused
    exact hkept (by rw [hrefused, Bool.false_and])
  · intro hkept hfalse
    rcases Bool.and_eq_false_iff.mp hfalse with hrefused | hempty
    · exact hkept hrefused
    · -- nothing is in the file, so no line put anything in
      rcases h.readLines_changed ((getlines text).modifyHead removeBom) with hsame | hlarger
      · exact hsame
      · simp only [isEmpty, Bool.not_eq_false', Bool.and_eq_true, List.isEmpty_iff] at hempty
        obtain ⟨⟨hkeys, hnames⟩, hcomments⟩ := hempty
        simp [size, hkeys, hnames, hcomments] at hlarger

/-- A read that fails leaves the file as it was, whatever text is opened, if and only if no line stores anything
before the one that fails the binary check. -/
theorem failedRead_iff (h : machine.Reachable create ini) (file exampleFile : Option AString) (allow : Bool) :
    ((ini.readFileOr file exampleFile allow).1 = false → (ini.readFileOr file exampleFile allow).2 = ini) ↔
      ∀ text, file.or (if allow then exampleFile else none) = some text →
        (∀ line ∈ fileLines text, binary line = false) ∨
          ∀ line ∈ (fileLines text).takeWhile (fun line => !binary line), stores ini line = false := by
  unfold readFileOr
  split
  next hnone =>
    rw [hnone]
    simp
  next text hopened =>
    rw [(reachable_aligned h).readFile_kept_iff, hopened]
    simp

/-- A value and a line that begins with a control character. -/
theorem failedRead_iff_control :
    ((create.readFileOr (some [0x61, 0x3d, 0x31, 0x0a, 0x01]) none true).1 = false →
        (create.readFileOr (some [0x61, 0x3d, 0x31, 0x0a, 0x01]) none true).2 = create) ↔
      ∀ text, (some [0x61, 0x3d, 0x31, 0x0a, 0x01] : Option AString).or (if true then none else none) = some text →
        (∀ line ∈ fileLines text, binary line = false) ∨
          ∀ line ∈ (fileLines text).takeWhile (fun line => !binary line), stores create line = false :=
  failedRead_iff .start _ _ _

/-- The value has been stored when the binary check fails. -/
theorem failedRead_keeps_value :
    ¬∀ ini, machine.Reachable create ini → ∀ (file exampleFile : Option AString) (allow : Bool),
      (ini.readFileOr file exampleFile allow).1 = false → (ini.readFileOr file exampleFile allow).2 = ini := by
  intro h
  have hkept := h create .start (some [0x61, 0x3d, 0x31, 0x0a, 0x01]) none true
  revert hkept
  decide

end Files

end IniFile

end P2PChat
