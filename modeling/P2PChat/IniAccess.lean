import P2PChat.IniEntries

namespace P2PChat

section Vectors

/-- `xs[static_cast<size_t>(id)]`, `none` outside the vector: a negative `id` becomes larger than any size. -/
def element {α : Type} (xs : List α) : Int → Option α
  | .ofNat i => xs[i]?
  | .negSucc _ => none

/-- What is done when `id < static_cast<int>(size)`; otherwise there is only the value for a failure. -/
def guarded {α : Type} (id : Int) (size : Nat) (failure : α) (access : Option α) : Option α :=
  if id < size then access else some failure

variable {α β : Type} {xs : List α} {id : Int} {failure : β} {f : α → Option β} {g : α → β}

theorem element_present (hid : 0 ≤ id) (hlt : id < xs.length) : ∃ x, element xs id = some x := by
  obtain ⟨i, rfl⟩ := Int.eq_ofNat_of_zero_le hid
  exact ⟨_, List.getElem?_eq_getElem (Int.ofNat_lt.mp hlt)⟩

theorem element_negative (hid : id < 0) : element xs id = none := by
  obtain ⟨i, rfl⟩ := Int.eq_negSucc_of_lt_zero hid
  rfl

theorem element_above (hle : (xs.length : Int) ≤ id) : element xs id = none := by
  obtain ⟨i, rfl⟩ := Int.eq_ofNat_of_zero_le (by omega : 0 ≤ id)
  exact List.getElem?_eq_none (Int.ofNat_le.mp hle)

theorem element_mem {x : α} (h : element xs id = some x) : x ∈ xs := by
  rcases id with i | i
  · exact List.mem_of_getElem? h
  · cases h

theorem element_lt {x : α} (h : element xs id = some x) : id < xs.length := by
  rcases id with i | i
  · exact Int.ofNat_lt.mpr (List.getElem?_eq_some_iff.mp h).1
  · cases h

/-- The comparison keeps an access in the vector just when no negative `id` comes to it. -/
theorem guarded_iff :
    guarded id xs.length failure ((element xs id).bind f) = some ((element xs id).elim failure g) ↔
      0 ≤ id ∧ ∀ x, element xs id = some x → f x = some (g x) := by
  rw [guarded]
  by_cases hneg : id < 0
  · rw [element_negative hneg, if_pos (by omega)]
    simp only [Option.bind_none, reduceCtorEq, false_iff]
    omega
  · have hid : 0 ≤ id := by omega
    split
    next hlt =>
      obtain ⟨x, hx⟩ := element_present hid hlt
      rw [hx]
      simp [hid]
    next hge =>
      rw [element_above (by omega)]
      simp [hid]

end Vectors

def IniKey.deleteComment (commentID : Nat) (key : IniKey) : IniKey :=
  { key with comments := key.comments.eraseIdx commentID }

def IniKey.clearComments (key : IniKey) : IniKey := { key with comments := [] }

namespace IniFile

/-- What `FindKey` and `FindValue` return for a name that is missing. -/
def noID : Int := -1

def toID : Option Nat → Int
  | some i => i
  | none => noID

/-- The functions of a `cIniFile` that take a number for a key, a value or a comment. Sizes are numbers of type `int`.
Where the source has two functions of one name, the one that takes the name of a key has `In` behind it. -/
inductive IDCall where
  | findValue (keyID : Int) (valueName : AString)
  | getKeyName (keyID : Int)
  | getNumValues (keyID : Int)
  | getNumValuesIn (keyName : AString)
  | getValueName (keyID valueID : Int)
  | getValueNameIn (keyName : AString) (valueID : Int)
  | getValue (keyID valueID : Int) (defValue : AString)
  | setValue (keyID valueID : Int) (value : AString)
  | deleteValueByID (keyID valueID : Int)
  | getHeaderComment (commentID : Int)
  | deleteHeaderComment (commentID : Int)
  | getNumKeyComments (keyID : Int)
  | getNumKeyCommentsIn (keyName : AString)
  | addKeyComment (keyID : Int) (comment : AString)
  | addKeyCommentIn (keyName comment : AString)
  | getKeyComment (keyID commentID : Int)
  | getKeyCommentIn (keyName : AString) (commentID : Int)
  | deleteKeyComment (keyID commentID : Int)
  | deleteKeyCommentIn (keyName : AString) (commentID : Int)
  | deleteKeyComments (keyID : Int)
  | deleteKeyCommentsIn (keyName : AString)
  deriving DecidableEq, Repr

inductive IDAnswer where
  | int (answer : Int)
  | string (answer : AString)
  | bool (answer : Bool)
  deriving DecidableEq, Repr

namespace ByID

/-- A function that begins with `FindKey` and fails without the key. -/
def named {α : Type} (keyName : AString) (failure : α) (f : Int → Option α) (ini : IniFile) : Option α :=
  match ini.findKey keyName with
  | none => some failure
  | some keyID => f keyID

def changeKey (keyID : Int) (f : IniKey → IniKey) (ini : IniFile) : IniFile := ini.modifyKey keyID.toNat f

section Values

def findValue (keyID : Int) (valueName : AString) (ini : IniFile) : Option Int :=
  if ini.keys.isEmpty then some noID
  else
    guarded keyID ini.keys.length noID ((element ini.keys keyID).bind fun key =>
      some (toID (key.names.findIdx? fun name => ini.checkCase name == ini.checkCase valueName)))

def getKeyName (keyID : Int) (ini : IniFile) : Option AString :=
  guarded keyID ini.names.length [] ((element ini.names keyID).bind some)

def getNumValues (keyID : Int) (ini : IniFile) : Option Int :=
  guarded keyID ini.keys.length 0 ((element ini.keys keyID).bind fun key => some (key.names.length : Int))

def getNumValuesIn (keyName : AString) (ini : IniFile) : Option Int :=
  named keyName 0 (fun keyID => (element ini.keys keyID).bind fun key => some (key.names.length : Int)) ini

def getValueName (keyID valueID : Int) (ini : IniFile) : Option AString :=
  guarded keyID ini.keys.length [] ((element ini.keys keyID).bind fun key =>
    guarded valueID key.names.length [] ((element key.names valueID).bind some))

def getValueNameIn (keyName : AString) (valueID : Int) (ini : IniFile) : Option AString :=
  named keyName [] (fun keyID => getValueName keyID valueID ini) ini

def getValue (keyID valueID : Int) (defValue : AString) (ini : IniFile) : Option AString :=
  guarded keyID ini.keys.length defValue ((element ini.keys keyID).bind fun key =>
    guarded valueID key.names.length defValue ((element key.values valueID).bind some))

/-- This one compares as `size_t`. -/
def setValue (keyID valueID : Int) (value : AString) (ini : IniFile) : Option (Bool × IniFile) :=
  match element ini.keys keyID with
  | none => some (false, ini)
  | some key =>
    match element key.names valueID with
    | none => some (false, ini)
    | some _ => (element key.values valueID).bind fun _ =>
        some (true, changeKey keyID (IniKey.setValue valueID.toNat value) ini)

/-- Both vectors are erased from: the one of the names, and the one of the values. -/
def deleteValueByID (keyID valueID : Int) (ini : IniFile) : Option (Bool × IniFile) :=
  guarded keyID ini.keys.length (false, ini) ((element ini.keys keyID).bind fun key =>
    guarded valueID key.names.length (false, ini) ((element key.names valueID).bind fun _ =>
      (element key.values valueID).bind fun _ =>
        some (true, changeKey keyID (IniKey.deleteValue valueID.toNat) ini)))

end Values

section Comments

def getHeaderComment (commentID : Int) (ini : IniFile) : Option AString :=
  guarded commentID ini.comments.length [] ((element ini.comments commentID).bind some)

def deleteHeaderComment (commentID : Int) (ini : IniFile) : Option (Bool × IniFile) :=
  guarded commentID ini.comments.length (false, ini) ((element ini.comments commentID).bind fun _ =>
    some (true, { ini with comments := ini.comments.eraseIdx commentID.toNat }))

def getNumKeyComments (keyID : Int) (ini : IniFile) : Option Int :=
  guarded keyID ini.keys.length 0 ((element ini.keys keyID).bind fun key => some (key.comments.length : Int))

def getNumKeyCommentsIn (keyName : AString) (ini : IniFile) : Option Int :=
  named keyName 0 (fun keyID => (element ini.keys keyID).bind fun key => some (key.comments.length : Int)) ini

def addKeyComment (keyID : Int) (comment : AString) (ini : IniFile) : Option (Bool × IniFile) :=
  guarded keyID ini.keys.length (false, ini) ((element ini.keys keyID).bind fun _ =>
    some (true, changeKey keyID (IniKey.addComment comment) ini))

def addKeyCommentIn (keyName comment : AString) (ini : IniFile) : Option (Bool × IniFile) :=
  named keyName (false, ini) (fun keyID => addKeyComment keyID comment ini) ini

def getKeyComment (keyID commentID : Int) (ini : IniFile) : Option AString :=
  guarded keyID ini.keys.length [] ((element ini.keys keyID).bind fun key =>
    guarded commentID key.comments.length [] ((element key.comments commentID).bind some))

def getKeyCommentIn (keyName : AString) (commentID : Int) (ini : IniFile) : Option AString :=
  named keyName [] (fun keyID => getKeyComment keyID commentID ini) ini

def deleteKeyComment (keyID commentID : Int) (ini : IniFile) : Option (Bool × IniFile) :=
  guarded keyID ini.keys.length (false, ini) ((element ini.keys keyID).bind fun key =>
    guarded commentID key.comments.length (false, ini) ((element key.comments commentID).bind fun _ =>
      some (true, changeKey keyID (IniKey.deleteComment commentID.toNat) ini)))

def deleteKeyCommentIn (keyName : AString) (commentID : Int) (ini : IniFile) : Option (Bool × IniFile) :=
  named keyName (false, ini) (fun keyID => deleteKeyComment keyID commentID ini) ini

def deleteKeyComments (keyID : Int) (ini : IniFile) : Option (Bool × IniFile) :=
  guarded keyID ini.keys.length (false, ini) ((element ini.keys keyID).bind fun _ =>
    some (true, changeKey keyID IniKey.clearComments ini))

def deleteKeyCommentsIn (keyName : AString) (ini : IniFile) : Option (Bool × IniFile) :=
  named keyName (false, ini) (fun keyID => deleteKeyComments keyID ini) ini

end Comments

section Calls

/-- `none` when an element is accessed that does not exist. -/
def access (call : IDCall) (ini : IniFile) : Option (IDAnswer × IniFile) :=
  match call with
  | .findValue keyID valueName => (findValue keyID valueName ini).map fun answer => (.int answer, ini)
  | .getKeyName keyID => (getKeyName keyID ini).map fun answer => (.string answer, ini)
  | .getNumValues keyID => (getNumValues keyID ini).map fun answer => (.int answer, ini)
  | .getNumValuesIn keyName => (getNumValuesIn keyName ini).map fun answer => (.int answer, ini)
  | .getValueName keyID valueID => (getValueName keyID valueID ini).map fun answer => (.string answer, ini)
  | .getValueNameIn keyName valueID => (getValueNameIn keyName valueID ini).map fun answer => (.string answer, ini)
  | .getValue keyID valueID defValue => (getValue keyID valueID defValue ini).map fun answer => (.string answer, ini)
  | .setValue keyID valueID value => (setValue keyID valueID value ini).map (Prod.map .bool id)
  | .deleteValueByID keyID valueID => (deleteValueByID keyID valueID ini).map (Prod.map .bool id)
  | .getHeaderComment commentID => (getHeaderComment commentID ini).map fun answer => (.string answer, ini)
  | .deleteHeaderComment commentID => (deleteHeaderComment commentID ini).map (Prod.map .bool id)
  | .getNumKeyComments keyID => (getNumKeyComments keyID ini).map fun answer => (.int answer, ini)
  | .getNumKeyCommentsIn keyName => (getNumKeyCommentsIn keyName ini).map fun answer => (.int answer, ini)
  | .addKeyComment keyID comment => (addKeyComment keyID comment ini).map (Prod.map .bool id)
  | .addKeyCommentIn keyName comment => (addKeyCommentIn keyName comment ini).map (Prod.map .bool id)
  | .getKeyComment keyID commentID => (getKeyComment keyID commentID ini).map fun answer => (.string answer, ini)
  | .getKeyCommentIn keyName commentID =>
    (getKeyCommentIn keyName commentID ini).map fun answer => (.string answer, ini)
  | .deleteKeyComment keyID commentID => (deleteKeyComment keyID commentID ini).map (Prod.map .bool id)
  | .deleteKeyCommentIn keyName commentID => (deleteKeyCommentIn keyName commentID ini).map (Prod.map .bool id)
  | .deleteKeyComments keyID => (deleteKeyComments keyID ini).map (Prod.map .bool id)
  | .deleteKeyCommentsIn keyName => (deleteKeyCommentsIn keyName ini).map (Prod.map .bool id)

/-- What a call is to do: what it says with the elements that there are, and its failure without them. -/
def documented (call : IDCall) (ini : IniFile) : IDAnswer × IniFile :=
  let failed : Bool × IniFile := (false, ini)
  let changed (keyID : Int) (f : IniKey → IniKey) : Bool × IniFile := (true, changeKey keyID f ini)
  let keyID (keyName : AString) : Int := toID (ini.findKey keyName)
  let key (keyID : Int) : Option IniKey := element ini.keys keyID
  match call with
  | .findValue keyID valueName => (.int ((key keyID).elim noID fun key =>
      toID (key.names.findIdx? fun name => ini.checkCase name == ini.checkCase valueName)), ini)
  | .getKeyName keyID => (.string ((element ini.names keyID).elim [] id), ini)
  | .getNumValues keyID => (.int ((key keyID).elim 0 fun key => key.names.length), ini)
  | .getNumValuesIn keyName => (.int ((key (keyID keyName)).elim 0 fun key => key.names.length), ini)
  | .getValueName keyID valueID =>
    (.string ((key keyID).elim [] fun key => (element key.names valueID).elim [] id), ini)
  | .getValueNameIn keyName valueID =>
    (.string ((key (keyID keyName)).elim [] fun key => (element key.names valueID).elim [] id), ini)
  | .getValue keyID valueID defValue =>
    (.string ((key keyID).elim defValue fun key => (element key.values valueID).elim defValue id), ini)
  | .setValue keyID valueID value => Prod.map .bool id ((key keyID).elim failed fun key =>
      (element key.names valueID).elim failed fun _ => changed keyID (IniKey.setValue valueID.toNat value))
  | .deleteValueByID keyID valueID => Prod.map .bool id ((key keyID).elim failed fun key =>
      (element key.names valueID).elim failed fun _ => changed keyID (IniKey.deleteValue valueID.toNat))
  | .getHeaderComment commentID => (.string ((element ini.comments commentID).elim [] id), ini)
  | .deleteHeaderComment commentID => Prod.map .bool id ((element ini.comments commentID).elim failed fun _ =>
      (true, { ini with comments := ini.comments.eraseIdx commentID.toNat }))
  | .getNumKeyComments keyID => (.int ((key keyID).elim 0 fun key => key.comments.length), ini)
  | .getNumKeyCommentsIn keyName => (.int ((key (keyID keyName)).elim 0 fun key => key.comments.length), ini)
  | .addKeyComment keyID comment => Prod.map .bool id ((key keyID).elim failed fun _ =>
      changed keyID (IniKey.addComment comment))
  | .addKeyCommentIn keyName comment => Prod.map .bool id ((key (keyID keyName)).elim failed fun _ =>
      changed (keyID keyName) (IniKey.addComment comment))
  | .getKeyComment keyID commentID =>
    (.string ((key keyID).elim [] fun key => (element key.comments commentID).elim [] id), ini)
  | .getKeyCommentIn keyName commentID =>
    (.string ((key (keyID keyName)).elim [] fun key => (element key.comments commentID).elim [] id), ini)
  | .deleteKeyComment keyID commentID => Prod.map .bool id ((key keyID).elim failed fun key =>
      (element key.comments commentID).elim failed fun _ => changed keyID (IniKey.deleteComment commentID.toNat))
  | .deleteKeyCommentIn keyName commentID => Prod.map .bool id ((key (keyID keyName)).elim failed fun key =>
      (element key.comments commentID).elim failed fun _ =>
        changed (keyID keyName) (IniKey.deleteComment commentID.toNat))
  | .deleteKeyComments keyID => Prod.map .bool id ((key keyID).elim failed fun _ =>
      changed keyID IniKey.clearComments)
  | .deleteKeyCommentsIn keyName => Prod.map .bool id ((key (keyID keyName)).elim failed fun _ =>
      changed (keyID keyName) IniKey.clearComments)

/-- No negative number comes to a vector that is then accessed. -/
def InRange (ini : IniFile) : IDCall → Prop
  | .findValue keyID _ => ini.keys = [] ∨ 0 ≤ keyID
  | .getKeyName id | .getNumValues id | .getHeaderComment id | .deleteHeaderComment id | .getNumKeyComments id
  | .addKeyComment id _ | .deleteKeyComments id => 0 ≤ id
  | .getValueName keyID id | .getValue keyID id _ | .deleteValueByID keyID id | .getKeyComment keyID id
  | .deleteKeyComment keyID id => 0 ≤ keyID ∧ (keyID < ini.keys.length → 0 ≤ id)
  | .getValueNameIn keyName id | .getKeyCommentIn keyName id | .deleteKeyCommentIn keyName id =>
    ini.keyExists keyName = true → 0 ≤ id
  | .setValue _ _ _ | .getNumValuesIn _ | .getNumKeyCommentsIn _ | .addKeyCommentIn _ _ | .deleteKeyCommentsIn _ => True

end Calls

section Checks

variable {α : Type} {ini : IniFile} {keyName : AString} {keyID id : Int}

/-- A call is right when the function behind it is. -/
theorem answers_iff {answer : Option α} {right : α} {f : α → IDAnswer × IniFile} (hf : Function.Injective f) :
    answer.map f = some (f right) ↔ answer = some right := by
  show answer.map f = (some right).map f ↔ _
  exact (Option.map_injective hf).eq_iff

theorem int_injective (ini : IniFile) : Function.Injective fun answer => (IDAnswer.int answer, ini) :=
  fun _ _ h => IDAnswer.int.inj (Prod.mk.inj h).1

theorem string_injective (ini : IniFile) : Function.Injective fun answer => (IDAnswer.string answer, ini) :=
  fun _ _ h => IDAnswer.string.inj (Prod.mk.inj h).1

theorem bool_injective : Function.Injective (Prod.map IDAnswer.bool (fun ini : IniFile => ini)) := by
  rintro ⟨b, ini⟩ ⟨b', ini'⟩ h
  obtain ⟨hb, rfl⟩ := Prod.mk.inj h
  rw [IDAnswer.bool.inj hb]

theorem guarded_total_iff {xs : List α} {β : Type} {failure : β} {g : α → β} :
    guarded id xs.length failure ((element xs id).bind fun x => some (g x)) =
      some ((element xs id).elim failure g) ↔ 0 ≤ id := by
  rw [guarded_iff]
  simp

/-- A vector in a key: the number in it matters only where there is the key. -/
theorem guarded_pair_iff {β γ : Type} {size : IniKey → Nat} {ys : IniKey → List γ} {failure : β}
    {f : IniKey → γ → Option β} {g : IniKey → γ → β}
    (hsize : ∀ key ∈ ini.keys, size key = (ys key).length)
    (hf : ∀ key ∈ ini.keys, ∀ y, element (ys key) id = some y → f key y = some (g key y)) :
    guarded keyID ini.keys.length failure ((element ini.keys keyID).bind fun key =>
        guarded id (size key) failure ((element (ys key) id).bind (f key))) =
      some ((element ini.keys keyID).elim failure fun key => (element (ys key) id).elim failure (g key)) ↔
      0 ≤ keyID ∧ (keyID < ini.keys.length → 0 ≤ id) := by
  rw [guarded_iff]
  refine and_congr_right fun hkeyID => ?_
  constructor
  · intro h hlt
    obtain ⟨key, hkey⟩ := element_present hkeyID hlt
    have hinner := h key hkey
    rw [hsize key (element_mem hkey), guarded_iff] at hinner
    exact hinner.1
  · intro hid key hkey
    rw [hsize key (element_mem hkey), guarded_iff]
    exact ⟨hid (element_lt hkey), hf key (element_mem hkey)⟩

theorem named_iff {failure : α} {f : Int → Option α} {P : Prop} (h : ini.Aligned) (right : Int → α)
    (hfailure : right noID = failure)
    (hfound : ∀ keyID : Nat, keyID < ini.keys.length → (f keyID = some (right keyID) ↔ P)) :
    named keyName failure f ini = some (right (toID (ini.findKey keyName))) ↔
      (ini.keyExists keyName = true → P) := by
  unfold named keyExists
  rcases hfind : ini.findKey keyName with _ | keyID
  · simp [toID, hfailure]
  · obtain ⟨hlt, _⟩ := List.findIdx?_eq_some_iff_getElem.mp hfind
    simpa [toID] using hfound keyID (h.keys ▸ hlt)

end Checks

section Documented

variable {ini : IniFile}

theorem findValue_iff {keyID : Int} {valueName : AString} :
    findValue keyID valueName ini = some ((element ini.keys keyID).elim noID fun key =>
      toID (key.names.findIdx? fun name => ini.checkCase name == ini.checkCase valueName)) ↔
      ini.keys = [] ∨ 0 ≤ keyID := by
  unfold findValue
  split
  next hempty =>
    have hkeys : ini.keys = [] := List.isEmpty_iff.mp hempty
    have hnone : element ini.keys keyID = none := by
      rw [hkeys]
      rcases keyID with i | i
      · rfl
      · rfl
    rw [hnone]
    simp [hkeys]
  next hkeys =>
    rw [guarded_total_iff]
    simp [List.isEmpty_iff.not.mp hkeys]

theorem getValue_iff (h : ini.Aligned) {keyID valueID : Int} {defValue : AString} :
    getValue keyID valueID defValue ini =
      some ((element ini.keys keyID).elim defValue fun key => (element key.values valueID).elim defValue id) ↔
      0 ≤ keyID ∧ (keyID < ini.keys.length → 0 ≤ valueID) := by
  apply guarded_pair_iff h.values
  intro key _ value _
  rfl

/-- A name that exists has its value beside it. -/
theorem Aligned.value_present (h : ini.Aligned) {key : IniKey} {valueID : Int} {name : AString}
    (hkey : key ∈ ini.keys) (hname : element key.names valueID = some name) :
    ∃ value, element key.values valueID = some value := by
  have hlt : valueID < key.values.length := by
    rw [← h.values key hkey]
    exact element_lt hname
  have hid : 0 ≤ valueID := by
    rcases valueID with i | i
    · exact Int.natCast_nonneg i
    · cases hname
  exact element_present hid hlt

theorem setValue_right (h : ini.Aligned) (keyID valueID : Int) (value : AString) :
    setValue keyID valueID value ini = some ((element ini.keys keyID).elim (false, ini) fun key =>
      (element key.names valueID).elim (false, ini) fun _ =>
        (true, changeKey keyID (IniKey.setValue valueID.toNat value) ini)) := by
  unfold setValue
  rcases hkey : element ini.keys keyID with _ | key
  · rfl
  · dsimp only [Option.elim_some]
    rcases hname : element key.names valueID with _ | name
    · rfl
    · obtain ⟨old, hold⟩ := Aligned.value_present h (element_mem hkey) hname
      rw [hold]
      rfl

theorem deleteValueByID_iff (h : ini.Aligned) {keyID valueID : Int} :
    deleteValueByID keyID valueID ini = some ((element ini.keys keyID).elim (false, ini) fun key =>
      (element key.names valueID).elim (false, ini) fun _ =>
        (true, changeKey keyID (IniKey.deleteValue valueID.toNat) ini)) ↔
      0 ≤ keyID ∧ (keyID < ini.keys.length → 0 ≤ valueID) := by
  apply guarded_pair_iff fun _ _ => rfl
  intro key hkey name hname
  obtain ⟨value, hvalue⟩ := Aligned.value_present h hkey hname
  rw [hvalue]
  rfl

theorem getValueName_iff {keyID valueID : Int} :
    getValueName keyID valueID ini =
      some ((element ini.keys keyID).elim [] fun key => (element key.names valueID).elim [] id) ↔
      0 ≤ keyID ∧ (keyID < ini.keys.length → 0 ≤ valueID) :=
  guarded_pair_iff (fun _ _ => rfl) fun _ _ _ _ => rfl

theorem getKeyComment_iff {keyID commentID : Int} :
    getKeyComment keyID commentID ini =
      some ((element ini.keys keyID).elim [] fun key => (element key.comments commentID).elim [] id) ↔
      0 ≤ keyID ∧ (keyID < ini.keys.length → 0 ≤ commentID) :=
  guarded_pair_iff (fun _ _ => rfl) fun _ _ _ _ => rfl

theorem deleteKeyComment_iff {keyID commentID : Int} :
    deleteKeyComment keyID commentID ini = some ((element ini.keys keyID).elim (false, ini) fun key =>
      (element key.comments commentID).elim (false, ini) fun _ =>
        (true, changeKey keyID (IniKey.deleteComment commentID.toNat) ini)) ↔
      0 ≤ keyID ∧ (keyID < ini.keys.length → 0 ≤ commentID) :=
  guarded_pair_iff (fun _ _ => rfl) fun _ _ _ _ => rfl

/-- Where a key is found, a number in it is all that can be out of range. -/
theorem inner_iff {keyID : Nat} {id : Int} (hlt : keyID < ini.keys.length) :
    0 ≤ (keyID : Int) ∧ ((keyID : Int) < ini.keys.length → 0 ≤ id) ↔ 0 ≤ id := by
  omega

theorem getValueNameIn_iff (h : ini.Aligned) {keyName : AString} {valueID : Int} :
    getValueNameIn keyName valueID ini = some ((element ini.keys (toID (ini.findKey keyName))).elim [] fun key =>
      (element key.names valueID).elim [] id) ↔ (ini.keyExists keyName = true → 0 ≤ valueID) :=
  named_iff h (fun keyID => (element ini.keys keyID).elim [] fun key => (element key.names valueID).elim [] id) rfl
    fun _ hlt => getValueName_iff.trans (inner_iff hlt)

theorem getKeyCommentIn_iff (h : ini.Aligned) {keyName : AString} {commentID : Int} :
    getKeyCommentIn keyName commentID ini = some ((element ini.keys (toID (ini.findKey keyName))).elim [] fun key =>
      (element key.comments commentID).elim [] id) ↔ (ini.keyExists keyName = true → 0 ≤ commentID) :=
  named_iff h (fun keyID => (element ini.keys keyID).elim [] fun key => (element key.comments commentID).elim [] id) rfl
    fun _ hlt => getKeyComment_iff.trans (inner_iff hlt)

theorem deleteKeyCommentIn_iff (h : ini.Aligned) {keyName : AString} {commentID : Int} :
    deleteKeyCommentIn keyName commentID ini =
      some ((element ini.keys (toID (ini.findKey keyName))).elim (false, ini) fun key =>
        (element key.comments commentID).elim (false, ini) fun _ =>
          (true, changeKey (toID (ini.findKey keyName)) (IniKey.deleteComment commentID.toNat) ini)) ↔
      (ini.keyExists keyName = true → 0 ≤ commentID) :=
  named_iff h (fun keyID => (element ini.keys keyID).elim (false, ini) fun key =>
      (element key.comments commentID).elim (false, ini) fun _ =>
        (true, changeKey keyID (IniKey.deleteComment commentID.toNat) ini)) rfl
    fun _ hlt => deleteKeyComment_iff.trans (inner_iff hlt)

/-- A function that takes only the name of a key finds it. -/
theorem named_right (h : ini.Aligned) {α : Type} {keyName : AString} {failure : α} {f : Int → Option α}
    (right : Int → α)
    (hfailure : right noID = failure)
    (hfound : ∀ keyID : Nat, keyID < ini.keys.length → f keyID = some (right keyID)) :
    named keyName failure f ini = some (right (toID (ini.findKey keyName))) := by
  apply (named_iff h right hfailure fun keyID hlt => iff_true_intro (hfound keyID hlt)).mpr
  intro _
  trivial

theorem countIn_right (h : ini.Aligned) {keyName : AString} (count : IniKey → Int) :
    named keyName 0 (fun keyID => (element ini.keys keyID).bind fun key => some (count key)) ini =
      some ((element ini.keys (toID (ini.findKey keyName))).elim 0 count) := by
  apply named_right h (fun keyID => (element ini.keys keyID).elim 0 count) rfl
  intro keyID hlt
  obtain ⟨key, hkey⟩ := element_present (Int.natCast_nonneg keyID) (Int.ofNat_lt.mpr hlt)
  rw [hkey]
  rfl

theorem addKeyCommentIn_right (h : ini.Aligned) (keyName comment : AString) :
    addKeyCommentIn keyName comment ini =
      some ((element ini.keys (toID (ini.findKey keyName))).elim (false, ini) fun _ =>
        (true, changeKey (toID (ini.findKey keyName)) (IniKey.addComment comment) ini)) :=
  named_right h (fun keyID => (element ini.keys keyID).elim (false, ini) fun _ =>
      (true, changeKey keyID (IniKey.addComment comment) ini)) rfl
    fun keyID _ => guarded_total_iff.mpr (Int.natCast_nonneg keyID)

theorem deleteKeyCommentsIn_right (h : ini.Aligned) (keyName : AString) :
    deleteKeyCommentsIn keyName ini =
      some ((element ini.keys (toID (ini.findKey keyName))).elim (false, ini) fun _ =>
        (true, changeKey (toID (ini.findKey keyName)) IniKey.clearComments ini)) :=
  named_right h (fun keyID => (element ini.keys keyID).elim (false, ini) fun _ =>
      (true, changeKey keyID IniKey.clearComments ini)) rfl
    fun keyID _ => guarded_total_iff.mpr (Int.natCast_nonneg keyID)

/-- A call does what it is to do unless a negative number comes to a vector. -/
theorem access_iff (h : ini.Aligned) (call : IDCall) :
    access call ini = some (documented call ini) ↔ InRange ini call := by
  cases call
  case findValue => exact (answers_iff (int_injective ini)).trans findValue_iff
  case getKeyName => exact (answers_iff (string_injective ini)).trans guarded_total_iff
  case getNumValues => exact (answers_iff (int_injective ini)).trans guarded_total_iff
  case getNumValuesIn keyName =>
    apply (answers_iff (int_injective ini)).trans
    exact iff_true_intro (countIn_right h fun key => key.names.length)
  case getValueName => exact (answers_iff (string_injective ini)).trans getValueName_iff
  case getValueNameIn => exact (answers_iff (string_injective ini)).trans (getValueNameIn_iff h)
  case getValue => exact (answers_iff (string_injective ini)).trans (getValue_iff h)
  case setValue keyID valueID value =>
    exact (answers_iff bool_injective).trans (iff_true_intro (setValue_right h keyID valueID value))
  case deleteValueByID => exact (answers_iff bool_injective).trans (deleteValueByID_iff h)
  case getHeaderComment => exact (answers_iff (string_injective ini)).trans guarded_total_iff
  case deleteHeaderComment => exact (answers_iff bool_injective).trans guarded_total_iff
  case getNumKeyComments => exact (answers_iff (int_injective ini)).trans guarded_total_iff
  case getNumKeyCommentsIn keyName =>
    apply (answers_iff (int_injective ini)).trans
    exact iff_true_intro (countIn_right h fun key => key.comments.length)
  case addKeyComment => exact (answers_iff bool_injective).trans guarded_total_iff
  case addKeyCommentIn keyName comment =>
    exact (answers_iff bool_injective).trans (iff_true_intro (addKeyCommentIn_right h keyName comment))
  case getKeyComment => exact (answers_iff (string_injective ini)).trans getKeyComment_iff
  case getKeyCommentIn => exact (answers_iff (string_injective ini)).trans (getKeyCommentIn_iff h)
  case deleteKeyComment => exact (answers_iff bool_injective).trans deleteKeyComment_iff
  case deleteKeyCommentIn => exact (answers_iff bool_injective).trans (deleteKeyCommentIn_iff h)
  case deleteKeyComments => exact (answers_iff bool_injective).trans guarded_total_iff
  case deleteKeyCommentsIn keyName =>
    exact (answers_iff bool_injective).trans (iff_true_intro (deleteKeyCommentsIn_right h keyName))

end Documented

end ByID

end IniFile

end P2PChat
