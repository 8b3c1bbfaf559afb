import P2PChat.Md5

namespace P2PChat

def errorCodeAuthOk : Int32 := 1
def errorCodeAlreadyLogin : Int32 := -2
def errorCodePacketError : Int32 := -4
def errorCodePacketUnknown : Int32 := -5
def errorCodeServerBusy : Int32 := -6
def errorCodeServerShutdown : Int32 := -7
def errorCodeClientTimeout : Int32 := -8
def errorCodeBadApp : Int32 := -11

/-- The comparison itself is returned: 1 is the code for success, 0 that for a wrong password. -/
def authFromDBPoll [Platform] (username password : AString) : Int32 :=
  let md5 := (MD5.update username MD5.new.reset)
  let strPassWord := (md5.toString).1.map tolower
  if strPassWord == password then 1 else 0

/-- The digits of the digest, in lower case. -/
def md5Password [Platform] (username : AString) : AString :=
  ((MD5.update username MD5.new.reset).toString).1.map tolower

theorem authFromDBPoll_iff [Platform] {username password : AString} :
    authFromDBPoll username password = errorCodeAuthOk ↔ password = md5Password username := by
  unfold authFromDBPoll
  dsimp only
  split
  next heq => exact ⟨fun _ => (eq_of_beq heq).symm, fun _ => rfl⟩
  next hne =>
    refine ⟨fun h => (nomatch h), fun h => ?_⟩
    rw [h] at hne
    exact absurd (beq_self_eq_true _) hne

theorem md5Password_length [Platform] (username : AString) : (md5Password username).length = 32 := by
  have hfinished : ((MD5.new.reset).update username).finished = false := by
    simp only [MD5.update]
    split <;> rfl
  simp only [md5Password, List.length_map, MD5.toString, MD5.getDigest, hfinished, Bool.not_false,
    if_true, MD5.bytesToHexString_length]
  rfl

/-- A password that is accepted has the 32 digits of a digest. -/
theorem authFromDBPoll_length [Platform] {username password : AString}
    (h : authFromDBPoll username password = errorCodeAuthOk) : password.length = 32 := by
  rw [authFromDBPoll_iff.mp h]
  exact md5Password_length username

end P2PChat
