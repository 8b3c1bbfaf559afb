import P2PChat.AttachedClients
import P2PChat.SessionPeers

namespace P2PChat

open ByteQueue

namespace PeerConnectionClient

section Definitions

variable {β : Type}

/-- The state of the protocol, and the list of peers. -/
def picture (c : PeerConnectionClient β) : UInt32 × Peers := (c.protocolState, c.peers)

/-- What a packet makes of them in a client that stays connected. -/
def shows [Platform] (picture : UInt32 × Peers) (p : UInt32 × AString) : UInt32 × Peers :=
  (meets picture.1 p,
    if picture.1 = 3 ∧ p.1 = 0x01 then
      (parseUserInfo (call p).2).1.elim picture.2 fun info => picture.2.userInfo info.1 info.2.1 info.2.2
    else picture.2)

end Definitions

variable [Platform]

theorem foldl_shows (packets : List (UInt32 × AString)) (picture : UInt32 × Peers) :
    (packets.foldl shows picture).1 = packets.foldl meets picture.1 := by
  induction packets generalizing picture with
  | nil => rfl
  | cons p packets ih => exact ih (shows picture p)

theorem shows_other {picture : UInt32 × Peers} {p : UInt32 × AString} (h : picture.1 = 3 → p.1 ≠ 0x01) :
    shows picture p = (meets picture.1 p, picture.2) := by
  have hno : ¬(picture.1 = 3 ∧ p.1 = 0x01) := fun hboth => h hboth.1 hboth.2
  rw [shows, if_neg hno]

/-- In the last state only a `UserInfo` changes the list. -/
theorem shows_last {picture : UInt32 × Peers} {p : UInt32 × AString} (hlast : picture.1 = 3) (htype : p.1 = 0x01) :
    shows picture p = (3, (parseUserInfo (call p).2).1.elim picture.2
      fun info => picture.2.userInfo info.1 info.2.1 info.2.2) := by
  have hmeets : meets picture.1 p = 3 := by
    rw [hlast]
    exact meets_last p
  rw [shows, hmeets, if_pos ⟨hlast, htype⟩]

section Reactions

variable {c c₀ : PeerConnectionClient Fifo} {p : UInt32 × AString}

omit [Platform] in
/-- An error code closes the connection. -/
theorem handleErrorCode_open (hopen : c.closes = true) {code : Int32}
    (hstays : (c.handleErrorCode code).closes = true) : False := by
  obtain ⟨_, _, hsocket⟩ := handleErrorCode_closes hopen code
  rw [PeerConnectionClient.closes, hsocket, Bool.and_false] at hstays
  cases hstays

theorem meets_one (p : UInt32 × AString) :
    meets 1 p = if p.1 = 0x00 then (parseStatus (call p).2).1.elim 1 fun status =>
      if 3 < status.1 ∨ status.1 < 1 then 1 else status.1.toUInt32 else 1 := by
  have hnot : ¬((1 : UInt32) = 2 ∧ p.1 = 0x01) := fun h => absurd h.1 (by decide)
  by_cases h0 : p.1 = 0x00
  · rw [meets, if_pos ⟨rfl, h0⟩, if_pos h0]
  · rw [meets, if_neg fun h => h0 h.2, if_neg hnot, if_neg h0]

theorem meets_two (p : UInt32 × AString) : meets 2 p = if p.1 = 0x01 then 3 else 2 := by
  have hnot : ¬((2 : UInt32) = 1 ∧ p.1 = 0x00) := fun h => absurd h.1 (by decide)
  by_cases h1 : p.1 = 0x01
  · rw [meets, if_neg hnot, if_pos ⟨rfl, h1⟩, if_pos h1]
  · rw [meets, if_neg hnot, if_neg fun h => h1 h.2, if_neg h1]

theorem reacted_one (hstate : c.protocolState = 1) :
    (c.reacted p.1 (call p).2).picture = shows c.picture p := by
  have hfirst : c.picture.1 = 1 := hstate
  have hshows : shows c.picture p = (meets 1 p, c.peers) := by
    rw [shows_other fun h3 => absurd (hfirst.symm.trans h3) (by decide), hfirst]
    rfl
  rw [hshows, reacted, if_pos hstate, meets_one]
  by_cases h0 : p.1 = 0x00
  · rw [if_pos h0, if_pos h0]
    rcases (parseStatus (call p).2).1 with _ | status
    · rw [Option.elim_none, Option.elim_none, picture, hstate]
    · rw [Option.elim_some, Option.elim_some, greeted]
      split
      next => rw [picture, hstate]
      next =>
        rw [send_eq]
        rfl
  · rw [if_neg h0, if_neg h0, picture, hstate]

theorem reacted_two (hstate : c.protocolState = 2) (hopen : c.closes = true)
    (hstays : (c.reacted p.1 (call p).2).closes = true) :
    (c.reacted p.1 (call p).2).picture = shows c.picture p := by
  have hone : c.protocolState ≠ 1 := by
    rw [hstate]
    decide
  have hsecond : c.picture.1 = 2 := hstate
  have hshows : shows c.picture p = (meets 2 p, c.peers) := by
    rw [shows_other fun h3 => absurd (hsecond.symm.trans h3) (by decide), hsecond]
    rfl
  rw [reacted, if_neg hone, if_pos hstate] at hstays ⊢
  rw [hshows, meets_two]
  split at hstays
  next h0 =>
    have h1 : p.1 ≠ 0x01 := by
      rw [h0]
      decide
    rw [if_pos h0, if_neg h1]
    rcases hreason : (parseBEInt32 (call p).2).1 with _ | reason
    · rw [Option.elim_none, picture, hstate]
    · rw [hreason] at hstays
      exact (handleErrorCode_open hopen hstays).elim
  next h0 =>
    rw [if_neg h0]
    split
    next => rfl
    next => rw [picture, hstate]

theorem reacted_three (hstate : c.protocolState = 3) (hopen : c.closes = true)
    (hstays : (c.reacted p.1 (call p).2).closes = true) :
    (c.reacted p.1 (call p).2).picture = shows c.picture p := by
  have hone : c.protocolState ≠ 1 := by
    rw [hstate]
    decide
  have htwo : c.protocolState ≠ 2 := by
    rw [hstate]
    decide
  have hsame : ∀ c' : PeerConnectionClient Fifo, c'.protocolState = c.protocolState → c'.peers = c.peers →
      p.1 ≠ 0x01 → c'.picture = shows c.picture p := by
    intro c' hstate' hpeers htype
    have hthird : c.picture.1 = 3 := hstate
    rw [shows_other fun _ => htype, hthird, meets_last, picture, hstate', hstate, hpeers]
    rfl
  rw [reacted, if_neg hone, if_neg htwo, if_pos hstate] at hstays ⊢
  by_cases h1 : p.1 = 0x01
  · have h0 : p.1 ≠ 0x00 := by
      rw [h1]
      decide
    rw [if_neg h0, if_pos h1, shows_last hstate h1]
    rcases (parseUserInfo (call p).2).1 with _ | info
    · rw [Option.elim_none, Option.elim_none, picture, hstate]
    · rw [Option.elim_some, Option.elim_some, picture, userInfo_peers]
      have hkeeps : (c.userInfo info.1 info.2.1 info.2.2).protocolState = c.protocolState := by
        unfold PeerConnectionClient.userInfo
        split <;> rfl
      rw [hkeeps, hstate]
      rfl
  · rw [if_neg h1] at hstays ⊢
    by_cases h0 : p.1 = 0x00
    · rw [if_pos h0]
      rcases (parseVarInt32 (call p).2).1 with _ | id
      · exact hsame _ rfl rfl h1
      · rw [Option.elim_some, send_eq]
        exact hsame _ rfl rfl h1
    · rw [if_neg h0] at hstays ⊢
      by_cases h11 : p.1 = 0x11
      · rw [if_pos h11]
        rcases (parseMedia (call p).2).1 with _ | media
        · exact hsame _ rfl rfl h1
        · rw [Option.elim_some, asked]
          split
          next =>
            rw [send_eq]
            exact hsame _ rfl rfl h1
          next => exact hsame _ rfl rfl h1
      · rw [if_neg h11] at hstays ⊢
        by_cases h12 : p.1 = 0x12
        · rw [if_pos h12]
          rcases (parseMediaMsg (call p).2).1 with _ | media
          · exact hsame _ rfl rfl h1
          · rw [Option.elim_some]
            unfold mediaMsgArrived
            split
            next => exact hsame _ rfl rfl h1
            next => exact hsame _ rfl rfl h1
        · rw [if_neg h12] at hstays ⊢
          by_cases h40 : p.1 = 0x40
          · rw [if_pos h40] at hstays ⊢
            rcases hreason : (parseBEInt32 (call p).2).1 with _ | reason
            · exact hsame _ rfl rfl h1
            · rw [hreason] at hstays
              exact (handleErrorCode_open hopen hstays).elim
          · rw [if_neg h40]
            exact hsame _ rfl rfl h1

/-- A packet that leaves the connection open changes the state and the list as it says. -/
theorem reacted_picture (hstate : c.protocolState = 1 ∨ c.protocolState = 2 ∨ c.protocolState = 3)
    (hopen : c.closes = true) (hstays : (c.reacted p.1 (call p).2).closes = true) :
    (c.reacted p.1 (call p).2).picture = shows c.picture p := by
  rcases hstate with hone | htwo | hthree
  · exact reacted_one hone
  · exact reacted_two htwo hopen hstays
  · exact reacted_three hthree hopen hstays

end Reactions

section Reading

variable {c c₀ c' : PeerConnectionClient Fifo} {todo : List (UInt32 × AString)}

/-- What a frame leaves when it does not end the process. -/
theorem handleFrame_ok {type : UInt32} {bb : Fifo} {goesOn : Bool} (hout : c.outPacketBuffer = Fifo.empty 65536)
    (hok : endpoint.handleFrame type bb c = .ok (goesOn, c')) :
    c' = (c.record (type, bb.unread)).reacted type bb.unread := by
  rcases hhalts : c.halts type bb.unread with _ | _
  · rw [handleFrame_eq hout hhalts] at hok
    exact (Prod.mk.inj (Except.ok.inj hok)).2.symm
  · have hverify := handlePacket_verify hout hhalts
    have hframe : endpoint.handleFrame type bb c = (do
        let (understood, bb, c) ← handlePacket bb type c
        if !understood then .ok (false, c)
        else do
          let c ← (endpoint : Endpoint Fifo (PeerConnectionClient Fifo)).checkLength type bb c
          .ok (true, c)) := rfl
    rw [hframe, hverify] at hok
    cases hok

/-- Frame by frame, state and list become what the packets say. -/
theorem pictures_rule (hopen : c₀.closes = true) (hreadable : ∀ p ∈ todo, Readable p)
    (hstate : c₀.protocolState = 1 ∨ c₀.protocolState = 2 ∨ c₀.protocolState = 3) :
    endpoint.ClosingRule 65536 todo
      (fun done c => Handles c₀ done c ∧ c.picture = done.foldl shows c₀.picture)
      (fun c => c.protocolState ≠ 3) (Closed c₀ todo) (fun _ => c₀.protocolState ≠ 3) := by
  refine (handles_rule hopen hreadable).and (fun _ _ _ _ hpicture => hpicture) ?_
  intro done p rest bb c goesOn c' _ hhandles hpicture hbb hok hhandles'
  obtain ⟨u, hc⟩ := hhandles.standing
  obtain ⟨u', hc'⟩ := hhandles'.standing
  have hreacted := handleFrame_ok hc.out hok
  have hcall : bb.unread = (call p).2 := hbb
  rw [hcall] at hreacted
  have hrange : c.protocolState = 1 ∨ c.protocolState = 2 ∨ c.protocolState = 3 := by
    have hmeets : c.protocolState = done.foldl meets c₀.protocolState :=
      (congrArg Prod.fst hpicture).trans (foldl_shows done c₀.picture)
    rw [hmeets]
    exact foldl_meets_range hstate done
  rw [List.foldl_append, ← hpicture, hreacted]
  refine reacted_picture (c := c.record (p.1, (call p).2)) hrange (hc.closes.trans hopen) ?_
  rw [← hreacted]
  exact hc'.closes.trans hopen

/-- A client that reads a chunk that fits has closed its connection, or shows what the packets say that it
has handled. -/
theorem Listens.shows {v chunk : AString} (h : Listens v c)
    (hstate : c.protocolState = 1 ∨ c.protocolState = 2 ∨ c.protocolState = 3)
    (hfit : (v ++ chunk).length ≤ 65536) (hreadable : ∀ p ∈ todo, Readable p) (hstart : v ++ chunk <+: stream todo)
    (hok : c.onRead [chunk] = .ok c') :
    c'.Gone ∨ ∃ new rest, todo = new ++ rest ∧ v ++ chunk = stream new ++ (readAll c'.receivedData).1 ∧
      c'.picture = new.foldl PeerConnectionClient.shows c.picture := by
  have hsize : ∀ p ∈ todo, (rawPacket p).body.length < 2 ^ 32 := by
    intro p hp
    have hfits := (hreadable p hp).fits
    omega
  have hbefore : Handles c [] c :=
    ⟨⟨v, h.out, h.room, h.received, rfl, rfl, fun _ => rfl⟩, posts_nothing rfl,
      fun h3 => ⟨h3, fun _ => (List.append_nil _).symm⟩⟩
  have hleft := (pictures_rule h.closes hreadable hstate).addReceivedData (by omega) hsize h.room h.received hfit
    hstart ⟨hbefore, rfl⟩
  rw [onRead_one h.isConnected] at hok
  have hok : (endpoint : Endpoint Fifo (PeerConnectionClient Fifo)).addReceivedData chunk c = .ok c' := hok
  rw [hok] at hleft
  cases hleft with
  | reading new rest v' htodo hbytes hv' hreceived hshown _ =>
    obtain ⟨_, _, hunread⟩ := Fifo.filled_eq hv'
    have hreceived : c'.receivedData = Fifo.filled 65536 v' := hreceived
    refine Or.inr ⟨new, rest, htodo, ?_, hshown.2⟩
    rw [hreceived, readAll_fifo, hunread]
    exact hbytes
  | emptied _ hclosed => exact Or.inl hclosed.gone

/-- The same, where these packets are on their way. -/
theorem Attached.shows {toServer toClient chunk rest : AString} (h : Attached toServer toClient c)
    (hsocket : c.isConnected = true)
    (hstate : c.protocolState = 1 ∨ c.protocolState = 2 ∨ c.protocolState = 3)
    (hfit : chunk.length ≤ getFreeSpace c.receivedData) (hreadable : ∀ p ∈ todo, Readable p)
    (htodo : toClient = stream todo) (hbytes : toClient = (readAll c.receivedData).1 ++ (chunk ++ rest))
    (hok : c.onRead [chunk] = .ok c') :
    c'.Gone ∨ ∃ new left, todo = new ++ left ∧ (readAll c'.receivedData).1 ++ rest = stream left ∧
      c'.picture = new.foldl PeerConnectionClient.shows c.picture := by
  obtain ⟨v, hv, hrec, _⟩ := h.received
  obtain ⟨hcapacity, hbefore, hunread⟩ := Fifo.filled_eq hv
  have hread : (readAll c.receivedData).1 = v := by rw [hrec, readAll_fifo, hunread]
  have hroom : (v ++ chunk).length ≤ 65536 := by
    rw [hrec] at hfit
    change chunk.length ≤ (Fifo.filled 65536 v).free at hfit
    rw [Fifo.free, hcapacity, hbefore, hunread, List.length_nil] at hfit
    rw [List.length_append]
    omega
  rw [hread, ← List.append_assoc] at hbytes
  have hstart : v ++ chunk <+: stream todo := by
    rw [← htodo, hbytes]
    exact List.prefix_append _ _
  have hlistens : Listens v c := ⟨h.out, hv, hrec, h.closes hsocket⟩
  refine (hlistens.shows hstate hroom hreadable hstart hok).imp id ?_
  rintro ⟨new, left, hsplit, htaken, hpicture⟩
  refine ⟨new, left, hsplit, ?_, hpicture⟩
  rw [hbytes, htaken, hsplit, stream_append, List.append_assoc] at htodo
  exact List.append_cancel_left htodo

end Reading

end PeerConnectionClient

end P2PChat
