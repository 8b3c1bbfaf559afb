import P2PChat.ClientSession
import P2PChat.EndpointInvariants

namespace P2PChat

open ByteQueue

theorem hom_id {β : Type} [ByteQueue β] : Hom (id : β → β) where
  new _ := rfl
  clearAll _ := rfl
  getFreeSpace _ := rfl
  getUsedSpace _ := rfl
  getReadableSpace _ := rfl
  write _ _ := rfl
  writeBuf _ _ := rfl
  readBuf _ _ := rfl
  readString _ _ := rfl
  readAll _ := rfl
  readToByteBuffer _ _ _ := rfl
  commitRead _ := rfl
  resetRead _ := rfl

namespace PeerConnectionClient

variable {β : Type} [ByteQueue β]

/-- What the handlers of a client keep but for that of `UserInfo`: it is about no more than these members,
and neither a packet sent nor a call of `SignOut` ends it. -/
structure HandlerRule (I : PeerConnectionClient β → Prop) : Prop where
  same : ∀ c c', c'.state = c.state → c'.isConnected = c.isConnected →
    c'.outPacketBuffer = c.outPacketBuffer → c'.peers = c.peers → I c → I c'
  packet : ∀ p c, I c → Ends I (c.packet p)
  signOut : ∀ c, I c → I c.signOut

/-- A packet changes what was sent, and the buffer it is composed in. -/
theorem packet_changes {p : Packet} {c c' : PeerConnectionClient β} (h : c.packet p = .ok c') :
    ∃ out sent, c' = { c with outPacketBuffer := out, sent := sent } := by
  unfold PeerConnectionClient.packet at h
  rcases hout : packetize p c.outPacketBuffer with e | out
  · rw [hout] at h
    cases h
  · rw [hout] at h
    cases h
    unfold sendData
    dsimp only
    split
    next hopen => exact ⟨_, _, rfl⟩
    next hopen => exact ⟨_, _, rfl⟩

section Rules

variable {I : PeerConnectionClient β → Prop} (hI : HandlerRule I)

include hI

theorem HandlerRule.notify {c : PeerConnectionClient β} (hc : I c) (callback : Callback) :
    I (c.notify callback) := hI.same c _ rfl rfl rfl rfl hc

theorem HandlerRule.statusAnswered {c : PeerConnectionClient β} (hc : I c) (status : Int32 × AString) :
    Ends I (c.statusAnswered status) := by
  unfold PeerConnectionClient.statusAnswered
  split
  next => exact Ends.ok hc
  next => exact hI.packet _ _ (hI.same c _ rfl rfl rfl rfl hc)

theorem HandlerRule.handleErrorCode {c : PeerConnectionClient β} (hc : I c) (code : Int32) :
    I (c.handleErrorCode code) := hI.notify (hI.notify (hI.signOut c hc) _) _

theorem HandlerRule.mediaArrived {c : PeerConnectionClient β} (hc : I c) (peer_id type : UInt32) :
    Ends I (c.mediaArrived peer_id type) := by
  unfold PeerConnectionClient.mediaArrived
  split
  next => exact hI.packet _ _ (hI.same c _ rfl rfl rfl rfl hc)
  next => exact Ends.ok (hI.notify hc _)

theorem HandlerRule.mediaMsgArrived {c : PeerConnectionClient β} (hc : I c) (peer_id : UInt32)
    (message : AString) : I (c.mediaMsgArrived peer_id message) := by
  unfold PeerConnectionClient.mediaMsgArrived
  split
  next => exact hI.notify hc _
  next => exact hI.notify hc _

variable [Platform]

theorem HandlerRule.dispatchPacket {c : PeerConnectionClient β} (hc : I c) (bb : β) (packetType : UInt32)
    (hinfo : ∀ info ∈ c.hears bb packetType, I (c.userInfo info.1 info.2.1 info.2.2)) :
    Ends (fun x : Bool × β × PeerConnectionClient β => I x.2.2) (dispatchPacket bb packetType c) := by
  unfold PeerConnectionClient.dispatchPacket
  split
  next =>
    split
    next => exact handling_ends hc fun status _ => hI.statusAnswered hc status
    next => exact Ends.ok hc
  next =>
    split
    next =>
      split
      next => exact handling_ends hc fun reason _ => Ends.ok (hI.handleErrorCode hc reason)
      next =>
        split
        next => exact Ends.ok (hI.notify (hI.same c (c.setProtocolState 3) rfl rfl rfl rfl hc) _)
        next => exact Ends.ok hc
    next =>
      split
      next hwork =>
        split
        next => exact handling_ends hc fun keepAliveID _ => hI.packet _ c hc
        next =>
          split
          next htype =>
            refine handling_ends hc fun info hread => Ends.ok (hinfo info ?_)
            simp [hears, hwork, htype, hread]
          next =>
            split
            next => exact handling_ends hc fun media _ => hI.mediaArrived hc media.1 media.2
            next =>
              split
              next => exact handling_ends hc fun media _ => Ends.ok (hI.mediaMsgArrived hc _ _)
              next =>
                split
                next => exact handling_ends hc fun reason _ => Ends.ok (hI.handleErrorCode hc reason)
                next => exact Ends.ok hc
      next =>
        split
        next => exact Ends.ok hc
        next => exact Ends.ok (hI.same c _ rfl rfl rfl rfl hc)

theorem HandlerRule.handlePacket {c : PeerConnectionClient β} (hc : I c) (bb : β) (packetType : UInt32)
    (hinfo : ∀ info ∈ c.hears bb packetType, ∀ c' : PeerConnectionClient β, c'.state = c.state →
      c'.isConnected = c.isConnected → c'.outPacketBuffer = c.outPacketBuffer → c'.peers = c.peers →
        I (c'.userInfo info.1 info.2.1 info.2.2)) :
    Ends (fun x : Bool × β × PeerConnectionClient β => I x.2.2) (handlePacket bb packetType c) := by
  refine hI.dispatchPacket (hI.same c (c.record (packetType, (readAll bb).1)) rfl rfl rfl rfl hc) bb packetType
    fun info hmem => ?_
  exact hinfo info hmem _ rfl rfl rfl rfl

end Rules

section Hearing

variable [Platform]

theorem hearing_handlePacket (bb : β) (packetType : UInt32)
    (s : PeerConnectionClient β × List (UInt32 × AString × UInt32)) :
    hearing.handlePacket bb packetType s = (handlePacket bb packetType s.1).map fun r =>
      (r.1, r.2.1, r.2.2, s.2 ++ s.1.hears bb packetType) := rfl

theorem hearing_simulates :
    Endpoint.Simulates (id : β → β) Prod.fst hearing (endpoint : Endpoint β (PeerConnectionClient β)) where
  received _ := rfl
  setReceived _ _ := rfl
  handlePacket bb packetType s := by
    change handlePacket bb packetType s.1 = _
    rw [hearing_handlePacket]
    rcases handlePacket bb packetType s.1 with e | ⟨understood, bb', c⟩
    · rfl
    · rfl
  packetBufferFull _ := rfl
  packetError _ _ := rfl

/-- The record changes nothing. -/
theorem hearAll_fst (chunks : List AString) (s : PeerConnectionClient β × List (UInt32 × AString × UInt32)) :
    (hearAll chunks s).map Prod.fst = s.1.onRead chunks := by
  induction chunks generalizing s with
  | nil => rfl
  | cons chunk chunks ih =>
    unfold hearAll onRead
    split
    next =>
      have hdata := addReceivedData_simulates hom_id hearing_simulates chunk s
      rw [dataReceived, hdata]
      rcases hearing.addReceivedData chunk s with e | s'
      · rfl
      · exact ih s'
    next => rfl

theorem hearAll_ends {I : PeerConnectionClient β × List (UInt32 × AString × UInt32) → Prop}
    (hI : hearing.Keeps I) {chunks : List AString}
    {s : PeerConnectionClient β × List (UInt32 × AString × UInt32)} (hs : I s) :
    Ends I (hearAll chunks s) := by
  induction chunks generalizing s with
  | nil => exact Ends.ok hs
  | cons chunk chunks ih =>
    unfold hearAll
    split
    next => exact Ends.bind (hI.addReceivedData hs) fun s' hs' => ih hs'
    next => exact Ends.ok hs

theorem HandlerRule.hearing {I : PeerConnectionClient β → Prop} (hI : HandlerRule I)
    (hinfo : ∀ c uid name state, I c → I (c.userInfo uid name state)) :
    hearing.Keeps fun s : PeerConnectionClient β × List (UInt32 × AString × UInt32) => I s.1 where
  setReceived b s hs := hI.same s.1 (s.1.setReceived b) rfl rfl rfl rfl hs
  handlePacket bb packetType s hs := by
    have hhandle := hI.handlePacket hs bb packetType fun info _ c' h1 h2 h3 h4 =>
      hinfo c' _ _ _ (hI.same s.1 c' h1 h2 h3 h4 hs)
    rw [hearing_handlePacket]
    rcases hr : P2PChat.PeerConnectionClient.handlePacket bb packetType s.1 with e | r
    · exact Ends.error
    · have hr' := hhandle r hr
      exact Ends.ok hr'
  packetBufferFull s hs := Ends.ok hs
  packetError packetType s hs := Ends.ok hs

end Hearing

end PeerConnectionClient

namespace ClientSession

variable {β : Type} [ByteQueue β]

/-- What the calls and signals of a client keep but for reading: it is about what `UserInfo` packets made
and the buffer of packets, and neither a packet sent nor a call of `Close` ends it. -/
structure SessionRule (I : PeerConnectionClient β × List (UInt32 × AString × UInt32) → Prop) : Prop where
  same : ∀ c c' heard, c'.outPacketBuffer = c.outPacketBuffer → c'.peers = c.peers →
    I (c, heard) → I (c', heard)
  packet : ∀ p c heard, I (c, heard) → Ends (fun c' => I (c', heard)) (c.packet p)
  close : ∀ c heard, I (c, heard) → I (c.close, heard)

variable {I : PeerConnectionClient β × List (UInt32 × AString × UInt32) → Prop} (hI : SessionRule I)

include hI

theorem SessionRule.notify {c : PeerConnectionClient β} {heard : List (UInt32 × AString × UInt32)}
    (h : I (c, heard)) (callback : Callback) : I (c.notify callback, heard) :=
  hI.same c (c.notify callback) heard rfl rfl h

theorem SessionRule.closeSocket {s : ClientSession β} (hs : I (s.client, s.heard)) :
    Ends (fun s' => I (s'.client, s'.heard)) s.close := by
  unfold ClientSession.close
  split
  next => exact Ends.error
  next => exact Ends.ok (hI.close s.client s.heard hs)

theorem SessionRule.doConnect {s : ClientSession β} (hs : I (s.client, s.heard)) (reply : ConnectReply) :
    Ends (fun s' => I (s'.client, s'.heard)) (s.doConnect reply) := by
  cases reply with
  | socketError =>
    refine Ends.bind (@SessionRule.closeSocket _ _ _ hI { s with controlSocket := some .csClosed } hs) ?_
    exact fun s' hs' => Ends.ok (hI.notify hs' _)
  | inProgress => exact Ends.ok (hI.same s.client { s.client with state := .signingIn } s.heard rfl rfl hs)
  | connected => exact Ends.ok (hI.same s.client { s.client with state := .signingIn } s.heard rfl rfl hs)

theorem SessionRule.connect {s : ClientSession β} (hs : I (s.client, s.heard)) {server user pass : AString}
    (hnew : s.accepts server user pass = true → I (s.client, [])) (unresolved : Bool)
    (reply : ConnectReply) :
    Ends (fun s' => I (s'.client, s'.heard)) (s.connect server user pass unresolved reply) := by
  unfold ClientSession.connect
  split
  next => exact Ends.ok (hI.notify hs _)
  next hstate =>
    split
    next => exact Ends.ok (hI.notify hs _)
    next hempty =>
      have hs := hnew (by simp_all [accepts])
      dsimp only
      split
      next =>
        exact Ends.ok (hI.same s.client
          { s.client with username := user, password := pass, state := .resolving } [] rfl rfl hs)
      next =>
        refine @SessionRule.doConnect _ _ _ hI { s with
          client := { s.client with username := user, password := pass }, heard := [] } ?_ reply
        exact hI.same s.client { s.client with username := user, password := pass } [] rfl rfl hs

theorem SessionRule.sending {s : ClientSession β} (hs : I (s.client, s.heard)) (p : Packet) :
    Ends (fun s' => I (s'.client, s'.heard)) (s.sending (·.packet p)) := by
  unfold ClientSession.sending
  split
  next => exact Ends.error
  next =>
    have hpacket := hI.packet p s.client s.heard hs
    split
    next => exact Ends.error
    next c hc => exact Ends.ok (hpacket c hc)

theorem SessionRule.signOut {s : ClientSession β} (hs : I (s.client, s.heard)) :
    Ends (fun s' => I (s'.client, s'.heard)) s.signOut := by
  unfold ClientSession.signOut
  split
  next => exact Ends.ok hs
  next =>
    split
    next => exact Ends.error
    next =>
      refine Ends.bind (@SessionRule.closeSocket _ _ _ hI
        { s with client := { s.client with state := .signingOut } }
        (hI.same s.client { s.client with state := .signingOut } s.heard rfl rfl hs)) fun s' hs' => ?_
      exact Ends.ok (hI.same s'.client
        { s'.client.notify .onDisconnected with username := [], password := [] } s'.heard rfl rfl hs')
    next =>
      exact Ends.ok (hI.same s.client
        { s.client with state := .signingOutWaiting, username := [], password := [] } s.heard rfl rfl hs)

theorem SessionRule.resolved {s : ClientSession β} (hs : I (s.client, s.heard)) (failed : Bool)
    (reply : ConnectReply) :
    Ends (fun s' => I (s'.client, s'.heard)) (s.onResolveResult failed reply) := by
  unfold ClientSession.onResolveResult
  dsimp only
  split
  next => exact Ends.error
  next =>
    split
    next =>
      exact Ends.ok (hI.same s.client
        { s.client.notify .onServerConnectionFailure with state := .notConnected } s.heard rfl rfl hs)
    next => exact @SessionRule.doConnect _ _ _ hI { s with resolving := false } hs reply

variable [Platform]

/-- One step, given what reading comes to. -/
theorem SessionRule.step {s : ClientSession β} (hs : I (s.client, s.heard)) {e : SessionEvent}
    (hnew : ∀ server user pass unresolved reply, e = .connect server user pass unresolved reply →
      s.accepts server user pass = true → I (s.client, []))
    (hread : ∀ chunks, e = .readable chunks →
      Ends I (PeerConnectionClient.hearAll chunks (s.client, s.heard))) :
    Ends (fun s' => I (s'.client, s'.heard)) (s.step e) := by
  cases e with
  | connect server user pass unresolved reply =>
    exact hI.connect hs (hnew server user pass unresolved reply rfl) unresolved reply
  | requestToPeer peer_id => exact hI.sending hs _
  | sendToPeer peer_id message => exact hI.sending hs _
  | isSendingMessage =>
    intro s' hs'
    change s.isSendingMessage.map Prod.snd = .ok s' at hs'
    unfold ClientSession.isSendingMessage at hs'
    split at hs'
    next =>
      split at hs'
      next => cases hs'
      next =>
        cases hs'
        exact hs
    next =>
      cases hs'
      exact hs
  | signOut => exact hI.signOut hs
  | resolved failed reply => exact hI.resolved hs failed reply
  | opened =>
    exact @SessionRule.sending _ _ _ hI { s with
      controlSocket := some .csConnected
      client := { s.client with isConnected := true } }
      (hI.same s.client { s.client with isConnected := true } s.heard rfl rfl hs) _
  | readable chunks =>
    have hread := hread chunks rfl
    change Ends _ (s.onRead chunks)
    unfold ClientSession.onRead
    split
    next => exact Ends.error
    next =>
      split
      next => exact Ends.error
      next c heard hc =>
        have hc : I (c, heard) := hread (c, heard) hc
        unfold ClientSession.settled
        split
        next => exact Ends.ok hc
        next => exact Ends.ok hc
  | closed =>
    refine Ends.bind (@SessionRule.closeSocket _ _ _ hI { s with controlSocket := some .csClosed } hs) ?_
    exact fun s' hs' => Ends.ok (hI.notify hs' _)

end ClientSession

end P2PChat
