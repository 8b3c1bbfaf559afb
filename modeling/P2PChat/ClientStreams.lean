import P2PChat.ClientFrames
import P2PChat.FrameLimits
import P2PChat.LoginAgreement
import P2PChat.OpenConnections
import P2PChat.ServerStreams

namespace P2PChat

open ByteQueue

section Packets

variable [Platform]

/-- A packet that carries no text. -/
structure Plain (p : UInt32 × AString) : Prop where
  written : Written p
  type : p.1 ≠ 0x12

theorem parseMedia_fields (to_id type : UInt32) :
    parseMedia ((mediaPacket to_id type).fieldBytes ++ [0]) =
      (some (to_id, type), (mediaPacket to_id type).fieldBytes.length) := by
  have hbytes : (mediaPacket to_id type).fieldBytes = varInt to_id ++ varInt type := by
    simp [mediaPacket, Packet.fieldBytes, Field.bytes]
  rw [hbytes, parseMedia, Parser.andThen, List.append_assoc, parseVarInt32_varInt]
  dsimp only
  rw [List.drop_left, Parser.andThen, parseVarInt32_varInt]
  simp [Parser.ret]

theorem greeting_plain {fields : List Field} (h : (⟨0x00, fields⟩ : Packet).body.length ≤ 65536) :
    Plain (0x00, (⟨0x00, fields⟩ : Packet).fieldBytes) :=
  ⟨⟨by rw [rawPacket_body]; exact h, Or.inl rfl⟩, by simp⟩

theorem media_plain (to_id type : UInt32) : Plain (0x11, (mediaPacket to_id type).fieldBytes) := by
  have hfits : (mediaPacket to_id type).body.length ≤ 65536 :=
    PeerConnectionClient.small_packet_length (by simp [Field.bound])
  have hread : (Server.reads 3 0x11 (call (0x11, (mediaPacket to_id type).fieldBytes)).2).2 =
      (mediaPacket to_id type).fieldBytes.length := congrArg Prod.snd (parseMedia_fields to_id type)
  refine ⟨⟨by rw [rawPacket_body]; exact hfits, Or.inr ⟨rfl, ?_⟩⟩, by simp⟩
  rw [hread]
  simp [call]

omit [Platform] in
theorem mediaMsg_short {to_id : UInt32} {msg : AString}
    (hfits : (mediaMsgPacket to_id msg).body.length ≤ 65536) : msg.length < 2 ^ 32 := by
  rw [mediaMsg_body_length] at hfits
  omega

theorem mediaMsg_written {to_id : UInt32} {msg : AString}
    (hfits : (mediaMsgPacket to_id msg).body.length ≤ 65536) :
    Written (0x12, (mediaMsgPacket to_id msg).fieldBytes) := by
  have hread : (Server.reads 3 0x12 (call (0x12, (mediaMsgPacket to_id msg).fieldBytes)).2).2 =
      (mediaMsgPacket to_id msg).fieldBytes.length := congrArg Prod.snd (parseMediaMsg_fields to_id (mediaMsg_short hfits))
  refine ⟨by rw [rawPacket_body]; exact hfits, Or.inr ⟨rfl, ?_⟩⟩
  rw [hread]
  simp [call]

end Packets

namespace PeerConnectionClient

/-- The texts that the observer was given from this peer. -/
def heardFrom {β : Type} (id : UInt32) (c : PeerConnectionClient β) : List AString :=
  c.callbacks.filterMap fun callback => match callback with
    | .onMessageFromPeer peer_id msg => if peer_id = id then some msg else none
    | _ => none

/-- What holds between a client before and after a packet, but for a text. -/
structure Reactive [Platform] (R : PeerConnectionClient Fifo → PeerConnectionClient Fifo → Prop) : Prop where
  refl : ∀ c, R c c
  trans : ∀ {c c' c'' : PeerConnectionClient Fifo}, R c c' → R c' c'' → R c c''
  send : ∀ p c, Plain (p.type, p.fieldBytes) → R c (c.send p)
  notify : ∀ callback c, (∀ id msg, callback ≠ .onMessageFromPeer id msg) → R c (c.notify callback)
  setProtocolState : ∀ state c, R c (c.setProtocolState state)
  setPeers : ∀ peers c, R c { c with peers := peers }
  setBusy : ∀ isBusy c, R c { c with isBusy := isBusy }
  signOut : ∀ c, R c c.signOut

variable [Platform] {R : PeerConnectionClient Fifo → PeerConnectionClient Fifo → Prop}
  {c c' : PeerConnectionClient Fifo} {type : UInt32} {bytes : AString}

theorem handleErrorCode_reactive (hR : Reactive R) (code : Int32) (c : PeerConnectionClient Fifo) :
    R c (c.handleErrorCode code) :=
  hR.trans (hR.trans (hR.signOut c) (hR.notify .onDisconnected _ (by simp)))
    (hR.notify (.postNotification code) _ (by simp))

theorem reacted_reactive (hR : Reactive R) (hhalts : c.halts type bytes = false)
    (hmessage : c.protocolState = 3 → type = 0x12 →
      ∀ peer_id msg, (parseMediaMsg bytes).1 = some (peer_id, msg) → R c (c.mediaMsgArrived peer_id msg)) :
    R c (c.reacted type bytes) := by
  unfold reacted
  split
  next h1 =>
    split
    next h0 =>
      rcases hstatus : (parseStatus bytes).1 with _ | status
      · exact hR.refl c
      · simp only [Option.elim_some, greeted]
        split
        next => exact hR.refl c
        next hrange =>
          rw [halts, h1, h0, hstatus, beq_self_eq_true, beq_self_eq_true, Bool.true_and, Bool.true_and,
            Option.any_some, Bool.and_eq_false_iff, Bool.not_eq_false', decide_eq_true_iff] at hhalts
          have hfits := of_decide_eq_false (hhalts.resolve_right hrange)
          exact hR.trans (hR.setProtocolState _ c) (hR.send _ _ (greeting_plain (Nat.le_of_not_lt hfits)))
    next => exact hR.refl c
  next =>
    split
    next =>
      split
      next =>
        rcases (parseBEInt32 bytes).1 with _ | reason
        · exact hR.refl c
        · exact handleErrorCode_reactive hR reason c
      next =>
        split
        next => exact hR.trans (hR.setProtocolState 3 c) (hR.notify .onSignedIn _ (by simp))
        next => exact hR.refl c
    next =>
      split
      next h3 =>
        split
        next =>
          rcases (parseVarInt32 bytes).1 with _ | id
          · exact hR.refl c
          · exact hR.send _ c (greeting_plain (small_packet_length (by simp [Field.bound])))
        next =>
          split
          next =>
            rcases (parseUserInfo bytes).1 with _ | info
            · exact hR.refl c
            · simp only [Option.elim_some, userInfo]
              split
              next => exact hR.trans (hR.setPeers _ c) (hR.notify (.onPeerDisconnected _) _ (by simp))
              next => exact hR.trans (hR.setPeers _ c) (hR.notify (.onPeerConnected _ _) _ (by simp))
          next =>
            split
            next =>
              rcases (parseMedia bytes).1 with _ | media
              · exact hR.refl c
              · simp only [Option.elim_some, asked]
                split
                next => exact hR.trans (hR.setBusy _ c) (hR.send _ _ (media_plain _ _))
                next => exact hR.notify (.onPeerResponse _ _) c (by simp)
            next =>
              split
              next h12 =>
                rcases hmedia : (parseMediaMsg bytes).1 with _ | media
                · exact hR.refl c
                · exact hmessage h3 h12 _ _ hmedia
              next =>
                split
                next =>
                  rcases (parseBEInt32 bytes).1 with _ | reason
                  · exact hR.refl c
                  · exact handleErrorCode_reactive hR reason c
                next => exact hR.refl c
      next =>
        split
        next => exact hR.refl c
        next => exact hR.setProtocolState 255 c

/-- Behind what it had sent, the client sent packets without a text. -/
def Posts (c c' : PeerConnectionClient Fifo) : Prop :=
  ∃ posts, (∀ p ∈ posts, Plain p) ∧ c'.sent = c.sent ++ stream posts

theorem posts_nothing (h : c'.sent = c.sent) : Posts c c' :=
  ⟨[], nofun, by rw [h]; exact (List.append_nil _).symm⟩

theorem Posts.trans {c'' : PeerConnectionClient Fifo} (h : Posts c c') (h' : Posts c' c'') : Posts c c'' := by
  obtain ⟨posts, hposts, hsent⟩ := h
  obtain ⟨posts', hposts', hsent'⟩ := h'
  refine ⟨posts ++ posts', fun p hp => (List.mem_append.mp hp).elim (hposts p) (hposts' p), ?_⟩
  rw [hsent', hsent, stream_append, List.append_assoc]

omit [Platform] in
theorem send_sent (p : Packet) (c : PeerConnectionClient Fifo) :
    (c.send p).sent = c.sent ++ stream (if c.isConnected then [(p.type, p.fieldBytes)] else []) := by
  have hraw : (rawPacket (p.type, p.fieldBytes)).body = p.body := rawPacket_body _
  unfold send sendData
  split
  next => simp [stream, hraw]
  next => exact (List.append_nil _).symm

omit [Platform] in
theorem signOut_sent (c : PeerConnectionClient Fifo) : c.signOut.sent = c.sent := by
  unfold signOut
  split
  next => rfl
  next => split <;> rfl

theorem posts_reactive : Reactive Posts where
  refl _ := posts_nothing rfl
  trans := Posts.trans
  send p c hp := by
    refine ⟨_, fun q hq => ?_, send_sent p c⟩
    split at hq
    next => exact (List.mem_singleton.mp hq) ▸ hp
    next => cases hq
  notify _ _ _ := posts_nothing rfl
  setProtocolState _ _ := posts_nothing rfl
  setPeers _ _ := posts_nothing rfl
  setBusy _ _ := posts_nothing rfl
  signOut c := posts_nothing (signOut_sent c)

omit [Platform] in
theorem notify_heardFrom {id : UInt32} {callback : Callback}
    (h : ∀ peer_id msg, callback ≠ .onMessageFromPeer peer_id msg) (c : PeerConnectionClient Fifo) :
    (c.notify callback).heardFrom id = c.heardFrom id := by
  unfold heardFrom notify
  rw [List.filterMap_append]
  cases callback with
  | onMessageFromPeer peer_id msg => exact absurd rfl (h peer_id msg)
  | onDisconnected => exact List.append_nil _
  | onSignedIn => exact List.append_nil _
  | onPeerConnected _ _ => exact List.append_nil _
  | onPeerDisconnected _ => exact List.append_nil _
  | onPeerResponse _ _ => exact List.append_nil _
  | onServerConnectionFailure => exact List.append_nil _
  | postNotification _ => exact List.append_nil _

omit [Platform] in
theorem signOut_heardFrom (id : UInt32) (c : PeerConnectionClient Fifo) :
    c.signOut.heardFrom id = c.heardFrom id := by
  unfold signOut
  split
  next => rfl
  next =>
    split
    next => exact notify_heardFrom (by simp) _
    next => rfl

theorem heardFrom_reactive (id : UInt32) : Reactive fun c c' => c'.heardFrom id = c.heardFrom id where
  refl _ := rfl
  trans h h' := h'.trans h
  send p c _ := by rw [send_eq]; rfl
  notify _ c h := notify_heardFrom h c
  setProtocolState _ _ := rfl
  setPeers _ _ := rfl
  setBusy _ _ := rfl
  signOut c := signOut_heardFrom id c

omit [Platform] in
/-- A text that comes in is a call of the observer. -/
theorem mediaMsgArrived_heardFrom (id peer_id : UInt32) (msg : AString) (c : PeerConnectionClient Fifo) :
    (c.mediaMsgArrived peer_id msg).heardFrom id =
      c.heardFrom id ++ if peer_id = id ∧ msg ≠ kByeMessage then [msg] else [] := by
  unfold mediaMsgArrived
  split
  next hbye =>
    rw [if_neg fun h => h.2 hbye, List.append_nil]
    exact notify_heardFrom (by simp) c
  next hbye =>
    unfold heardFrom notify
    rw [List.filterMap_append]
    by_cases hid : peer_id = id
    · simp [hid, hbye]
    · simp [hid]

/-- Of all packets only those with a text are heard, and they in the last state. -/
theorem reacted_heardFrom (id : UInt32) (hhalts : c.halts type bytes = false) :
    (c.reacted type bytes).heardFrom id =
      c.heardFrom id ++ if c.protocolState = 3 then (message id (type, bytes)).toList else [] := by
  by_cases htext : c.protocolState = 3 ∧ type = 0x12
  · obtain ⟨h3, rfl⟩ := htext
    have hreacted : c.reacted 0x12 bytes =
        (parseMediaMsg bytes).1.elim c fun media => c.mediaMsgArrived media.1 media.2 := by
      rw [reacted, h3]
      rfl
    have hmessage : message id (0x12, bytes) = (parseMediaMsg bytes).1.bind fun media =>
      if media.1 = id ∧ media.2 ≠ kByeMessage then some media.2 else none := rfl
    rw [hreacted, if_pos h3, hmessage]
    rcases (parseMediaMsg bytes).1 with _ | media
    · exact (List.append_nil _).symm
    · simp only [Option.elim_some, Option.bind_some, mediaMsgArrived_heardFrom]
      split <;> rfl
  · have hnothing : (if c.protocolState = 3 then (message id (type, bytes)).toList else []) = [] := by
      split
      next h3 => rw [message_other fun h12 => htext ⟨h3, h12⟩, Option.toList_none]
      next => rfl
    rw [hnothing, List.append_nil]
    exact reacted_reactive (heardFrom_reactive id) hhalts fun h3 h12 => absurd ⟨h3, h12⟩ htext

/-- The client has closed its connection, and opens no other. -/
structure Gone {β : Type} (c : PeerConnectionClient β) : Prop where
  isConnected : c.isConnected = false
  state : c.state = .notConnected

omit [Platform] in
theorem signOut_gone (h : c.closes = true) : c.signOut.Gone := by
  simp only [closes, Bool.and_eq_true, bne_iff_ne] at h
  rw [signOut, if_neg (not_or.mpr h.1), if_pos h.2]
  exact ⟨rfl, rfl⟩

theorem gone_reactive : Reactive fun c c' => c.closes = true ∨ c.Gone → c'.closes = true ∨ c'.Gone where
  refl _ := id
  trans h h' := fun hc => h' (h hc)
  send p c _ := by
    rw [send_eq]
    exact fun hc => hc.imp id fun h => ⟨h.isConnected, h.state⟩
  notify _ c _ := fun hc => hc.imp id fun h => ⟨h.isConnected, h.state⟩
  setProtocolState _ c := fun hc => hc.imp id fun h => ⟨h.isConnected, h.state⟩
  setPeers _ c := fun hc => hc.imp id fun h => ⟨h.isConnected, h.state⟩
  setBusy _ c := fun hc => hc.imp id fun h => ⟨h.isConnected, h.state⟩
  signOut c := by
    rintro (hcloses | hgone)
    · exact Or.inr (signOut_gone hcloses)
    · rw [signOut, if_pos (Or.inl hgone.state)]
      exact Or.inr hgone

/-- A packet that ends the connection leaves no other. -/
theorem reacted_gone (hopen : c.closes = true) (hhalts : c.halts type bytes = false)
    (hsocket : (c.reacted type bytes).isConnected = false) : (c.reacted type bytes).Gone := by
  have hkept := reacted_reactive gone_reactive hhalts
    (fun _ _ peer_id msg _ => by
      unfold mediaMsgArrived
      split <;> exact fun hc => hc.imp id fun h => ⟨h.isConnected, h.state⟩) (Or.inl hopen)
  refine hkept.resolve_left fun hcloses => ?_
  simp [closes, hsocket] at hcloses

section Reading

variable {c₀ : PeerConnectionClient Fifo} {todo : List (UInt32 × AString)}

/-- Where the loop of `AddReceivedData` stands on a stream: these frames are handled. -/
structure Handles (c₀ : PeerConnectionClient Fifo) (done : List (UInt32 × AString))
    (c : PeerConnectionClient Fifo) : Prop where
  standing : ∃ u, Standing c₀ c.protocolState u c
  posts : Posts c₀ c
  last : c₀.protocolState = 3 → c.protocolState = 3 ∧
    ∀ id, c.heardFrom id = c₀.heardFrom id ++ messages id (done.map call)

/-- The connection was closed; in the last state that takes a disconnect. -/
structure Closed (c₀ : PeerConnectionClient Fifo) (todo : List (UInt32 × AString))
    (c : PeerConnectionClient Fifo) : Prop where
  gone : c.Gone
  parting : c₀.protocolState = 3 → ∃ p ∈ todo, p.1 = 0x40

theorem handleFrame_eq {bb : Fifo} (hout : c.outPacketBuffer = Fifo.empty 65536)
    (hhalts : c.halts type bb.unread = false) :
    endpoint.handleFrame type bb c = .ok (knows c.protocolState type,
      (c.record (type, bb.unread)).reacted type bb.unread) := by
  have hhandle := handlePacket_eq hout hhalts
  have hframe : endpoint.handleFrame type bb c = (do
      let (understood, bb, c) ← handlePacket bb type c
      if !understood then .ok (false, c)
      else do
        let c ← (endpoint : Endpoint Fifo (PeerConnectionClient Fifo)).checkLength type bb c
        .ok (true, c)) := rfl
  have hcheck : ∀ (bb : Fifo) (c : PeerConnectionClient Fifo), endpoint.checkLength type bb c = .ok c := by
    intro bb c
    unfold Endpoint.checkLength
    split <;> rfl
  rw [hframe, hhandle]
  simp only [bind, Except.bind, hcheck]
  cases knows c.protocolState type with
  | false => rfl
  | true => rfl

/-- In the last state only a disconnect changes the state. -/
theorem next_last (c : PeerConnectionClient Fifo) (type : UInt32) (bytes : AString) :
    c.next 3 type bytes = (3, true) ∨ type = 0x40 ∧ c.next 3 type bytes = (1, false) := by
  rw [next, if_neg (by decide), if_neg fun h => absurd h.1 (by decide)]
  split
  next h => exact Or.inr ⟨h.1.resolve_left (by decide), rfl⟩
  next => exact Or.inl rfl

theorem handles_rule (hopen : c₀.closes = true) (hreadable : ∀ p ∈ todo, Readable p) :
    endpoint.ClosingRule 65536 todo (Handles c₀) (fun c => c.protocolState ≠ 3) (Closed c₀ todo)
      (fun _ => c₀.protocolState ≠ 3) where
  received _ _ := rfl
  setReceived done u c hu h := by
    obtain ⟨_, hc⟩ := h.standing
    exact ⟨⟨u, hc.out, hu, rfl, rfl, hc.closes, hc.overlong⟩, h.posts, h.last⟩
  frame done p rest bb c htodo h hbb _ := by
    obtain ⟨u, hc⟩ := h.standing
    have hreads := hreadable p (by simp [htodo])
    have hcall : Standing c₀ c.protocolState u (c.record (p.1, bb.unread)) :=
      ⟨hc.out, hc.room, hc.received, rfl, hc.closes, hc.overlong⟩
    rcases hhalts : c.halts p.1 bb.unread with _ | _
    · have hok := handleFrame_eq hc.out hhalts
      have hhalts' : (c.record (p.1, bb.unread)).halts p.1 bb.unread = false := hhalts
      have hposts : Posts c₀ ((c.record (p.1, bb.unread)).reacted p.1 bb.unread) :=
        (h.posts.trans (posts_nothing rfl)).trans (reacted_reactive posts_reactive hhalts' fun _ _ _ _ _ =>
          posts_nothing (by unfold mediaMsgArrived; split <;> rfl))
      rcases hknown : knows c.protocolState p.1 with _ | _
      · rw [hknown] at hok
        have hearly : c.protocolState ≠ 3 := by
          intro h3
          rw [h3, hreads.known] at hknown
          cases hknown
        have hrefused : (c.record (p.1, bb.unread)).reacted p.1 bb.unread =
            (c.record (p.1, bb.unread)).setProtocolState (refusedState c.protocolState) := reacted_unknown hknown
        have hstate : ((c.record (p.1, bb.unread)).reacted p.1 bb.unread).protocolState =
            refusedState c.protocolState := by
          rw [hrefused]
          rfl
        have hnot : refusedState c.protocolState ≠ 3 := by
          unfold refusedState
          split
          next => exact hearly
          next => decide
        refine Or.inr (Or.inl ⟨_, _, hok, ?_, ⟨⟨u, ?_⟩, hposts, fun h3 => absurd (h.last h3).1 hearly⟩,
          fun _ => by rw [hstate]; exact hnot⟩)
        · rw [hrefused]
          rfl
        · rw [hstate, hrefused]
          refine ⟨hc.out, hc.room, hc.received, rfl, hc.closes, fun hone => hc.overlong ?_⟩
          unfold refusedState at hone
          split at hone
          next => exact hone
          next => exact absurd hone (by decide)
      · rw [hknown] at hok
        have hheard : c₀.protocolState = 3 → ∀ id,
            ((c.record (p.1, bb.unread)).reacted p.1 bb.unread).heardFrom id =
              c₀.heardFrom id ++ messages id ((done ++ [p]).map call) := by
          intro h3 id
          obtain ⟨hstate, hbefore⟩ := h.last h3
          have hnow := reacted_heardFrom id hhalts'
          have hstate' : (c.record (p.1, bb.unread)).protocolState = 3 := hstate
          have hsame : (c.record (p.1, bb.unread)).heardFrom id = c.heardFrom id := rfl
          have hcalled : call p = (p.1, bb.unread) := by rw [hbb]; rfl
          rw [hnow, if_pos hstate', hsame, hbefore id, List.map_append, messages_append, List.map_singleton,
            messages_singleton, hcalled, List.append_assoc]
        have hreacted : Took c₀ (c₀.next c.protocolState p.1 bb.unread) u
            ((c.record (p.1, bb.unread)).reacted p.1 bb.unread) := hcall.reacted hknown
        cases hreacted with
        | stays hnext hstands =>
          refine Or.inr (Or.inl ⟨_, _, hok, hstands.received.trans hc.received.symm,
            ⟨⟨u, ?_⟩, hposts, fun h3 => ⟨?_, hheard h3⟩⟩, nofun⟩)
          · rw [hstands.protocolState]
            exact hstands
          · have hat := hstands.protocolState
            rw [(h.last h3).1] at hat hnext
            rcases next_last c₀ p.1 bb.unread with heq | ⟨_, heq⟩
            · rw [hat, heq]
            · rw [heq] at hnext
              cases hnext
        | closed hnext hreceived hsocket =>
          have hgone := reacted_gone (hcall.closes.trans hopen) hhalts' hsocket
          refine Or.inr (Or.inr ⟨_, hok, hreceived, ⟨⟨hgone.isConnected, hgone.state⟩, fun h3 => ?_⟩⟩)
          rw [(h.last h3).1] at hnext
          rcases next_last c₀ p.1 bb.unread with heq | ⟨h40, _⟩
          · rw [heq] at hnext
            cases hnext
          · exact ⟨p, by simp [htodo], h40⟩
    · refine Or.inl ⟨.verify, ?_, fun h3 => ?_⟩
      · have hverify := handlePacket_verify hc.out hhalts
        have hframe : endpoint.handleFrame p.1 bb c = (do
            let (understood, bb, c) ← handlePacket bb p.1 c
            if !understood then .ok (false, c)
            else do
              let c ← (endpoint : Endpoint Fifo (PeerConnectionClient Fifo)).checkLength p.1 bb c
              .ok (true, c)) := rfl
        rw [hframe, hverify]
        rfl
      · rw [halts, (h.last h3).1] at hhalts
        cases hhalts

/-- The connection is open, and these bytes are in the buffer. -/
structure Listens (v : AString) (c : PeerConnectionClient Fifo) : Prop where
  out : c.outPacketBuffer = Fifo.empty 65536
  room : v.length ≤ 65536
  received : c.receivedData = Fifo.filled 65536 v
  closes : c.closes = true

/-- What a client comes to that had these bytes of a stream: it has handled some of the packets, in the
last state all that are complete; or it has closed the connection. -/
inductive Reads (todo : List (UInt32 × AString)) (bytes : AString) (c c' : PeerConnectionClient Fifo) : Prop
  | reading (new rest : List (UInt32 × AString)) (v : AString) : todo = new ++ rest → bytes = stream new ++ v →
      Listens v c' → (c'.protocolState = 3 → nextFrame v = none) → Handles c new c' → Reads todo bytes c c'
  | closed : Closed c todo c' → Reads todo bytes c c'

omit [Platform] in
theorem Listens.isConnected {v : AString} (h : Listens v c) : c.isConnected = true := by
  have hcloses := h.closes
  simp only [PeerConnectionClient.closes, Bool.and_eq_true] at hcloses
  exact hcloses.2

theorem onRead_one (h : c.isConnected = true) (chunk : AString) :
    c.onRead [chunk] = c.dataReceived chunk := by
  rw [onRead, if_pos h]
  rcases c.dataReceived chunk with e | c'
  · rfl
  · rfl

/-- A chunk that fits is read as far as it goes, and in the last state without a failure. -/
theorem Listens.onRead {v chunk : AString} (h : Listens v c) (hfit : (v ++ chunk).length ≤ 65536)
    (hreadable : ∀ p ∈ todo, Readable p) (hstart : v ++ chunk <+: stream todo) :
    match c.onRead [chunk] with
    | .ok c' => Reads todo (v ++ chunk) c c'
    | .error _ => c.protocolState ≠ 3 := by
  have hsize : ∀ p ∈ todo, (rawPacket p).body.length < 2 ^ 32 := by
    intro p hp
    have hfits := (hreadable p hp).fits
    omega
  have hbefore : Handles c [] c :=
    ⟨⟨v, h.out, h.room, h.received, rfl, rfl, fun _ => rfl⟩, posts_nothing rfl,
      fun h3 => ⟨h3, fun _ => (List.append_nil _).symm⟩⟩
  have hleft := (handles_rule h.closes hreadable).addReceivedData (by omega) hsize h.room h.received hfit
    hstart hbefore
  rw [onRead_one h.isConnected]
  change match (endpoint : Endpoint Fifo (PeerConnectionClient Fifo)).addReceivedData chunk c with
    | .ok c' => Reads todo (v ++ chunk) c c'
    | .error _ => c.protocolState ≠ 3
  rcases hdata : endpoint.addReceivedData chunk c with e | c'
  · rw [hdata] at hleft
    exact hleft
  · rw [hdata] at hleft
    cases hleft with
    | reading new rest v' htodo hbytes hv' hreceived hhandles hwait =>
      obtain ⟨u, hstands⟩ := hhandles.standing
      exact .reading new rest v' htodo hbytes
        ⟨hstands.out, hv', hreceived, hstands.closes.trans h.closes⟩ (fun h3 => hwait.resolve_left fun hno => hno h3) hhandles
    | emptied _ hclosed => exact .closed hclosed

end Reading

end PeerConnectionClient

end P2PChat
