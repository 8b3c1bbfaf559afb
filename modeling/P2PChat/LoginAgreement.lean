import P2PChat.LoginStreams
import P2PChat.Network

namespace P2PChat

open ByteQueue Relation

namespace PeerConnectionClient

/-- No connection, nothing in the buffers, and never signed in. -/
structure Offline (c : PeerConnectionClient Fifo) : Prop where
  isConnected : c.isConnected = false
  protocolState : c.protocolState = 1
  received : c.receivedData = Fifo.empty 65536
  out : c.outPacketBuffer = Fifo.empty 65536
  unsigned : .onSignedIn ∉ c.callbacks

theorem send_eq {β : Type} (p : Packet) (c : PeerConnectionClient β) :
    c.send p = { c with sent := (c.send p).sent } := by
  unfold send sendData
  split <;> rfl

theorem Offline.send {c : PeerConnectionClient Fifo} (h : c.Offline) (p : Packet) : c.send p = c := by
  unfold PeerConnectionClient.send sendData
  rw [if_neg (by rw [h.isConnected]; decide)]

theorem Offline.notify {c : PeerConnectionClient Fifo} (h : c.Offline) (callback : Callback)
    (hother : callback ≠ .onSignedIn) : (c.notify callback).Offline := by
  refine ⟨h.isConnected, h.protocolState, h.received, h.out, fun hmem => ?_⟩
  rcases List.mem_append.mp hmem with hold | hnew
  · exact h.unsigned hold
  · exact hother (List.mem_singleton.mp hnew).symm

/-- A packet that can be composed is sent. -/
theorem packet_sent {c c' : PeerConnectionClient Fifo} {p : Packet}
    (hout : c.outPacketBuffer = Fifo.empty 65536) (h : c.packet p = .ok c') : c' = c.send p := by
  by_cases hp : p.body.length ≤ 65536
  · rw [packet_send hout hp] at h
    exact (Except.ok.inj h).symm
  · rw [packet_verify hout (Nat.lt_of_not_le hp)] at h
    cases h

section Standing

variable {c₀ c : PeerConnectionClient Fifo} {state : UInt32} {rest : AString}

theorem Standing.close (h : Standing c₀ state rest c) (hunsigned : .onSignedIn ∉ c.callbacks) :
    c.close.Offline := by
  obtain ⟨hcapacity, _, _⟩ := Fifo.filled_eq h.room
  refine ⟨rfl, rfl, ?_, ?_, hunsigned⟩
  · change Fifo.empty c.receivedData.capacity = _
    rw [h.received, hcapacity]
  · change Fifo.empty c.outPacketBuffer.capacity = _
    rw [h.out]
    rfl

theorem Standing.signOut (h : Standing c₀ state rest c) (hopen : c₀.closes = true)
    (hunsigned : .onSignedIn ∉ c.callbacks) : c.signOut.Offline ∧ c.signOut.state = .notConnected := by
  have hcloses := h.closes.trans hopen
  simp only [PeerConnectionClient.closes, Bool.and_eq_true, bne_iff_ne] at hcloses
  obtain ⟨⟨hconnected, hleaving⟩, hsocket⟩ := hcloses
  have hclosed := (h.close hunsigned).notify .onDisconnected (by rintro ⟨⟩)
  rw [PeerConnectionClient.signOut, if_neg (not_or.mpr ⟨hconnected, hleaving⟩), if_pos hsocket]
  exact ⟨⟨hclosed.isConnected, hclosed.protocolState, hclosed.received, hclosed.out, hclosed.unsigned⟩, rfl⟩

variable [Platform]

/-- A packet that does not take an early client to the last state does not sign it in: it waits for the
next one, or closes the connection. -/
theorem Standing.early (h : Standing c₀ state rest c) (hopen : c₀.closes = true)
    (hstate : state = 1 ∨ state = 2) (hunsigned : .onSignedIn ∉ c.callbacks) {p : UInt32 × AString}
    (hmeets : meets state p ≠ 3) (hknown : knows state p.1 = true) :
    (Standing c₀ (meets state p) rest (c.reacted p.1 (call p).2) ∧
        .onSignedIn ∉ (c.reacted p.1 (call p).2).callbacks) ∨
      ((c.reacted p.1 (call p).2).Offline ∧ (c.reacted p.1 (call p).2).state = .notConnected) := by
  have hat := h.protocolState
  rcases hstate with rfl | rfl
  · have h0 : p.1 = 0x00 := eq_of_beq hknown
    refine Or.inl ?_
    rw [PeerConnectionClient.reacted, if_pos hat, if_pos h0, meets, if_pos ⟨rfl, h0⟩]
    rcases (parseStatus (call p).2).1 with _ | status
    · exact ⟨h, hunsigned⟩
    · simp only [Option.elim_some, greeted]
      split
      next => exact ⟨h, hunsigned⟩
      next =>
        have hset : Standing c₀ status.1.toUInt32 rest (c.setProtocolState status.1.toUInt32) :=
          ⟨h.out, h.room, h.received, rfl, h.closes, fun _ => h.overlong rfl⟩
        refine ⟨hset.send _, ?_⟩
        rw [send_eq]
        exact hunsigned
  · have hone : c.protocolState ≠ 1 := by
      rw [hat]
      decide
    have h1 : p.1 ≠ 0x01 := by
      intro h1
      rw [meets, if_neg (fun hboth => absurd hboth.1 (by decide)), if_pos ⟨rfl, h1⟩] at hmeets
      exact hmeets rfl
    have h0 : p.1 = 0x00 := by
      rw [knows, if_neg (by decide), if_pos rfl, beq_eq_false_iff_ne.mpr h1, Bool.or_false] at hknown
      exact eq_of_beq hknown
    have hsame : meets 2 p = 2 := by
      rw [meets, if_neg (fun hboth => absurd hboth.1 (by decide)), if_neg fun hboth => h1 hboth.2]
    rw [PeerConnectionClient.reacted, if_neg hone, if_pos hat, if_pos h0, hsame]
    rcases (parseBEInt32 (call p).2).1 with _ | reason
    · exact Or.inl ⟨h, hunsigned⟩
    · obtain ⟨hoffline, hstate⟩ := h.signOut hopen hunsigned
      have hnotified := (hoffline.notify .onDisconnected (by rintro ⟨⟩)).notify (.postNotification reason) (by rintro ⟨⟩)
      exact Or.inr ⟨hnotified, hstate⟩

end Standing

variable [Platform]

/-- A client that was sent these packets and has read these bytes of them is not signed in: it has
handled some, and the rest is in its buffer; or it has no connection, and will get none or has read
nothing yet. -/
inductive Position (told : List (UInt32 × AString)) (bytes : AString) (c : PeerConnectionClient Fifo) :
    Prop
  | offline : c.Offline → c.state = .notConnected ∨ bytes = [] → Position told bytes c
  | reading (c₀ : PeerConnectionClient Fifo) (done todo : List (UInt32 × AString)) (v : AString) :
      c₀.closes = true → told = done ++ todo → bytes = stream done ++ v →
      Standing c₀ (done.foldl meets 1) v c → .onSignedIn ∉ c.callbacks → Position told bytes c

section Calls

variable {told : List (UInt32 × AString)} {bytes : AString} {c c' : PeerConnectionClient Fifo}

theorem Position.unsigned (h : Position told bytes c) : .onSignedIn ∉ c.callbacks := by
  cases h with
  | offline hoffline _ => exact hoffline.unsigned
  | reading _ _ _ _ _ _ _ _ hunsigned => exact hunsigned

theorem Position.early (h : Position told bytes c) (hearly : told.foldl meets 1 ≠ 3) :
    c.protocolState ≠ 3 := by
  cases h with
  | offline hoffline _ =>
    rw [hoffline.protocolState]
    decide
  | reading c₀ done todo v _ htold _ hc _ =>
    rw [hc.protocolState]
    rw [htold] at hearly
    exact early_start hearly

theorem Position.more (h : Position told bytes c) (more : List (UInt32 × AString)) :
    Position (told ++ more) bytes c := by
  cases h with
  | offline hoffline hstate => exact .offline hoffline hstate
  | reading c₀ done todo v hopen htold hbytes hc hunsigned =>
    exact .reading c₀ done (todo ++ more) v hopen (by rw [htold, List.append_assoc]) hbytes hc hunsigned

theorem Position.signOut (h : Position told bytes c) : Position told bytes c.signOut := by
  cases h with
  | offline hoffline hstate =>
    unfold PeerConnectionClient.signOut
    split
    next => exact .offline hoffline hstate
    next hleft =>
      have hnothing : bytes = [] := hstate.resolve_left fun hnone => hleft (Or.inl hnone)
      rw [if_neg (by rw [hoffline.isConnected]; decide)]
      exact .offline ⟨hoffline.isConnected, hoffline.protocolState, hoffline.received, hoffline.out,
        hoffline.unsigned⟩ (Or.inr hnothing)
  | reading c₀ done todo v hopen _ _ hc hunsigned =>
    obtain ⟨hoffline, hstate⟩ := hc.signOut hopen hunsigned
    exact .offline hoffline (Or.inl hstate)

theorem Position.onClose (h : Position told bytes c) : Position told bytes c.onClose := by
  have hclosed : c.close.Offline := by
    cases h with
    | offline hoffline _ =>
      refine ⟨rfl, rfl, ?_, ?_, hoffline.unsigned⟩
      · change Fifo.empty c.receivedData.capacity = _
        rw [hoffline.received]
        rfl
      · change Fifo.empty c.outPacketBuffer.capacity = _
        rw [hoffline.out]
        rfl
    | reading _ _ _ _ _ _ _ hc hunsigned => exact hc.close hunsigned
  exact .offline (hclosed.notify .onServerConnectionFailure nofun) (Or.inl rfl)

theorem Position.packet (h : Position told bytes c) {p : Packet} (hok : c.packet p = .ok c') :
    Position told bytes c' := by
  cases h with
  | offline hoffline hstate =>
    rw [packet_sent hoffline.out hok, hoffline.send]
    exact .offline hoffline hstate
  | reading c₀ done todo v hopen htold hbytes hc hunsigned =>
    rw [packet_sent hc.out hok]
    refine .reading c₀ done todo v hopen htold hbytes (hc.send p) ?_
    rw [send_eq]
    exact hunsigned

/-- The socket is connected: from here on the client stands at the start of the stream. -/
theorem Position.onConnect (h : Position told bytes c) (hsocket : c.isConnected = false)
    (hstate : c.state = .signingIn ∨ c.state = .signingOutWaiting) (hok : c.onConnect = .ok c') :
    Position told bytes c' := by
  cases h with
  | offline hoffline hnone =>
    have hnothing : bytes = [] := by
      refine hnone.resolve_left fun hnot => ?_
      rw [hnot] at hstate
      rcases hstate with h | h <;> cases h
    obtain ⟨c₁, hc₁⟩ : ∃ c₁ : PeerConnectionClient Fifo, c₁ = { c with isConnected := true } := ⟨_, rfl⟩
    have hok : c₁.packet (statusRequestPacket appP2pchat SERVER PORT 2) = .ok c' := by
      rw [hc₁]
      exact hok
    have hcloses : c₁.closes = true := by
      rw [hc₁]
      rcases hstate with h | h
      · simp [closes, h]
      · simp [closes, h]
    have hout : c₁.outPacketBuffer = Fifo.empty 65536 := by
      rw [hc₁]
      exact hoffline.out
    have hstart : Standing c₁ 1 [] c₁ := by
      rw [hc₁]
      exact ⟨hoffline.out, Nat.zero_le _, hoffline.received, hoffline.protocolState, rfl, fun _ => rfl⟩
    have hunsigned : .onSignedIn ∉ c₁.callbacks := by
      rw [hc₁]
      exact hoffline.unsigned
    rw [packet_sent hout hok]
    refine .reading c₁ [] told [] hcloses rfl hnothing (hstart.send _) ?_
    rw [send_eq]
    exact hunsigned
  | reading c₀ done todo v hopen _ _ hc _ =>
    rw [hc.isConnected hopen] at hsocket
    cases hsocket

end Calls

section Reading

/-- Where the loop of `AddReceivedData` stands, in a client that was sent these packets and has read
these bytes of them, with these bytes to go. -/
inductive Taking (c₀ : PeerConnectionClient Fifo) (told : List (UInt32 × AString)) (bytes u : AString)
    (c : PeerConnectionClient Fifo) : Prop
  | goes (done todo : List (UInt32 × AString)) : told = done ++ todo → bytes = stream done ++ u →
      Standing c₀ (done.foldl meets 1) u c → .onSignedIn ∉ c.callbacks → Taking c₀ told bytes u c
  | closed : u = [] → c.Offline → c.state = .notConnected → Taking c₀ told bytes u c

/-- What a call of `AddReceivedData` comes to. -/
def Taken (told : List (UInt32 × AString)) (bytes : AString) : Except Halt (PeerConnectionClient Fifo) → Prop
  | .ok c => Position told bytes c
  | .error _ => True

variable {c₀ : PeerConnectionClient Fifo} {told : List (UInt32 × AString)} {bytes : AString}

theorem Taking.packet {u payload rest : AString} {type : UInt32} {bb : Fifo}
    {c : PeerConnectionClient Fifo} (hopen : c₀.closes = true)
    (hsize : ∀ p ∈ told, (rawPacket p).body.length < 2 ^ 32) (hearly : told.foldl meets 1 ≠ 3)
    (hstart : bytes <+: stream told) (h : Taking c₀ told bytes u c)
    (hnext : nextFrame u = some (payload, rest)) (hopened : opened payload = some (type, bb.unread)) :
    (∃ e, handlePacket bb type (c.setReceived (Fifo.filled 65536 rest)) = .error e) ∨
    (∃ bb' c', handlePacket bb type (c.setReceived (Fifo.filled 65536 rest)) = .ok (false, bb', c') ∧
      Position told bytes c') ∨
    (∃ bb' c' rest', handlePacket bb type (c.setReceived (Fifo.filled 65536 rest)) =
      .ok (true, bb', c') ∧ rest'.length ≤ rest.length ∧ Taking c₀ told bytes rest' c') := by
  have hlen := nextFrame_length hnext
  cases h with
  | closed hu _ _ =>
    rw [hu] at hlen
    exact absurd hlen (Nat.not_lt_zero _)
  | goes done todo htold hbytes hc hunsigned =>
    rw [htold, stream_append, hbytes] at hstart
    obtain ⟨p, todo, rfl, rfl, hu, _⟩ := nextFrame_stream
      (fun q hq => hsize q (by rw [htold]; exact List.mem_append_right _ hq))
      ((List.prefix_append_right_inj _).mp hstart) hnext
    rw [opened_rawPacket] at hopened
    obtain ⟨rfl, hbb⟩ := Prod.mk.inj (Option.some.inj hopened)
    have hbb : bb.unread = (call p).2 := hbb.symm
    have htold' : told = (done ++ [p]) ++ todo := by simp [htold]
    have hbytes' : bytes = stream (done ++ [p]) ++ rest := by
      rw [hbytes, hu, stream_append, stream_cons, List.append_assoc, List.append_assoc]
      rfl
    have hafter : (done ++ [p]).foldl meets 1 = meets (done.foldl meets 1) p := by
      rw [List.foldl_append]
      rfl
    have hmeets : meets (done.foldl meets 1) p ≠ 3 := by
      rw [← hafter]
      rw [htold'] at hearly
      exact early_start hearly
    have hstate : done.foldl meets 1 = 1 ∨ done.foldl meets 1 = 2 := by
      rw [htold] at hearly
      exact early_range (early_start hearly)
    have hroom := hc.room
    have hset : Standing c₀ (done.foldl meets 1) rest ((c.setReceived (Fifo.filled 65536 rest)).record
        (p.1, bb.unread)) :=
      ⟨hc.out, by omega, rfl, hc.protocolState, hc.closes, hc.overlong⟩
    have hat : (c.setReceived (Fifo.filled 65536 rest)).protocolState = done.foldl meets 1 :=
      hc.protocolState
    rcases hlong : (c.setReceived (Fifo.filled 65536 rest)).halts p.1 bb.unread with _ | _
    · have heq := handlePacket_eq (c := c.setReceived (Fifo.filled 65536 rest)) hc.out hlong
      rcases hknown : knows (c.setReceived (Fifo.filled 65536 rest)).protocolState p.1 with _ | _
      · rw [hknown] at heq
        refine Or.inr (Or.inl ⟨_, _, heq, ?_⟩)
        have hsame := meets_unknown (by rw [← hat]; exact hknown) hstate
        rw [reacted_unknown (c := (c.setReceived (Fifo.filled 65536 rest)).record (p.1, bb.unread)) hknown]
        have hrefused : refusedState (done.foldl meets 1) = done.foldl meets 1 := by
          unfold refusedState
          rcases hstate with h | h
          · rw [if_pos (Or.inl h)]
          · rw [if_pos (Or.inr (Or.inl h))]
        have hat' : ((c.setReceived (Fifo.filled 65536 rest)).record (p.1, bb.unread)).protocolState =
            done.foldl meets 1 := hat
        rw [hat', hrefused]
        refine .reading c₀ (done ++ [p]) todo rest hopen htold' hbytes' ?_ hunsigned
        rw [hafter, hsame]
        exact ⟨hset.out, hset.room, hset.received, rfl, hset.closes, hset.overlong⟩
      · rw [hknown, hbb] at heq
        rw [hbb] at hset
        have hunsigned' : .onSignedIn ∉
            ((c.setReceived (Fifo.filled 65536 rest)).record (p.1, (call p).2)).callbacks := hunsigned
        rcases hset.early hopen hstate hunsigned' hmeets (by rw [← hat]; exact hknown) with
          ⟨hstands, hquiet⟩ | ⟨hoffline, hnone⟩
        · rw [← hafter] at hstands
          exact Or.inr (Or.inr ⟨_, _, rest, heq, Nat.le_refl _, .goes (done ++ [p]) todo htold' hbytes'
            hstands hquiet⟩)
        · exact Or.inr (Or.inr ⟨_, _, [], heq, Nat.zero_le _, .closed rfl hoffline hnone⟩)
    · exact Or.inl ⟨_, handlePacket_verify (c := c.setReceived (Fifo.filled 65536 rest)) hc.out hlong⟩

theorem taking_rule (hopen : c₀.closes = true)
    (hsize : ∀ p ∈ told, (rawPacket p).body.length < 2 ^ 32) (hearly : told.foldl meets 1 ≠ 3)
    (hstart : bytes <+: stream told) :
    (endpoint : Endpoint Fifo (PeerConnectionClient Fifo)).Rule 65536 (Taking c₀ told bytes)
      (Taken told bytes) where
  received u c h := by
    cases h with
    | goes _ _ _ _ hc _ => exact ⟨hc.room, hc.received⟩
    | closed hu hoffline _ =>
      rw [hu]
      exact ⟨Nat.zero_le _, hoffline.received⟩
  wait u c h _ := by
    cases h with
    | goes done todo htold hbytes hc hunsigned =>
      exact .reading c₀ done todo u hopen htold hbytes
        ⟨hc.out, hc.room, rfl, hc.protocolState, hc.closes, hc.overlong⟩ hunsigned
    | closed hu hoffline hnone =>
      rw [hu]
      exact .offline ⟨hoffline.isConnected, hoffline.protocolState, rfl, hoffline.out, hoffline.unsigned⟩
        (Or.inl hnone)
  unreadable u c payload rest h hnext hopened := by
    have hlen := nextFrame_length hnext
    cases h with
    | goes done todo htold hbytes hc hunsigned =>
      rw [htold, stream_append, hbytes] at hstart
      obtain ⟨p, _, _, rfl, _, _⟩ := nextFrame_stream
        (fun q hq => hsize q (by rw [htold]; exact List.mem_append_right _ hq))
        ((List.prefix_append_right_inj _).mp hstart) hnext
      rw [opened_rawPacket] at hopened
      cases hopened
    | closed hu _ _ =>
      rw [hu] at hlen
      exact absurd hlen (Nat.not_lt_zero _)
  packet u c payload rest type bb h hnext hopened := by
    rcases h.packet hopen hsize hearly hstart hnext hopened with ⟨e, he⟩ | hwait | hgoes
    · exact Or.inl ⟨e, he, trivial⟩
    · exact Or.inr (Or.inl hwait)
    · exact Or.inr (Or.inr hgoes)
  packetError u c type h := ⟨c, rfl, h⟩

/-- A chunk of the stream that fits moves the position on. -/
theorem Position.onRead {c c' : PeerConnectionClient Fifo} {chunk : AString}
    (hsize : ∀ p ∈ told, (rawPacket p).body.length < 2 ^ 32) (hearly : told.foldl meets 1 ≠ 3)
    (hstart : bytes ++ chunk <+: stream told) (h : Position told bytes c) (hsocket : c.isConnected = true)
    (hfit : c.protocolState ≠ 3 → chunk.length ≤ getFreeSpace c.receivedData)
    (hok : c.onRead [chunk] = .ok c') : Position told (bytes ++ chunk) c' := by
  have hnot := h.early hearly
  have hread : c.onRead [chunk] = c.dataReceived chunk := by
    rw [PeerConnectionClient.onRead, if_pos hsocket]
    rcases c.dataReceived chunk with e | c'
    · rfl
    · rfl
  rw [hread] at hok
  cases h with
  | offline hoffline _ =>
    rw [hoffline.isConnected] at hsocket
    cases hsocket
  | reading c₀ done todo v hopen htold hbytes hc hunsigned =>
    have hspace := hfit hnot
    obtain ⟨hcapacity, hbefore, hunread⟩ := Fifo.filled_eq hc.room
    have hroom : (v ++ chunk).length ≤ 65536 := by
      have hle := hc.room
      rw [hc.received] at hspace
      change chunk.length ≤ (Fifo.filled 65536 v).free at hspace
      rw [Fifo.free, hcapacity, hbefore, hunread, List.length_nil] at hspace
      rw [List.length_append]
      omega
    have hgoes : Taking c₀ told (bytes ++ chunk) (v ++ chunk)
        (c.setReceived (Fifo.filled 65536 (v ++ chunk))) := by
      refine .goes done todo htold ?_ ⟨hc.out, hroom, rfl, hc.protocolState, hc.closes, hc.overlong⟩ hunsigned
      rw [hbytes, List.append_assoc]
    have htaken := (taking_rule hopen hsize hearly hstart).addReceivedData (by omega) hc.room hc.received
      hroom hgoes
    have hok : endpoint.addReceivedData chunk c = .ok c' := hok
    rw [hok] at htaken
    exact htaken

end Reading

omit [Platform] in
theorem create_offline (isBusy : Nat → Bool) : (create isBusy : PeerConnectionClient Fifo).Offline :=
  ⟨rfl, rfl, rfl, rfl, fun hmem => nomatch hmem⟩

omit [Platform] in
theorem Offline.connect {c : PeerConnectionClient Fifo} (h : c.Offline) (user pass : AString) :
    (c.connect user pass).Offline := by
  unfold PeerConnectionClient.connect
  split
  next => exact h.notify .onServerConnectionFailure nofun
  next => exact ⟨h.isConnected, h.protocolState, h.received, h.out, h.unsigned⟩

end PeerConnectionClient

namespace Server

variable [Platform]

/-- A connection that an effect brings is new. -/
theorem Effect.born {G : Gate} {who : Nat → Prop} {s s' : Server Fifo} (h : Effect G who s s') {p : Nat}
    (hp : p < s'.allocated) (hnot : ¬p < s.allocated) :
    ∃ ip id now, s'.heap p = (ClientHandle.create ip id now).onLinkCreated := by
  cases h with
  | small _ _ hsmall =>
    rw [hsmall.framed.allocated] at hp
    exact absurd hp hnot
  | @accepted ip _ _ =>
    have hlast : p = s.allocated := by
      have hle : p < s.allocated + 1 := hp
      omega
    exact ⟨ip, _, _, by rw [accept_heap, if_pos hlast]⟩
  | destroyed _ _ _ _ => exact absurd hp hnot
  | removed _ _ => exact absurd hp hnot
  | taken _ => exact absurd hp hnot
  | login _ _ _ _ _ _ _ => exact absurd hp hnot
  | answered => exact absurd hp hnot
  | clock elapsed => exact absurd hp hnot

theorem told_create (ip : AString) (id : UInt32) (now : Int) :
    ClientHandle.Told [] 1 ((ClientHandle.create ip id now).onLinkCreated : ClientHandle Fifo) where
  sent := List.prefix_rfl
  sizes _ hmem := nomatch hmem
  early := by
    change (1 : UInt32) ≠ 3
    decide
  linked _ := rfl
  current _ _ := rfl

end Server

namespace Network

open ClientHandle PeerConnectionClient

section Conditions

variable {β : Type} [ByteQueue β] [Platform]

/-- The server tells of others no connection that waits for its login, and what a client reads before
it is signed in fits its buffer. -/
def gated (s : Network β) : NetworkEvent → Prop
  | .server e => s.server.gated Gate.undisturbed e
  | .read p n => (s.clients p).protocolState ≠ 3 → n ≤ getFreeSpace (s.clients p).receivedData
  | _ => True

instance (s : Network β) : (e : NetworkEvent) → Decidable (s.gated e)
  | .server e => inferInstanceAs (Decidable (s.server.gated Gate.undisturbed e))
  | .read p n => inferInstanceAs (Decidable
      ((s.clients p).protocolState ≠ 3 → n ≤ getFreeSpace (s.clients p).receivedData))
  | .opened _ => inferInstanceAs (Decidable True)
  | .requestToPeer _ _ => inferInstanceAs (Decidable True)
  | .sendToPeer _ _ _ => inferInstanceAs (Decidable True)
  | .signOut _ => inferInstanceAs (Decidable True)
  | .closed _ => inferInstanceAs (Decidable True)

end Conditions

variable [Platform]

/-- A client is signed in only if the server has logged in its connection. -/
structure Agreed (s : Network Fifo) : Prop where
  sound : s.server.Sound
  connected : ∀ p, p < s.server.allocated → (s.server.heap p).LoggedIn ∨
    ∃ told, Told told (s.server.heap p).protocol.state (s.server.heap p) ∧
      s.read p ≤ (s.server.heap p).sent.length ∧
      Position told ((s.server.heap p).sent.take (s.read p)) (s.clients p)
  waiting : ∀ p, s.server.allocated ≤ p → Position [] [] (s.clients p) ∧ s.read p = 0

theorem Agreed.effect {s : Network Fifo} (h : s.Agreed) {who : Nat → Prop} {server : Server Fifo}
    (he : Server.Effect Gate.undisturbed who s.server server) : { s with server := server }.Agreed := by
  refine ⟨he.sound h.sound, fun p hp => ?_, fun p hp => h.waiting p (Nat.le_trans he.allocated hp)⟩
  by_cases hold : p < s.server.allocated
  · have hadvances := he.advances h.sound hold
    rcases h.connected p hold with hin | ⟨told, htold, hread, hposition⟩
    · exact Or.inl (hadvances.loggedIn hin)
    · rcases hadvances.told told htold with hin | ⟨hsent, more, hmore⟩
      · exact Or.inl hin
      · refine Or.inr ⟨told ++ more, hmore, Nat.le_trans hread hsent.length_le, ?_⟩
        have hsame : (server.heap p).sent.take (s.read p) = (s.server.heap p).sent.take (s.read p) := by
          obtain ⟨rest, hrest⟩ := hsent
          rw [← hrest, List.take_append_of_le_length hread]
        have hposition' := hposition.more more
        rw [← hsame] at hposition'
        exact hposition'
  · obtain ⟨ip, id, now, hborn⟩ := he.born hp hold
    obtain ⟨hposition, hread⟩ := h.waiting p (Nat.le_of_not_lt hold)
    refine Or.inr ⟨[], ?_, ?_, ?_⟩
    · have htold := Server.told_create ip id now
      rw [← hborn] at htold
      have hstate : (server.heap p).protocol.state = 1 := by
        rw [hborn]
        rfl
      rw [← hstate] at htold
      exact htold
    · change s.read p ≤ _
      rw [hread]
      exact Nat.zero_le _
    · change Position [] ((server.heap p).sent.take (s.read p)) (s.clients p)
      rw [hread]
      exact hposition

theorem Agreed.effects {s : Network Fifo} (h : s.Agreed) {who : Nat → Prop} {server : Server Fifo}
    (he : ReflTransGen (Server.Effect Gate.undisturbed who) s.server server) :
    { s with server := server }.Agreed := by
  induction he with
  | refl => exact h
  | tail _ hlast ih => exact ih.effect hlast

/-- A call on a client that keeps its position. -/
theorem Agreed.act {s s' : Network Fifo} (h : s.Agreed) {p : Nat}
    {f : PeerConnectionClient Fifo → Except Halt (PeerConnectionClient Fifo)}
    (hf : ∀ told bytes c', f (s.clients p) = .ok c' → Position told bytes (s.clients p) →
      Position told bytes c')
    (hok : s.act p f = .ok s') : s'.Agreed := by
  unfold Network.act at hok
  rcases hcall : f (s.clients p) with e | c'
  · rw [hcall] at hok
    cases hok
  · rw [hcall] at hok
    cases hok
    have hkeeps : ∀ q told bytes, Position told bytes (s.clients q) →
        Position told bytes ((s.setClient p c').clients q) := by
      intro q told bytes hposition
      unfold setClient
      dsimp only
      split
      next hq =>
        rw [hq] at hposition
        exact hf told bytes c' hcall hposition
      next => exact hposition
    refine ⟨h.sound, fun q hq => ?_, fun q hq => ?_⟩
    · rcases h.connected q hq with hin | ⟨told, htold, hread, hposition⟩
      · exact Or.inl hin
      · exact Or.inr ⟨told, htold, hread, hkeeps q _ _ hposition⟩
    · obtain ⟨hposition, hread⟩ := h.waiting q hq
      exact ⟨hkeeps q _ _ hposition, hread⟩

theorem Agreed.read {s s' : Network Fifo} (h : s.Agreed) {p n : Nat} (he : s.enabled (.read p n) = true)
    (hgate : s.gated (.read p n)) (hok : s.step (.read p n) = .ok s') : s'.Agreed := by
  simp only [enabled, Bool.and_eq_true, decide_eq_true_eq] at he
  obtain ⟨⟨⟨⟨hp, hsocket⟩, _⟩, _⟩, hlen⟩ := he
  rw [Network.step, Network.act] at hok
  rcases hcall : (s.clients p).onRead [s.chunk p n] with e | c'
  · rw [hcall] at hok
    cases hok
  · rw [hcall] at hok
    cases hok
    have hother : ∀ q, q ≠ p → ((s.setClient p c').advance p n).clients q = s.clients q ∧
        ((s.setClient p c').advance p n).read q = s.read q := fun q hq => ⟨if_neg hq, if_neg hq⟩
    have hself : ((s.setClient p c').advance p n).clients p = c' ∧
        ((s.setClient p c').advance p n).read p = s.read p + n := ⟨if_pos rfl, if_pos rfl⟩
    refine ⟨h.sound, fun q hq => ?_, fun q hq => ?_⟩
    · by_cases hqp : q = p
      · subst hqp
        rw [hself.1, hself.2]
        rcases h.connected q hp with hin | ⟨told, htold, hread, hposition⟩
        · exact Or.inl hin
        · refine Or.inr ⟨told, htold, hlen, ?_⟩
          have hchunk : (s.server.heap q).sent.take (s.read q + n) =
              (s.server.heap q).sent.take (s.read q) ++ s.chunk q n := List.take_add
          have hstart : (s.server.heap q).sent.take (s.read q) ++ s.chunk q n <+: stream told := by
            rw [← hchunk]
            exact (List.take_prefix _ _).trans htold.sent
          have hsize : (s.chunk q n).length = n := by
            unfold chunk
            rw [List.length_take, List.length_drop]
            omega
          change Position told ((s.server.heap q).sent.take (s.read q + n)) c'
          rw [hchunk]
          refine hposition.onRead htold.sizes htold.early hstart hsocket (fun hnot => ?_) hcall
          rw [hsize]
          exact hgate hnot
      · rw [(hother q hqp).1, (hother q hqp).2]
        exact h.connected q hq
    · have hqp : q ≠ p := by
        intro heq
        have hq' : s.server.allocated ≤ q := hq
        omega
      rw [(hother q hqp).1, (hother q hqp).2]
      exact h.waiting q hq

theorem step_agreed {s s' : Network Fifo} {e : NetworkEvent} (h : s.Agreed) (he : s.enabled e = true)
    (hgate : s.gated e) (hok : s.step e = .ok s') : s'.Agreed := by
  cases e with
  | server e =>
    have hstepped := Server.step_stepped h.sound he hgate
    rw [Network.step] at hok
    rcases hstep : s.server.step e with halt | server
    · rw [hstep] at hok
      cases hok
    · rw [hstep] at hok hstepped
      cases hok
      exact h.effects hstepped.2.2
  | opened p =>
    simp only [enabled, Bool.and_eq_true, Bool.not_eq_true', Bool.or_eq_true, beq_iff_eq] at he
    exact h.act (fun told bytes c' hcall hposition => hposition.onConnect he.1 he.2 hcall) hok
  | read p n => exact h.read he hgate hok
  | requestToPeer p peer_id => exact h.act (fun _ _ _ hcall hposition => hposition.packet hcall) hok
  | sendToPeer p peer_id message => exact h.act (fun _ _ _ hcall hposition => hposition.packet hcall) hok
  | signOut p =>
    rw [Network.step] at hok
    refine h.act (fun _ _ c' hcall hposition => ?_) hok
    cases hcall
    exact hposition.signOut
  | closed p =>
    rw [Network.step] at hok
    refine h.act (fun _ _ c' hcall hposition => ?_) hok
    cases hcall
    exact hposition.onClose

theorem start_agreed {clients : Nat → PeerConnectionClient Fifo} (hclients : ∀ p, (clients p).Offline) :
    (start clients).Agreed where
  sound := Server.initial_sound
  connected _ hp := absurd hp (Nat.not_lt_zero _)
  waiting p _ := ⟨.offline (hclients p) (Or.inr rfl), rfl⟩

theorem gated_contents (s : Network ByteBuffer) (e : NetworkEvent) (h : s.gated e) :
    (s.map ByteBuffer.contents).gated e := by
  cases e with
  | server e => exact Server.gated_map ByteBuffer.contents_hom s.server e h
  | read p n =>
    intro hnot
    have hfree : getFreeSpace (s.clients p).receivedData.contents = getFreeSpace (s.clients p).receivedData :=
      ByteBuffer.contents_hom.getFreeSpace _
    have hle := h hnot
    rw [← hfree] at hle
    exact hle
  | opened p => trivial
  | requestToPeer p peer_id => trivial
  | sendToPeer p peer_id message => trivial
  | signOut p => trivial
  | closed p => trivial

theorem reach_contents {s₀ s : Network ByteBuffer}
    (h : (networkMachine ByteBuffer).Reach (fun s e => s.gated e) s₀ s) :
    (networkMachine Fifo).Reach (fun s e => s.gated e) (s₀.map ByteBuffer.contents)
      (s.map ByteBuffer.contents) := by
  have henabled : ∀ s e, (networkMachine ByteBuffer).enabled s e →
      (networkMachine Fifo).enabled (s.map ByteBuffer.contents) e := by
    intro s e he
    cases e with
    | server e => cases e <;> exact he
    | opened p => exact he
    | read p n => exact he
    | requestToPeer p peer_id => exact he
    | sendToPeer p peer_id message => exact he
    | signOut p => exact he
    | closed p => exact he
  exact h.map henabled gated_contents fun s e => step_map ByteBuffer.contents_hom s e

/-- In a run in which the server tells of others no connection that waits for its login, and no client
drops bytes before it is signed in, a client is signed in only if the server called `SendLoginSuccess`
for its connection, and then the connection is in its last state. -/
theorem signed_in_of_login {clients : Nat → PeerConnectionClient ByteBuffer}
    (hclients : ∀ p, ((clients p).map ByteBuffer.contents).Offline) {s : Network ByteBuffer}
    (h : (networkMachine ByteBuffer).Reach (fun s e => s.gated e) (start clients) s) (p : Nat)
    (hin : (s.clients p).protocolState = 3 ∨ .onSignedIn ∈ (s.clients p).callbacks) :
    (s.server.heap p).LoggedIn := by
  have hcontents := reach_contents h
  rw [start_map ByteBuffer.contents_hom] at hcontents
  have hagreed : (s.map ByteBuffer.contents).Agreed :=
    hcontents.invariant (I := Agreed) (start_agreed hclients)
      fun _ _ _ _ hi he hgate hstep => step_agreed hi he hgate hstep
  have hnot : ∀ told bytes, told.foldl meets 1 ≠ 3 →
      ¬Position told bytes ((s.clients p).map ByteBuffer.contents) := by
    intro told bytes hearly hposition
    rcases hin with hthree | hsigned
    · exact hposition.early hearly hthree
    · exact hposition.unsigned hsigned
  by_cases hp : p < s.server.allocated
  · rcases hagreed.connected p hp with hloggedIn | ⟨told, htold, _, hposition⟩
    · exact hloggedIn
    · exact absurd hposition (hnot _ _ htold.early)
  · have hstart : (1 : UInt32) ≠ 3 := by decide
    exact absurd (hagreed.waiting p (Nat.le_of_not_lt hp)).1 (hnot [] [] hstart)

section Runs

/-- The first client is about to connect as `a`, the others as `b`. -/
def dialling (p : Nat) : PeerConnectionClient ByteBuffer :=
  (PeerConnectionClient.create fun _ => false).connect [if p = 0 then 97 else 98] (md5Password [if p = 0 then 97 else 98])

theorem dialling_offline (p : Nat) : ((dialling p).map ByteBuffer.contents).Offline := by
  have hcreate : ((PeerConnectionClient.create fun _ => false : PeerConnectionClient ByteBuffer).map ByteBuffer.contents).Offline := by
    rw [← PeerConnectionClient.create_map ByteBuffer.contents_hom]
    exact create_offline _
  rw [dialling, ← connect_map]
  exact hcreate.connect _ _

/-- A client connects, and sends its greeting, which is answered. -/
def greeted (p : Nat) : List NetworkEvent :=
  [.server (.connectionAccepted []), .opened p,
    .server (.receivedData p (frame (statusRequestPacket appP2pchat SERVER PORT 2).body)),
    .server (.tickClient p)]

/-- It reads the answer, and its name and password come to the authenticator. -/
def authenticated (p : Nat) (name : AString) : List NetworkEvent :=
  [.read p 7, .server (.receivedData p (frame (loginInfoPacket name (md5Password name)).body)),
    .server (.tickClient p), .server .authenticatorTake, .server .authenticatorAnswer,
    .server (.tickClient p)]

omit [Platform] in
/-- The client is logged in, and reads it. -/
theorem signed_in_of_login_alone :
    letI := zeroPlatform
    ∃ s : Network ByteBuffer, .onSignedIn ∈ (s.clients 0).callbacks ∧ (s.server.heap 0).LoggedIn := by
  let : Platform := zeroPlatform
  have hrun : ((networkMachine ByteBuffer).replay (fun s e => s.enabled e && decide (s.gated e))
      (greeted 0 ++ authenticated 0 [97] ++ [.read 0 2]) (start dialling)).map
        (fun s => decide (.onSignedIn ∈ (s.clients 0).callbacks)) = some true := by
    decide +kernel
  obtain ⟨s, hs, hin⟩ := Option.map_eq_some_iff.mp hrun
  have hreach : (networkMachine ByteBuffer).Reach (fun s e => s.gated e) (start dialling) s := by
    refine Machine.replay_reach (fun s e he => ?_) .start hs
    obtain ⟨hen, hgate⟩ := Bool.and_eq_true_iff.mp he
    exact ⟨hen, of_decide_eq_true hgate⟩
  exact ⟨s, of_decide_eq_true hin, signed_in_of_login dialling_offline hreach 0
    (Or.inr (of_decide_eq_true hin))⟩

omit [Platform] in
/-- The second client has greeted the server, and reads that the first has logged in. -/
theorem signed_in_by_broadcast :
    letI := zeroPlatform
    ∃ s : Network ByteBuffer, (networkMachine ByteBuffer).Reachable (start dialling) s ∧
      (s.clients 1).protocolState = 3 ∧ .onSignedIn ∈ (s.clients 1).callbacks ∧
      (s.server.heap 1).protocol.state = 2 ∧ ∀ state, .loginSuccess state ∉ (s.server.heap 1).log := by
  let : Platform := zeroPlatform
  have hrun : ((networkMachine ByteBuffer).replay enabled
      (greeted 0 ++ greeted 1 ++ [.read 1 7] ++ authenticated 0 [97] ++
        [.server (.tickClient 1), .read 1 6]) (start dialling)).map
        (fun s => ((s.clients 1).protocolState, (s.server.heap 1).protocol.state,
          decide (.onSignedIn ∈ (s.clients 1).callbacks) &&
            (s.server.heap 1).log.all fun entry => match entry with
              | .loginSuccess _ => false
              | _ => true)) = some (3, 2, true) := by
    decide +kernel
  obtain ⟨s, hs, hall⟩ := Option.map_eq_some_iff.mp hrun
  obtain ⟨hclient, hrest⟩ := Prod.mk.inj hall
  obtain ⟨hserver, hboth⟩ := Prod.mk.inj hrest
  obtain ⟨hsigned, hlog⟩ := Bool.and_eq_true_iff.mp hboth
  refine ⟨s, Machine.replay_reach (fun _ _ he => ⟨he, trivial⟩) .start hs, hclient,
    of_decide_eq_true hsigned, hserver, fun state hmem => ?_⟩
  have hno := List.all_eq_true.mp hlog _ hmem
  cases hno

end Runs

end Network

end P2PChat
