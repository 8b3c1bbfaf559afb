import P2PChat.ClientRules
import P2PChat.ClientStreams

namespace P2PChat

open ByteQueue

namespace PeerConnectionClient

variable [Platform]

/-- A client at its end of a connection, with these bytes of it and for it: they are packets, none of them
ends the connection, and in the last state less than a frame of them is in the buffer. -/
structure Attached (toServer toClient : AString) (c : PeerConnectionClient Fifo) : Prop where
  out : c.outPacketBuffer = Fifo.empty 65536
  received : ∃ v, v.length ≤ 65536 ∧ c.receivedData = Fifo.filled 65536 v ∧
    (c.protocolState = 3 → nextFrame v = none)
  closes : c.isConnected = true → c.closes = true
  written : ∃ up, (∀ p ∈ up, Written p) ∧ toServer = stream up
  readable : ∃ down, (∀ p ∈ down, Readable p ∧ p.1 ≠ 0x40) ∧ toClient = stream down

/-- What a client comes to that only sends. -/
inductive Called (posts : List (UInt32 × AString)) (c c' : PeerConnectionClient Fifo) : Prop
  | gone : c'.Gone → Called posts c c'
  | sends : c'.outPacketBuffer = c.outPacketBuffer → c'.receivedData = c.receivedData →
      c'.protocolState = c.protocolState → (c'.isConnected = true → c'.closes = true) →
      (∀ id, c'.heardFrom id = c.heardFrom id) → c'.sent = c.sent ++ stream posts → Called posts c c'

variable {c c' : PeerConnectionClient Fifo} {toServer toClient : AString}

theorem Attached.send (h : Attached toServer toClient c) (p : Packet) :
    Called (if c.isConnected then [(p.type, p.fieldBytes)] else []) c (c.send p) := by
  have hsent := send_sent p c
  rw [send_eq]
  exact .sends rfl rfl rfl (fun hsocket => h.closes hsocket) (fun _ => rfl) hsent

/-- A packet that is composed is sent, if there is a connection. -/
theorem Attached.packet (h : Attached toServer toClient c) {p : Packet} (hok : c.packet p = .ok c') :
    Called (if c.isConnected then [(p.type, p.fieldBytes)] else []) c c' ∧ p.body.length ≤ 65536 := by
  have hfits : p.body.length ≤ 65536 := by
    by_contra hlong
    rw [packet_verify h.out (Nat.lt_of_not_le hlong)] at hok
    cases hok
  rw [packet_sent h.out hok]
  exact ⟨h.send p, hfits⟩

theorem Attached.onConnect (h : Attached toServer toClient c)
    (hstate : c.state = .signingIn ∨ c.state = .signingOutWaiting) (hok : c.onConnect = .ok c') :
    ∃ posts, (∀ p ∈ posts, Plain p) ∧ Called posts c c' := by
  obtain ⟨c₁, hc₁⟩ : ∃ c₁ : PeerConnectionClient Fifo, c₁ = { c with isConnected := true } := ⟨_, rfl⟩
  have hcloses : c₁.closes = true := by
    rw [hc₁]
    rcases hstate with hstate | hstate
    · simp [PeerConnectionClient.closes, hstate]
    · simp [PeerConnectionClient.closes, hstate]
  have hopen : Attached toServer toClient c₁ := by
    rw [hc₁] at hcloses ⊢
    exact ⟨h.out, h.received, fun _ => hcloses, h.written, h.readable⟩
  have hok : c₁.packet (statusRequestPacket appP2pchat SERVER PORT 2) = .ok c' := by
    rw [hc₁]
    exact hok
  obtain ⟨hcalled, hfits⟩ := hopen.packet hok
  have hsocket : c₁.isConnected = true := by rw [hc₁]
  rw [if_pos hsocket] at hcalled
  refine ⟨_, List.forall_mem_singleton.mpr (greeting_plain hfits), ?_⟩
  cases hcalled with
  | gone hgone => exact .gone hgone
  | sends hout hreceived hstate' hclosed hheard hsent =>
    rw [hc₁] at hout hreceived hstate' hheard hsent
    exact .sends hout hreceived hstate' hclosed hheard hsent

theorem Attached.signOut (h : Attached toServer toClient c) : Called [] c c.signOut := by
  by_cases hsocket : c.isConnected = true
  · exact .gone (signOut_gone (h.closes hsocket))
  · have hstays : c.signOut = c ∨ c.signOut =
        { c with state := .signingOutWaiting, username := [], password := [] } := by
      unfold PeerConnectionClient.signOut
      rw [if_neg hsocket]
      split
      next => exact Or.inl rfl
      next => exact Or.inr rfl
    rcases hstays with heq | heq
    · rw [heq]
      exact .sends rfl rfl rfl h.closes (fun _ => rfl) (List.append_nil _).symm
    · rw [heq]
      exact .sends rfl rfl rfl (fun hno => absurd hno hsocket) (fun _ => rfl) (List.append_nil _).symm

omit [Platform] in
theorem onClose_gone (c : PeerConnectionClient Fifo) : c.onClose.Gone := ⟨rfl, rfl⟩

/-- What was sent is on its way behind the rest. -/
theorem Attached.called (h : Attached toServer toClient c) {posts : List (UInt32 × AString)}
    (hposts : ∀ p ∈ posts, Written p) (hcalled : Called posts c c') :
    c'.Gone ∨ c'.sent = c.sent ++ stream posts ∧ c'.receivedData = c.receivedData ∧
      Attached (toServer ++ stream posts) toClient c' := by
  cases hcalled with
  | gone hgone => exact Or.inl hgone
  | sends hout hreceived hstate hclosed _ hsent =>
    obtain ⟨up, hup, htoServer⟩ := h.written
    obtain ⟨v, hv, hrec, hwait⟩ := h.received
    refine Or.inr ⟨hsent, hreceived, hout.trans h.out, ⟨v, hv, hreceived.trans hrec, by rw [hstate]; exact hwait⟩, hclosed,
      ⟨up ++ posts, fun p hp => (List.mem_append.mp hp).elim (hup p) (hposts p), ?_⟩, h.readable⟩
    rw [htoServer, stream_append]

omit [Platform] in
theorem Gone.packet (h : c.Gone) {p : Packet} (hok : c.packet p = .ok c') : c'.Gone := by
  obtain ⟨out, sent, heq⟩ := packet_changes hok
  rw [heq]
  exact ⟨h.isConnected, h.state⟩

omit [Platform] in
theorem Gone.signOut (h : c.Gone) : c.signOut.Gone := by
  rw [PeerConnectionClient.signOut, if_pos (Or.inl h.state)]
  exact h

section Reading

variable {chunk rest : AString}

/-- A chunk that fits is read, and in the last state leaves an open connection. -/
theorem Attached.onRead (h : Attached toServer toClient c) (hsocket : c.isConnected = true)
    (hfit : chunk.length ≤ getFreeSpace c.receivedData)
    (hbytes : toClient = (readAll c.receivedData).1 ++ (chunk ++ rest)) :
    match c.onRead [chunk] with
    | .ok c' => (c'.Gone ∧ c.protocolState ≠ 3) ∨ ∃ new posts, (∀ p ∈ new, Readable p) ∧
        (∀ p ∈ posts, Plain p) ∧ c'.sent = c.sent ++ stream posts ∧
        toClient = stream new ++ ((readAll c'.receivedData).1 ++ rest) ∧
        Attached (toServer ++ stream posts) ((readAll c'.receivedData).1 ++ rest) c' ∧
        (c.protocolState = 3 → c'.protocolState = 3 ∧ c'.isConnected = true ∧
          ∀ id, c'.heardFrom id = c.heardFrom id ++ messages id (new.map call))
    | .error _ => c.protocolState ≠ 3 := by
  obtain ⟨v, hv, hrec, _⟩ := h.received
  obtain ⟨down, hdown, htoClient⟩ := h.readable
  obtain ⟨up, hup, htoServer⟩ := h.written
  obtain ⟨hcapacity, hbefore, hunread⟩ := Fifo.filled_eq hv
  have hread : (readAll c.receivedData).1 = v := by rw [hrec, readAll_fifo, hunread]
  have hroom : (v ++ chunk).length ≤ 65536 := by
    rw [hrec] at hfit
    change chunk.length ≤ (Fifo.filled 65536 v).free at hfit
    rw [Fifo.free, hcapacity, hbefore, hunread, List.length_nil] at hfit
    rw [List.length_append]
    omega
  rw [hread, ← List.append_assoc] at hbytes
  have hstart : v ++ chunk <+: stream down := by
    rw [← htoClient, hbytes]
    exact List.prefix_append _ _
  have hlistens : Listens v c := ⟨h.out, hv, hrec, h.closes hsocket⟩
  have hafter := hlistens.onRead hroom (fun p hp => (hdown p hp).1) hstart
  rcases hok : c.onRead [chunk] with e | c'
  · rw [hok] at hafter
    exact hafter
  · rw [hok] at hafter
    cases hafter with
    | closed hclosed =>
      refine Or.inl ⟨hclosed.gone, fun h3 => ?_⟩
      obtain ⟨p, hp, h40⟩ := hclosed.parting h3
      exact (hdown p hp).2 h40
    | reading new todo v' hdone hsplit hlistens' hwait hhandles =>
      obtain ⟨posts, hposts, hsent⟩ := hhandles.posts
      obtain ⟨_, _, hunread'⟩ := Fifo.filled_eq hlistens'.room
      have hread' : (readAll c'.receivedData).1 = v' := by rw [hlistens'.received, readAll_fifo, hunread']
      have hall : toClient = stream new ++ (v' ++ rest) := by
        rw [hbytes, hsplit, List.append_assoc]
      have hleft : v' ++ rest = stream todo := by
        rw [htoClient, hdone, stream_append] at hall
        exact (List.append_cancel_left hall).symm
      refine Or.inr ⟨new, posts, fun p hp => (hdown p (by rw [hdone]; exact List.mem_append_left _ hp)).1, hposts,
        hsent, by rw [hread']; exact hall, ?_, fun h3 => ?_⟩
      · rw [hread']
        refine ⟨hlistens'.out, ⟨v', hlistens'.room, hlistens'.received, hwait⟩, fun _ => hlistens'.closes,
          ⟨up ++ posts, fun p hp => (List.mem_append.mp hp).elim (hup p) fun hp => (hposts p hp).written, ?_⟩,
          ⟨todo, fun p hp => hdown p (by rw [hdone]; exact List.mem_append_right _ hp), hleft⟩⟩
        rw [htoServer, stream_append]
      · obtain ⟨hstate, hheard⟩ := hhandles.last h3
        exact ⟨hstate, hlistens'.isConnected, hheard⟩

end Reading

end PeerConnectionClient

end P2PChat
