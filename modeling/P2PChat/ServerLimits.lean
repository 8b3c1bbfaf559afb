import P2PChat.ServerRuns
import P2PChat.FrameLimits

namespace P2PChat

open ByteQueue

namespace Server

section Limits

variable [Platform]

theorem step_verify_iff {s : Server ByteBuffer} (hs : (s.map ByteBuffer.contents).Sound) {e : Event}
    (he : s.enabled e = true) : s.step e = .error .verify ↔ s.ticksOverlong e = true := by
  have hstepped := step_contents hs he (gated_open s e)
  have hover := ticksOverlong_map ByteBuffer.contents_hom s e
  rcases hstep : s.step e with h | s'
  · rw [hstep] at hstepped
    rcases hstepped with ⟨rfl, hlong⟩ | ⟨rfl, hcount⟩
    · rw [hover] at hlong
      exact ⟨fun _ => hlong, fun _ => rfl⟩
    · refine ⟨fun h => (nomatch h), fun hlong => ?_⟩
      cases e with
      | connectionAccepted ip => cases hlong
      | tickClient p => cases hcount
      | _ => cases hcount
  · rw [hstep] at hstepped
    have hshort := hstepped.1
    rw [hover] at hshort
    rw [hshort]
    exact ⟨fun h => (nomatch h), fun h => (nomatch h)⟩

/-- The process survives an event, whatever the IDs are and whatever was received, unless the event
is a tick that relays a packet of more than 65536 bytes. -/
theorem server_survives_iff {s₀ s : Server ByteBuffer} (hs₀ : (s₀.map ByteBuffer.contents).Sound)
    (h : (serverMachine ByteBuffer).Reachable s₀ s) {e : Event} (he : s.enabled e = true) :
    s.step e ≠ .error .verify ↔ s.ticksOverlong e = false := by
  rw [Ne, step_verify_iff (reachable_sound hs₀ h) he, Bool.not_eq_true]

end Limits

/-- Two connections that are logged in, with these IDs. -/
def twoClients [Platform] (id id' : UInt32) : Server ByteBuffer where
  heap p :=
    { ((ClientHandle.create [] (if p = 0 then id else id') 0).setProtocolState 3).setState .csWorking with
      username := if p = 0 then [97] else [98]
      link := true }
  allocated := 2
  clients := [0, 1]
  clientCount := 2
  queue := []
  inFlight := none
  now := 0

theorem twoClients_sound [Platform] (id id' : UInt32) :
    ((twoClients id id').map ByteBuffer.contents).Sound where
  connections p := by
    have hnew := ByteBuffer.contents_hom.new
    refine ⟨hnew 65536, hnew 20, ⟨[], Nat.zero_le _, hnew 65536⟩, Nat.zero_le _, ?_, nofun⟩
    change (if p = 0 then [97] else [98] : AString).length ≤ 65504
    split <;> decide
  requests _ h := h.elim (fun h => nomatch h) (fun h => nomatch h)
  nodup := by simp [map, twoClients]
  allocated p hp := by
    have hp' : p ∈ [0, 1] := hp
    simp only [List.mem_cons, List.not_mem_nil, or_false] at hp'
    rcases hp' with rfl | rfl
    · exact Nat.zero_lt_two
    · exact Nat.one_lt_two

/-- To peer 1, a message of 65528 bytes whose length says one more. -/
def overreadMessage : AString :=
  varInt 0x12 ++ (varInt 1 ++ (varInt 65529 ++ List.replicate 65528 97))

/-- The last byte that is read is the NUL behind the packet. -/
theorem overread_relays [Platform] (id : UInt32) {text message : AString} (htext : text.length = 65528)
    (hmessage : message = varInt 0x12 ++ (varInt 1 ++ (varInt 65529 ++ text))) :
    ((twoClients 1 id).receivedData 1 (frame message)).relays 1 = [(0, mediaMsgPacket id (text ++ [0]))] := by
  have hlen : message.length = 65533 := by
    have h1 : (varInt 0x12).length = 1 := by decide +kernel
    have h2 : (varInt 1).length = 1 := by decide +kernel
    have h3 : (varInt 65529).length = 3 := by decide +kernel
    simp only [hmessage, List.length_append, h1, h2, h3, htext]
  have hfits : (frame message).length ≤ 65536 := (frame_fits_iff (by omega)).mpr (by omega)
  have hpos := frame_length_pos message
  have hread : (readAll (new 65536 : ByteBuffer)).1 = [] := by
    have hall := ByteBuffer.contents_hom.readAll (new 65536)
    rw [ByteBuffer.contents_hom.new] at hall
    exact (congrArg Prod.fst hall).symm
  have hinbound : ((twoClients 1 id).receivedData 1 (frame message)).inbound 1 = frame message := by
    change (readAll (new 65536 : ByteBuffer)).1 ++ ([] ++ frame message) = _
    rw [hread, List.nil_append, List.nil_append]
  have hnext : nextFrame (frame message) = some (message, []) := by
    have hframe := @nextFrame_frame _ message (by omega) []
    rwa [List.append_nil] at hframe
  have hopen : opened message = some (0x12, varInt 1 ++ (varInt 65529 ++ text) ++ [0]) := by
    unfold opened
    rw [hmessage, parseVarInt_varInt]
    simp only [List.drop_left']
  have hpackets : packets (knows 3) (frame message) =
      [(0x12, varInt 1 ++ (varInt 65529 ++ text) ++ [0])] := by
    rw [packets_cons hnext hopen, packets_none nextFrame_nil, ite_self]
  have hmsg : (text ++ [0]).length = 65529 := by
    rw [List.length_append, htext, List.length_singleton]
  have hstring := parseString_string (s := text ++ [0]) (by rw [hmsg]; decide) []
  have hparse : (parseMediaMsg (varInt 1 ++ (varInt 65529 ++ text) ++ [0])).1 =
      some (1, text ++ [0]) := by
    have hassoc : varInt 1 ++ (varInt 65529 ++ text) ++ [0] =
        varInt 1 ++ (varInt (UInt32.ofNat 65529) ++ (text ++ [0]) ++ []) := by
      simp only [List.append_assoc, List.append_nil]
      rfl
    rw [hmsg] at hstring
    rw [hassoc]
    simp only [parseMediaMsg, Parser.andThen, parseVarInt32_varInt, List.drop_left', hstring,
      Parser.ret]
  have hrelay : ((twoClients 1 id).receivedData 1 (frame message)).relay 1 0x12
      (varInt 1 ++ (varInt 65529 ++ text) ++ [0]) = some (0, mediaMsgPacket id (text ++ [0])) := by
    have hstate : (((twoClients 1 id).receivedData 1 (frame message)).heap 1).protocol.state = 3 := rfl
    have hno : (0x12 : UInt32) ≠ 0x11 := by decide
    rw [relay, if_pos hstate, if_neg hno, if_pos rfl, hparse]
    rfl
  have harriving : ((twoClients 1 id).receivedData 1 (frame message)).arriving 1 =
      packets (knows 3) (frame message) := by
    rw [arriving, hinbound, if_pos]
    · rfl
    · refine ⟨rfl, fun hnil => ?_, hfits⟩
      have hnil' : [] ++ frame message = [] := hnil
      rw [List.nil_append] at hnil'
      rw [hnil'] at hpos
      exact absurd hpos (by decide)
  rw [relays, harriving, hpackets]
  simp only [List.filterMap_cons, hrelay, List.filterMap_nil]

/-- The message, its text a variable: the text is not to be computed with. -/
theorem overreadMessage_text : ∃ text : AString, text.length = 65528 ∧
    overreadMessage = varInt 0x12 ++ (varInt 1 ++ (varInt 65529 ++ text)) :=
  ⟨List.replicate 65528 97, List.length_replicate, rfl⟩

theorem receivedData_sound [Platform] {s : Server Fifo} (hs : s.Sound) (p : Nat) (data : AString) :
    (s.receivedData p data).Sound :=
  Small.sound (G := Gate.open) hs (.change (receive_change data _))

theorem run_received [Platform] {s : Server ByteBuffer} {p : Nat} {data : AString} {h : Halt}
    (htick : (s.receivedData p data).step (.tickClient p) = .error h) :
    (serverMachine ByteBuffer).run [.receivedData p data, .tickClient p] s = .error h := by
  have hfirst : (serverMachine ByteBuffer).step s (.receivedData p data) =
      .ok (s.receivedData p data) := rfl
  have hsecond : (serverMachine ByteBuffer).step (s.receivedData p data) (.tickClient p) = .error h :=
    htick
  simp only [Machine.run, hfirst, hsecond]

/-- The recipient's ID takes one byte, the sender's four, and the message grows by the NUL. -/
theorem overread_halts :
    letI := zeroPlatform
    ((twoClients 1 2097152).map ByteBuffer.contents).Sound ∧
      (serverMachine ByteBuffer).run [.receivedData 1 (frame overreadMessage), .tickClient 1]
        (twoClients 1 2097152) = .error .verify := by
  let : Platform := zeroPlatform
  obtain ⟨text, htext, hmessage⟩ := overreadMessage_text
  generalize overreadMessage = message at hmessage ⊢
  have hsound := twoClients_sound 1 2097152
  have hreceived := receivedData_sound hsound 1 (frame message)
  have hreceive : ∀ c : ClientHandle ByteBuffer, (c.map ByteBuffer.contents).receive
      (frame message) = (c.receive (frame message)).map ByteBuffer.contents :=
    fun _ => rfl
  have hmap : ((twoClients 1 2097152).receivedData 1 (frame message)).map
      ByteBuffer.contents =
      ((twoClients 1 2097152).map ByteBuffer.contents).receivedData 1 (frame message) :=
    (modify_map hreceive 1 _).symm
  have hid : (varInt 2097152).length = 4 := by decide +kernel
  have hlong : ((twoClients 1 2097152).receivedData 1 (frame message)).ticksOverlong
      (.tickClient 1) = true := by
    rw [ticksOverlong, overread_relays _ htext hmessage]
    refine List.any_eq_true.mpr ⟨_, List.mem_singleton.mpr rfl, decide_eq_true ?_⟩
    rw [mediaMsg_body_length, hid, List.length_append, htext, List.length_singleton,
      varInt_three (by omega) (by omega)]
    omega
  have hverify := (step_verify_iff (by rw [hmap]; exact hreceived) (e := .tickClient 1) rfl).mpr hlong
  exact ⟨hsound, run_received hverify⟩

/-- From a peer whose ID is no longer the same message passes. -/
theorem overread_survives :
    letI := zeroPlatform
    ((twoClients 1 2).receivedData 1 (frame overreadMessage)).step (.tickClient 1) ≠
      .error .verify := by
  let : Platform := zeroPlatform
  obtain ⟨text, htext, hmessage⟩ := overreadMessage_text
  generalize overreadMessage = message at hmessage ⊢
  have hid : (varInt 2).length = 1 := by decide +kernel
  have hshort : ((twoClients 1 2).receivedData 1 (frame message)).ticksOverlong
      (.tickClient 1) = false := by
    rw [ticksOverlong, overread_relays _ htext hmessage]
    refine List.any_eq_false.mpr fun x hx => ?_
    rw [List.mem_singleton.mp hx, mediaMsg_body_length, hid, List.length_append, htext, List.length_singleton,
      varInt_three (by omega) (by omega), decide_eq_true_iff]
    omega
  exact (server_survives_iff (twoClients_sound 1 2) (e := .tickClient 1)
    (.next .start (e := .receivedData 1 (frame message)) rfl trivial rfl) rfl).mpr hshort

end Server

end P2PChat
