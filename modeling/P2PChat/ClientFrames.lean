import P2PChat.ArrivedFrames
import P2PChat.DrainedBuffers

namespace P2PChat

open ByteQueue

namespace PeerConnectionClient

variable [Platform]

/-- The connection is open, and nothing is in the buffers. -/
structure Listening {β : Type} (f : β → Fifo) (c : PeerConnectionClient β) : Prop where
  closes : c.closes = true
  received : f c.receivedData = Fifo.empty 65536
  out : f c.outPacketBuffer = Fifo.empty 65536

/-- The client between two chunks, with less than a frame in its buffer, or closed. -/
def Between (c₀ : PeerConnectionClient Fifo) (v : AString) (c : PeerConnectionClient Fifo) :
    Option UInt32 → Prop
  | some state => Standing c₀ state v c
  | none => c.isConnected = false

section Packets

variable {c₀ c : PeerConnectionClient Fifo} {state type : UInt32} {v rest bytes : AString}

omit [Platform] in
theorem Standing.isConnected (h : Standing c₀ state v c) (hopen : c₀.closes = true) :
    c.isConnected = true := by
  have hcloses := h.closes.trans hopen
  simp only [PeerConnectionClient.closes, Bool.and_eq_true] at hcloses
  exact hcloses.2

/-- The client standing at a frame of the stream handles it as `reaction` says. -/
theorem Standing.frame (h : Standing c₀ state rest c) {p : UInt32 × AString} {bb : Fifo}
    (hbb : bb.unread = (call p).2) :
    match reaction c₀ state p.1 (call p).2 with
    | .halts => handlePacket bb p.1 c = .error .verify
    | .refuses => ∃ bb' c', handlePacket bb p.1 c = .ok (false, bb', c') ∧
        c'.log = c.log ++ [call p] ∧ Standing c₀ (refusedState state) rest c'
    | .takes next keeps => ∃ bb' c', handlePacket bb p.1 c = .ok (true, bb', c') ∧
        c'.log = c.log ++ [call p] ∧ Took c₀ (next, keeps) rest c' := by
  have hhalts := halts_congr h.protocolState h.overlong p.1 bb.unread
  have hcall : Standing c₀ state rest (c.record (p.1, bb.unread)) :=
    ⟨h.out, h.room, h.received, h.protocolState, h.closes, h.overlong⟩
  have hlog : ((c.record (p.1, bb.unread)).reacted p.1 bb.unread).log = c.log ++ [call p] := by
    rw [reacted_log, hbb]
    rfl
  rw [← hbb]
  rcases hlong : (c₀.setProtocolState state).halts p.1 bb.unread with _ | _
  · have heq := handlePacket_eq h.out (hhalts.trans hlong)
    rw [h.protocolState] at heq
    rcases hknown : knows state p.1 with _ | _
    · rw [hknown] at heq
      simp only [reaction, hlong, hknown, Bool.false_eq_true, if_false]
      refine ⟨_, _, heq, hlog, ?_⟩
      rw [reacted_unknown (c := c.record (p.1, bb.unread)) (by rw [← hknown, ← h.protocolState]; rfl)]
      have hsame : (c.record (p.1, bb.unread)).protocolState = state := h.protocolState
      rw [hsame]
      refine ⟨h.out, h.room, h.received, rfl, h.closes, fun hone => h.overlong ?_⟩
      unfold refusedState at hone
      split at hone
      next => exact hone
      next => exact absurd hone (by decide)
    · rw [hknown] at heq
      simp only [reaction, hlong, hknown, Bool.false_eq_true, if_false, if_true]
      exact ⟨_, _, heq, hlog, hcall.reacted hknown⟩
  · simp only [reaction, hlong, if_true]
    exact handlePacket_verify h.out (hhalts.trans hlong)

end Packets

section Loop

variable (c₀ : PeerConnectionClient Fifo) (log : List (UInt32 × AString)) (state : UInt32)
  (new : List (UInt32 × AString)) (v : AString)

/-- Where the loop of `AddReceivedData` stands, with these frames before it and less than one behind
them: some are handled; the rest is in the buffer, or the connection is closed. -/
inductive Reading (u : AString) (c : PeerConnectionClient Fifo) : Prop
  | goes (done todo : List (UInt32 × AString)) (now : UInt32) : new = done ++ todo →
      c.log = log ++ done.map call → u = stream todo ++ v → Standing c₀ now u c →
      minds (reaction c₀) now todo = minds (reaction c₀) state new →
      mindsAfter (reaction c₀) refusedState now todo = mindsAfter (reaction c₀) refusedState state new →
      Reading u c
  | closed (done todo : List (UInt32 × AString)) : new = done ++ todo →
      c.log = log ++ done.map call → u = [] → c.receivedData = Fifo.filled 65536 [] →
      c.isConnected = false → todo.isEmpty = minds (reaction c₀) state new →
      mindsAfter (reaction c₀) refusedState state new = none → Reading u c

/-- The frames are all handled if and only if the client minds them. -/
def Handed : Except Halt (PeerConnectionClient Fifo) → Prop
  | .error _ => minds (reaction c₀) state new = false
  | .ok c => (c.log = log ++ new.map call ↔ minds (reaction c₀) state new = true) ∧
      (minds (reaction c₀) state new = true →
        Between c₀ v c (mindsAfter (reaction c₀) refusedState state new))

variable {c₀ log state new v}

omit [Platform] in
theorem handled_all_iff {done todo : List (UInt32 × AString)} :
    log ++ done.map call = log ++ (done ++ todo).map call ↔ todo.isEmpty = true := by
  simp

theorem first_frame {todo : List (UInt32 × AString)} {payload rest : AString} (hv : nextFrame v = none)
    (hsize : ∀ p ∈ todo, (rawPacket p).body.length < 2 ^ 32)
    (h : nextFrame (stream todo ++ v) = some (payload, rest)) :
    ∃ p todo', todo = p :: todo' ∧ rest = stream todo' ++ v ∧ opened payload = some (call p) := by
  cases todo with
  | nil =>
    have h : nextFrame v = some (payload, rest) := h
    rw [hv] at h
    cases h
  | cons p todo =>
    rw [stream_cons, List.append_assoc, nextFrame_frame (hsize p List.mem_cons_self)] at h
    cases h
    exact ⟨p, todo, rfl, rfl, opened_rawPacket p⟩

theorem Reading.packet {u payload rest : AString} {type : UInt32} {bb : Fifo}
    {c : PeerConnectionClient Fifo} (hv : nextFrame v = none)
    (hsize : ∀ p ∈ new, (rawPacket p).body.length < 2 ^ 32) (h : Reading c₀ log state new v u c)
    (hnext : nextFrame u = some (payload, rest)) (hopen : opened payload = some (type, bb.unread)) :
    (∃ e, handlePacket bb type (c.setReceived (Fifo.filled 65536 rest)) = .error e ∧
      Handed c₀ log state new v (.error e)) ∨
    (∃ bb' c', handlePacket bb type (c.setReceived (Fifo.filled 65536 rest)) = .ok (false, bb', c') ∧
      Handed c₀ log state new v (.ok c')) ∨
    (∃ bb' c' rest', handlePacket bb type (c.setReceived (Fifo.filled 65536 rest)) =
      .ok (true, bb', c') ∧ rest'.length ≤ rest.length ∧ Reading c₀ log state new v rest' c') := by
  have hlen := nextFrame_length hnext
  cases h with
  | closed done todo _ _ hu =>
    rw [hu] at hlen
    exact absurd hlen (Nat.not_lt_zero _)
  | goes done todo now hnew hlog hu hc hminds hafter =>
    rw [hu] at hnext
    obtain ⟨p, todo, rfl, rfl, hcall⟩ := first_frame hv
      (fun q hq => hsize q (by rw [hnew]; exact List.mem_append_right _ hq)) hnext
    rw [hopen] at hcall
    obtain ⟨rfl, hbb⟩ := Prod.mk.inj (Option.some.inj hcall)
    have hroom := hc.room
    have hset : Standing c₀ now (stream todo ++ v)
        (c.setReceived (Fifo.filled 65536 (stream todo ++ v))) :=
      ⟨hc.out, by omega, rfl, hc.protocolState, hc.closes, hc.overlong⟩
    have hnew' : new = (done ++ [p]) ++ todo := by simp [hnew]
    have hlog' : ∀ {c' : PeerConnectionClient Fifo}, c'.log = c.log ++ [call p] →
        c'.log = log ++ (done ++ [p]).map call := by
      intro c' hc'
      simp [hc', hlog]
    have hframe := hset.frame hbb
    rcases hreact : reaction c₀ now p.1 (call p).2 with _ | _ | ⟨next, keeps⟩
    · rw [hreact] at hframe
      refine Or.inl ⟨_, hframe, ?_⟩
      have hno : minds (reaction c₀) state new = false := by
        rw [← hminds, minds, hreact]
      exact hno
    · rw [hreact] at hframe
      obtain ⟨bb', c', hok, hl, hc'⟩ := hframe
      rw [minds, hreact] at hminds
      rw [mindsAfter, hreact] at hafter
      refine Or.inr (Or.inl ⟨bb', c', hok, ?_, fun hall => ?_⟩)
      · rw [hlog' hl, ← hminds, hnew', handled_all_iff]
      · rw [← hminds, List.isEmpty_iff] at hall
        rw [hall] at hc'
        rw [← hafter]
        exact hc'
    · rw [hreact] at hframe
      obtain ⟨bb', c', hok, hl, htook⟩ := hframe
      rw [minds, hreact] at hminds
      rw [mindsAfter, hreact] at hafter
      cases htook with
      | stays hkeeps hc' =>
        have hkeeps : keeps = true := hkeeps
        subst hkeeps
        exact Or.inr (Or.inr ⟨bb', c', _, hok, Nat.le_refl _,
          .goes (done ++ [p]) todo next hnew' (hlog' hl) rfl hc' hminds hafter⟩)
      | closed hkeeps hreceived hsocket =>
        have hkeeps : keeps = false := hkeeps
        subst hkeeps
        exact Or.inr (Or.inr ⟨bb', c', [], hok, Nat.zero_le _,
          .closed (done ++ [p]) todo hnew' (hlog' hl) rfl hreceived hsocket hminds hafter.symm⟩)

theorem reading_rule (hv : nextFrame v = none) (hsize : ∀ p ∈ new, (rawPacket p).body.length < 2 ^ 32) :
    (endpoint : Endpoint Fifo (PeerConnectionClient Fifo)).Rule 65536 (Reading c₀ log state new v)
      (Handed c₀ log state new v) where
  received u c h := by
    cases h with
    | goes _ _ _ _ _ _ hc => exact ⟨hc.room, hc.received⟩
    | closed _ _ _ _ hu hreceived =>
      rw [hu]
      exact ⟨Nat.zero_le _, hreceived⟩
  wait u c h hnext := by
    cases h with
    | goes done todo now hnew hlog hu hc hminds hafter =>
      cases todo with
      | nil =>
        have hu : u = v := hu
        subst hu
        rw [List.append_nil] at hnew
        refine ⟨iff_of_true (by rw [hnew]; exact hlog) hminds.symm, fun _ => ?_⟩
        rw [← hafter]
        exact ⟨hc.out, hc.room, rfl, hc.protocolState, hc.closes, hc.overlong⟩
      | cons p todo =>
        have hbody := hsize p (by simp [hnew])
        rw [hu, stream_cons, List.append_assoc, nextFrame_frame hbody] at hnext
        cases hnext
    | closed done todo hnew hlog hu _ hsocket hminds hafter =>
      refine ⟨?_, fun _ => ?_⟩
      · have hall := @handled_all_iff log done todo
        rw [← hnew] at hall
        rw [← hminds, ← hall]
        exact Eq.congr_left hlog
      · rw [hafter]
        exact hsocket
  unreadable u c payload rest h hnext hopen := by
    have hlen := nextFrame_length hnext
    cases h with
    | goes done todo now hnew hlog hu hc hminds hafter =>
      rw [hu] at hnext
      obtain ⟨p, _, _, _, hcall⟩ := first_frame hv
        (fun q hq => hsize q (by rw [hnew]; exact List.mem_append_right _ hq)) hnext
      rw [hopen] at hcall
      cases hcall
    | closed _ _ _ _ hu =>
      rw [hu] at hlen
      exact absurd hlen (Nat.not_lt_zero _)
  packet u c payload rest type bb h hnext hopen := h.packet hv hsize hnext hopen
  packetError u c type h := ⟨c, rfl, h⟩

theorem Standing.dataReceived {c : PeerConnectionClient Fifo} {u data : AString}
    (h : Standing c₀ state u c) (hfit : (u ++ data).length ≤ 65536) (hdata : u ++ data = stream new ++ v)
    (hv : nextFrame v = none) (hsize : ∀ p ∈ new, (rawPacket p).body.length < 2 ^ 32) :
    Handed c₀ c.log state new v (c.dataReceived data) := by
  refine (reading_rule hv hsize).addReceivedData (by omega) h.room h.received hfit ?_
  exact .goes [] new state rfl (List.append_nil _).symm hdata
    ⟨h.out, hfit, rfl, h.protocolState, h.closes, h.overlong⟩ rfl rfl

end Loop

section Chunks

variable {c₀ c : PeerConnectionClient Fifo}

/-- Of the chunks so far, every complete frame was handled. -/
def Receives {β : Type} [ByteQueue β] (packets : List (UInt32 × AString)) (pending : Nat)
    (c : PeerConnectionClient β) (chunks : List AString) : Prop :=
  ∃ c', c.onRead chunks = .ok c' ∧
    c'.log = c.log ++ (arrived packets (pending + chunks.flatten.length)).map call

theorem onRead_closed (h : c.isConnected = false) (chunks : List AString) : c.onRead chunks = .ok c := by
  cases chunks with
  | nil => rfl
  | cons chunk chunks =>
    unfold onRead
    rw [h]
    rfl

omit [Platform] in
theorem forall_take_cons {P : List AString → Prop} {chunk : AString} {chunks : List AString} (hnil : P []) :
    (∀ n, P ((chunk :: chunks).take n)) ↔ ∀ n, P (chunk :: chunks.take n) := by
  constructor
  · intro h n
    exact h (n + 1)
  · intro h n
    cases n with
    | zero => exact hnil
    | succ n => exact h n

theorem receives_nil {packets : List (UInt32 × AString)} {v : AString} (hv : Pending v packets) :
    c.Receives packets v.length [] := by
  have hnone := arrived_pending hv
  exact ⟨c, rfl, by simp [hnone]⟩

theorem dataReceived_full {v data : AString} (hv : v.length ≤ 65536)
    (hrec : c.receivedData = Fifo.filled 65536 v) (hfull : 65536 < (v ++ data).length) :
    c.dataReceived data = .ok (c.setReceived (Fifo.filled 65536 v)) :=
  addReceivedData_full (E := endpoint) hv hrec hfull

/-- A chunk that is handled leaves the rest of the stream to the chunks after it. -/
theorem receives_cons {c' : PeerConnectionClient Fifo} {chunk v rest : AString} {chunks : List AString}
    {new todo : List (UInt32 × AString)} (hsocket : c.isConnected = true)
    (hdata : c.dataReceived chunk = .ok c') (hlog : c'.log = c.log ++ new.map call)
    (hbytes : v ++ chunk = stream new ++ rest) :
    c.Receives (new ++ todo) v.length (chunk :: chunks) ↔ c'.Receives todo rest.length chunks := by
  have hread : c.onRead (chunk :: chunks) = c'.onRead chunks := by
    rw [onRead, if_pos hsocket, hdata]
    rfl
  have hlen := congrArg List.length hbytes
  rw [List.length_append, List.length_append] at hlen
  have hcount : v.length + (chunk :: chunks).flatten.length =
      (stream new).length + (rest.length + chunks.flatten.length) := by
    rw [List.flatten_cons, List.length_append]
    omega
  rw [Receives, Receives, hread, hcount, arrived_append, hlog, List.map_append, List.append_assoc]

/-- What is missed of a chunk is missed already when it has come. -/
theorem receives_first {packets : List (UInt32 × AString)} {v chunk : AString} {chunks : List AString}
    (h : ∀ n, c.Receives packets v.length (chunk :: chunks.take n)) :
    ∃ c', c.onRead [chunk] = .ok c' ∧
      c'.log = c.log ++ (arrived packets (v ++ chunk).length).map call := by
  obtain ⟨c', hok, hlog⟩ := h 0
  rw [List.take_zero, List.flatten_singleton, ← List.length_append] at hlog
  exact ⟨c', hok, hlog⟩

/-- When the connection is closed, everything is handled as long as no frame is completed. -/
theorem receives_closed (hc : c.isConnected = false) {chunks : List AString}
    {packets : List (UInt32 × AString)} {v : AString} (hv : Pending v packets)
    (hstart : v ++ chunks.flatten <+: stream packets) :
    (∀ n, c.Receives packets v.length (chunks.take n)) ↔
      keepsUp (reaction c₀) refusedState none packets v.length chunks = true := by
  induction chunks generalizing v with
  | nil =>
    refine iff_of_true (fun n => ?_) rfl
    rw [List.take_nil]
    exact receives_nil hv
  | cons chunk chunks ih =>
    rw [forall_take_cons (receives_nil hv), keepsUp]
    rw [List.flatten_cons, ← List.append_assoc] at hstart
    obtain ⟨todo, rest, hpackets, hbytes, hrest⟩ := arrived_split ((List.prefix_append _ _).trans hstart)
    have hone : v.length + chunk.length = (v ++ chunk).length := List.length_append.symm
    rw [hone]
    rcases hnew : arrived packets (v ++ chunk).length with _ | ⟨p, new⟩
    · rw [hnew] at hpackets hbytes
      have hpackets : packets = todo := hpackets
      have hbytes : v ++ chunk = rest := hbytes
      rw [← hpackets, ← hbytes] at hrest
      rw [List.isEmpty_nil, Bool.true_and, ← ih hrest hstart]
      simp only [Receives, onRead_closed hc, List.flatten_cons, List.length_append, Nat.add_assoc]
    · refine iff_of_false (fun h => ?_) (by simp)
      obtain ⟨c', hok, hlog⟩ := receives_first h
      rw [onRead_closed hc] at hok
      cases hok
      rw [hnew] at hlog
      simp at hlog

/-- From between two chunks on, everything is handled if and only if the client keeps up. -/
theorem receives_iff (hopen : c₀.closes = true) {chunks : List AString} {state : Option UInt32}
    {packets : List (UInt32 × AString)} {v : AString} (hc : Between c₀ v c state)
    (hv : Pending v packets) (hfit : FramesFit 65536 packets) (hstart : v ++ chunks.flatten <+: stream packets) :
    (∀ n, c.Receives packets v.length (chunks.take n)) ↔
      keepsUp (reaction c₀) refusedState state packets v.length chunks = true := by
  induction chunks generalizing c state packets v with
  | nil =>
    refine iff_of_true (fun n => ?_) (by cases state <;> rfl)
    rw [List.take_nil]
    exact receives_nil hv
  | cons chunk chunks ih =>
    cases state with
    | none => exact receives_closed hc hv hstart
    | some state =>
      have hc : Standing c₀ state v c := hc
      have hsocket := hc.isConnected hopen
      have hread : c.onRead [chunk] = c.dataReceived chunk := by
        rw [onRead, if_pos hsocket]
        rcases c.dataReceived chunk with e | c'
        · rfl
        · rfl
      rw [forall_take_cons (receives_nil hv), keepsUp]
      rw [List.flatten_cons, ← List.append_assoc] at hstart
      obtain ⟨todo, rest, hpackets, hbytes, hrest⟩ :=
        arrived_split ((List.prefix_append _ _).trans hstart)
      have hfirst := @receives_first _ c packets v chunk chunks
      rw [hread] at hfirst
      have hone : v.length + chunk.length = (v ++ chunk).length := List.length_append.symm
      rw [hone]
      generalize arrived packets (v ++ chunk).length = new at *
      by_cases hroom : (v ++ chunk).length ≤ 65536
      · have hsize : ∀ p ∈ new, (rawPacket p).body.length < 2 ^ 32 := fun p hp =>
          body_length_lt (by omega) (hfit p (by rw [hpackets]; exact List.mem_append_left _ hp))
        have hfit' : FramesFit 65536 todo := fun p hp =>
          hfit p (by rw [hpackets]; exact List.mem_append_right _ hp)
        have hhanded := hc.dataReceived hroom hbytes (hrest.nextFrame (by omega) hfit') hsize
        rw [decide_eq_true hroom, Bool.true_and]
        rcases hdata : c.dataReceived chunk with e | c₁
        · rw [hdata] at hhanded hfirst
          have hno : minds (reaction c₀) state new = false := hhanded
          rw [hno, Bool.false_and]
          refine iff_of_false (fun h => ?_) (by simp)
          obtain ⟨c', hok, _⟩ := hfirst h
          cases hok
        · rw [hdata] at hhanded hfirst
          obtain ⟨hlog, hnext⟩ := hhanded
          rcases hminds : minds (reaction c₀) state new with _ | _
          · rw [Bool.false_and]
            refine iff_of_false (fun h => ?_) (by simp)
            obtain ⟨c', hok, hlog'⟩ := hfirst h
            cases hok
            rw [hlog.mp hlog'] at hminds
            cases hminds
          · have hlen : (v ++ chunk).length - (stream new).length = rest.length := by
              rw [hbytes, List.length_append, Nat.add_sub_cancel_left]
            have hstart' : rest ++ chunks.flatten <+: stream todo := by
              rw [hbytes, hpackets, stream_append, List.append_assoc] at hstart
              exact (List.prefix_append_right_inj _).mp hstart
            have hafter := ih (hnext hminds) hrest hfit' hstart'
            rw [Bool.true_and, hlen, hpackets, List.drop_left, ← hafter]
            exact forall_congr' fun n => receives_cons hsocket hdata (hlog.mpr hminds) hbytes
      · rw [decide_eq_false hroom, Bool.false_and, Bool.false_and]
        refine iff_of_false (fun h => ?_) (by simp)
        obtain ⟨c', hok, hlog⟩ := hfirst h
        rw [dataReceived_full hc.room hc.received (Nat.lt_of_not_le hroom)] at hok
        cases hok
        have hlog : c.log = c.log ++ new.map call := hlog
        have hnew : new = [] := by simpa using hlog
        rw [hnew] at hpackets hbytes
        have hpackets : packets = todo := hpackets
        have hbytes : v ++ chunk = rest := hbytes
        rw [← hpackets, ← hbytes] at hrest
        exact hroom (hrest.length_le hfit)

end Chunks

section Buffers

variable {β γ : Type} [ByteQueue β] [ByteQueue γ] {f : β → γ} (hf : Hom f)

include hf

theorem onRead_map (chunks : List AString) (c : PeerConnectionClient β) :
    (c.map f).onRead chunks = (c.onRead chunks).map (map f) := by
  induction chunks generalizing c with
  | nil => rfl
  | cons chunk chunks ih =>
    have hsame : (c.map f).isConnected = c.isConnected := rfl
    rw [onRead, onRead, hsame]
    split
    next =>
      rw [dataReceived_map hf]
      rcases c.dataReceived chunk with e | c'
      · rfl
      · exact ih c'
    next => rfl

theorem receives_map {packets : List (UInt32 × AString)} {pending : Nat} {chunks : List AString}
    {c : PeerConnectionClient β} :
    (c.map f).Receives packets pending chunks ↔ c.Receives packets pending chunks := by
  unfold Receives
  rw [onRead_map hf]
  rcases c.onRead chunks with e | c'
  · simp [Except.map]
  · simp only [Except.map, Except.ok.injEq, exists_eq_left']
    rfl

end Buffers

section Streams

variable {c : PeerConnectionClient ByteBuffer} {packets : List (UInt32 × AString)} {chunks : List AString}

omit [Platform] in
theorem Listening.standing (hc : Listening ByteBuffer.contents c) :
    Standing (c.map ByteBuffer.contents) c.protocolState [] (c.map ByteBuffer.contents) :=
  ⟨hc.out, Nat.zero_le _, hc.received, rfl, rfl, fun _ => rfl⟩

theorem Listening.receives (hc : Listening ByteBuffer.contents c) (hfit : FramesFit 65536 packets)
    (hstart : chunks.flatten <+: stream packets) :
    (∀ n, (c.map ByteBuffer.contents).Receives packets 0 (chunks.take n)) ↔
      keepsUp (reaction c) refusedState (some c.protocolState) packets 0 chunks = true := by
  have hpending : Pending [] packets := by
    cases packets with
    | nil => rfl
    | cons p packets => exact ⟨List.nil_prefix, frame_length_pos _⟩
  have hbetween : Between (c.map ByteBuffer.contents) [] (c.map ByteBuffer.contents)
      (some c.protocolState) := hc.standing
  exact receives_iff hc.closes hbetween hpending hfit hstart

/-- However the stream is cut, the client hands every complete frame to `HandlePacket`, once and in order,
if and only if every chunk fits what is left of the 64 KiB, no frame stops the loop with another complete
one behind it, and none closes the connection before another is complete. -/
theorem onRead_keeps_frames_iff (hc : Listening ByteBuffer.contents c) (hfit : FramesFit 65536 packets)
    (hstart : chunks.flatten <+: stream packets) :
    (∀ n, c.Receives packets 0 (chunks.take n)) ↔
      keepsUp (reaction c) refusedState (some c.protocolState) packets 0 chunks = true := by
  rw [← hc.receives hfit hstart]
  exact forall_congr' fun n => (receives_map ByteBuffer.contents_hom).symm

theorem connectedClient_listening : Listening ByteBuffer.contents connectedClient where
  closes := rfl
  received := ByteBuffer.contents_hom.new 65536
  out := ByteBuffer.contents_hom.new 65536

omit [Platform] in
/-- The answer to the greeting, a login success and a ping, cut in the middle of the second frame. -/
theorem onRead_keeps_login :
    letI := zeroPlatform
    FramesFit 65536 [(0x00, [0, 0, 0, 2, 0]), (0x01, []), (0x00, [7])] ∧
      ∀ n, connectedClient.Receives [(0x00, [0, 0, 0, 2, 0]), (0x01, []), (0x00, [7])] 0
        ([[6, 0, 0, 0, 0, 2, 0, 1], [1, 2, 0, 7]].take n) := by
  let : Platform := zeroPlatform
  have hfit : FramesFit 65536 [(0x00, [0, 0, 0, 2, 0]), (0x01, []), (0x00, [7])] := by
    unfold FramesFit
    decide +kernel
  exact ⟨hfit, (onRead_keeps_frames_iff connectedClient_listening hfit (by decide +kernel)).mpr (by decide +kernel)⟩

omit [Platform] in
/-- The first two bytes of a frame wait in the buffer; the next 65535 bytes do not fit behind them. -/
theorem onRead_drops_chunk :
    letI := zeroPlatform
    ∃ (packets : List (UInt32 × AString)) (chunks : List AString), FramesFit 65536 packets ∧
      (∀ chunk ∈ chunks, 1 ≤ chunk.length ∧ chunk.length ≤ 65535) ∧ chunks.flatten = stream packets ∧
        ¬∀ n, connectedClient.Receives packets 0 (chunks.take n) := by
  let : Platform := zeroPlatform
  obtain ⟨q, hq⟩ : ∃ q : UInt32 × AString, q = (0x00, [0]) := ⟨_, rfl⟩
  have hframe : frame (rawPacket q).body = [2, 0, 0] := by
    rw [hq]
    decide +kernel
  obtain ⟨middle, hmiddle⟩ : ∃ middle, middle = List.replicate 21844 q := ⟨_, rfl⟩
  have hlen : (stream middle).length = 65532 := by
    rw [hmiddle, stream_replicate_length, hframe]
    rfl
  have hall : ∀ p ∈ q :: (middle ++ [q]), p = q := by
    intro p hp
    simp only [List.mem_cons, List.mem_append, List.not_mem_nil, or_false, hmiddle] at hp
    rcases hp with rfl | hp | rfl
    · rfl
    · exact List.eq_of_mem_replicate hp
    · rfl
  have hfit : FramesFit 65536 (q :: (middle ++ [q])) := by
    intro p hp
    rw [hall p hp, hframe]
    decide
  have hstream : [[2, 0], [0] ++ stream middle ++ [2, 0], [0]].flatten = stream (q :: (middle ++ [q])) := by
    have hlast : stream [q] = [2, 0, 0] := by
      rw [stream_cons, hframe]
      rfl
    rw [stream_cons, stream_append, hlast, hframe]
    simp
  refine ⟨q :: (middle ++ [q]), [[2, 0], [0] ++ stream middle ++ [2, 0], [0]], hfit, ?_, hstream, ?_⟩
  · intro chunk hchunk
    simp only [List.mem_cons, List.not_mem_nil, or_false] at hchunk
    rcases hchunk with rfl | rfl | rfl
    · decide
    · simp [hlen]
    · decide
  · intro h
    have hkeeps := (connectedClient_listening.receives hfit (hstream ▸ List.prefix_rfl)).mp
      fun n => (receives_map ByteBuffer.contents_hom).mpr (h n)
    have hfirst : arrived (q :: (middle ++ [q])) (0 + ([2, 0] : AString).length) = [] := by
      rw [arrived, hframe]
      rfl
    have hfull : decide (0 + ([2, 0] : AString).length - (stream []).length +
        ([0] ++ stream middle ++ [2, 0]).length ≤ 65536) = false := by
      have hnil : (stream []).length = 0 := rfl
      simp [hnil, hlen]
    rw [keepsUp, hfirst, minds, mindsAfter, keepsUp, hfull] at hkeeps
    simp at hkeeps

end Streams

end PeerConnectionClient

end P2PChat
