import P2PChat.EndpointRules
import P2PChat.Reassembly

namespace P2PChat

open ByteQueue

section Frames

variable [Platform]

/-- A complete frame at the head of a part of a stream is the first of the stream. -/
theorem nextFrame_stream {u payload rest : AString} {todo : List (UInt32 × AString)}
    (hsize : ∀ p ∈ todo, (rawPacket p).body.length < 2 ^ 32) (hu : u <+: stream todo)
    (h : nextFrame u = some (payload, rest)) :
    ∃ p todo', todo = p :: todo' ∧ payload = (rawPacket p).body ∧ u = frame payload ++ rest ∧
      rest <+: stream todo' := by
  cases todo with
  | nil =>
    rw [List.prefix_nil.mp hu, nextFrame_nil] at h
    cases h
  | cons p todo =>
    have hbody := hsize p List.mem_cons_self
    rw [stream_cons] at hu
    by_cases hlt : u.length < (frame (rawPacket p).body).length
    · have hcut := List.prefix_of_prefix_length_le hu (List.prefix_append _ _) (Nat.le_of_lt hlt)
      rw [nextFrame_part hbody hcut hlt] at h
      cases h
    · obtain ⟨v, hv⟩ := List.prefix_of_prefix_length_le (List.prefix_append _ (stream todo)) hu
        (Nat.le_of_not_lt hlt)
      subst hv
      rw [nextFrame_frame hbody] at h
      cases h
      exact ⟨p, todo, rfl, rfl, rfl, (List.prefix_append_right_inj _).mp hu⟩

theorem opened_rawPacket (p : UInt32 × AString) :
    opened (rawPacket p).body = some (p.1, p.2 ++ [0]) := by
  rw [rawPacket_body, opened, parseVarInt_varInt]
  dsimp only
  rw [List.drop_left]

omit [Platform] in
theorem rawPacket_length (p : UInt32 × AString) : (p.2 ++ [0]).length ≤ (rawPacket p).body.length := by
  have hpos := varInt_length_pos p.1
  rw [rawPacket_body, List.length_append, List.length_append, List.length_singleton]
  omega

end Frames

variable [Platform] {σ : Type}

/-- A rule for `AddReceivedData` on a stream: `P` of the frames that were handled and of the state is
kept from frame to frame, whatever is in the buffer. A frame that is refused ends the loop, and one that
closes the connection empties the buffer. -/
structure Endpoint.ClosingRule (E : Endpoint Fifo σ) (capacity : Nat) (todo : List (UInt32 × AString))
    (P : List (UInt32 × AString) → σ → Prop) (refused closed : σ → Prop) (halted : Halt → Prop) : Prop where
  received : ∀ b s, E.received (E.setReceived b s) = b
  setReceived : ∀ done u s, u.length ≤ capacity → P done s →
    P done (E.setReceived (Fifo.filled capacity u) s)
  frame : ∀ done p rest bb s, todo = done ++ p :: rest → P done s → bb.unread = p.2 ++ [0] →
    bb.unread.length ≤ capacity →
    (∃ e, E.handleFrame p.1 bb s = .error e ∧ halted e) ∨
      (∃ goesOn s', E.handleFrame p.1 bb s = .ok (goesOn, s') ∧ E.received s' = E.received s ∧
        P (done ++ [p]) s' ∧ (goesOn = false → refused s')) ∨
      ∃ s', E.handleFrame p.1 bb s = .ok (true, s') ∧ E.received s' = Fifo.filled capacity [] ∧
        closed (E.setReceived (Fifo.filled capacity []) s')

/-- Of these bytes, frames of the stream have been taken, and the rest is in the buffer; or the buffer
was emptied. -/
inductive Endpoint.Left (E : Endpoint Fifo σ) (capacity : Nat) (todo : List (UInt32 × AString))
    (P : List (UInt32 × AString) → σ → Prop) (refused closed : σ → Prop) (bytes : AString) (s : σ) : Prop
  | reading (done rest : List (UInt32 × AString)) (v : AString) : todo = done ++ rest →
      bytes = stream done ++ v → v.length ≤ capacity → E.received s = Fifo.filled capacity v → P done s →
      refused s ∨ nextFrame v = none → Left E capacity todo P refused closed bytes s
  | emptied : E.received s = Fifo.filled capacity [] → closed s →
      Left E capacity todo P refused closed bytes s

namespace Endpoint.ClosingRule

variable {E : Endpoint Fifo σ} {capacity : Nat} {todo : List (UInt32 × AString)}
  {P : List (UInt32 × AString) → σ → Prop} {refused closed : σ → Prop} {halted : Halt → Prop}

/-- Where the loop stands: some frames are done, and these bytes are in the buffer; or it was emptied. -/
inductive Stands (E : Endpoint Fifo σ) (capacity : Nat) (todo : List (UInt32 × AString))
    (P : List (UInt32 × AString) → σ → Prop) (closed : σ → Prop) (bytes v : AString) (s : σ) : Prop
  | reading (done rest : List (UInt32 × AString)) : todo = done ++ rest → bytes = stream done ++ v →
      v.length ≤ capacity → E.received s = Fifo.filled capacity v → P done s →
      Stands E capacity todo P closed bytes v s
  | emptied : v = [] → E.received s = Fifo.filled capacity [] →
      closed (E.setReceived (Fifo.filled capacity []) s) → Stands E capacity todo P closed bytes v s

theorem rule (hE : E.ClosingRule capacity todo P refused closed halted)
    (hsize : ∀ p ∈ todo, (rawPacket p).body.length < 2 ^ 32) {bytes : AString}
    (hstart : bytes <+: stream todo) :
    E.FrameRule capacity (Stands E capacity todo P closed bytes) (fun r => match r with
      | .ok s => E.Left capacity todo P refused closed bytes s
      | .error e => halted e) := by
  have hfirst : ∀ {done todo' : List (UInt32 × AString)} {v payload rest : AString},
      todo = done ++ todo' → bytes = stream done ++ v → v.length ≤ capacity →
      nextFrame v = some (payload, rest) → ∃ p todo'', todo = done ++ p :: todo'' ∧
        bytes = stream (done ++ [p]) ++ rest ∧ opened payload = some (p.1, p.2 ++ [0]) ∧
          (p.2 ++ [0]).length ≤ capacity ∧ rest.length ≤ capacity := by
    intro done todo' v payload rest htodo hbytes hv hnext
    have hlen := nextFrame_length hnext
    rw [htodo, stream_append, hbytes] at hstart
    obtain ⟨p, todo'', hcons, hpayload, hv', _⟩ := nextFrame_stream
      (fun q hq => hsize q (by rw [htodo]; exact List.mem_append_right _ hq))
      ((List.prefix_append_right_inj _).mp hstart) hnext
    have hbody := rawPacket_length p
    refine ⟨p, todo'', by rw [htodo, hcons], ?_, ?_, ?_, by omega⟩
    · rw [hbytes, hv', stream_append, stream_cons, hpayload, List.append_assoc, List.append_assoc]
      rfl
    · rw [hpayload]
      exact opened_rawPacket p
    · rw [← hpayload] at hbody
      omega
  refine ⟨?_, ?_, ?_, ?_⟩
  · intro v s hs
    cases hs with
    | reading _ _ _ _ hv hrec _ => exact ⟨hv, hrec⟩
    | emptied hv hrec _ =>
      rw [hv]
      exact ⟨Nat.zero_le _, hrec⟩
  · intro v s hs hnext
    cases hs with
    | reading done rest htodo hbytes hv _ hp =>
      exact .reading done rest v htodo hbytes hv (hE.received _ _) (hE.setReceived done v s hv hp)
        (Or.inr hnext)
    | emptied hv _ hclosed =>
      rw [hv]
      exact .emptied (hE.received _ _) hclosed
  · intro v s payload rest hs hnext hopen
    cases hs with
    | reading done todo' htodo hbytes hv _ _ =>
      obtain ⟨_, _, _, _, hopened, _⟩ := hfirst htodo hbytes hv hnext
      rw [hopen] at hopened
      cases hopened
    | emptied hv _ _ =>
      rw [hv, nextFrame_nil] at hnext
      cases hnext
  · intro v s payload rest packetType bb hs hnext hopen
    cases hs with
    | emptied hv _ _ =>
      rw [hv, nextFrame_nil] at hnext
      cases hnext
    | reading done todo' htodo hbytes hv _ hp =>
      obtain ⟨p, todo'', htodo, hbytes, hopened, hlen, hrest⟩ := hfirst htodo hbytes hv hnext
      rw [hopen] at hopened
      obtain ⟨htype, hbb⟩ := Prod.mk.inj (Option.some.inj hopened)
      rw [htype]
      have htodo' : todo = (done ++ [p]) ++ todo'' := by simp [htodo]
      rcases hE.frame done p todo'' bb _ htodo (hE.setReceived done rest s hrest hp) hbb
        (by rw [hbb]; exact hlen) with
        ⟨e, herror, hhalted⟩ | ⟨goesOn, s', hok, hreceived, hp', hrefused⟩ | ⟨s', hok, hreceived, hclosed⟩
      · exact Or.inl ⟨e, herror, hhalted⟩
      · rw [hE.received] at hreceived
        cases goesOn with
        | false =>
          exact Or.inr (Or.inl ⟨s', hok, .reading (done ++ [p]) todo'' rest htodo' hbytes hrest hreceived
            hp' (Or.inl (hrefused rfl))⟩)
        | true =>
          exact Or.inr (Or.inr ⟨s', rest, hok, Nat.le_refl _, .reading (done ++ [p]) todo'' htodo' hbytes
            hrest hreceived hp'⟩)
      · exact Or.inr (Or.inr ⟨s', [], hok, Nat.zero_le _, .emptied rfl hreceived hclosed⟩)

omit [Platform] in
/-- What every frame keeps that does not close the connection is kept beside the rest. -/
theorem and {Q : List (UInt32 × AString) → σ → Prop} (hE : E.ClosingRule capacity todo P refused closed halted)
    (hset : ∀ done u s, u.length ≤ capacity → Q done s → Q done (E.setReceived (Fifo.filled capacity u) s))
    (hframe : ∀ done p rest bb s goesOn s', todo = done ++ p :: rest → P done s → Q done s →
      bb.unread = p.2 ++ [0] → E.handleFrame p.1 bb s = .ok (goesOn, s') → P (done ++ [p]) s' →
      Q (done ++ [p]) s') :
    E.ClosingRule capacity todo (fun done s => P done s ∧ Q done s) refused closed halted where
  received := hE.received
  setReceived done u s hu h := ⟨hE.setReceived done u s hu h.1, hset done u s hu h.2⟩
  frame done p rest bb s htodo h hbb hlen := by
    rcases hE.frame done p rest bb s htodo h.1 hbb hlen with
      hhalts | ⟨goesOn, s', hok, hreceived, hp, hrefused⟩ | hcloses
    · exact Or.inl hhalts
    · have hq := hframe done p rest bb s goesOn s' htodo h.1 h.2 hbb hok hp
      exact Or.inr (Or.inl ⟨goesOn, s', hok, hreceived, ⟨hp, hq⟩, hrefused⟩)
    · exact Or.inr (Or.inr hcloses)

/-- Data that fits, and goes on with the stream, is taken frame by frame. -/
theorem addReceivedData (hE : E.ClosingRule capacity todo P refused closed halted)
    (hcap : capacity + 1 < 2 ^ 32) (hsize : ∀ p ∈ todo, (rawPacket p).body.length < 2 ^ 32)
    {u data : AString} {s : σ} (hu : u.length ≤ capacity) (hrec : E.received s = Fifo.filled capacity u)
    (hfit : (u ++ data).length ≤ capacity) (hstart : u ++ data <+: stream todo) (hp : P [] s) :
    match E.addReceivedData data s with
    | .ok s' => E.Left capacity todo P refused closed (u ++ data) s'
    | .error e => halted e := by
  refine (hE.rule hsize hstart).addReceivedData hcap hu hrec hfit ?_
  exact .reading [] todo rfl rfl hfit (hE.received _ _) (hE.setReceived [] _ s hfit hp)

end Endpoint.ClosingRule

/-- The same, where no frame closes the connection. -/
structure Endpoint.StreamRule (E : Endpoint Fifo σ) (capacity : Nat) (todo : List (UInt32 × AString))
    (P : List (UInt32 × AString) → σ → Prop) (refused : Prop) (halted : Halt → Prop) : Prop where
  received : ∀ b s, E.received (E.setReceived b s) = b
  setReceived : ∀ done u s, u.length ≤ capacity → P done s →
    P done (E.setReceived (Fifo.filled capacity u) s)
  frame : ∀ done p rest bb s, todo = done ++ p :: rest → P done s → bb.unread = p.2 ++ [0] →
    bb.unread.length ≤ capacity →
    (∃ e, E.handleFrame p.1 bb s = .error e ∧ halted e) ∨
      ∃ goesOn s', E.handleFrame p.1 bb s = .ok (goesOn, s') ∧ E.received s' = E.received s ∧
        P (done ++ [p]) s' ∧ (goesOn = false → refused)

/-- Of these bytes, frames of the stream have been taken, and the rest is in the buffer. -/
def Endpoint.Taken (E : Endpoint Fifo σ) (capacity : Nat) (todo : List (UInt32 × AString))
    (P : List (UInt32 × AString) → σ → Prop) (refused : Prop) (bytes : AString) (s : σ) : Prop :=
  ∃ done rest v, todo = done ++ rest ∧ bytes = stream done ++ v ∧ v.length ≤ capacity ∧
    E.received s = Fifo.filled capacity v ∧ P done s ∧ (refused ∨ nextFrame v = none)

namespace Endpoint.StreamRule

variable {E : Endpoint Fifo σ} {capacity : Nat} {todo : List (UInt32 × AString)}
  {P : List (UInt32 × AString) → σ → Prop} {refused : Prop} {halted : Halt → Prop}

omit [Platform] in
theorem closingRule (hE : E.StreamRule capacity todo P refused halted) :
    E.ClosingRule capacity todo P (fun _ => refused) (fun _ => False) halted where
  received := hE.received
  setReceived := hE.setReceived
  frame done p rest bb s htodo hp hbb hlen :=
    (hE.frame done p rest bb s htodo hp hbb hlen).imp_right Or.inl

/-- Data that fits, and goes on with the stream, is taken frame by frame. -/
theorem addReceivedData (hE : E.StreamRule capacity todo P refused halted)
    (hcap : capacity + 1 < 2 ^ 32) (hsize : ∀ p ∈ todo, (rawPacket p).body.length < 2 ^ 32)
    {u data : AString} {s : σ} (hu : u.length ≤ capacity) (hrec : E.received s = Fifo.filled capacity u)
    (hfit : (u ++ data).length ≤ capacity) (hstart : u ++ data <+: stream todo) (hp : P [] s) :
    match E.addReceivedData data s with
    | .ok s' => E.Taken capacity todo P refused (u ++ data) s'
    | .error e => halted e := by
  have hleft := hE.closingRule.addReceivedData hcap hsize hu hrec hfit hstart hp
  rcases hdata : E.addReceivedData data s with e | s'
  · rw [hdata] at hleft
    exact hleft
  · rw [hdata] at hleft
    cases hleft with
    | reading done rest v htodo hbytes hv hreceived hp' hwait =>
      exact ⟨done, rest, v, htodo, hbytes, hv, hreceived, hp', hwait⟩
    | emptied _ hno => exact hno.elim

end Endpoint.StreamRule

end P2PChat
