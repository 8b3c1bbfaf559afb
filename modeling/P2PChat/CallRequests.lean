import P2PChat.CallLine

namespace P2PChat

open ByteQueue

/-- Whom the user asked for a call, who of them agreed, and whose requests were answered with 1, all since the
last call ended; and whom there have been connections for, and whether with such a consent. -/
structure Consents where
  asked : List UInt32
  agreed : List UInt32
  admitted : List UInt32
  calls : List (UInt32 × Bool)

namespace Consents

variable {β : Type} [ByteQueue β] [Platform]

def given (p : UInt32) (c : Consents) : Bool := c.agreed.contains p || c.admitted.contains p

def heard (x : Conductor β) (e : ConductorEvent β) (c : Consents) : Consents :=
  match e with
  | .connectToPeer p => { c with asked := p :: c.asked }
  | .packet bb packetType _ =>
    match x.news bb packetType with
    | some (.request p) => if x.isBusy then c else { c with admitted := p :: c.admitted }
    | some (.response p code) => if code = 1 ∧ p ∈ c.asked then { c with agreed := p :: c.agreed } else c
    | _ => c
  | _ => c

def made (x x' : Conductor β) (c : Consents) : Consents :=
  if x.created < x'.created then { c with calls := c.calls ++ [(x'.peer_id, c.given x'.peer_id)] } else c

def ended (x x' : Conductor β) (c : Consents) : Consents :=
  if x.peer_connection.isSome && x'.peer_connection.isNone then { c with asked := [], agreed := [], admitted := [] }
  else c

end Consents

namespace Conductor

section Definitions

variable {β : Type} [ByteQueue β]

/-- The conductor with a record of the consents that it has. -/
def consentMachine (β : Type) [ByteQueue β] [Platform] : Machine (Conductor β × Consents) (ConductorEvent β) Halt :=
  (conductorMachine β).recorded fun x e x' c => ((c.heard x e).made x x').ended x x'

variable [Platform]

/-- Who agrees to a call outside of one was asked for it or let in, and who sends a message outside of one has
agreed to a call or was let in. -/
def solicited (s : Conductor β × Consents) : ConductorEvent β → Bool
  | .packet bb packetType .created =>
    s.1.peer_connection.isSome ||
      match s.1.news bb packetType with
      | some (.response p code) => code != 1 || s.2.asked.contains p || s.2.given p
      | some (.message p _) => s.2.given p
      | _ => true
  | _ => true

/-- Who was told to go ahead and has not gone since. -/
def admitted (x : Conductor β) (e : ConductorEvent β) (callers : List UInt32) : List UInt32 :=
  match e with
  | .packet bb packetType _ =>
    match x.news bb packetType with
    | some (.request p) => if x.isBusy then callers else p :: callers
    | some (.gone p) => callers.filter fun caller => caller != p
    | _ => callers
  | _ => callers

/-- A call ends with its connection, all of them end with the connection to the server. -/
def remaining (x x' : Conductor β) (l : Line) (callers : List UInt32) : List UInt32 :=
  if x'.client.isConnected then
    if x.peer_connection.isSome && x'.peer_connection.isNone then
      callers.filter fun caller => l.partner x != some caller
    else callers
  else []

/-- The conductor with a record of its calls and of whom it told to go ahead. -/
def callerMachine (β : Type) [ByteQueue β] :
    Machine (Conductor β × Line × List UInt32) (ConductorEvent β) Halt :=
  (conductorMachine β).recorded fun x e x' (record : Line × List UInt32) =>
    (record.1.after x e x', remaining x x' record.1 (admitted x e record.2))

/-- A request comes during a call with a peer that has an ID of its own, in which nobody refused a call, or
while nobody else is told to go ahead. -/
def orderly (s : Conductor β × Line × List UInt32) : ConductorEvent β → Bool
  | .packet bb packetType _ =>
    match s.1.news bb packetType with
    | some (.request q) =>
      !s.2.1.refused && (s.2.1.partner s.1).any (fun p => p != noPeer) || s.2.2.all fun caller => caller == q
    | _ => true
  | _ => true

end Definitions

variable {β : Type} [ByteQueue β] [Platform] {x x' : Conductor β} {e : ConductorEvent β}

theorem news_request {bb : β} {packetType p : UInt32} (h : x.news bb packetType = some (.request p)) :
    x.client.protocolState = 3 ∧ packetType = 0x11 ∧ (readMedia bb).1 = some (p, 0) := by
  obtain ⟨hgame, ⟨_, info, _, hgone⟩ | ⟨htype, media, hread, hmedia⟩ | ⟨_, media, _, hmessage⟩⟩ := news_some h
  · cases hgone
  · split at hmedia
    next hzero =>
      cases hmedia
      exact ⟨hgame, htype, by rw [hread, ← hzero]⟩
    next => cases hmedia
  · split at hmessage
    next => cases hmessage
    next => cases hmessage

/-- A request is answered by whether the conductor is busy, and nothing else comes of it. -/
theorem request_answered {bb : β} {packetType p : UInt32} {r : Initialization}
    (hnews : x.news bb packetType = some (.request p)) (hok : x.step (.packet bb packetType r) = .ok x') :
    ∃ c c' : PeerConnectionClient β, c = { x.client with callbacks := [], isBusy := c.isBusy, log := c.log } ∧
      c.packet (mediaPacket p (if x.isBusy then noPeer else 1)) = .ok c' ∧ x' = { x with client := c' } := by
  obtain ⟨hgame, rfl, hread⟩ := news_request hnews
  obtain ⟨c, hc⟩ : ∃ c : PeerConnectionClient β,
      c = { x.client with callbacks := [], isBusy := fun _ => x.isBusy } := ⟨_, rfl⟩
  obtain ⟨asked, hasked⟩ : ∃ asked : PeerConnectionClient β, asked =
      { c.record (0x11, (readAll bb).1) with isBusy := fun n => c.isBusy (n + 1) } := ⟨_, rfl⟩
  have hhandled : PeerConnectionClient.handlePacket bb 0x11 c =
      (asked.packet (mediaPacket p (if x.isBusy then noPeer else 1))).map fun c' => (true, (readMedia bb).2, c') := by
    have hwork : c.protocolState = 3 := by rw [hc]; exact hgame
    rw [PeerConnectionClient.handlePacket_media hwork hread, PeerConnectionClient.mediaArrived, if_pos rfl, hasked, hc]
    rfl
  obtain ⟨c', hanswered, hobserved⟩ := bind_ok_iff.mp hok
  have hanswered : (PeerConnectionClient.handlePacket bb 0x11 c).map (fun handled => handled.2.2) = .ok c' := by
    rw [hc]
    exact hanswered
  rw [hhandled] at hanswered
  rcases hpacket : asked.packet (mediaPacket p (if x.isBusy then noPeer else 1)) with halt | c₁
  · rw [hpacket] at hanswered
    cases hanswered
  · rw [hpacket] at hanswered
    cases hanswered
    have hsilent : c₁.callbacks = [] := packet_told (by rw [hasked, hc]; rfl) c₁ hpacket
    rw [hsilent] at hobserved
    cases hobserved
    exact ⟨asked, c₁, by rw [hasked, hc]; rfl, hpacket, rfl⟩

/-- A connection is made by the answer or the message of somebody who is the peer then. -/
theorem created_news (hok : x.step e = .ok x') (hmade : x.created < x'.created) :
    ∃ bb packetType, e = .packet bb packetType .created ∧ x.peer_connection = none ∧
      (x.news bb packetType = some (.response x'.peer_id 1) ∨
        ∃ text, x.news bb packetType = some (.message x'.peer_id text)) := by
  obtain ⟨s', hs'⟩ : ∃ s', s' = x'.callState := ⟨_, rfl⟩
  have houtcome := step_outcome hok
  have hsame : x'.created = s'.created ∧ x'.peer_id = s'.peer_id := by rw [hs']; exact ⟨rfl, rfl⟩
  rw [hsame.1] at hmade
  rw [hsame.2]
  rw [← hs'] at houtcome
  cases houtcome with
  | created hnone hnews => exact ⟨_, _, rfl, hnone, hnews⟩
  | same => exact absurd hmade (Nat.lt_irrefl _)
  | queued hother => exact absurd hmade (Nat.lt_irrefl _)
  | sendMessage text => exact absurd hmade (Nat.lt_irrefl _)
  | deleted hturn => exact absurd hmade (Nat.lt_irrefl _)
  | hungUp hcall => exact absurd hmade (Nat.lt_irrefl _)
  | refused hnews => exact absurd hmade (Nat.lt_irrefl _)
  | closed hqueue => exact absurd hmade (Nat.lt_irrefl _)
  | rendered hqueue hother => exact absurd hmade (Nat.lt_irrefl _)
  | waited hqueue => exact absurd hmade (Nat.lt_irrefl _)
  | sent hqueue hfirst => exact absurd hmade (Nat.lt_irrefl _)

/-- In every run in which nobody who was not asked or let in agrees to a call or sends a message outside of one,
connections are made with a consent. -/
theorem no_call_without_consent {s : Conductor β × Consents}
    (h : (consentMachine β).Reach (fun s e => solicited s e = true) (create, ⟨[], [], [], []⟩) s) :
    ∀ call ∈ s.2.calls, call.2 = true := by
  refine h.invariant (I := fun s => ∀ call ∈ s.2.calls, call.2 = true) nofun ?_
  intro s e s' _ hs _ hsolicited hok
  obtain ⟨hstep, hrecord⟩ := Machine.recorded_ok hok
  have hheard : (s.2.heard s.1 e).calls = s.2.calls := by
    unfold Consents.heard
    split
    next => rfl
    next =>
      split
      next =>
        split
        next => rfl
        next => rfl
      next =>
        split
        next => rfl
        next => rfl
      next => rfl
    next => rfl
  have hended : ∀ c : Consents, (c.ended s.1 s'.1).calls = c.calls := by
    intro c
    unfold Consents.ended
    split
    next => rfl
    next => rfl
  rw [hrecord, hended]
  unfold Consents.made
  split
  next hmade =>
    intro call hmem
    rcases List.mem_append.mp hmem with hmem | hmem
    · exact hs call (hheard ▸ hmem)
    · rw [List.mem_singleton.mp hmem]
      obtain ⟨bb, packetType, rfl, hnone, hnews⟩ := created_news hstep hmade
      simp only [solicited, hnone, Option.isSome_none, Bool.false_or] at hsolicited
      rcases hnews with hnews | ⟨text, hnews⟩
      · simp only [hnews, bne_self_eq_false, Bool.false_or] at hsolicited
        simp only [Consents.heard, hnews, true_and]
        split
        next => simp [Consents.given]
        next hnever =>
          rcases Bool.or_eq_true_iff.mp hsolicited with hasked | hgiven
          · exact absurd (by simpa using hasked) hnever
          · exact hgiven
      · simp only [hnews] at hsolicited
        simpa only [Consents.heard, hnews] using hsolicited
  next =>
    rw [hheard]
    exact hs

omit [ByteQueue β] [Platform] in
theorem mem_remaining {l : Line} {callers : List UInt32} {p : UInt32} (h : p ∈ remaining x x' l callers) :
    p ∈ callers := by
  unfold remaining at h
  split at h
  next =>
    split at h
    next => exact (List.mem_filter.mp h).1
    next => exact h
  next => cases h

omit [ByteQueue β] [Platform] in
/-- In a call with a peer that has an ID of its own, in which nobody refused one, a conductor is busy. -/
theorem busy_in_call {l : Line} (hline : l.Agrees x.callState) (hrefused : l.refused = false)
    (hpartner : (l.partner x).any (fun p => p != noPeer) = true) : x.isBusy = true := by
  obtain ⟨p, hp, hpeer⟩ := (Option.any_eq_true _ _).mp hpartner
  obtain ⟨call, hcall, hof⟩ := Option.bind_eq_some_iff.mp hp
  obtain ⟨q, hq, hnow⟩ := hline.busy call hcall
  rw [hrefused] at hnow
  have hnow : x.peer_id = p := hnow.trans (Option.some.inj (hq.symm.trans hof))
  rw [isBusy, hnow, hcall, hpeer]
  rfl

/-- Whoever is told to go ahead in order is alone. -/
theorem admitted_alone {l : Line} {callers : List UInt32} (hline : l.Agrees x.callState)
    (halone : ∀ p ∈ callers, ∀ q ∈ callers, p = q) (horderly : orderly (x, l, callers) e = true) :
    ∀ p ∈ admitted x e callers, ∀ q ∈ admitted x e callers, p = q := by
  cases e with
  | packet bb packetType r =>
    rcases hnews : x.news bb packetType with _ | news
    · simpa [admitted, hnews] using halone
    · cases news with
      | request q =>
        simp only [orderly, hnews] at horderly
        simp only [admitted, hnews]
        split
        next => exact halone
        next hidle =>
          rcases Bool.or_eq_true_iff.mp horderly with hcall | hall
          · obtain ⟨hrefused, hpartner⟩ := Bool.and_eq_true_iff.mp hcall
            exact absurd (busy_in_call hline (by simpa using hrefused) hpartner) hidle
          · have hsame : ∀ p ∈ q :: callers, p = q := by
              intro p hmem
              rcases List.mem_cons.mp hmem with rfl | hmem
              · rfl
              · exact beq_iff_eq.mp (List.all_eq_true.mp hall p hmem)
            intro p hp p' hp'
            rw [hsame p hp, hsame p' hp']
      | gone q =>
        simp only [admitted, hnews]
        intro p hp p' hp'
        exact halone p (List.mem_filter.mp hp).1 p' (List.mem_filter.mp hp').1
      | response q code => simpa [admitted, hnews] using halone
      | message q text => simpa [admitted, hnews] using halone
  | startLogin username password => exact halone
  | connectToPeer peer_id => exact halone
  | disconnectFromCurrentPeer => exact halone
  | disconnectFromServer => exact halone
  | close => exact halone
  | opened => exact halone
  | closed => exact halone
  | iceGatheringComplete text => exact halone
  | addStream => exact halone
  | removeStream => exact halone
  | uiThreadCallback => exact halone

/-- In every run in which requests come in order, nobody is told to go ahead while somebody else is. -/
theorem one_caller {s : Conductor β × Line × List UInt32}
    (h : (callerMachine β).Reach (fun s e => orderly s e = true) (create, ⟨[], false⟩, []) s) :
    ∀ p ∈ s.2.2, ∀ q ∈ s.2.2, p = q := by
  suffices hall : s.2.1.Agrees s.1.callState ∧ ∀ p ∈ s.2.2, ∀ q ∈ s.2.2, p = q from hall.2
  refine h.invariant (I := fun s => s.2.1.Agrees s.1.callState ∧ ∀ p ∈ s.2.2, ∀ q ∈ s.2.2, p = q) ?_ ?_
  · exact ⟨⟨rfl, fun _ => rfl, nofun⟩, nofun⟩
  · intro s e s' _ hs _ horderly hok
    obtain ⟨hstep, hrecord⟩ := Machine.recorded_ok hok
    rw [hrecord]
    exact ⟨hs.1.step hstep, fun p hp q hq =>
      admitted_alone hs.1 hs.2 horderly p (mem_remaining hp) q (mem_remaining hq)⟩

section Runs

/-- A packet with this code from this peer. -/
def mediaFrom (peer_id code : UInt8) (r : Initialization) : ConductorEvent ByteBuffer :=
  .packet (packetBuffer [peer_id, code]) 0x11 r

omit [ByteQueue β] [Platform] in
/-- 7 asks, is let in, and calls; after that call the user asks 9, who agrees. -/
theorem no_call_without_consent_two :
    letI := zeroPlatform
    ∃ s : Conductor ByteBuffer × Consents, s.2.calls.map Prod.fst = [7, 9] ∧ ∀ call ∈ s.2.calls, call.2 = true := by
  let : Platform := zeroPlatform
  have hrun : ((consentMachine ByteBuffer).replay (fun s e => s.1.enabled e && solicited s e)
      (loggedIn ++ [mediaFrom 7 0 .noFactory, calledBy 7, .disconnectFromCurrentPeer, .connectToPeer 9,
        mediaFrom 9 1 .created]) (create, ⟨[], [], [], []⟩)).map (fun s => s.2.calls.map Prod.fst) = some [7, 9] := by
    decide +kernel
  obtain ⟨s, hs, hcalls⟩ := Option.map_eq_some_iff.mp hrun
  refine ⟨s, hcalls, no_call_without_consent (Machine.replay_reach (fun s e he => ?_) .start hs)⟩
  exact Bool.and_eq_true_iff.mp he

omit [ByteQueue β] [Platform] in
/-- 9 agrees to a call that nobody asked for; 7 sends a message without a request. -/
theorem call_without_consent :
    letI := zeroPlatform
    (∃ s : Conductor ByteBuffer × Consents, (consentMachine ByteBuffer).Reachable (create, ⟨[], [], [], []⟩) s ∧
      s.2.calls = [(9, false)]) ∧
    ∃ s : Conductor ByteBuffer × Consents, (consentMachine ByteBuffer).Reachable (create, ⟨[], [], [], []⟩) s ∧
      s.2.calls = [(7, false)] := by
  let : Platform := zeroPlatform
  have hanswer : ((consentMachine ByteBuffer).replay (fun s e => s.1.enabled e)
      (loggedIn ++ [mediaFrom 9 1 .created]) (create, ⟨[], [], [], []⟩)).map (fun s => s.2.calls) =
        some [(9, false)] := by
    decide +kernel
  have hmessage : ((consentMachine ByteBuffer).replay (fun s e => s.1.enabled e)
      (loggedIn ++ [calledBy 7]) (create, ⟨[], [], [], []⟩)).map (fun s => s.2.calls) = some [(7, false)] := by
    decide +kernel
  obtain ⟨s, hs, hcalls⟩ := Option.map_eq_some_iff.mp hanswer
  obtain ⟨t, ht, hcalls'⟩ := Option.map_eq_some_iff.mp hmessage
  exact ⟨⟨s, Machine.replay_reach (fun s e he => ⟨he, trivial⟩) .start hs, hcalls⟩,
    t, Machine.replay_reach (fun s e he => ⟨he, trivial⟩) .start ht, hcalls'⟩

omit [ByteQueue β] [Platform] in
/-- 7 is let in and calls, 9 is told that the client is busy. -/
theorem one_caller_busy :
    letI := zeroPlatform
    ∃ s : Conductor ByteBuffer × Line × List UInt32, s.2.2 = [7] ∧ ∀ p ∈ s.2.2, ∀ q ∈ s.2.2, p = q := by
  let : Platform := zeroPlatform
  have hrun : ((callerMachine ByteBuffer).replay (fun s e => s.1.enabled e && orderly s e)
      (loggedIn ++ [mediaFrom 7 0 .noFactory, calledBy 7, mediaFrom 9 0 .noFactory])
      (create, ⟨[], false⟩, [])).map (fun s => s.2.2) = some [7] := by
    decide +kernel
  obtain ⟨s, hs, hcallers⟩ := Option.map_eq_some_iff.mp hrun
  refine ⟨s, hcallers, one_caller (Machine.replay_reach (fun s e he => ?_) .start hs)⟩
  exact Bool.and_eq_true_iff.mp he

omit [ByteQueue β] [Platform] in
/-- 9 asks before the first message of 7 comes, and both are told to go ahead. -/
theorem two_callers :
    letI := zeroPlatform
    ∃ s : Conductor ByteBuffer × Line × List UInt32,
      (callerMachine ByteBuffer).Reachable (create, ⟨[], false⟩, []) s ∧ s.2.2 = [9, 7] := by
  let : Platform := zeroPlatform
  have hrun : ((callerMachine ByteBuffer).replay (fun s e => s.1.enabled e)
      (loggedIn ++ [mediaFrom 7 0 .noFactory, mediaFrom 9 0 .noFactory])
      (create, ⟨[], false⟩, [])).map (fun s => s.2.2) = some [9, 7] := by
    decide +kernel
  obtain ⟨s, hs, hcallers⟩ := Option.map_eq_some_iff.mp hrun
  exact ⟨s, Machine.replay_reach (fun s e he => ⟨he, trivial⟩) .start hs, hcallers⟩

end Runs

end Conductor

end P2PChat
