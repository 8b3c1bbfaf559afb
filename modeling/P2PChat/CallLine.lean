import P2PChat.ConductorSteps
import P2PChat.Histories

namespace P2PChat

open ByteQueue

/-- Whom the connections were made for, one after another, and whether somebody has refused a call since the
last of them was made. -/
structure Line where
  peers : List UInt32
  refused : Bool

namespace Conductor

variable {β : Type} [ByteQueue β] [Platform] {x x' : Conductor β} {e : ConductorEvent β}

/-- Somebody refuses a call. -/
def hasRefusal (x : Conductor β) : ConductorEvent β → Bool
  | .packet bb packetType _ =>
    match x.news bb packetType with
    | some (.response _ code) => code == noPeer
    | _ => false
  | _ => false

theorem refusal_callState (h : x.hasRefusal e = true) (hok : x.step e = .ok x') :
    x'.callState = { x.callState with peer_id := noPeer } := by
  cases e with
  | packet bb packetType r =>
    unfold hasRefusal at h
    dsimp only at h
    rcases hnews : x.news bb packetType with _ | news
    · simp [hnews] at h
    · rw [hnews] at h
      cases news with
      | response peer_id code =>
        have hcode : code = noPeer := by simpa using h
        subst hcode
        obtain ⟨c, htold, hobserved⟩ := packet_observed hok
        rw [hnews] at htold
        rw [show c.callbacks = [.onPeerResponse peer_id noPeer] from htold] at hobserved
        have hone := observeAll_one hobserved
        rw [observe, onPeerResponse, if_neg (by decide), if_pos rfl] at hone
        cases hone
        rfl
      | request peer_id => cases h
      | message peer_id text => cases h
      | gone peer_id => cases h
  | startLogin username password => cases h
  | connectToPeer peer_id => cases h
  | disconnectFromCurrentPeer => cases h
  | disconnectFromServer => cases h
  | close => cases h
  | opened => cases h
  | closed => cases h
  | iceGatheringComplete text => cases h
  | addStream => cases h
  | removeStream => cases h
  | uiThreadCallback => cases h

end Conductor

namespace Line

section Definitions

variable {β : Type} [ByteQueue β] [Platform]

/-- A connection is made last in a step, for whoever is the peer then. -/
def after (x : Conductor β) (e : ConductorEvent β) (x' : Conductor β) (l : Line) : Line :=
  if x.created < x'.created then ⟨l.peers ++ [x'.peer_id], false⟩
  else { l with refused := l.refused || x.hasRefusal e }

/-- Whom the call is with. -/
def partner (x : Conductor β) (l : Line) : Option UInt32 := x.peer_connection.bind fun call => l.peers[call]?

/-- The peer is who the connection was made for, unless somebody refused a call. -/
structure Agrees (l : Line) (s : CallState) : Prop where
  created : l.peers.length = s.created
  idle : s.peer_connection = none → s.peer_id = Conductor.noPeer
  busy : ∀ call, s.peer_connection = some call →
    ∃ p, l.peers[call]? = some p ∧ s.peer_id = if l.refused then Conductor.noPeer else p

end Definitions

variable {l : Line}

theorem Agrees.same {s s' : CallState} (h : l.Agrees s) (hpeer : s'.peer_id = s.peer_id)
    (hconnection : s'.peer_connection = s.peer_connection) (hcreated : s'.created = s.created) : l.Agrees s' := by
  refine ⟨by rw [hcreated]; exact h.created, fun hnone => ?_, fun call hcall => ?_⟩
  · rw [hpeer]
    exact h.idle (hconnection.symm.trans hnone)
  · rw [hpeer]
    exact h.busy call (hconnection.symm.trans hcall)

theorem Agrees.deleted {s s' : CallState} (h : l.Agrees s) (hpeer : s'.peer_id = Conductor.noPeer)
    (hconnection : s'.peer_connection = none) (hcreated : s'.created = s.created) : l.Agrees s' :=
  ⟨by rw [hcreated]; exact h.created, fun _ => hpeer, fun call hcall => by rw [hconnection] at hcall; cases hcall⟩

/-- After its message was taken, a conductor without a connection has no peer. -/
theorem Agrees.turn {s s' : CallState} (h : l.Agrees s)
    (hpeer : s'.peer_id = if s.peer_connection.isNone then Conductor.noPeer else s.peer_id)
    (hconnection : s'.peer_connection = s.peer_connection) (hcreated : s'.created = s.created) : l.Agrees s' := by
  refine h.same ?_ hconnection hcreated
  rw [hpeer]
  split
  next hnone => exact (h.idle (by simpa using hnone)).symm
  next => rfl

variable {β : Type} [ByteQueue β] [Platform] {x x' : Conductor β} {e : ConductorEvent β}

/-- Of what is on record, the peer of no call changes. -/
theorem after_peers {call : Nat} {q : UInt32} (h : l.peers[call]? = some q) :
    (l.after x e x').peers[call]? = some q := by
  unfold after
  split
  next =>
    obtain ⟨hlt, _⟩ := List.getElem?_eq_some_iff.mp h
    simpa [List.getElem?_append_left hlt] using h
  next => exact h

theorem Agrees.step (h : l.Agrees x.callState) (hok : x.step e = .ok x') : (l.after x e x').Agrees x'.callState := by
  by_cases hrefusal : x.hasRefusal e = true
  · have hstate := Conductor.refusal_callState hrefusal hok
    have hcreated : x'.created = x.created := congrArg CallState.created hstate
    have hafter : l.after x e x' = { l with refused := true } := by
      rw [after, if_neg (by omega), hrefusal, Bool.or_true]
    rw [hafter, hstate]
    refine ⟨h.created, fun _ => rfl, fun call hcall => ?_⟩
    obtain ⟨p, hp, _⟩ := h.busy call hcall
    exact ⟨p, hp, rfl⟩
  · have hquiet : x.hasRefusal e = false := Bool.not_eq_true _ ▸ hrefusal
    have hafter : x'.callState.created = x.created → l.after x e x' = l := by
      intro hcreated
      have hcreated : x'.created = x.created := hcreated
      rw [after, if_neg (by omega), hquiet, Bool.or_false]
    obtain ⟨s', hs'⟩ : ∃ s', s' = x'.callState := ⟨_, rfl⟩
    have houtcome := Conductor.step_outcome hok
    have hmade : x'.created = s'.created ∧ x'.peer_id = s'.peer_id := by rw [hs']; exact ⟨rfl, rfl⟩
    rw [← hs'] at hafter houtcome ⊢
    cases houtcome with
    | same =>
      rw [hafter rfl]
      exact h
    | queued hother =>
      rw [hafter rfl]
      exact h.same rfl rfl rfl
    | sendMessage text =>
      rw [hafter rfl]
      exact h.same rfl rfl rfl
    | deleted hturn =>
      rw [hafter rfl]
      exact h.deleted rfl rfl rfl
    | hungUp hcall =>
      rw [hafter rfl]
      exact h.deleted rfl rfl rfl
    | closed hqueue =>
      rw [hafter rfl]
      exact h.deleted rfl rfl rfl
    | rendered hqueue hother =>
      rw [hafter rfl]
      exact h.same rfl rfl rfl
    | waited hqueue =>
      rw [hafter rfl]
      exact h.turn rfl rfl rfl
    | sent hqueue hfirst =>
      rw [hafter rfl]
      exact h.turn rfl rfl rfl
    | refused hnews => simp [Conductor.hasRefusal, hnews] at hquiet
    | created hnone hnews =>
      obtain ⟨hcreated, hpeer⟩ := hmade
      have hlength : l.peers.length = x.created := h.created
      rw [after, if_pos (by rw [hcreated]; exact Nat.lt_succ_self _), hpeer]
      refine ⟨by simp [hlength], nofun, fun call hcall => ?_⟩
      cases hcall
      exact ⟨_, by simp [← hlength], rfl⟩

end Line

end P2PChat
