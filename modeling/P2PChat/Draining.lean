import P2PChat.EndpointRules

namespace P2PChat

open ByteQueue

/-- What a party does with a packet: the call does not return, the packet is refused, or it is taken;
then the state that follows, and whether what is left in the buffer is kept. -/
inductive Verdict (φ : Type) where
  | halts
  | refuses
  | takes (next : φ) (keeps : Bool)

section Recursion

variable [Platform] {φ : Type} (react : φ → UInt32 → AString → Verdict φ)

def stallsWithin : Nat → φ → AString → Bool
  | 0, _, _ => false
  | rounds + 1, x, u =>
    match nextFrame u with
    | none => false
    | some (payload, rest) =>
      match opened payload with
      | none => (nextFrame rest).isSome
      | some (packetType, bytes) =>
        match react x packetType bytes with
        | .halts => false
        | .refuses => (nextFrame rest).isSome
        | .takes y keeps => stallsWithin rounds y (if keeps then rest else [])

/-- Of the frames in these bytes, the first that has no type, or is refused, has another complete one
behind it. -/
def stalls (x : φ) (u : AString) : Bool := stallsWithin react u.length x u

theorem stallsWithin_enough {rounds rounds' : Nat} {x : φ} {u : AString} (h : u.length ≤ rounds)
    (h' : u.length ≤ rounds') : stallsWithin react rounds x u = stallsWithin react rounds' x u := by
  induction rounds generalizing rounds' x u with
  | zero =>
    have hnil : u = [] := List.length_eq_zero_iff.mp (by omega)
    subst hnil
    cases rounds' with
    | zero => rfl
    | succ rounds' => rfl
  | succ rounds ih =>
    rcases hnext : nextFrame u with _ | ⟨payload, rest⟩
    · cases rounds' with
      | zero => simp only [stallsWithin, hnext]
      | succ rounds' => simp only [stallsWithin, hnext]
    · have hlen := nextFrame_length hnext
      obtain ⟨n, rfl⟩ : ∃ n, rounds' = n + 1 := ⟨rounds' - 1, by omega⟩
      have hrest : ∀ (y : φ) (keeps : Bool), stallsWithin react rounds y (if keeps then rest else []) =
          stallsWithin react n y (if keeps then rest else []) := by
        intro y keeps
        cases keeps with
        | true => exact ih (u := rest) (by omega) (by omega)
        | false => exact ih (u := []) (Nat.zero_le _) (Nat.zero_le _)
      simp only [stallsWithin, hnext, hrest]

theorem stalls_none {x : φ} {u : AString} (h : nextFrame u = none) : stalls react x u = false := by
  unfold stalls
  rcases u.length with _ | n
  · rfl
  · simp only [stallsWithin, h]

theorem stalls_unreadable {x : φ} {u payload rest : AString} (h : nextFrame u = some (payload, rest))
    (hopen : opened payload = none) : stalls react x u = (nextFrame rest).isSome := by
  have hlen := nextFrame_length h
  obtain ⟨n, hn⟩ : ∃ n, u.length = n + 1 := ⟨u.length - 1, by omega⟩
  unfold stalls
  simp only [hn, stallsWithin, h, hopen]

theorem stalls_cons {x : φ} {u payload rest bytes : AString} {packetType : UInt32}
    (h : nextFrame u = some (payload, rest)) (hopen : opened payload = some (packetType, bytes)) :
    stalls react x u =
      match react x packetType bytes with
      | .halts => false
      | .refuses => (nextFrame rest).isSome
      | .takes y keeps => stalls react y (if keeps then rest else []) := by
  have hlen := nextFrame_length h
  obtain ⟨n, hn⟩ : ∃ n, u.length = n + 1 := ⟨u.length - 1, by omega⟩
  have hrest : ∀ (y : φ) (keeps : Bool), stallsWithin react n y (if keeps then rest else []) =
      stalls react y (if keeps then rest else []) := by
    intro y keeps
    cases keeps with
    | true => exact @stallsWithin_enough _ _ react n rest.length y rest (by omega) (Nat.le_refl _)
    | false =>
      exact @stallsWithin_enough _ _ react n ([] : AString).length y [] (Nat.zero_le _) (Nat.le_refl _)
  rw [stalls]
  simp only [hn, stallsWithin, h, hopen, hrest]

end Recursion

/-- `m_ReceivedData` does not begin with a complete frame. -/
def Endpoint.Drained [Platform] {β σ : Type} [ByteQueue β] (E : Endpoint β σ) (s : σ) : Prop :=
  nextFrame (readAll (E.received s)).1 = none

instance [Platform] {β σ : Type} [ByteQueue β] (E : Endpoint β σ) (s : σ) : Decidable (E.Drained s) :=
  inferInstanceAs (Decidable (_ = none))

variable [Platform] {σ φ : Type}

/-- The call comes to what the verdict says. -/
def Verdict.Describes (E : Endpoint Fifo σ) (capacity : Nat) (P : φ → AString → σ → Prop)
    (rest : AString) (r : Except Halt (Bool × Fifo × σ)) : Verdict φ → Prop
  | .halts => ∃ e, r = .error e
  | .refuses => ∃ bb s, r = .ok (false, bb, s) ∧ E.received s = Fifo.filled capacity rest
  | .takes y keeps => ∃ bb s, r = .ok (true, bb, s) ∧ P y (if keeps then rest else []) s

/-- The verdicts of `react` are what `HandlePacket` does; `P` relates its states to those of the
endpoint, with the bytes that are in the buffer. -/
structure Endpoint.Follows (E : Endpoint Fifo σ) (capacity : Nat)
    (react : φ → UInt32 → AString → Verdict φ) (P : φ → AString → σ → Prop) : Prop where
  received : ∀ x u s, P x u s → u.length ≤ capacity ∧ E.received s = Fifo.filled capacity u
  setReceived : ∀ b s, E.received (E.setReceived b s) = b
  packet : ∀ x u s payload rest packetType bb, P x u s → nextFrame u = some (payload, rest) →
    opened payload = some (packetType, bb.unread) →
    (react x packetType bb.unread).Describes E capacity P rest
      (E.handlePacket bb packetType (E.setReceived (Fifo.filled capacity rest) s))
  packetError : ∀ x u s packetType, P x u s → ∃ s', E.packetError packetType s = .ok s' ∧ P x u s'

variable {E : Endpoint Fifo σ} {capacity : Nat} {react : φ → UInt32 → AString → Verdict φ}
  {P : φ → AString → σ → Prop}

theorem filled_drained {s : σ} {u : AString} (hu : u.length ≤ capacity)
    (h : E.received s = Fifo.filled capacity u) : E.Drained s ↔ nextFrame u = none := by
  obtain ⟨_, _, hunread⟩ := Fifo.filled_eq hu
  rw [Endpoint.Drained, h, readAll_fifo, hunread]

/-- The loop leaves no complete frame behind if and only if it does not stop with one behind. -/
theorem Endpoint.Follows.drained_iff (hE : E.Follows capacity react P) (hcap : capacity + 1 < 2 ^ 32)
    {u data : AString} {x : φ} {s : σ} (hu : u.length ≤ capacity)
    (hrec : E.received s = Fifo.filled capacity u) (hfit : (u ++ data).length ≤ capacity)
    (hs : P x (u ++ data) (E.setReceived (Fifo.filled capacity (u ++ data)) s)) :
    (∀ s', E.addReceivedData data s = .ok s' → E.Drained s') ↔ stalls react x (u ++ data) = false := by
  have hrule : E.Rule capacity (fun v t => ∃ y, P y v t ∧ stalls react y v = stalls react x (u ++ data))
      (fun r => match r with
        | .ok t => E.Drained t ↔ stalls react x (u ++ data) = false
        | .error _ => stalls react x (u ++ data) = false) := by
    refine ⟨?_, ?_, ?_, ?_, ?_⟩
    · rintro v t ⟨y, hp, _⟩
      exact hE.received y v t hp
    · rintro v t ⟨y, hp, hstall⟩ hnext
      rw [stalls_none react hnext] at hstall
      have hv := (hE.received y v t hp).1
      change E.Drained _ ↔ _
      rw [filled_drained hv (hE.setReceived _ _), ← hstall]
      exact ⟨fun _ => rfl, fun _ => hnext⟩
    · rintro v t payload rest ⟨y, hp, hstall⟩ hnext hopen
      have hlen := nextFrame_length hnext
      have hv := (hE.received y v t hp).1
      rw [stalls_unreadable react hnext hopen] at hstall
      change E.Drained _ ↔ _
      rw [filled_drained (by omega : rest.length ≤ capacity) (hE.setReceived _ _), ← hstall,
        Option.isSome_eq_false_iff, Option.isNone_iff_eq_none]
    · rintro v t payload rest packetType bb ⟨y, hp, hstall⟩ hnext hopen
      have hlen := nextFrame_length hnext
      have hv := (hE.received y v t hp).1
      have hdescribes := hE.packet y v t payload rest packetType bb hp hnext hopen
      rw [stalls_cons react hnext hopen] at hstall
      rcases hreact : react y packetType bb.unread with _ | _ | ⟨z, keeps⟩
      · rw [hreact] at hdescribes hstall
        obtain ⟨e, herror⟩ := hdescribes
        exact Or.inl ⟨e, herror, hstall.symm⟩
      · rw [hreact] at hdescribes hstall
        obtain ⟨bb', t', hok, hrest⟩ := hdescribes
        refine Or.inr (Or.inl ⟨bb', t', hok, ?_⟩)
        change E.Drained _ ↔ _
        rw [filled_drained (by omega : rest.length ≤ capacity) hrest, ← hstall,
          Option.isSome_eq_false_iff, Option.isNone_iff_eq_none]
      · rw [hreact] at hdescribes hstall
        obtain ⟨bb', t', hok, hp'⟩ := hdescribes
        refine Or.inr (Or.inr ⟨bb', t', _, hok, ?_, z, hp', hstall⟩)
        split
        next => exact Nat.le_refl _
        next => exact Nat.zero_le _
    · rintro v t packetType ⟨y, hp, hstall⟩
      obtain ⟨t', hok, hp'⟩ := hE.packetError y v t packetType hp
      exact ⟨t', hok, y, hp', hstall⟩
  have hend := hrule.addReceivedData hcap hu hrec hfit ⟨x, hs, rfl⟩
  rcases hresult : E.addReceivedData data s with e | s'
  · rw [hresult] at hend
    exact ⟨fun _ => hend, fun _ _ h => nomatch h⟩
  · rw [hresult] at hend
    exact ⟨fun h => hend.mp (h s' rfl), fun h s'' hs'' => by cases hs''; exact hend.mpr h⟩

end P2PChat
