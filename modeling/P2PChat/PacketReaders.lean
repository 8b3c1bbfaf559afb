import P2PChat.Packet

namespace P2PChat

open ByteQueue

theorem map_bind {α δ α' δ' : Type} {F : α → α'} {G : δ → δ'} {x : Except Halt α}
    {x' : Except Halt α'} {k : α → Except Halt δ} {k' : α' → Except Halt δ'} (hx : x' = x.map F)
    (hk : ∀ a, k' (F a) = (k a).map G) : x' >>= k' = (x >>= k).map G := by
  subst hx
  cases x with
  | error e => rfl
  | ok a => exact hk a

/-- A handler: its `HANDLE_READ`s, and what it does when all of them succeed. -/
def handling {β σ α : Type} (r : Reader β α) (act : α → σ → Except Halt σ) (bb : β) (s : σ) :
    Except Halt (Bool × β × σ) :=
  match r bb with
  | (none, bb) => .ok (true, bb, s)
  | (some a, bb) => do
    let s ← act a s
    .ok (true, bb, s)

/-- A handler's result with its buffers replaced. -/
def mapResult {β γ σ τ : Type} (f : β → γ) (F : σ → τ) (r : Bool × β × σ) : Bool × γ × τ :=
  (r.1, f r.2.1, F r.2.2)

theorem handling_map {β γ σ τ α : Type} {f : β → γ} {F : σ → τ} {r : Reader β α} {r' : Reader γ α}
    (hr : Commutes f r r') {act : α → σ → Except Halt σ} {act' : α → τ → Except Halt τ}
    (hact : ∀ a s, act' a (F s) = (act a s).map F) (bb : β) (s : σ) :
    handling r' act' (f bb) (F s) = (handling r act bb s).map (mapResult f F) := by
  unfold handling
  rw [hr bb]
  rcases r bb with ⟨_ | a, bb'⟩
  · rfl
  · exact map_bind (hact a s) fun s => rfl

/-- A handler reads as its parser does, and then acts. -/
theorem handling_eq {σ α : Type} {r : Reader Fifo α} {parse : Parser α} (hr : Reads r parse)
    (act : α → σ → Except Halt σ) (bb : Fifo) (s : σ) :
    handling r act bb s =
      match (parse bb.unread).1 with
      | none => .ok (true, bb.advance (parse bb.unread).2, s)
      | some a => (act a s).map fun s => (true, bb.advance (parse bb.unread).2, s) := by
  unfold handling
  rw [hr bb]
  rcases (parse bb.unread).1 with _ | a
  · rfl
  · simp only [bind, Except.bind]
    rcases act a s with e | s'
    · rfl
    · rfl

/-- A handler whose action does not fail. -/
theorem handling_ok {σ α : Type} {r : Reader Fifo α} {parse : Parser α} (hr : Reads r parse)
    {act : α → σ → Except Halt σ} {g : α → σ} {s : σ} {bb : Fifo}
    (hact : ∀ a, (parse bb.unread).1 = some a → act a s = .ok (g a)) :
    handling r act bb s =
      .ok (true, bb.advance (parse bb.unread).2, (parse bb.unread).1.elim s g) := by
  rw [handling_eq hr]
  rcases hparse : (parse bb.unread).1 with _ | a
  · rfl
  · simp only [hact a hparse, Except.map, Option.elim_some]

def Parser.ret {α : Type} (a : α) : Parser α := fun _ => (some a, 0)

theorem Reads.ret {α : Type} (a : α) : Reads (Reader.ret a) (Parser.ret a) := by
  intro q
  simp only [Reader.ret, Parser.ret, Fifo.advance_zero]

/-- Whether all reads succeed, and how many bytes they take. -/
def Parser.outcome {α : Type} (p : Parser α) (u : AString) : Bool × Nat := ((p u).1.isSome, (p u).2)

theorem Parser.andThen_some {α δ : Type} {p : Parser α} {k : α → Parser δ} {u : AString} {d : δ}
    {n : Nat} (h : p.andThen k u = (some d, n)) :
    ∃ a m l, p u = (some a, m) ∧ k a (u.drop m) = (some d, l) ∧ n = m + l := by
  unfold Parser.andThen at h
  split at h
  next a m hp =>
    obtain ⟨hd, hn⟩ := Prod.mk.inj h
    exact ⟨a, m, (k a (u.drop m)).2, hp, Prod.ext hd rfl, hn.symm⟩
  next => cases h

theorem Parser.bytes_some {count n : Nat} {u s : AString} (h : Parser.bytes count u = (some s, n)) :
    s.length = n ∧ n ≤ u.length := by
  unfold Parser.bytes at h
  split at h
  next hle =>
    obtain ⟨hs, hn⟩ := Prod.mk.inj h
    cases hs
    rw [List.length_take]
    omega
  next => cases h

def parseBEInt32 : Parser Int32 := (parseBE 4).map (fun n => (UInt32.ofNat n).toInt32)

theorem readBEInt32_reads : Reads readBEInt32 parseBEInt32 := (readBE_reads 4).map _

def parseBEInt64 : Parser Int64 := (parseBE 8).map (fun n => (UInt64.ofNat n).toInt64)

theorem readBEInt64_reads : Reads readBEInt64 parseBEInt64 := (readBE_reads 8).map _

section Reading

variable [Platform]

theorem parseVarInt_le {u : AString} {v : UInt32} {n : Nat} (h : parseVarInt u = (some v, n)) :
    n ≤ u.length := by
  unfold parseVarInt Parser.map parseVarIntWith at h
  rcases hfirst : Leb128.firstLength u with _ | k
  · simp [hfirst] at h
  · simp only [hfirst, Option.map_some, Prod.mk.injEq] at h
    have hle := Leb128.firstLength_le hfirst
    omega

/-- A string is no longer than the bytes it was read from. -/
theorem parseString_le {u s : AString} {n : Nat} (h : parseString u = (some s, n)) :
    s.length ≤ n ∧ n ≤ u.length := by
  obtain ⟨size, m, l, hsize, hbytes, rfl⟩ := Parser.andThen_some h
  obtain ⟨hs, hl⟩ := Parser.bytes_some hbytes
  have hm := parseVarInt_le hsize
  rw [List.length_drop] at hl
  omega

variable {β γ : Type} [ByteQueue β] [ByteQueue γ]

/-- What server and client read of a `Media` packet. -/
def readMedia : Reader β (UInt32 × UInt32) :=
  readVarInt32.andThen fun peer_id => readVarInt32.andThen fun type => .ret (peer_id, type)

/-- What they read of a `MediaMsg` packet. -/
def readMediaMsg : Reader β (UInt32 × AString) :=
  readVarInt32.andThen fun peer_id => readVarUTF8String.andThen fun msg => .ret (peer_id, msg)

def parseMedia : Parser (UInt32 × UInt32) :=
  parseVarInt32.andThen fun peer_id => parseVarInt32.andThen fun type => .ret (peer_id, type)

def parseMediaMsg : Parser (UInt32 × AString) :=
  parseVarInt32.andThen fun peer_id => parseString.andThen fun msg => .ret (peer_id, msg)

/-- A message is no longer than the packet it was read from. -/
theorem parseMediaMsg_length {bytes msg : AString} {id : UInt32}
    (h : (parseMediaMsg bytes).1 = some (id, msg)) : msg.length ≤ bytes.length := by
  rcases hp : parseMediaMsg bytes with ⟨found, n⟩
  rw [hp] at h
  have h : found = some (id, msg) := h
  subst h
  obtain ⟨_, m, l, _, hrest, _⟩ := Parser.andThen_some hp
  obtain ⟨_, _, _, hstring, hret, _⟩ := Parser.andThen_some hrest
  cases (Prod.mk.inj hret).1
  have hle := parseString_le hstring
  rw [List.length_drop] at hle
  omega

theorem readMedia_reads : Reads readMedia parseMedia :=
  readVarInt32_reads.andThen fun _ => readVarInt32_reads.andThen fun _ => Reads.ret _

theorem readMediaMsg_reads : Reads readMediaMsg parseMediaMsg :=
  readVarInt32_reads.andThen fun _ => readVarUTF8String_reads.andThen fun _ => Reads.ret _

variable {f : β → γ} (hf : Hom f)

include hf

theorem readMedia_commutes : Commutes f readMedia readMedia :=
  (readVarInt32_commutes hf).andThen fun _ => (readVarInt32_commutes hf).andThen fun _ _ => rfl

theorem readMediaMsg_commutes : Commutes f readMediaMsg readMediaMsg :=
  (readVarInt32_commutes hf).andThen fun _ => (readVarUTF8String_commutes hf).andThen fun _ _ => rfl

end Reading

end P2PChat
