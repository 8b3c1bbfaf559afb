import P2PChat.PacketReaders

namespace P2PChat

open ByteQueue

/-- What comes behind the bytes of a successful reading does not matter to it. -/
structure Parser.Local {α : Type} (p : Parser α) : Prop where
  le : ∀ {u : AString} {a : α} {n : Nat}, p u = (some a, n) → n ≤ u.length
  extend : ∀ {u : AString} {a : α} {n : Nat} (v : AString), p u = (some a, n) → p (u ++ v) = (some a, n)
  restrict : ∀ {u v : AString} {a : α} {n : Nat}, p (u ++ v) = (some a, n) → n ≤ u.length →
    p u = (some a, n)

namespace Parser

variable {α δ : Type}

theorem andThen_eq {p : Parser α} {k : α → Parser δ} {u : AString} {a : α} {m : Nat}
    (h : p u = (some a, m)) : p.andThen k u = ((k a (u.drop m)).1, m + (k a (u.drop m)).2) := by
  simp only [andThen, h]

theorem Local.map {p : Parser α} (hp : p.Local) (g : α → δ) : (p.map g).Local := by
  have hsome : ∀ {u : AString} {d : δ} {n : Nat}, p.map g u = (some d, n) →
      ∃ a, p u = (some a, n) ∧ g a = d := by
    intro u d n h
    obtain ⟨hd, hn⟩ := Prod.mk.inj h
    obtain ⟨a, ha, hg⟩ := Option.map_eq_some_iff.mp hd
    exact ⟨a, Prod.ext ha hn, hg⟩
  refine ⟨fun h => ?_, fun v h => ?_, fun h hn => ?_⟩
  · obtain ⟨a, ha, _⟩ := hsome h
    exact hp.le ha
  · obtain ⟨a, ha, hg⟩ := hsome h
    simp only [Parser.map, hp.extend v ha, Option.map_some, hg]
  · obtain ⟨a, ha, hg⟩ := hsome h
    simp only [Parser.map, hp.restrict ha hn, Option.map_some, hg]

theorem Local.andThen {p : Parser α} {k : α → Parser δ} (hp : p.Local) (hk : ∀ a, (k a).Local) :
    (p.andThen k).Local := by
  refine ⟨fun {u d n} h => ?_, fun {u d n} v h => ?_, fun {u v d n} h hn => ?_⟩
  · obtain ⟨a, m, l, ha, hl, rfl⟩ := andThen_some h
    have hm := hp.le ha
    have hle := (hk a).le hl
    rw [List.length_drop] at hle
    omega
  · obtain ⟨a, m, l, ha, hl, rfl⟩ := andThen_some h
    have hl' := (hk a).extend v hl
    rw [andThen_eq (hp.extend v ha), List.drop_append_of_le_length (hp.le ha), hl']
  · obtain ⟨a, m, l, ha, hl, rfl⟩ := andThen_some h
    have hm : m ≤ u.length := by omega
    rw [List.drop_append_of_le_length hm] at hl
    have hl' := (hk a).restrict hl (by rw [List.length_drop]; omega)
    rw [andThen_eq (hp.restrict ha hm), hl']

theorem bytes_local (count : Nat) : (Parser.bytes count).Local := by
  refine ⟨fun h => (bytes_some h).2, fun {u s n} v h => ?_, fun {u v s n} h hn => ?_⟩
  · unfold bytes at h ⊢
    split at h
    next hle =>
      rw [if_pos (by rw [List.length_append]; omega), List.take_append_of_le_length hle]
      exact h
    next => cases h
  · unfold bytes at h ⊢
    split at h
    next hle =>
      obtain ⟨hs, hcount⟩ := Prod.mk.inj h
      rw [if_pos (by omega), ← hs, ← hcount, List.take_append_of_le_length (by omega)]
    next => cases h

end Parser

theorem parseVarIntWith_local {α : Type} (join : α → UInt8 → Nat → α) (value : α) (shift : Nat) :
    (parseVarIntWith join value shift).Local := by
  have hsome : ∀ {u : AString} {a : α} {n : Nat}, parseVarIntWith join value shift u = (some a, n) →
      Leb128.firstLength u = some n ∧ joinAll join value shift (u.take n) = a := by
    intro u a n h
    unfold parseVarIntWith at h
    split at h
    next k hfirst =>
      obtain ⟨ha, hn⟩ := Prod.mk.inj h
      subst hn
      exact ⟨hfirst, Option.some.inj ha⟩
    next => cases h
  refine ⟨fun h => ?_, fun {u a n} v h => ?_, fun {u v a n} h hn => ?_⟩
  · exact (Leb128.firstLength_le (hsome h).1).2
  · obtain ⟨hfirst, ha⟩ := hsome h
    have hn := (Leb128.firstLength_le hfirst).2
    simp only [parseVarIntWith, Leb128.firstLength_extend hfirst v, List.take_append_of_le_length hn, ha]
  · obtain ⟨hfirst, ha⟩ := hsome h
    rw [List.take_append_of_le_length hn] at ha
    simp only [parseVarIntWith, Leb128.firstLength_restrict hfirst hn, ha]

theorem parseBE_local (width : Nat) : (parseBE width).Local := (Parser.bytes_local width).map bigEndian

theorem Parser.outcome_true {α : Type} {p : Parser α} {u : AString} {n : Nat} :
    p.outcome u = (true, n) ↔ ∃ a, p u = (some a, n) := by
  constructor
  · intro h
    obtain ⟨hsome, hn⟩ := Prod.mk.inj h
    obtain ⟨a, ha⟩ := Option.isSome_iff_exists.mp hsome
    exact ⟨a, Prod.ext ha hn⟩
  · rintro ⟨a, ha⟩
    rw [outcome, ha]
    rfl

theorem Parser.Local.outcome_le {α : Type} {p : Parser α} (hp : p.Local) {u : AString} {n : Nat}
    (h : p.outcome u = (true, n)) : n ≤ u.length := by
  obtain ⟨a, ha⟩ := outcome_true.mp h
  exact hp.le ha

theorem Parser.Local.outcome_extend {α : Type} {p : Parser α} (hp : p.Local) {u : AString} {n : Nat}
    (h : p.outcome u = (true, n)) (v : AString) : p.outcome (u ++ v) = (true, n) := by
  obtain ⟨a, ha⟩ := outcome_true.mp h
  exact outcome_true.mpr ⟨a, hp.extend v ha⟩

theorem Parser.Local.outcome_restrict {α : Type} {p : Parser α} (hp : p.Local) {u v : AString} {n : Nat}
    (h : p.outcome (u ++ v) = (true, n)) (hn : n ≤ u.length) : p.outcome u = (true, n) := by
  obtain ⟨a, ha⟩ := outcome_true.mp h
  exact outcome_true.mpr ⟨a, hp.restrict ha hn⟩

/-- A number in front of a NUL ends there at the latest. -/
theorem Leb128.firstLength_nul (u : AString) : ∃ n, Leb128.firstLength (u ++ [0]) = some n := by
  have hlast : Leb128.isLast 0 = true := rfl
  rcases hu : Leb128.firstLength (u ++ [0]) with _ | n
  · have hnone := List.findIdx?_eq_none_iff.mp (Option.map_eq_none_iff.mp hu) 0
      (List.mem_append_right u (List.mem_singleton_self _))
    rw [hlast] at hnone
    cases hnone
  · exact ⟨n, rfl⟩

theorem missing_beInt (width : Nat) (u : AString) :
    (parseBE width).outcome (u ++ [0]) = (false, u.length) ↔
      (u.isEmpty && decide (1 < width)) = true := by
  rw [Bool.and_eq_true, List.isEmpty_iff_length_eq_zero, decide_eq_true_iff]
  simp only [Parser.outcome, parseBE, Parser.map, Parser.bytes, List.length_append,
    List.length_singleton]
  split
  next hle =>
    simp only [Option.map_some, Option.isSome_some, Prod.mk.injEq, Bool.true_eq_false, false_and,
      false_iff]
    omega
  next hgt =>
    simp only [Option.map_none, Option.isSome_none, Prod.mk.injEq, true_and]
    omega

/-- The kinds of fields that packets are read as. -/
inductive Shape where
  | varInt32
  | beInt (width : Nat)
  | string
  deriving DecidableEq, Repr

section Layouts

variable [Platform]

theorem parseVarInt32_local : parseVarInt32.Local := parseVarIntWith_local join32 0 0

theorem parseVarInt_local : parseVarInt.Local := (parseVarIntWith_local join64 0 0).map _

theorem parseString_local : parseString.Local :=
  parseVarInt_local.andThen fun size => Parser.bytes_local size.toNat

/-- Whether a field is found at the head of the bytes, and how many of them the reading takes. -/
def Shape.reads : Shape → AString → Bool × Nat
  | .varInt32, u => parseVarInt32.outcome u
  | .beInt width, u => (parseBE width).outcome u
  | .string, u => parseString.outcome u

/-- Nothing of the field is there but the length, if it has one. -/
def Shape.missing : Shape → AString → Bool
  | .varInt32, _ => false
  | .beInt width, u => u.isEmpty && decide (1 < width)
  | .string, u => (parseVarInt u).1.any (fun size => 1 < size.toNat) && (parseVarInt u).2 == u.length

/-- The reads of a handler, one field after the other, up to the first that fails. -/
def readsAll : List Shape → AString → Bool × Nat
  | [], _ => (true, 0)
  | shape :: layout, u =>
    match shape.reads u with
    | (true, n) => ((readsAll layout (u.drop n)).1, n + (readsAll layout (u.drop n)).2)
    | (false, n) => (false, n)

/-- The bytes end before a number of fixed width, or between the length and the characters of a
string. -/
def cut : List Shape → AString → Bool
  | [], _ => false
  | shape :: layout, u =>
    match shape.reads u with
    | (true, n) => cut layout (u.drop n)
    | (false, _) => shape.missing u

theorem Shape.reads_le {shape : Shape} {u : AString} {n : Nat} (h : shape.reads u = (true, n)) :
    n ≤ u.length := by
  cases shape with
  | varInt32 => exact parseVarInt32_local.outcome_le h
  | beInt width => exact (parseBE_local width).outcome_le h
  | string => exact parseString_local.outcome_le h

theorem Shape.reads_extend {shape : Shape} {u : AString} {n : Nat} (h : shape.reads u = (true, n))
    (v : AString) : shape.reads (u ++ v) = (true, n) := by
  cases shape with
  | varInt32 => exact parseVarInt32_local.outcome_extend h v
  | beInt width => exact (parseBE_local width).outcome_extend h v
  | string => exact parseString_local.outcome_extend h v

theorem Shape.reads_restrict {shape : Shape} {u v : AString} {n : Nat}
    (h : shape.reads (u ++ v) = (true, n)) (hn : n ≤ u.length) : shape.reads u = (true, n) := by
  cases shape with
  | varInt32 => exact parseVarInt32_local.outcome_restrict h hn
  | beInt width => exact (parseBE_local width).outcome_restrict h hn
  | string => exact parseString_local.outcome_restrict h hn

theorem missing_string (u : AString) :
    parseString.outcome (u ++ [0]) = (false, u.length) ↔
      ((parseVarInt u).1.any (fun size => 1 < size.toNat) && (parseVarInt u).2 == u.length) = true := by
  constructor
  · intro h
    obtain ⟨n, hn⟩ := Leb128.firstLength_nul u
    obtain ⟨size, hsize⟩ : ∃ size, parseVarInt (u ++ [0]) = (some size, n) := by
      simp only [parseVarInt, Parser.map, parseVarIntWith, hn, Option.map_some]
      exact ⟨_, rfl⟩
    rw [Parser.outcome, parseString, Parser.andThen_eq hsize] at h
    obtain ⟨hnone, htaken⟩ := Prod.mk.inj h
    -- the characters do not fit, so only the length was taken
    unfold Parser.bytes at hnone htaken
    split at hnone
    next => cases hnone
    next hshort =>
      rw [if_neg hshort] at htaken
      have hall : n = u.length := htaken
      subst hall
      have hu := parseVarInt_local.restrict hsize (Nat.le_refl _)
      rw [List.drop_left, List.length_singleton] at hshort
      rw [hu, Bool.and_eq_true, beq_self_eq_true, Option.any_some, decide_eq_true_iff]
      exact ⟨Nat.lt_of_not_le hshort, rfl⟩
  · intro h
    obtain ⟨hany, htaken⟩ := Bool.and_eq_true_iff.mp h
    rcases hsome : (parseVarInt u).1 with _ | size
    · rw [hsome] at hany
      cases hany
    rw [hsome, Option.any_some, decide_eq_true_iff] at hany
    have hu : parseVarInt u = (some size, u.length) := Prod.ext hsome (eq_of_beq htaken)
    have hsize := parseVarInt_local.extend [0] hu
    have hshort : ¬size.toNat ≤ ([0] : AString).length := by
      rw [List.length_singleton]
      omega
    rw [Parser.outcome, parseString, Parser.andThen_eq hsize, List.drop_left, Parser.bytes,
      if_neg hshort]
    rfl

/-- With the NUL behind the bytes, a field that cannot be read uses up exactly the bytes just if it is
missing. -/
theorem Shape.missing_iff {shape : Shape} {u : AString} :
    shape.reads (u ++ [0]) = (false, u.length) ↔ shape.missing u = true := by
  cases shape with
  | varInt32 =>
    obtain ⟨n, hn⟩ := Leb128.firstLength_nul u
    constructor
    · intro h
      rw [reads, Parser.outcome, parseVarInt32, parseVarIntWith, hn] at h
      cases h
    · intro h
      cases h
  | beInt width => exact missing_beInt width u
  | string => exact missing_string u

theorem readsAll_true {shape : Shape} {layout : List Shape} {u : AString} {n : Nat}
    (h : readsAll (shape :: layout) u = (true, n)) :
    ∃ m l, shape.reads u = (true, m) ∧ readsAll layout (u.drop m) = (true, l) ∧ n = m + l := by
  unfold readsAll at h
  split at h
  next m hm =>
    obtain ⟨htrue, hn⟩ := Prod.mk.inj h
    exact ⟨m, (readsAll layout (u.drop m)).2, hm, Prod.ext htrue rfl, hn.symm⟩
  next => cases h

theorem readsAll_cons {shape : Shape} {layout : List Shape} {u : AString} {m : Nat}
    (h : shape.reads u = (true, m)) :
    readsAll (shape :: layout) u =
      ((readsAll layout (u.drop m)).1, m + (readsAll layout (u.drop m)).2) := by
  rw [readsAll, h]

theorem readsAll_failed {shape : Shape} {layout : List Shape} {u : AString} {m : Nat}
    (h : shape.reads u = (false, m)) : readsAll (shape :: layout) u = (false, m) := by
  rw [readsAll, h]

theorem readsAll_single (shape : Shape) (u : AString) : readsAll [shape] u = shape.reads u := by
  rcases h : shape.reads u with ⟨_ | _, n⟩
  · exact readsAll_failed h
  · exact readsAll_cons h

theorem ret_outcome {α : Type} (a : α) (u : AString) : (Parser.ret a).outcome u = readsAll [] u := rfl

theorem andThen_outcome {α δ : Type} {p : Parser α} {k : α → Parser δ} {shape : Shape}
    {layout : List Shape} (hp : ∀ u, p.outcome u = shape.reads u)
    (hk : ∀ a u, (k a).outcome u = readsAll layout u) (u : AString) :
    (p.andThen k).outcome u = readsAll (shape :: layout) u := by
  have hshape := hp u
  rcases hpu : p u with ⟨_ | a, n⟩
  · rw [Parser.outcome, hpu] at hshape
    rw [readsAll_failed hshape.symm, Parser.outcome, Parser.andThen, hpu]
    rfl
  · rw [Parser.outcome, hpu] at hshape
    rw [readsAll_cons hshape.symm, ← hk a, Parser.outcome, Parser.andThen_eq hpu]
    rfl

theorem beInt32_outcome (u : AString) : parseBEInt32.outcome u = (Shape.beInt 4).reads u := by
  simp only [Parser.outcome, parseBEInt32, Parser.map, Shape.reads, Option.isSome_map]

theorem beInt64_outcome (u : AString) : parseBEInt64.outcome u = (Shape.beInt 8).reads u := by
  simp only [Parser.outcome, parseBEInt64, Parser.map, Shape.reads, Option.isSome_map]

theorem readsAll_extend {layout : List Shape} {u : AString} {n : Nat}
    (h : readsAll layout u = (true, n)) (v : AString) :
    readsAll layout (u ++ v) = (true, n) ∧ n ≤ u.length := by
  induction layout generalizing u n with
  | nil =>
    cases h
    exact ⟨rfl, Nat.zero_le _⟩
  | cons shape layout ih =>
    obtain ⟨m, l, hm, hl, rfl⟩ := readsAll_true h
    have hle := Shape.reads_le hm
    obtain ⟨hext, hlen⟩ := ih hl
    rw [List.length_drop] at hlen
    rw [readsAll_cons (Shape.reads_extend hm v), List.drop_append_of_le_length hle, hext]
    exact ⟨rfl, by omega⟩

theorem readsAll_restrict {layout : List Shape} {u v : AString} {n : Nat}
    (h : readsAll layout (u ++ v) = (true, n)) (hn : n ≤ u.length) :
    readsAll layout u = (true, n) := by
  induction layout generalizing u n with
  | nil => exact h
  | cons shape layout ih =>
    obtain ⟨m, l, hm, hl, rfl⟩ := readsAll_true h
    have hle : m ≤ u.length := by omega
    rw [List.drop_append_of_le_length hle] at hl
    have hrest := ih hl (by rw [List.length_drop]; omega)
    rw [readsAll_cons (Shape.reads_restrict hm hle), hrest]

/-- A layout that cannot be read uses up exactly the bytes in front of the NUL just if they are cut
before a number of fixed width or the characters of a string. -/
theorem readsAll_cut {layout : List Shape} {u : AString} :
    readsAll layout (u ++ [0]) = (false, u.length) ↔ cut layout u = true := by
  induction layout generalizing u with
  | nil =>
    constructor
    · intro h
      cases h
    · intro h
      cases h
  | cons shape layout ih =>
    rcases hu : shape.reads u with ⟨_ | _, n⟩
    · have hcut : cut (shape :: layout) u = shape.missing u := by rw [cut, hu]
      rw [hcut, ← Shape.missing_iff]
      rcases hnul : shape.reads (u ++ [0]) with ⟨_ | _, m⟩
      · rw [readsAll_failed hnul]
      · -- the field is read only with the NUL, so there is more than the bytes used up
        rw [readsAll_cons hnul]
        have hmore : ¬m ≤ u.length := by
          intro hle
          rw [Shape.reads_restrict hnul hle] at hu
          cases hu
        constructor
        · intro h
          have htaken := (Prod.mk.inj h).2
          omega
        · intro h
          cases h
    · have hle := Shape.reads_le hu
      have hcut : cut (shape :: layout) u = cut layout (u.drop n) := by rw [cut, hu]
      rw [hcut, ← ih, readsAll_cons (Shape.reads_extend hu [0]), List.drop_append_of_le_length hle,
        Prod.ext_iff, Prod.ext_iff, List.length_drop]
      exact and_congr_right fun _ => by dsimp only; omega

end Layouts

end P2PChat
