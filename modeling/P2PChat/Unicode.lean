import Mathlib.Tactic.Common

namespace Unicode

section Definitions

def utf8 (cs : List Char) : List UInt8 := cs.flatMap String.utf8EncodeChar

/-- One unit, or the two surrogates. -/
def utf16Char (c : Char) : List UInt16 :=
  if c.toNat < 0x10000 then [UInt16.ofNat c.toNat]
  else [UInt16.ofNat (0xd800 + (c.toNat - 0x10000) / 0x400), UInt16.ofNat (0xdc00 + (c.toNat - 0x10000) % 0x400)]

def utf16 (cs : List Char) : List UInt16 := cs.flatMap utf16Char

/-- The characters of the longest well-formed prefix. -/
structure LongestPrefix (cs : List Char) (s : List UInt8) : Prop where
  isPrefix : utf8 cs <+: s
  longest : ∀ ds, utf8 ds <+: s → (utf8 ds).length ≤ (utf8 cs).length

/-- No character is at the start. -/
def Stuck (s : List UInt8) : Prop := ∀ c, ¬String.utf8EncodeChar c <+: s

def Tail (b : UInt8) : Prop := 0x80 ≤ b.toNat ∧ b.toNat ≤ 0xbf

/-- The byte sequences of characters, and the numbers in them. -/
inductive Sequence : List UInt8 → Nat → Prop where
  | one {a : UInt8} (ha : a.toNat ≤ 0x7f) : Sequence [a] a.toNat
  | two {a b : UInt8} {n : Nat} (ha : 0xc2 ≤ a.toNat ∧ a.toNat ≤ 0xdf) (hb : Tail b)
      (hn : a.toNat * 0x40 + b.toNat = n + 0x3080) : Sequence [a, b] n
  | three {a b c : UInt8} {n : Nat} (ha : 0xe0 ≤ a.toNat ∧ a.toNat ≤ 0xef) (hb : Tail b) (hc : Tail c)
      (hshort : a.toNat = 0xe0 → 0xa0 ≤ b.toNat) (hsurrogate : a.toNat = 0xed → b.toNat ≤ 0x9f)
      (hn : a.toNat * 0x1000 + b.toNat * 0x40 + c.toNat = n + 0xe2080) : Sequence [a, b, c] n
  | four {a b c d : UInt8} {n : Nat} (ha : 0xf0 ≤ a.toNat ∧ a.toNat ≤ 0xf4) (hb : Tail b) (hc : Tail c) (hd : Tail d)
      (hshort : a.toNat = 0xf0 → 0x90 ≤ b.toNat) (hhigh : a.toNat = 0xf4 → b.toNat ≤ 0x8f)
      (hn : a.toNat * 0x40000 + b.toNat * 0x1000 + c.toNat * 0x40 + d.toNat = n + 0x3c82080) : Sequence [a, b, c, d] n

end Definitions

section Sequences

theorem toNat_valid (c : Char) : c.toNat < 0xd800 ∨ 0xdfff < c.toNat ∧ c.toNat < 0x110000 := c.valid

theorem utf8EncodeChar_toNat (c : Char) :
    String.utf8EncodeChar c =
      if c.toNat ≤ 0x7f then [UInt8.ofNat c.toNat]
      else if c.toNat ≤ 0x7ff then [UInt8.ofNat (c.toNat / 64 % 0x20 + 0xc0), UInt8.ofNat (c.toNat % 0x40 + 0x80)]
      else if c.toNat ≤ 0xffff then
        [UInt8.ofNat (c.toNat / 4096 % 0x10 + 0xe0), UInt8.ofNat (c.toNat / 64 % 0x40 + 0x80),
          UInt8.ofNat (c.toNat % 0x40 + 0x80)]
      else
        [UInt8.ofNat (c.toNat / 262144 % 0x08 + 0xf0), UInt8.ofNat (c.toNat / 4096 % 0x40 + 0x80),
          UInt8.ofNat (c.toNat / 64 % 0x40 + 0x80), UInt8.ofNat (c.toNat % 0x40 + 0x80)] := rfl

theorem sequence_char (c : Char) : Sequence (String.utf8EncodeChar c) c.toNat := by
  have hvalid := toNat_valid c
  rw [utf8EncodeChar_toNat]
  generalize c.toNat = n at hvalid
  split
  next h1 =>
    have ha : (UInt8.ofNat n).toNat = n := by
      rw [UInt8.toNat_ofNat']
      omega
    have hone := Sequence.one (ha.symm ▸ h1)
    rw [ha] at hone
    exact hone
  next h1 =>
    split
    next h2 =>
      apply Sequence.two
      all_goals
        simp only [Tail, UInt8.toNat_ofNat']
        omega
    next h2 =>
      split
      next h3 =>
        apply Sequence.three
        all_goals
          simp only [Tail, UInt8.toNat_ofNat']
          omega
      next h3 =>
        apply Sequence.four
        all_goals
          simp only [Tail, UInt8.toNat_ofNat']
          omega

/-- There is a character for each sequence. -/
theorem Sequence.char {s : List UInt8} {n : Nat} (h : Sequence s n) :
    ∃ c : Char, String.utf8EncodeChar c = s ∧ c.toNat = n := by
  have hchar : n < 0xd800 ∨ 0xdfff < n ∧ n < 0x110000 → ∃ c : Char, c.toNat = n :=
    fun hvalid => ⟨Char.ofNatAux n hvalid, rfl⟩
  have hbyte : ∀ {a : UInt8} {m : Nat}, m = a.toNat → UInt8.ofNat m = a := by
    intro a m hm
    rw [hm, UInt8.ofNat_toNat]
  cases h with
  | @one a ha =>
    obtain ⟨c, hc⟩ := hchar (by omega)
    refine ⟨c, ?_, hc⟩
    rw [utf8EncodeChar_toNat, hc, if_pos ha, UInt8.ofNat_toNat]
  | @two a b n ha hb hn =>
    unfold Tail at hb
    obtain ⟨c, hc⟩ := hchar (by omega)
    refine ⟨c, ?_, hc⟩
    rw [utf8EncodeChar_toNat, hc, if_neg (by omega), if_pos (by omega), hbyte (a := a) (by omega),
      hbyte (a := b) (by omega)]
  | @three a b c n ha hb hc hshort hsurrogate hn =>
    unfold Tail at hb hc
    obtain ⟨d, hd⟩ := hchar (by omega)
    refine ⟨d, ?_, hd⟩
    rw [utf8EncodeChar_toNat, hd, if_neg (by omega), if_neg (by omega), if_pos (by omega), hbyte (a := a) (by omega),
      hbyte (a := b) (by omega), hbyte (a := c) (by omega)]
  | @four a b c d n ha hb hc hd hshort hhigh hn =>
    unfold Tail at hb hc hd
    obtain ⟨e, he⟩ := hchar (by omega)
    refine ⟨e, ?_, he⟩
    rw [utf8EncodeChar_toNat, he, if_neg (by omega), if_neg (by omega), if_neg (by omega), hbyte (a := a) (by omega),
      hbyte (a := b) (by omega), hbyte (a := c) (by omega), hbyte (a := d) (by omega)]

theorem sequence_iff {s : List UInt8} {n : Nat} :
    Sequence s n ↔ ∃ c : Char, String.utf8EncodeChar c = s ∧ c.toNat = n := by
  refine ⟨Sequence.char, ?_⟩
  rintro ⟨c, rfl, rfl⟩
  exact sequence_char c

/-- After the lead byte of a longer sequence there is a byte of the tail. -/
theorem Sequence.second {s t : List UInt8} {a b : UInt8} {n : Nat} (h : Sequence s n) (hstart : s <+: a :: b :: t)
    (ha : 0x80 ≤ a.toNat) : Tail b := by
  cases h with
  | one ha' =>
    obtain ⟨rfl, _⟩ := List.cons_prefix_cons.mp hstart
    omega
  | two _ hb _ =>
    obtain ⟨rfl, _⟩ := List.cons_prefix_cons.mp (List.cons_prefix_cons.mp hstart).2
    exact hb
  | three _ hb _ _ _ _ =>
    obtain ⟨rfl, _⟩ := List.cons_prefix_cons.mp (List.cons_prefix_cons.mp hstart).2
    exact hb
  | four _ hb _ _ _ _ _ =>
    obtain ⟨rfl, _⟩ := List.cons_prefix_cons.mp (List.cons_prefix_cons.mp hstart).2
    exact hb

end Sequences

section Prefixes

variable {c d : Char} {cs ds : List Char} {s rest : List UInt8}

theorem utf8_cons (c : Char) (cs : List Char) : utf8 (c :: cs) = String.utf8EncodeChar c ++ utf8 cs := List.flatMap_cons

/-- No character's bytes begin with those of another. -/
theorem utf8EncodeChar_prefix (h : String.utf8EncodeChar c <+: String.utf8EncodeChar d ++ s) : c = d := by
  obtain ⟨more, hmore⟩ := h
  have hbytes : (String.utf8EncodeChar c).toByteArray ++ more.toByteArray =
      (String.utf8EncodeChar d).toByteArray ++ s.toByteArray := by
    rw [← List.toByteArray_append, ← List.toByteArray_append, hmore]
  have hdecode := ByteArray.utf8DecodeChar?_utf8EncodeChar_append (b := more.toByteArray) (c := c)
  rw [hbytes, ByteArray.utf8DecodeChar?_utf8EncodeChar_append] at hdecode
  exact (Option.some.inj hdecode).symm

/-- What is well formed before the place where no character starts is at the start of what was taken. -/
theorem Stuck.taken (h : Stuck rest) (hstart : utf8 ds <+: utf8 cs ++ rest) : ds <+: cs := by
  induction ds generalizing cs with
  | nil => exact List.nil_prefix
  | cons d ds ih =>
    rw [utf8_cons] at hstart
    have hd : String.utf8EncodeChar d <+: utf8 cs ++ rest := (List.prefix_append _ _).trans hstart
    cases cs with
    | nil => exact absurd hd (h d)
    | cons c cs =>
      rw [utf8_cons, List.append_assoc] at hd hstart
      obtain rfl := utf8EncodeChar_prefix hd
      exact List.cons_prefix_cons.mpr ⟨rfl, ih ((List.prefix_append_right_inj _).mp hstart)⟩

theorem longestPrefix_iff : LongestPrefix cs s ↔ ∃ rest, s = utf8 cs ++ rest ∧ Stuck rest := by
  constructor
  · rintro ⟨⟨rest, rfl⟩, hlongest⟩
    refine ⟨rest, rfl, fun c hc => ?_⟩
    have hlonger := hlongest (cs ++ [c]) (by
      rw [utf8, List.flatMap_append, List.flatMap_singleton]
      exact (List.prefix_append_right_inj _).mpr hc)
    have hsize := c.utf8Size_pos
    rw [utf8, List.flatMap_append, List.flatMap_singleton, List.length_append, String.length_utf8EncodeChar] at hlonger
    rw [utf8] at hlonger
    omega
  · rintro ⟨rest, rfl, hstuck⟩
    refine ⟨List.prefix_append _ _, fun ds hds => ?_⟩
    obtain ⟨more, rfl⟩ := hstuck.taken hds
    rw [utf8, utf8, List.flatMap_append, List.length_append]
    exact Nat.le_add_right _ _

theorem LongestPrefix.unique (h : LongestPrefix cs s) (h' : LongestPrefix ds s) : cs = ds := by
  obtain ⟨rest, rfl, hstuck⟩ := longestPrefix_iff.mp h
  obtain ⟨rest', hrest, hstuck'⟩ := longestPrefix_iff.mp h'
  have hds : ds <+: cs := hstuck.taken h'.isPrefix
  have hcs : cs <+: ds := hstuck'.taken (hrest ▸ List.prefix_append _ _)
  exact hcs.eq_of_length_le hds.length_le

end Prefixes

end Unicode
