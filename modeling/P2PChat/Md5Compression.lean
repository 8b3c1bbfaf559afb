import P2PChat.Md5
import P2PChat.Rfc1321

namespace P2PChat

open Rfc1321 (Word Registers)

namespace MD5

section Words

variable {x y z : UInt32}

theorem auxF_eq (x y z : UInt32) : (auxF x y z).toBitVec = Rfc1321.F x.toBitVec y.toBitVec z.toBitVec := rfl

theorem auxG_eq (x y z : UInt32) : (auxG x y z).toBitVec = Rfc1321.G x.toBitVec y.toBitVec z.toBitVec := rfl

theorem auxH_eq (x y z : UInt32) : (auxH x y z).toBitVec = Rfc1321.H x.toBitVec y.toBitVec z.toBitVec := rfl

theorem auxI_eq (x y z : UInt32) : (auxI x y z).toBitVec = Rfc1321.I x.toBitVec y.toBitVec z.toBitVec := rfl

theorem rotateLeft_eq {n : UInt32} (hpos : 0 < n.toNat) (hlt : n.toNat < 32) :
    (rotateLeft x n).toBitVec = x.toBitVec.rotateLeft n.toNat := by
  have hleft : (n.toBitVec % 32).toNat = n.toNat := by
    rw [BitVec.toNat_umod]
    exact Nat.mod_eq_of_lt hlt
  have hright : ((32 - n).toBitVec % 32).toNat = 32 - n.toNat := by
    have hsub : (32 - n).toNat = 32 - n.toNat :=
      UInt32.toNat_sub_of_le _ _ (UInt32.le_iff_toNat_le.mpr (Nat.le_of_lt hlt))
    rw [BitVec.toNat_umod]
    show (32 - n).toNat % 32 = 32 - n.toNat
    rw [hsub]
    exact Nat.mod_eq_of_lt (by omega)
  rw [rotateLeft, UInt32.toBitVec_or, UInt32.toBitVec_shiftLeft, UInt32.toBitVec_shiftRight, BitVec.rotateLeft_def,
    Nat.mod_eq_of_lt hlt, BitVec.shiftLeft_eq', BitVec.ushiftRight_eq', hleft, hright]

theorem or_shifted {a b k : Nat} (h : b < 2 ^ k) : b ||| a <<< k = b + a * 2 ^ k := by
  rw [Nat.or_comm, ← Nat.shiftLeft_add_eq_or_of_lt h, Nat.shiftLeft_eq, Nat.add_comm]

/-- Four bytes, lowest first. -/
theorem joined_eq (b0 b1 b2 b3 : UInt8) :
    (b0.toUInt32 ||| (b1.toUInt32 <<< 8) ||| (b2.toUInt32 <<< 16) ||| (b3.toUInt32 <<< 24)).toBitVec =
      BitVec.ofNat 32 (LittleEndian.value [b0, b1, b2, b3]) := by
  have h0 := b0.toNat_lt
  have h1 := b1.toNat_lt
  have h2 := b2.toNat_lt
  have h3 := b3.toNat_lt
  have hshift : ∀ (b : UInt8) {k : UInt32} {m : Nat}, k.toNat % 32 = m → b.toNat * 2 ^ m < 2 ^ 32 →
      (b.toUInt32 <<< k).toNat = b.toNat <<< m := by
    intro b k m hk hsmall
    rw [UInt32.toNat_shiftLeft, UInt8.toNat_toUInt32, hk, Nat.shiftLeft_eq, Nat.mod_eq_of_lt hsmall]
  apply BitVec.eq_of_toNat_eq
  rw [UInt32.toNat_toBitVec, UInt32.toNat_or, UInt32.toNat_or, UInt32.toNat_or, UInt8.toNat_toUInt32,
    hshift b1 (m := 8) rfl (by omega), hshift b2 (m := 16) rfl (by omega), hshift b3 (m := 24) rfl (by omega),
    or_shifted (show b0.toNat < 2 ^ 8 from h0),
    or_shifted (show b0.toNat + b1.toNat * 2 ^ 8 < 2 ^ 16 by omega),
    or_shifted (show b0.toNat + b1.toNat * 2 ^ 8 + b2.toNat * 2 ^ 16 < 2 ^ 24 by omega), BitVec.toNat_ofNat]
  simp only [LittleEndian.value]
  omega

/-- The words of a block. -/
theorem decode_getD {block : AString} {j : Nat} (h : 4 * j + 4 ≤ block.length) :
    ((decode block).getD j 0).toBitVec = Rfc1321.words block j := by
  fun_induction decode block generalizing j with
  | case1 b0 b1 b2 b3 input ih =>
    cases j with
    | zero =>
      rw [List.getD_cons_zero, joined_eq]
      rfl
    | succ j =>
      rw [List.getD_cons_succ, ih (by simp only [List.length_cons] at h; omega)]
      rfl
  | case2 block hshort =>
    rcases block with _ | ⟨b0, _ | ⟨b1, _ | ⟨b2, _ | ⟨b3, rest⟩⟩⟩⟩
    · simp at h
    · simp at h
    · simp at h
    · simp at h
    · exact absurd rfl (hshort b0 b1 b2 b3 rest)

end Words

section Operations

/-- The registers in the order in which the next line of the source names them. -/
def rolesAt (i : Nat) (r : Registers) : Word × Word × Word × Word :=
  if i % 4 = 0 then (r.A, r.B, r.C, r.D)
  else if i % 4 = 1 then (r.D, r.A, r.B, r.C)
  else if i % 4 = 2 then (r.C, r.D, r.A, r.B)
  else (r.B, r.C, r.D, r.A)

def wordsOf (s : UInt32 × UInt32 × UInt32 × UInt32) : Word × Word × Word × Word :=
  (s.1.toBitVec, s.2.1.toBitVec, s.2.2.1.toBitVec, s.2.2.2.toBitVec)

/-- A line of the source is this operation. -/
structure Line (aux : UInt32 → UInt32 → UInt32 → UInt32) (row : Nat × UInt32 × UInt32) (i : Nat) : Prop where
  auxiliary : ∀ x y z, (aux x y z).toBitVec = Rfc1321.auxiliary i x.toBitVec y.toBitVec z.toBitVec
  word : row.1 = Rfc1321.wordIndex i ∧ row.1 < 16
  amount : row.2.1.toNat = Rfc1321.amount i ∧ 0 < row.2.1.toNat ∧ row.2.1.toNat < 32
  constant : row.2.2.toBitVec = Rfc1321.T (i + 1)

variable {aux : UInt32 → UInt32 → UInt32 → UInt32} {x : List UInt32} {X : Nat → Word}

theorem step_eq {row : Nat × UInt32 × UInt32} {i : Nat} {r : Registers} {s : UInt32 × UInt32 × UInt32 × UInt32}
    (hx : ∀ j < 16, (x.getD j 0).toBitVec = X j) (hline : Line aux row i) (hs : wordsOf s = rolesAt i r) :
    wordsOf (step aux x s row) = rolesAt (i + 1) (Rfc1321.operation X r i) := by
  obtain ⟨a, b, c, d⟩ := s
  have hstep : wordsOf (step aux x (a, b, c, d) row) =
      (d.toBitVec, b.toBitVec + (a.toBitVec + Rfc1321.auxiliary i b.toBitVec c.toBitVec d.toBitVec +
        X (Rfc1321.wordIndex i) + Rfc1321.T (i + 1)).rotateLeft (Rfc1321.amount i), b.toBitVec, c.toBitVec) := by
    have hword : (x.getD (Rfc1321.wordIndex i) 0).toBitVec = X (Rfc1321.wordIndex i) :=
      hline.word.1 ▸ hx row.1 hline.word.2
    simp only [step, wordsOf, UInt32.toBitVec_add, rotateLeft_eq hline.amount.2.1 hline.amount.2.2, hline.auxiliary,
      hline.amount.1, hline.constant, hword, hline.word.1, BitVec.add_assoc]
    rw [BitVec.add_comm b.toBitVec]
  rw [hstep]
  rw [wordsOf] at hs
  have hcases : i % 4 = 0 ∨ i % 4 = 1 ∨ i % 4 = 2 ∨ i % 4 = 3 := by omega
  rcases hcases with h | h | h | h
  · have hnext : (i + 1) % 4 = 1 := by omega
    simp [rolesAt, h] at hs
    simp [rolesAt, Rfc1321.operation, h, hnext, hs]
  · have hnext : (i + 1) % 4 = 2 := by omega
    simp [rolesAt, h] at hs
    simp [rolesAt, Rfc1321.operation, h, hnext, hs]
  · have hnext : (i + 1) % 4 = 3 := by omega
    simp [rolesAt, h] at hs
    simp [rolesAt, Rfc1321.operation, h, hnext, hs]
  · have hnext : (i + 1) % 4 = 0 := by omega
    simp [rolesAt, h] at hs
    simp [rolesAt, Rfc1321.operation, h, hnext, hs]

theorem steps_eq {rows : List (Nat × UInt32 × UInt32)} {i : Nat} {r : Registers}
    {s : UInt32 × UInt32 × UInt32 × UInt32} (hx : ∀ j < 16, (x.getD j 0).toBitVec = X j)
    (hlines : ∀ j (hj : j < rows.length), Line aux rows[j] (i + j)) (hs : wordsOf s = rolesAt i r) :
    wordsOf (rows.foldl (step aux x) s) =
      rolesAt (i + rows.length) ((List.range' i rows.length).foldl (Rfc1321.operation X) r) := by
  induction rows generalizing i r s with
  | nil => exact hs
  | cons row rows ih =>
    have hnext : wordsOf (step aux x s row) = rolesAt (i + 1) (Rfc1321.operation X r i) :=
      step_eq hx (hlines 0 (Nat.succ_pos _)) hs
    have hrest : ∀ j (hj : j < rows.length), Line aux rows[j] (i + 1 + j) := by
      intro j hj
      have hline := hlines (j + 1) (Nat.succ_lt_succ hj)
      rw [List.getElem_cons_succ, Nat.add_comm j 1, ← Nat.add_assoc] at hline
      exact hline
    rw [List.foldl_cons, List.length_cons, List.range'_succ, List.foldl_cons, ih hrest hnext]
    congr 1
    omega

end Operations

section Rounds

/-- What is to be checked of a line: its word, its rotation and its constant. -/
def lineOk (row : Nat × UInt32 × UInt32) (i : Nat) : Bool :=
  row.1 = Rfc1321.wordIndex i && row.1 < 16 && row.2.1.toNat = Rfc1321.amount i && 0 < row.2.1.toNat &&
    row.2.1.toNat < 32 &&
    row.2.2.toNat * 2 ^ 96 + SineTable.slack (i + 1) ≤ (SineTable.rotated (i + 1)).1.natAbs &&
    (SineTable.rotated (i + 1)).1.natAbs + SineTable.slack (i + 1) < (row.2.2.toNat + 1) * 2 ^ 96

theorem Line.of_ok {aux : UInt32 → UInt32 → UInt32 → UInt32} {row : Nat × UInt32 × UInt32} {i : Nat}
    (haux : ∀ x y z, (aux x y z).toBitVec = Rfc1321.auxiliary i x.toBitVec y.toBitVec z.toBitVec)
    (h : lineOk row i = true) : Line aux row i := by
  simp only [lineOk, Bool.and_eq_true, decide_eq_true_eq] at h
  obtain ⟨⟨⟨⟨⟨⟨hword, hword16⟩, hamount⟩, hpos⟩, hlt⟩, hlow⟩, hhigh⟩ := h
  refine ⟨haux, ⟨hword, hword16⟩, ⟨hamount, hpos, hlt⟩, ?_⟩
  rw [Rfc1321.T_eq hlow hhigh]
  apply BitVec.eq_of_toNat_eq
  rw [BitVec.toNat_ofNat]
  exact (Nat.mod_eq_of_lt row.2.2.toNat_lt).symm

theorem stepsFF_lines : ∀ j (hj : j < stepsFF.length), Line auxF stepsFF[j] (0 + j) := by
  have hok : ∀ j (hj : j < stepsFF.length), lineOk stepsFF[j] (0 + j) = true := by decide +kernel
  intro j hj
  have hlt : j < 16 := hj
  refine .of_ok (fun x y z => ?_) (hok j hj)
  rw [Rfc1321.auxiliary, if_pos (by omega), auxF_eq]

theorem stepsGG_lines : ∀ j (hj : j < stepsGG.length), Line auxG stepsGG[j] (16 + j) := by
  have hok : ∀ j (hj : j < stepsGG.length), lineOk stepsGG[j] (16 + j) = true := by decide +kernel
  intro j hj
  have hlt : j < 16 := hj
  refine .of_ok (fun x y z => ?_) (hok j hj)
  rw [Rfc1321.auxiliary, if_neg (by omega), if_pos (by omega), auxG_eq]

theorem stepsHH_lines : ∀ j (hj : j < stepsHH.length), Line auxH stepsHH[j] (32 + j) := by
  have hok : ∀ j (hj : j < stepsHH.length), lineOk stepsHH[j] (32 + j) = true := by decide +kernel
  intro j hj
  have hlt : j < 16 := hj
  refine .of_ok (fun x y z => ?_) (hok j hj)
  rw [Rfc1321.auxiliary, if_neg (by omega), if_neg (by omega), if_pos (by omega), auxH_eq]

theorem stepsII_lines : ∀ j (hj : j < stepsII.length), Line auxI stepsII[j] (48 + j) := by
  have hok : ∀ j (hj : j < stepsII.length), lineOk stepsII[j] (48 + j) = true := by decide +kernel
  intro j hj
  refine .of_ok (fun x y z => ?_) (hok j hj)
  rw [Rfc1321.auxiliary, if_neg (by omega), if_neg (by omega), if_neg (by omega), auxI_eq]

def registers (s : UInt32 × UInt32 × UInt32 × UInt32) : Registers :=
  ⟨s.1.toBitVec, s.2.1.toBitVec, s.2.2.1.toBitVec, s.2.2.2.toBitVec⟩

/-- `transform` is the compression function. -/
theorem transform_eq (s : UInt32 × UInt32 × UInt32 × UInt32) {block : AString} (h : block.length = 64) :
    registers (transform s block) = Rfc1321.compress (registers s) block := by
  have hx : ∀ j < 16, ((decode block).getD j 0).toBitVec = Rfc1321.words block j := fun j hj =>
    decode_getD (by omega)
  have hstart : wordsOf s = rolesAt 0 (registers s) := rfl
  have hFF := steps_eq hx stepsFF_lines hstart
  have hGG := steps_eq hx stepsGG_lines hFF
  have hHH := steps_eq hx stepsHH_lines hGG
  have hII := steps_eq hx stepsII_lines hHH
  have hrange : List.range' 0 stepsFF.length ++ (List.range' 16 stepsGG.length ++
      (List.range' 32 stepsHH.length ++ List.range' 48 stepsII.length)) = List.range 64 := rfl
  rw [← List.foldl_append, ← List.foldl_append, ← List.foldl_append, hrange] at hII
  have hroles : ∀ r : Registers, rolesAt (48 + stepsII.length) r = (r.A, r.B, r.C, r.D) := fun _ => rfl
  rw [hroles, wordsOf] at hII
  simp only [Prod.mk.injEq] at hII
  obtain ⟨ha, hb, hc, hd⟩ := hII
  simp only [registers, transform, Rfc1321.compress, UInt32.toBitVec_add, ha, hb, hc, hd]

end Rounds

end MD5

end P2PChat
