import P2PChat.Ring
import Mathlib.Tactic.Common
import Mathlib.Algebra.Group.Nat.Defs

namespace P2PChat

section Definitions

/-- `c - 'A'` and so on; `-1` for `=`. -/
def unBase64 (c : UInt8) : Int :=
  if 0x41 ≤ c ∧ c ≤ 0x5a then c.toNat - 0x41
  else if 0x61 ≤ c ∧ c ≤ 0x7a then c.toNat - 0x61 + 26
  else if 0x30 ≤ c ∧ c ≤ 0x39 then c.toNat - 0x30 + 52
  else if c = 0x2b then 62
  else if c = 0x2f then 63
  else if c = 0x3d then -1
  else -2

/-- `res[pos] |= v`, and `none` outside. -/
def orAt (pos v : Nat) (res : AString) : Option AString := do
  let b ← res[pos]?
  pure (res.set pos (b ||| UInt8.ofNat v))

def putSextet (c o : Nat) (res : AString) : Option AString :=
  match o &&& 7 with
  | 0 => orAt (o >>> 3) (c <<< 2) res
  | 6 => do
    let res ← orAt (o >>> 3) (c >>> 4) res
    orAt ((o >>> 3) + 1) (c <<< 4) res
  | 4 => do
    let res ← orAt (o >>> 3) (c >>> 2) res
    orAt ((o >>> 3) + 1) (c <<< 6) res
  | 2 => orAt (o >>> 3) c res
  | _ => some res

def resize (size : Nat) (res : AString) : AString := res.take size ++ List.replicate (size - res.length) 0

/-- The loop of `Base64Decode`. -/
def decodeFrom : AString → Nat → AString → Option AString
  | [], o, res => some (resize (o >>> 3) res)
  | c :: rest, o, res =>
    if 0 ≤ unBase64 c then do
      let res ← putSextet (unBase64 c).toNat o res
      decodeFrom rest (o + 6) res
    else if unBase64 c = -1 then some (resize (o >>> 3) res)
    else decodeFrom rest o res

/-- `none` when `res` is accessed outside its size. -/
def base64Decode (base64String : AString) : Option AString :=
  decodeFrom base64String 0 (List.replicate (base64String.length * 4 / 3 + 5) 0)

/-- `BASE64`. -/
def base64Letters : AString :=
  (List.range 26).map (fun n => UInt8.ofNat (0x41 + n)) ++ (List.range 26).map (fun n => UInt8.ofNat (0x61 + n)) ++
    (List.range 10).map (fun n => UInt8.ofNat (0x30 + n)) ++ [0x2b, 0x2f]

/-- `output[output_index++] = c`, and `none` outside. -/
def pushOutput (c : UInt8) (output : AString × Nat) : Option (AString × Nat) :=
  if output.2 < output.1.length then some (output.1.set output.2 c, output.2 + 1) else none

/-- A letter of `BASE64`. -/
def pushLetter (n : Nat) (output : AString × Nat) : Option (AString × Nat) := do
  let letter ← base64Letters[n]?
  pushOutput letter output

def encodeGroup (input : AString) (i : Nat) (output : AString × Nat) : Option (AString × Nat) := do
  let a ← input[i]?
  let b ← input[i + 1]?
  let c ← input[i + 2]?
  let output ← pushLetter (a.toNat >>> 2) output
  let output ← pushLetter ((a.toNat <<< 4 ||| b.toNat >>> 4) &&& 63) output
  let output ← pushLetter ((b.toNat <<< 2 ||| c.toNat >>> 6) &&& 63) output
  pushLetter (c.toNat &&& 63) output

/-- The loop of `Base64Encode`, for this many groups. -/
def encodeGroups (input : AString) : Nat → Nat → AString × Nat → Option (AString × Nat)
  | 0, _, output => some output
  | n + 1, i, output => do
    let output ← encodeGroup input i output
    encodeGroups input n (i + 3) output

/-- What is after the loop. -/
def encodeRest (input : AString) (sizeFull24 : Nat) (output : AString × Nat) : Option (AString × Nat) :=
  if sizeFull24 < input.length then do
    let a ← input[sizeFull24]?
    let output ← pushLetter (a.toNat >>> 2) output
    if sizeFull24 + 1 = input.length then do
      let output ← pushLetter ((a.toNat <<< 4) &&& 63) output
      let output ← pushOutput 0x3d output
      pushOutput 0x3d output
    else do
      let b ← input[sizeFull24 + 1]?
      let output ← pushLetter ((a.toNat <<< 4 ||| b.toNat >>> 4) &&& 63) output
      let output ← pushLetter ((b.toNat <<< 2) &&& 63) output
      pushOutput 0x3d output
  else some output

/-- `none` for an access outside, or when the assertion does not hold. -/
def base64Encode (input : AString) : Option AString := do
  let output ← encodeGroups input (input.length / 3) 0 (List.replicate ((input.length + 2) / 3 * 4) 0, 0)
  let output ← encodeRest input (input.length / 3 * 3) output
  if output.2 = output.1.length then some output.1 else none

/-- The letters of a string by groups of three bytes. -/
def letters : AString → AString
  | [] => []
  | [a] => [base64Letters.getD (a.toNat / 4) 0, base64Letters.getD (a.toNat % 4 * 16) 0, 0x3d, 0x3d]
  | [a, b] =>
    [base64Letters.getD (a.toNat / 4) 0, base64Letters.getD (a.toNat % 4 * 16 + b.toNat / 16) 0,
      base64Letters.getD (b.toNat % 16 * 4) 0, 0x3d]
  | a :: b :: c :: rest =>
    base64Letters.getD (a.toNat / 4) 0 :: base64Letters.getD (a.toNat % 4 * 16 + b.toNat / 16) 0 ::
      base64Letters.getD (b.toNat % 16 * 4 + c.toNat / 64) 0 :: base64Letters.getD (c.toNat % 64) 0 :: letters rest

end Definitions

section Encoding

variable {w input s : AString} {size n i : Nat} {a b c : UInt8}

/-- An output that is filled so far. -/
def filled (w : AString) (size : Nat) : AString × Nat := (w ++ List.replicate (size - w.length) 0, w.length)

theorem pushOutput_filled (h : w.length < size) (c : UInt8) :
    pushOutput c (filled w size) = some (filled (w ++ [c]) size) := by
  have hroom : List.replicate (size - w.length) (0 : UInt8) = 0 :: List.replicate (size - (w ++ [c]).length) 0 := by
    rw [List.length_append, List.length_singleton, ← List.replicate_succ]
    congr 1
    omega
  unfold pushOutput filled
  rw [hroom, if_pos (by simp), List.set_append_right _ _ (Nat.le_refl _), Nat.sub_self]
  simp

theorem pushLetter_filled (hn : n < 64) (h : w.length < size) :
    pushLetter n (filled w size) = some (filled (w ++ [base64Letters.getD n 0]) size) := by
  have hletter : base64Letters[n]? = some (base64Letters.getD n 0) := by
    have hlength : base64Letters.length = 64 := by decide
    rw [List.getD_eq_getElem?_getD, List.getElem?_eq_getElem (hlength ▸ hn), Option.getD_some]
  rw [pushLetter, hletter]
  exact pushOutput_filled h _

theorem letters_length (s : AString) : (letters s).length = (s.length + 2) / 3 * 4 := by
  induction s using letters.induct with
  | case1 => rfl
  | case2 a => simp [letters]
  | case3 a b => simp [letters]
  | case4 a b c rest ih =>
    rw [letters, List.length_cons, List.length_cons, List.length_cons, List.length_cons, ih, List.length_cons,
      List.length_cons, List.length_cons]
    omega

theorem sextet_first (a : UInt8) : a.toNat >>> 2 = a.toNat / 4 := Nat.shiftRight_eq_div_pow _ _

theorem sextet_second (a : UInt8) (n : Nat) (hn : n < 256) :
    (a.toNat <<< 4 ||| n >>> 4) &&& 63 = a.toNat % 4 * 16 + n / 16 := by
  rw [Nat.shiftRight_eq_div_pow, Nat.shiftLeft_eq, Nat.mul_comm, ← Nat.two_pow_add_eq_or_of_lt (by omega)]
  show (_ &&& (2 ^ 6 - 1)) = _
  rw [Nat.and_two_pow_sub_one_eq_mod]
  omega

theorem sextet_third (b : UInt8) (n : Nat) (hn : n < 256) :
    (b.toNat <<< 2 ||| n >>> 6) &&& 63 = b.toNat % 16 * 4 + n / 64 := by
  rw [Nat.shiftRight_eq_div_pow, Nat.shiftLeft_eq, Nat.mul_comm, ← Nat.two_pow_add_eq_or_of_lt (by omega)]
  show (_ &&& (2 ^ 6 - 1)) = _
  rw [Nat.and_two_pow_sub_one_eq_mod]
  omega

theorem sextet_alone (a : UInt8) : (a.toNat <<< 4) &&& 63 = a.toNat % 4 * 16 := by
  have h := sextet_second a 0 (by decide)
  rw [show 0 >>> 4 = 0 from rfl, Nat.or_zero] at h
  exact h

theorem sextet_pair (b : UInt8) : (b.toNat <<< 2) &&& 63 = b.toNat % 16 * 4 := by
  have h := sextet_third b 0 (by decide)
  rw [show 0 >>> 6 = 0 from rfl, Nat.or_zero] at h
  exact h

theorem sextet_fourth (c : UInt8) : c.toNat &&& 63 = c.toNat % 64 := Nat.and_two_pow_sub_one_eq_mod c.toNat 6

theorem encodeGroup_filled (hinput : input.drop i = a :: b :: c :: s) (h : w.length + 4 ≤ size) :
    encodeGroup input i (filled w size) =
      some (filled (w ++ [base64Letters.getD (a.toNat / 4) 0, base64Letters.getD (a.toNat % 4 * 16 + b.toNat / 16) 0,
        base64Letters.getD (b.toNat % 16 * 4 + c.toNat / 64) 0, base64Letters.getD (c.toNat % 64) 0]) size) := by
  have ha := a.toNat_lt
  have hb := b.toNat_lt
  have hc := c.toNat_lt
  have hget : ∀ j, input[i + j]? = (a :: b :: c :: s)[j]? := fun j => by rw [← hinput, List.getElem?_drop]
  have hget0 : input[i]? = some a := hget 0
  rw [encodeGroup, hget0, hget 1, hget 2]
  show (do
    let output ← pushLetter (a.toNat >>> 2) (filled w size)
    let output ← pushLetter ((a.toNat <<< 4 ||| b.toNat >>> 4) &&& 63) output
    let output ← pushLetter ((b.toNat <<< 2 ||| c.toNat >>> 6) &&& 63) output
    pushLetter (c.toNat &&& 63) output) = _
  rw [sextet_first, sextet_second a b.toNat hb, sextet_third b c.toNat hc, sextet_fourth]
  simp (disch := first | omega | (simp only [List.length_append, List.length_cons, List.length_nil]; omega)) only
    [pushLetter_filled, Option.bind_eq_bind, Option.bind_some, List.append_assoc, List.cons_append, List.nil_append]

theorem encodeRest_one (hinput : input.drop i = [a]) (h : w.length + 4 ≤ size) :
    encodeRest input i (filled w size) =
      some (filled (w ++ [base64Letters.getD (a.toNat / 4) 0, base64Letters.getD (a.toNat % 4 * 16) 0, 0x3d, 0x3d])
        size) := by
  have ha := a.toNat_lt
  have hlength := congrArg List.length hinput
  rw [List.length_drop, List.length_singleton] at hlength
  have hget : input[i]? = some a := by rw [← Nat.add_zero i, ← List.getElem?_drop, hinput]; rfl
  have hfull : i + 1 = input.length := by omega
  rw [encodeRest, if_pos (by omega), hget]
  simp only [if_pos hfull, Option.bind_eq_bind, Option.bind_some, sextet_first, sextet_alone]
  simp (disch := first | omega | (simp only [List.length_append, List.length_cons, List.length_nil]; omega)) only
    [pushLetter_filled, pushOutput_filled, Option.bind_some, List.append_assoc, List.cons_append, List.nil_append]

theorem encodeRest_two (hinput : input.drop i = [a, b]) (h : w.length + 4 ≤ size) :
    encodeRest input i (filled w size) =
      some (filled (w ++ [base64Letters.getD (a.toNat / 4) 0, base64Letters.getD (a.toNat % 4 * 16 + b.toNat / 16) 0,
        base64Letters.getD (b.toNat % 16 * 4) 0, 0x3d]) size) := by
  have ha := a.toNat_lt
  have hb := b.toNat_lt
  have hlength := congrArg List.length hinput
  rw [List.length_drop, List.length_cons, List.length_singleton] at hlength
  have hget : ∀ j, input[i + j]? = [a, b][j]? := fun j => by rw [← hinput, List.getElem?_drop]
  have hget0 : input[i]? = some a := hget 0
  have hget1 : input[i + 1]? = some b := hget 1
  have hmore : i + 1 ≠ input.length := by omega
  rw [encodeRest, if_pos (by omega), hget0]
  simp only [if_neg hmore, hget1, Option.bind_eq_bind, Option.bind_some, sextet_first, sextet_second a b.toNat hb,
    sextet_pair]
  simp (disch := first | omega | (simp only [List.length_append, List.length_cons, List.length_nil]; omega)) only
    [pushLetter_filled, pushOutput_filled, Option.bind_some, List.append_assoc, List.cons_append, List.nil_append]

/-- The loop and what is after it put out the letters. -/
theorem encode_filled (hinput : input.drop i = s) (h : w.length + (letters s).length ≤ size) :
    (encodeGroups input (s.length / 3) i (filled w size)).bind (encodeRest input (i + s.length / 3 * 3)) =
      some (filled (w ++ letters s) size) := by
  induction s using letters.induct generalizing i w with
  | case1 =>
    have hlength : input.length ≤ i := List.drop_eq_nil_iff.mp hinput
    show encodeRest input i (filled w size) = _
    rw [encodeRest, if_neg (by omega), letters, List.append_nil]
  | case2 a =>
    rw [letters] at h ⊢
    rw [show [a].length / 3 = 0 from Nat.div_eq_of_lt (by simp)]
    exact encodeRest_one hinput h
  | case3 a b =>
    rw [letters] at h ⊢
    rw [show [a, b].length / 3 = 0 from Nat.div_eq_of_lt (by simp)]
    exact encodeRest_two hinput h
  | case4 a b c rest ih =>
    have hlength : (a :: b :: c :: rest).length / 3 = rest.length / 3 + 1 := by
      rw [List.length_cons, List.length_cons, List.length_cons]
      omega
    have hrest : input.drop (i + 3) = rest := by
      rw [← List.drop_drop, hinput]
      rfl
    rw [letters, List.length_cons, List.length_cons, List.length_cons, List.length_cons] at h
    rw [hlength, encodeGroups, encodeGroup_filled hinput (by omega), Option.bind_eq_bind, Option.bind_some,
      show i + (rest.length / 3 + 1) * 3 = i + 3 + rest.length / 3 * 3 by omega, ih hrest, letters, List.append_assoc]
    · rfl
    · rw [List.length_append, List.length_cons, List.length_cons, List.length_cons, List.length_singleton]
      omega

/-- Encoding puts out the letters, all of them within the output, and fills it. -/
theorem base64Encode_eq (input : AString) : base64Encode input = some (letters input) := by
  have hsize := letters_length input
  have hrun : (encodeGroups input (input.length / 3) 0 (filled [] ((input.length + 2) / 3 * 4))).bind
      (encodeRest input (0 + input.length / 3 * 3)) = some (filled (letters input) ((input.length + 2) / 3 * 4)) :=
    encode_filled (w := []) List.drop_zero (by simp [hsize])
  have hfull : filled (letters input) ((input.length + 2) / 3 * 4) = (letters input, (letters input).length) := by
    rw [filled, hsize, Nat.sub_self, List.replicate_zero, List.append_nil]
  rw [Nat.zero_add, hfull] at hrun
  rw [base64Encode]
  show ((encodeGroups input (input.length / 3) 0 (filled [] ((input.length + 2) / 3 * 4))).bind fun output =>
    (encodeRest input (input.length / 3 * 3) output).bind _) = _
  rw [← Option.bind_assoc, hrun, Option.bind_some, if_pos rfl]

end Encoding

section Decoding

variable {w rest res : AString} {x y : UInt8} {n m o : Nat}

theorem unBase64_letter (hn : n < 64) : unBase64 (base64Letters.getD n 0) = n := by
  have hall : ∀ n < 64, unBase64 (base64Letters.getD n 0) = n := by decide
  exact hall n hn

theorem orAt_append (w : AString) (x : UInt8) (rest : AString) (v : Nat) :
    orAt w.length v (w ++ x :: rest) = some (w ++ (x ||| UInt8.ofNat v) :: rest) := by
  rw [orAt, List.getElem?_append_right (Nat.le_refl _), Nat.sub_self]
  show some ((w ++ x :: rest).set w.length _) = _
  rw [List.set_append_right _ _ (Nat.le_refl _), Nat.sub_self]
  rfl

theorem orAt_next (w : AString) (x y : UInt8) (rest : AString) (v : Nat) :
    orAt (w.length + 1) v (w ++ x :: y :: rest) = some (w ++ x :: (y ||| UInt8.ofNat v) :: rest) := by
  have hnext := orAt_append (w ++ [x]) y rest v
  rw [List.length_append, List.append_assoc, List.append_assoc] at hnext
  exact hnext

theorem orAt_length {pos v : Nat} (h : pos < res.length) :
    ∃ res', orAt pos v res = some res' ∧ res'.length = res.length := by
  refine ⟨_, by rw [orAt, List.getElem?_eq_getElem h]; rfl, List.length_set⟩

theorem putSextet_length (c : Nat) (h : (o >>> 3) + 1 < res.length) :
    ∃ res', putSextet c o res = some res' ∧ res'.length = res.length := by
  have hfirst : ∀ v, ∃ res', orAt (o >>> 3) v res = some res' ∧ res'.length = res.length :=
    fun _ => orAt_length (Nat.lt_of_succ_lt h)
  have hboth : ∀ v v', ∃ res', (orAt (o >>> 3) v res).bind (orAt ((o >>> 3) + 1) v') = some res' ∧
      res'.length = res.length := by
    intro v v'
    obtain ⟨res₁, hres₁, hlength₁⟩ := hfirst v
    obtain ⟨res₂, hres₂, hlength₂⟩ : ∃ res₂, orAt ((o >>> 3) + 1) v' res₁ = some res₂ ∧
        res₂.length = res₁.length :=
      orAt_length (hlength₁ ▸ h)
    exact ⟨res₂, by rw [hres₁, Option.bind_some, hres₂], hlength₂.trans hlength₁⟩
  unfold putSextet
  split
  next => exact hfirst _
  next => exact hboth _ _
  next => exact hboth _ _
  next => exact hfirst _
  next => exact ⟨res, rfl, rfl⟩

theorem bit_offset (k n : Nat) (hn : n < 8) : (8 * k + n) &&& 7 = n ∧ (8 * k + n) >>> 3 = k := by
  rw [Nat.shiftRight_eq_div_pow]
  refine ⟨(Nat.and_two_pow_sub_one_eq_mod _ 3).trans ?_, ?_⟩
  · omega
  · omega

theorem decodeFrom_letter (hn : n < 64) :
    decodeFrom (base64Letters.getD n 0 :: rest) o res = (putSextet n o res).bind (decodeFrom rest (o + 6)) := by
  rw [decodeFrom, unBase64_letter hn, if_pos (by omega)]
  rfl

theorem decode_first (hn : n < 64) :
    decodeFrom (base64Letters.getD n 0 :: rest) (8 * w.length) (w ++ x :: res) =
      decodeFrom rest (8 * w.length + 6) (w ++ (x ||| UInt8.ofNat (n <<< 2)) :: res) := by
  obtain ⟨hlow, hhigh⟩ := bit_offset w.length 0 (by decide)
  rw [Nat.add_zero] at hlow hhigh
  rw [decodeFrom_letter hn]
  simp only [putSextet, hlow, hhigh, orAt_append, Option.bind_some]

theorem decode_second (hn : n < 64) :
    decodeFrom (base64Letters.getD n 0 :: rest) (8 * w.length + 6) (w ++ x :: y :: res) =
      decodeFrom rest (8 * w.length + 12)
        (w ++ (x ||| UInt8.ofNat (n >>> 4)) :: (y ||| UInt8.ofNat (n <<< 4)) :: res) := by
  obtain ⟨hlow, hhigh⟩ := bit_offset w.length 6 (by decide)
  rw [decodeFrom_letter hn]
  simp only [putSextet, hlow, hhigh, orAt_append, orAt_next, Option.bind_eq_bind, Option.bind_some]

theorem decode_third (hn : n < 64) :
    decodeFrom (base64Letters.getD n 0 :: rest) (8 * w.length + 4) (w ++ x :: y :: res) =
      decodeFrom rest (8 * w.length + 10)
        (w ++ (x ||| UInt8.ofNat (n >>> 2)) :: (y ||| UInt8.ofNat (n <<< 6)) :: res) := by
  obtain ⟨hlow, hhigh⟩ := bit_offset w.length 4 (by decide)
  rw [decodeFrom_letter hn]
  simp only [putSextet, hlow, hhigh, orAt_append, orAt_next, Option.bind_eq_bind, Option.bind_some]

theorem decode_fourth (hn : n < 64) :
    decodeFrom (base64Letters.getD n 0 :: rest) (8 * w.length + 2) (w ++ x :: res) =
      decodeFrom rest (8 * w.length + 8) (w ++ (x ||| UInt8.ofNat n) :: res) := by
  obtain ⟨hlow, hhigh⟩ := bit_offset w.length 2 (by decide)
  rw [decodeFrom_letter hn]
  simp only [putSextet, hlow, hhigh, orAt_append, Option.bind_some]

/-- Two parts of a byte that are put in one after the other. -/
theorem byte_parts (b : UInt8) {high low i : Nat} (hhigh : high % 256 = 2 ^ i * (b.toNat / 2 ^ i))
    (hlow : low = b.toNat % 2 ^ i) : (0 : UInt8) ||| UInt8.ofNat high ||| UInt8.ofNat low = b := by
  have hb := b.toNat_lt
  have hpow : b.toNat % 2 ^ i < 256 := Nat.lt_of_le_of_lt (Nat.mod_le _ _) hb
  apply UInt8.toNat_inj.mp
  rw [UInt8.zero_or, UInt8.toNat_or, UInt8.toNat_ofNat', UInt8.toNat_ofNat', hlow]
  show high % 256 ||| b.toNat % 2 ^ i % 256 = b.toNat
  rw [hhigh, Nat.mod_eq_of_lt hpow, ← Nat.two_pow_add_eq_or_of_lt (Nat.mod_lt _ (Nat.two_pow_pos i))]
  exact Nat.div_add_mod b.toNat (2 ^ i)

theorem first_byte (a : UInt8) (n : Nat) (hn : n < 16) :
    (0 : UInt8) ||| UInt8.ofNat ((a.toNat / 4) <<< 2) ||| UInt8.ofNat ((a.toNat % 4 * 16 + n) >>> 4) = a := by
  have ha := a.toNat_lt
  apply byte_parts a (i := 2)
  · rw [Nat.shiftLeft_eq]
    omega
  · rw [Nat.shiftRight_eq_div_pow]
    omega

theorem second_byte (a b : UInt8) (n : Nat) (hn : n < 4) :
    (0 : UInt8) ||| UInt8.ofNat ((a.toNat % 4 * 16 + b.toNat / 16) <<< 4) |||
      UInt8.ofNat ((b.toNat % 16 * 4 + n) >>> 2) = b := by
  have hb := b.toNat_lt
  apply byte_parts b (i := 4)
  · rw [Nat.shiftLeft_eq]
    omega
  · rw [Nat.shiftRight_eq_div_pow]
    omega

theorem third_byte (b c : UInt8) :
    (0 : UInt8) ||| UInt8.ofNat ((b.toNat % 16 * 4 + c.toNat / 64) <<< 6) ||| UInt8.ofNat (c.toNat % 64) = c := by
  have hc := c.toNat_lt
  apply byte_parts c (i := 6)
  · rw [Nat.shiftLeft_eq]
    omega
  · rfl

theorem decode_equals : decodeFrom (0x3d :: rest) o res = some (resize (o >>> 3) res) := by
  have hequals : unBase64 0x3d = -1 := by decide
  rw [decodeFrom, hequals, if_neg (by decide), if_pos rfl]

theorem resize_append (w res : AString) : resize w.length (w ++ res) = w := by
  rw [resize, List.take_left, List.length_append, Nat.sub_eq_zero_of_le (Nat.le_add_right _ _), List.replicate_zero,
    List.append_nil]

theorem resize_byte (w : AString) (x : UInt8) (res : AString) :
    resize (w ++ [x]).length (w ++ x :: res) = w ++ [x] := by
  rw [List.append_cons w x res]
  exact resize_append _ _

/-- From a whole byte on the letters are decoded. -/
theorem decode_letters (s w : AString) (hroom : s.length + 1 ≤ m) :
    decodeFrom (letters s) (8 * w.length) (w ++ List.replicate m 0) = some (w ++ s) := by
  have hsnoc : ∀ (u : AString) (x : UInt8), (u ++ [x]).length = u.length + 1 := fun _ _ => List.length_append
  induction s using letters.induct generalizing w m with
  | case1 =>
    rw [letters, decodeFrom, show (8 * w.length) >>> 3 = w.length from (bit_offset w.length 0 (by decide)).2,
      resize_append, List.append_nil]
  | case2 a =>
    have ha := a.toNat_lt
    obtain ⟨k, rfl⟩ := Nat.exists_eq_add_of_le' hroom
    have hbyte := first_byte a 0 (by decide)
    have hend : (8 * w.length + 12) >>> 3 = (w ++ [a]).length := by
      rw [hsnoc]
      exact (bit_offset (w.length + 1) 4 (by decide)).2
    rw [Nat.add_zero] at hbyte
    rw [letters, show k + ([a].length + 1) = k + 1 + 1 from rfl, List.replicate_succ, List.replicate_succ,
      decode_first (by omega), decode_second (by omega), hbyte, decode_equals, hend, resize_byte]
  | case3 a b =>
    have ha := a.toNat_lt
    have hb := b.toNat_lt
    obtain ⟨k, rfl⟩ := Nat.exists_eq_add_of_le' hroom
    have hbyte := second_byte a b 0 (by decide)
    have hstart : 8 * w.length + 12 = 8 * (w ++ [a]).length + 4 := by
      rw [hsnoc]
      omega
    have hend : (8 * (w ++ [a]).length + 10) >>> 3 = (w ++ [a] ++ [b]).length := by
      rw [hsnoc _ b]
      exact (bit_offset ((w ++ [a]).length + 1) 2 (by decide)).2
    rw [Nat.add_zero] at hbyte
    rw [letters, show k + ([a, b].length + 1) = k + 1 + 1 + 1 from rfl, List.replicate_succ, List.replicate_succ,
      List.replicate_succ, decode_first (by omega), decode_second (by omega), first_byte a (b.toNat / 16) (by omega),
      List.append_cons w a, hstart, decode_third (by omega), hbyte, decode_equals, hend, resize_byte, List.append_assoc]
    rfl
  | case4 a b c rest ih =>
    have ha := a.toNat_lt
    have hb := b.toNat_lt
    have hc := c.toNat_lt
    obtain ⟨k, rfl⟩ := Nat.exists_eq_add_of_le' hroom
    have hstart : 8 * w.length + 12 = 8 * (w ++ [a]).length + 4 := by
      rw [hsnoc]
      omega
    have hthird : 8 * (w ++ [a]).length + 10 = 8 * (w ++ [a] ++ [b]).length + 2 := by
      rw [hsnoc _ b]
      omega
    have hend : 8 * (w ++ [a] ++ [b]).length + 8 = 8 * (w ++ [a] ++ [b] ++ [c]).length := by
      rw [hsnoc _ c]
      omega
    rw [letters, show k + ((a :: b :: c :: rest).length + 1) = k + rest.length + 1 + 1 + 1 + 1 from rfl,
      List.replicate_succ, List.replicate_succ, List.replicate_succ, decode_first (by omega), decode_second (by omega),
      first_byte a (b.toNat / 16) (by omega), List.append_cons w a, hstart, decode_third (by omega),
      second_byte a b (c.toNat / 64) (by omega), List.append_cons (w ++ [a]) b, hthird, decode_fourth (by omega),
      third_byte, List.append_cons (w ++ [a] ++ [b]) c, hend, ih _ (by omega)]
    simp

/-- Any string is decoded, and each byte that is written to is within the size of the result. -/
theorem decodeFrom_inBounds (t : AString) (o : Nat) (res : AString)
    (hroom : (o + 6 * t.length) / 8 + 2 ≤ res.length) :
    ∃ decoded, decodeFrom t o res = some decoded := by
  induction t generalizing o res with
  | nil => exact ⟨_, decodeFrom.eq_1 o res⟩
  | cons c t ih =>
    rw [List.length_cons] at hroom
    rw [decodeFrom]
    split
    next =>
      obtain ⟨res', hres', hlength⟩ := putSextet_length (unBase64 c).toNat (show (o >>> 3) + 1 < res.length by
        rw [Nat.shiftRight_eq_div_pow]
        omega)
      rw [hres', Option.bind_eq_bind, Option.bind_some]
      exact ih _ _ (by omega)
    next =>
      split
      next => exact ⟨_, rfl⟩
      next => exact ih _ _ (by omega)

/-- A string is encoded within its output, which is filled, and decoded again; and any string is decoded within the size
of the result. -/
theorem base64_round_trip (s t : AString) :
    (∃ encoded, base64Encode s = some encoded ∧ base64Decode encoded = some s) ∧ (base64Decode t).isSome := by
  refine ⟨⟨letters s, base64Encode_eq s, ?_⟩, ?_⟩
  · rw [base64Decode]
    have hrun := decode_letters s [] (m := (letters s).length * 4 / 3 + 5) (by rw [letters_length]; omega)
    rw [List.nil_append, List.nil_append] at hrun
    exact hrun
  · obtain ⟨decoded, hdecoded⟩ := decodeFrom_inBounds t 0 (List.replicate (t.length * 4 / 3 + 5) 0) (by
      rw [List.length_replicate]
      omega)
    rw [base64Decode, hdecoded]
    rfl

end Decoding

end P2PChat
