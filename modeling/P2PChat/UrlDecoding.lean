import P2PChat.Ring
import Mathlib.Tactic.Common
import Mathlib.Algebra.Group.Nat.Defs

namespace P2PChat

section Definitions

/-- A subtraction of sizes, which wraps. -/
def sizeMinus (a b : Nat) : Nat := if b ≤ a then a - b else a + 2 ^ 64 - b

/-- The first digit behind a `'%'`, from which `'F'` is taken away in place of `'A'`. -/
def highDigit (hi : UInt8) : Option UInt8 :=
  if 0x30 ≤ hi ∧ hi ≤ 0x39 then some (hi - 0x30)
  else if 0x61 ≤ hi ∧ hi ≤ 0x66 then some (hi - 0x61 + 10)
  else if 0x41 ≤ hi ∧ hi ≤ 0x46 then some (hi - 0x46 + 10)
  else none

def lowDigit (lo : UInt8) : Option UInt8 :=
  if 0x30 ≤ lo ∧ lo ≤ 0x39 then some (lo - 0x30)
  else if 0x61 ≤ lo ∧ lo ≤ 0x66 then some (lo - 0x61 + 10)
  else if 0x41 ≤ lo ∧ lo ≤ 0x46 then some (lo - 0x41 + 10)
  else none

/-- The loop of `URLDecode`; `none` when a character is read that does not exist. -/
def urlDecodeFrom (str : AString) (i : Nat) (res : AString) : Option AString :=
  if h : i < str.length then
    let ch := str[i]
    if ch ≠ 0x25 ∨ sizeMinus str.length 3 < i then urlDecodeFrom str (i + 1) (res ++ [ch])
    else
      match str[i + 1]?, str[i + 2]? with
      | some hi, some lo =>
        match highDigit hi with
        | none => urlDecodeFrom str (i + 1) (res ++ [ch])
        | some hi =>
          match lowDigit lo with
          | none => urlDecodeFrom str (i + 1) (res ++ [ch])
          | some lo => urlDecodeFrom str (i + 3) (res ++ [(hi <<< 4) ||| lo])
      | _, _ => none
  else some res
termination_by str.length - i

def urlDecode (str : AString) : Option AString := urlDecodeFrom str 0 []

/-- A hex digit of any case. -/
def hexDigit (c : UInt8) : Option Nat :=
  if 0x30 ≤ c ∧ c ≤ 0x39 then some (c.toNat - 0x30)
  else if 0x61 ≤ c ∧ c ≤ 0x66 then some (c.toNat - 0x61 + 10)
  else if 0x41 ≤ c ∧ c ≤ 0x46 then some (c.toNat - 0x41 + 10)
  else none

/-- The second string has some bytes of the first as `'%'` and two hex digits, and every `'%'` of it so. -/
inductive PercentEncodes : AString → AString → Prop
  | nil : PercentEncodes [] []
  | plain {c : UInt8} {s e : AString} : c ≠ 0x25 → PercentEncodes s e → PercentEncodes (c :: s) (c :: e)
  | escape {c hi lo : UInt8} {m n : Nat} {s e : AString} : hexDigit hi = some m → hexDigit lo = some n →
      c.toNat = 16 * m + n → PercentEncodes s e → PercentEncodes (c :: s) (0x25 :: hi :: lo :: e)

/-- There are two hex digits at the start. -/
def twoDigits : AString → Bool
  | hi :: lo :: _ => (hexDigit hi).isSome && (hexDigit lo).isSome
  | _ => false

/-- The second string is the first with a byte for each `'%'` that two hex digits follow. -/
inductive KeepsOthers : AString → AString → Prop
  | nil : KeepsOthers [] []
  | plain {c : UInt8} {e s : AString} : c ≠ 0x25 → KeepsOthers e s → KeepsOthers (c :: e) (c :: s)
  | bare {e s : AString} : twoDigits e = false → KeepsOthers e s → KeepsOthers (0x25 :: e) (0x25 :: s)
  | escape {c hi lo : UInt8} {e s : AString} : twoDigits (hi :: lo :: e) = true → KeepsOthers e s →
      KeepsOthers (0x25 :: hi :: lo :: e) (c :: s)

/-- The byte that is put for an escape at the start. -/
def escapeByte : AString → Option UInt8
  | c :: hi :: lo :: _ =>
    if c = 0x25 then (highDigit hi).bind fun m => (lowDigit lo).map fun n => (m <<< 4) ||| n else none
  | _ => none

/-- What the rest of a string is decoded to. -/
def decodedRest : AString → AString
  | [] => []
  | c :: rest =>
    match escapeByte (c :: rest) with
    | some byte => byte :: decodedRest (rest.drop 2)
    | none => c :: decodedRest rest
termination_by str => str.length

end Definitions

section Digits

variable {c hi lo : UInt8} {m n : Nat}

theorem forall_byte {P : UInt8 → Prop} (h : ∀ i : Fin 256, P (UInt8.ofNat i)) (c : UInt8) : P c := by
  have hc := h ⟨c.toNat, c.toNat_lt⟩
  rwa [UInt8.ofNat_toNat] at hc

theorem hexDigit_lt (h : hexDigit c = some m) : m < 16 := by
  have hall : (hexDigit c).all (· < 16) = true := by
    apply forall_byte (P := fun c => (hexDigit c).all (· < 16) = true)
    decide +kernel
  rw [h, Option.all_some, decide_eq_true_eq] at hall
  exact hall

theorem lowDigit_eq (c : UInt8) : lowDigit c = (hexDigit c).map UInt8.ofNat := by
  revert c
  apply forall_byte
  decide +kernel

/-- An upper case digit counts for five less. -/
theorem highDigit_eq (c : UInt8) : highDigit c =
    (hexDigit c).map fun m => UInt8.ofNat (if 0x41 ≤ c ∧ c ≤ 0x46 then m - 5 else m) := by
  revert c
  apply forall_byte
  decide +kernel

theorem upper_le (h : hexDigit c = some m) (hupper : 0x41 ≤ c ∧ c ≤ 0x46) : 10 ≤ m := by
  have hall : (0x41 ≤ c ∧ c ≤ 0x46) → (hexDigit c).all (10 ≤ ·) = true := by
    apply forall_byte (P := fun c => (0x41 ≤ c ∧ c ≤ 0x46) → (hexDigit c).all (10 ≤ ·) = true)
    decide +kernel
  have hten := hall hupper
  rw [h, Option.all_some, decide_eq_true_eq] at hten
  exact hten

theorem joined_toNat (hm : m < 16) (hn : n < 16) : ((UInt8.ofNat m <<< 4) ||| UInt8.ofNat n).toNat = 16 * m + n := by
  have hshift : (UInt8.ofNat m <<< 4).toNat = 2 ^ 4 * m := by
    rw [UInt8.toNat_shiftLeft, UInt8.toNat_ofNat']
    show (m % 256) <<< 4 % 256 = 16 * m
    rw [Nat.shiftLeft_eq]
    omega
  rw [UInt8.toNat_or, hshift, UInt8.toNat_ofNat', Nat.mod_eq_of_lt (by omega), ← Nat.two_pow_add_eq_or_of_lt hn]

/-- There is an escape at the start just where two hex digits follow a `'%'`. -/
theorem escapeByte_isSome {rest : AString} :
    (escapeByte (c :: rest)).isSome = true ↔ c = 0x25 ∧ twoDigits rest = true := by
  rcases rest with _ | ⟨hi, _ | ⟨lo, rest⟩⟩
  · simp [escapeByte, twoDigits]
  · simp [escapeByte, twoDigits]
  · rw [escapeByte, twoDigits, highDigit_eq, lowDigit_eq]
    by_cases hc : c = 0x25
    · rw [if_pos hc]
      rcases hexDigit hi with _ | m
      · simp
      · rcases hexDigit lo with _ | n
        · simp
        · simp [hc]
    · simp [hc]

/-- It is for the byte that is meant if the first digit is not in upper case. -/
theorem escapeByte_iff (rest : AString) (hhi : hexDigit hi = some m) (hlo : hexDigit lo = some n)
    (hc : c.toNat = 16 * m + n) :
    ∃ byte, escapeByte (0x25 :: hi :: lo :: rest) = some byte ∧ (byte = c ↔ ¬(0x41 ≤ hi ∧ hi ≤ 0x46)) := by
  have hm := hexDigit_lt hhi
  have hn := hexDigit_lt hlo
  refine ⟨UInt8.ofNat (if 0x41 ≤ hi ∧ hi ≤ 0x46 then m - 5 else m) <<< 4 ||| UInt8.ofNat n, ?_, ?_⟩
  · rw [escapeByte, if_pos rfl, highDigit_eq, lowDigit_eq, hhi, hlo]
    rfl
  · have hsmall : (if 0x41 ≤ hi ∧ hi ≤ 0x46 then m - 5 else m) < 16 := by
      split <;> omega
    rw [← UInt8.toNat_inj, joined_toNat hsmall hn, hc]
    split
    next hupper =>
      have hten := upper_le hhi hupper
      simp only [hupper, and_self, not_true_eq_false, iff_false]
      omega
    next hlower => simp [hlower]

end Digits

section Loop

variable {str res : AString} {i : Nat}

theorem drop_cons {c : UInt8} {t : AString} (h : str.drop i = c :: t) :
    ∃ hlt : i < str.length, str[i] = c ∧ str.drop (i + 1) = t := by
  have hlt : i < str.length := by
    have hlen := congrArg List.length h
    rw [List.length_drop, List.length_cons] at hlen
    omega
  rw [List.drop_eq_getElem_cons hlt] at h
  obtain ⟨hc, ht⟩ := List.cons.inj h
  exact ⟨hlt, hc, ht⟩

/-- Without an escape at its place, a character is taken over. -/
theorem urlDecodeFrom_push (hlong : 3 ≤ str.length ∨ 0x25 ∉ str) (hi : i < str.length)
    (hnone : escapeByte (str.drop i) = none) :
    urlDecodeFrom str i res = urlDecodeFrom str (i + 1) (res ++ [str[i]]) := by
  rw [urlDecodeFrom, dif_pos hi]
  dsimp only
  split
  next => rfl
  next hpercent =>
    obtain ⟨hch, hroom⟩ := not_or.mp hpercent
    have hch : str[i] = 0x25 := not_not.mp hch
    have hlong : 3 ≤ str.length := hlong.resolve_right fun hno => hno (hch ▸ List.getElem_mem hi)
    have hin : i + 2 < str.length := by
      rw [sizeMinus, if_pos hlong] at hroom
      omega
    rw [List.drop_eq_getElem_cons hi, List.drop_eq_getElem_cons (by omega : i + 1 < str.length),
      List.drop_eq_getElem_cons hin, escapeByte, if_pos hch] at hnone
    rw [List.getElem?_eq_getElem (by omega : i + 1 < str.length), List.getElem?_eq_getElem hin]
    dsimp only
    rcases hhi : highDigit str[i + 1] with _ | m
    · rfl
    · rcases hlo : lowDigit str[i + 2] with _ | n
      · rfl
      · have hlo' : lowDigit str[i + 1 + 1] = some n := hlo
        rw [hhi, Option.bind_some, hlo'] at hnone
        cases hnone

theorem urlDecodeFrom_escape {byte : UInt8} (hsome : escapeByte (str.drop i) = some byte) :
    urlDecodeFrom str i res = urlDecodeFrom str (i + 3) (res ++ [byte]) := by
  rcases hdrop : str.drop i with _ | ⟨c, _ | ⟨hi, _ | ⟨lo, rest⟩⟩⟩
  · rw [hdrop] at hsome
    cases hsome
  · rw [hdrop] at hsome
    cases hsome
  · rw [hdrop] at hsome
    cases hsome
  · obtain ⟨hi₀, hget₀, hdrop₁⟩ := drop_cons hdrop
    obtain ⟨hi₁, hget₁, hdrop₂⟩ := drop_cons hdrop₁
    obtain ⟨hi₂, hget₂, _⟩ := drop_cons hdrop₂
    rw [hdrop, escapeByte] at hsome
    split at hsome
    next hc =>
      obtain ⟨m, hm, hrest⟩ := Option.bind_eq_some_iff.mp hsome
      obtain ⟨n, hn, rfl⟩ := Option.map_eq_some_iff.mp hrest
      have hin : ¬sizeMinus str.length 3 < i := by
        rw [sizeMinus, if_pos (by omega)]
        omega
      rw [urlDecodeFrom, dif_pos hi₀]
      dsimp only
      rw [if_neg (not_or.mpr ⟨not_not.mpr (hget₀.trans hc), hin⟩), List.getElem?_eq_getElem hi₁,
        List.getElem?_eq_getElem hi₂, hget₁, show str[i + 2] = lo from hget₂]
      dsimp only
      rw [hm, hn]
    next => cases hsome

/-- In a string that has no `'%'`, or that is not too short for one, the loop stays inside. -/
theorem urlDecodeFrom_eq (hlong : 3 ≤ str.length ∨ 0x25 ∉ str) (i : Nat) (res : AString) :
    urlDecodeFrom str i res = some (res ++ decodedRest (str.drop i)) := by
  rcases hdrop : str.drop i with _ | ⟨c, rest⟩
  · have hend : ¬i < str.length := by
      have hlen := congrArg List.length hdrop
      rw [List.length_drop, List.length_nil] at hlen
      omega
    rw [urlDecodeFrom, dif_neg hend, decodedRest, List.append_nil]
  · obtain ⟨hi, hget, hrest⟩ := drop_cons hdrop
    rcases hescape : escapeByte (c :: rest) with _ | byte
    · rw [urlDecodeFrom_push hlong hi (hdrop ▸ hescape), urlDecodeFrom_eq hlong (i + 1), decodedRest, hescape, hrest,
        hget, List.append_assoc]
      rfl
    · have hrest : str.drop (i + 3) = rest.drop 2 := by
        rw [← hrest, List.drop_drop]
      rw [urlDecodeFrom_escape (hdrop ▸ hescape), urlDecodeFrom_eq hlong (i + 3), decodedRest, hescape, hrest,
        List.append_assoc]
      rfl
termination_by str.length - i

/-- A `'%'` in a string of one or two characters is followed to where there is none. -/
theorem urlDecode_outside (hshort : str.length < 3) (hpercent : 0x25 ∈ str) : urlDecode str = none := by
  have hroom : ∀ n i, n < 3 → i < n → ¬sizeMinus n 3 < i := by
    intro n i hn hi
    rw [sizeMinus, if_neg (by omega)]
    omega
  rcases str with _ | ⟨c, _ | ⟨d, _ | ⟨e, str⟩⟩⟩
  · cases hpercent
  · obtain rfl := List.mem_singleton.mp hpercent
    rw [urlDecode, urlDecodeFrom]
    simp [hroom]
  · rw [urlDecode, urlDecodeFrom]
    by_cases hc : c = 0x25
    · simp [hc, hroom]
    · have hd : d = 0x25 := by simpa [Ne.symm hc, eq_comm] using hpercent
      simp only [List.length_cons, List.length_nil, Nat.zero_add, Nat.reduceAdd, Nat.zero_lt_succ, dif_pos,
        List.getElem_cons_zero, ne_eq, hc, not_false_eq_true, true_or, if_true]
      rw [urlDecodeFrom]
      simp [hd, hroom]
  · simp at hshort
    omega

end Loop

section Decoding

variable {e s : AString}

/-- There is a result just for a string that is not too short for a `'%'`, and none of its characters is read
outside. -/
theorem urlDecode_inside_iff : (∃ res, urlDecode e = some res) ↔ 3 ≤ e.length ∨ 0x25 ∉ e := by
  by_cases hlong : 3 ≤ e.length ∨ 0x25 ∉ e
  · exact iff_of_true ⟨_, urlDecodeFrom_eq hlong 0 []⟩ hlong
  · obtain ⟨hshort, hpercent⟩ := not_or.mp hlong
    refine iff_of_false ?_ hlong
    rintro ⟨res, hres⟩
    rw [urlDecode_outside (Nat.lt_of_not_le hshort) (not_not.mp hpercent)] at hres
    cases hres

theorem urlDecode_eq (hres : urlDecode e = some s) : s = decodedRest e := by
  have heq := urlDecodeFrom_eq (urlDecode_inside_iff.mp ⟨s, hres⟩) 0 []
  rw [← urlDecode, hres] at heq
  exact Option.some.inj heq

theorem decodedRest_keepsOthers (e : AString) : KeepsOthers e (decodedRest e) := by
  induction e using decodedRest.induct with
  | case1 =>
    rw [decodedRest]
    exact .nil
  | case2 c rest byte hescape ih =>
    obtain ⟨rfl, hdigits⟩ := escapeByte_isSome.mp (Option.isSome_iff_exists.mpr ⟨byte, hescape⟩)
    rw [decodedRest, hescape]
    rcases rest with _ | ⟨hi, _ | ⟨lo, rest⟩⟩
    · cases hdigits
    · cases hdigits
    · exact .escape hdigits ih
  | case3 c rest hescape ih =>
    rw [decodedRest, hescape]
    by_cases hc : c = 0x25
    · subst hc
      refine .bare (Bool.eq_false_iff.mpr fun hdigits => ?_) ih
      have hsome := escapeByte_isSome.mpr ⟨rfl, hdigits⟩
      rw [hescape] at hsome
      cases hsome
    · exact .plain hc ih

theorem PercentEncodes.long (h : PercentEncodes s e) : 3 ≤ e.length ∨ 0x25 ∉ e := by
  induction h with
  | nil => exact .inr List.not_mem_nil
  | plain hc _ ih =>
    refine ih.imp (fun hlen => Nat.le_succ_of_le hlen) fun hno hmem => ?_
    rcases List.mem_cons.mp hmem with rfl | hmem
    · exact hc rfl
    · exact hno hmem
  | escape => exact .inl (by simp)

/-- An escape with an upper case digit in front starts here. -/
theorem infix_cons {c d : UInt8} {e : AString} :
    [0x25, d] <:+: c :: e ↔ c = 0x25 ∧ e.head? = some d ∨ [0x25, d] <:+: e := by
  rw [List.infix_cons_iff, List.cons_prefix_cons]
  rcases e with _ | ⟨b, e⟩
  · simp
  · simp [List.cons_prefix_cons, eq_comm]

theorem hexDigit_ne_percent {d : UInt8} {m : Nat} (h : hexDigit d = some m) : d ≠ 0x25 := by
  rintro rfl
  cases h

/-- The encoding is undone if no escape has an upper case digit in front. -/
theorem PercentEncodes.decoded_iff (h : PercentEncodes s e) :
    decodedRest e = s ↔ ∀ d, [0x25, d] <:+: e → ¬(0x41 ≤ d ∧ d ≤ 0x46) := by
  induction h with
  | nil => simp [decodedRest]
  | @plain c s e hc _ ih =>
    have hnone : escapeByte (c :: e) = none := by
      rw [← Option.not_isSome_iff_eq_none, escapeByte_isSome]
      exact fun hescape => hc hescape.1
    rw [decodedRest, hnone]
    simp only [List.cons.injEq, true_and, ih, infix_cons, hc, false_and, false_or]
  | @escape c hi lo m n s e hhi hlo hbyte _ ih =>
    obtain ⟨byte, hescape, hiff⟩ := escapeByte_iff e hhi hlo hbyte
    rw [decodedRest, hescape]
    simp only [List.drop_succ_cons, List.drop_zero, List.cons.injEq, ih, hiff, infix_cons, hexDigit_ne_percent hhi,
      hexDigit_ne_percent hlo, List.head?_cons, Option.some.injEq, true_and, false_and, false_or]
    constructor
    · rintro ⟨hfirst, hrest⟩ d (rfl | hmem)
      · exact hfirst
      · exact hrest d hmem
    · exact fun hall => ⟨hall hi (.inl rfl), fun d hmem => hall d (.inr hmem)⟩

/-- An encoding is decoded to what it is of if and only if no `'%'` in it is followed by an upper case digit; in any
string what is no escape is kept; and no character outside of a string is read if and only if it has three characters
or no `'%'`. -/
theorem urlDecode_iff (e : AString) :
    (∀ s, PercentEncodes s e → (urlDecode e = some s ↔ ∀ d, [0x25, d] <:+: e → ¬(0x41 ≤ d ∧ d ≤ 0x46))) ∧
      (∀ s, urlDecode e = some s → KeepsOthers e s) ∧
        ((∃ s, urlDecode e = some s) ↔ 3 ≤ e.length ∨ 0x25 ∉ e) := by
  refine ⟨fun s h => ?_, fun s hres => ?_, urlDecode_inside_iff⟩
  · obtain ⟨res, hres⟩ := urlDecode_inside_iff.mpr h.long
    rw [hres, ← h.decoded_iff, urlDecode_eq hres]
    exact Option.some_inj
  · rw [urlDecode_eq hres]
    exact decodedRest_keepsOthers e

/-- `"%41b%"` is no encoding, but keeps its last character; `"%61b"` is one of `"ab"`. -/
theorem urlDecode_lower :
    KeepsOthers [0x25, 0x34, 0x31, 0x62, 0x25] [0x41, 0x62, 0x25] ∧
      (urlDecode [0x25, 0x36, 0x31, 0x62] = some [0x61, 0x62] ↔
        ∀ d : UInt8, [0x25, d] <:+: [0x25, 0x36, 0x31, 0x62] → ¬(0x41 ≤ d ∧ d ≤ 0x46)) := by
  have hencodes : PercentEncodes [0x61, 0x62] [0x25, 0x36, 0x31, 0x62] :=
    .escape rfl rfl rfl (.plain (by decide) .nil)
  have hres : urlDecode [0x25, 0x34, 0x31, 0x62, 0x25] = some [0x41, 0x62, 0x25] := by decide +kernel
  exact ⟨(urlDecode_iff _).2.1 _ hres, (urlDecode_iff _).1 _ hencodes⟩

/-- `"%AB"` is not decoded to the byte AB, and the third character of `"%"` is read. -/
theorem urlDecode_upper :
    (PercentEncodes [0xab] [0x25, 0x41, 0x42] ∧ urlDecode [0x25, 0x41, 0x42] ≠ some [0xab]) ∧
      urlDecode [0x25] = none := by
  have hencodes : PercentEncodes [0xab] [0x25, 0x41, 0x42] := .escape rfl rfl rfl .nil
  refine ⟨⟨hencodes, fun hres => ?_⟩, urlDecode_outside (by simp) List.mem_cons_self⟩
  have hkept := hencodes.decoded_iff.mp (urlDecode_eq hres).symm
  exact hkept 0x41 ⟨[], [0x42], rfl⟩ (by decide)

end Decoding

end P2PChat
