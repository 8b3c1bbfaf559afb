import Mathlib.Algebra.Group.Nat.Defs
import Mathlib.Data.List.Basic
import P2PChat.StringUtils

namespace P2PChat

def zOk : Int32 := 0
def zStreamEnd : Int32 := 1
def zBufError : Int32 := -5
def zDeflated : Int32 := 8
def zDefaultStrategy : Int32 := 0
def zNoFlush : Int32 := 0
def zFinish : Int32 := 4

/-- The members of `z_stream` that the code reads or sets; `nextIn` are the bytes from `next_in` on, `buffer` those
of `Buffer` up to `next_out`. -/
structure ZStream (σ : Type) where
  nextIn : AString
  availIn : Nat
  buffer : AString
  availOut : Nat
  state : σ

/-- `deflate` or `inflate` with one value of `flush`, and what zlib says of a call. -/
structure Coder (σ : Type) where
  call : ZStream σ → Int32 × ZStream σ
  whole : σ → Prop
  consumes : ∀ strm, ∃ n ≤ strm.availIn, (call strm).2.nextIn = strm.nextIn.drop n ∧
    (call strm).2.availIn = strm.availIn - n
  produces : ∀ strm, ∃ bytes : AString, bytes.length ≤ strm.availOut ∧
    (call strm).2.buffer = strm.buffer ++ bytes ∧ (call strm).2.availOut = strm.availOut - bytes.length
  progress : ∀ strm, (call strm).1 = zOk →
    (call strm).2.availIn < strm.availIn ∨ (call strm).2.availOut < strm.availOut
  ends : ∀ strm, (call strm).1 = zStreamEnd → whole (call strm).2.state

/-- What the code uses of zlib. -/
structure Zlib (σ : Type) where
  deflateInit2 (level method windowBits memLevel strategy : Int32) : Int32 × σ
  deflate (flush : Int32) : Coder σ
  inflateInit2 (windowBits : Int32) : Int32 × σ
  inflateInit : Int32 × σ
  inflate (flush : Int32) : Coder σ

/-- What one of the functions returns, and what its string is then. No code reads the codes and the output of the
calls in `answers`. -/
structure Coded where
  res : Int32
  out : AString
  answers : List (Int32 × AString)
  deriving DecidableEq

/-- `sizeof(Buffer)`. -/
def bufferSize : Nat := 64 * 1024

section Functions

variable {σ : Type}

namespace ZStream

/-- The first `sizeof(Buffer) - avail_out` bytes of `Buffer`. -/
def taken (strm : ZStream σ) : AString := strm.buffer.take (bufferSize - strm.availOut)

/-- `next_out` and `avail_out` are those of an empty buffer. -/
def rewind (strm : ZStream σ) : ZStream σ := { strm with buffer := [], availOut := bufferSize }

/-- `avail_in` is a `uInt`. -/
def opened (data : AString) (state : σ) : ZStream σ where
  nextIn := data
  availIn := data.length % 2 ^ 32
  buffer := []
  availOut := bufferSize
  state := state

end ZStream

/-- What a call writes. -/
def Coder.output (c : Coder σ) (strm : ZStream σ) : AString := (c.call strm).2.buffer.drop strm.buffer.length

/-- The loop of the three functions, for so many rounds. -/
def codeLoop (c : Coder σ) : Nat → AString → List (Int32 × AString) → ZStream σ → Option Coded
  | 0, _, _, _ => none
  | rounds + 1, out, answers, strm =>
    let (res, strm') := c.call strm
    let answers := answers ++ [(res, c.output strm)]
    if res = zOk then
      if strm'.rewind.availIn = 0 then some ⟨zOk, out ++ strm'.taken, answers⟩
      else codeLoop c rounds (out ++ strm'.taken) answers strm'.rewind
    else if res = zStreamEnd then some ⟨zOk, out ++ strm'.taken, answers⟩
    else some ⟨res, out, answers⟩

/-- The three functions, that differ in the functions of zlib they call. -/
def codeString (init : Int32 × σ) (c : Coder σ) (data out : AString) (rounds : Nat) : Option Coded :=
  if init.1 ≠ zOk then some ⟨init.1, out, []⟩ else codeLoop c rounds out [] (.opened data init.2)

namespace Zlib

def compressStringGZIP (z : Zlib σ) (data compressed : AString) (rounds : Nat) : Option Coded :=
  codeString (z.deflateInit2 9 zDeflated 31 9 zDefaultStrategy) (z.deflate zFinish) data compressed rounds

def uncompressStringGZIP (z : Zlib σ) (data uncompressed : AString) (rounds : Nat) : Option Coded :=
  codeString (z.inflateInit2 31) (z.inflate zNoFlush) data uncompressed rounds

def inflateString (z : Zlib σ) (data uncompressed : AString) (rounds : Nat) : Option Coded :=
  codeString z.inflateInit (z.inflate zNoFlush) data uncompressed rounds

end Zlib

/-- Success is returned only after the end of the stream, with all the output. -/
def Coded.Whole (out : AString) (r : Coded) : Prop :=
  r.res = zOk → (∃ bytes, (zStreamEnd, bytes) ∈ r.answers) ∧ r.out = out ++ (r.answers.map Prod.snd).flatten

namespace Coder

/-- The stream before the call after so many. -/
def after (c : Coder σ) : Nat → ZStream σ → ZStream σ
  | 0, strm => strm
  | n + 1, strm => c.after n (c.call strm).2.rewind

/-- The call answers `Z_OK` and leaves some input. -/
def Goes (c : Coder σ) (strm : ZStream σ) : Prop := (c.call strm).1 = zOk ∧ (c.call strm).2.availIn ≠ 0

/-- The call answers `Z_OK` and leaves none. -/
def Stalls (c : Coder σ) (strm : ZStream σ) : Prop := (c.call strm).1 = zOk ∧ (c.call strm).2.availIn = 0

/-- The first call that leaves no input does not answer `Z_OK`, if the calls before it do. -/
def Finishes (c : Coder σ) (strm : ZStream σ) : Prop :=
  ∀ n, (∀ k < n, c.Goes (c.after k strm)) → ¬c.Stalls (c.after n strm)

end Coder

end Functions

section Loop

variable {σ : Type} {c : Coder σ} {rounds : Nat} {out out₀ : AString} {answers : List (Int32 × AString)}
  {strm : ZStream σ} {r : Coded}

theorem codeLoop_goes (h : c.Goes strm) : codeLoop c (rounds + 1) out answers strm =
    codeLoop c rounds (out ++ (c.call strm).2.taken) (answers ++ [(zOk, c.output strm)])
      (c.call strm).2.rewind := by
  have hmore : (c.call strm).2.rewind.availIn ≠ 0 := h.2
  simp only [codeLoop]
  rw [if_pos h.1, if_neg hmore, h.1]

theorem codeLoop_stalls (h : c.Stalls strm) : codeLoop c (rounds + 1) out answers strm =
    some ⟨zOk, out ++ (c.call strm).2.taken, answers ++ [(zOk, c.output strm)]⟩ := by
  have hnone : (c.call strm).2.rewind.availIn = 0 := h.2
  simp only [codeLoop]
  rw [if_pos h.1, if_pos hnone, h.1]

theorem codeLoop_ended (h : (c.call strm).1 = zStreamEnd) : codeLoop c (rounds + 1) out answers strm =
    some ⟨zOk, out ++ (c.call strm).2.taken, answers ++ [(zStreamEnd, c.output strm)]⟩ := by
  simp only [codeLoop]
  rw [if_neg (by rw [h]; decide), if_pos h, h]

theorem codeLoop_failed (hok : (c.call strm).1 ≠ zOk) (hend : (c.call strm).1 ≠ zStreamEnd) :
    codeLoop c (rounds + 1) out answers strm =
      some ⟨(c.call strm).1, out, answers ++ [((c.call strm).1, c.output strm)]⟩ := by
  simp only [codeLoop]
  rw [if_neg hok, if_neg hend]

/-- The buffer is empty, as it is before every call. -/
structure ZStream.Empty (strm : ZStream σ) : Prop where
  buffer : strm.buffer = []
  availOut : strm.availOut = bufferSize

/-- What is taken from the buffer is what the call has written. -/
theorem Coder.taken_output (c : Coder σ) (h : strm.Empty) : (c.call strm).2.taken = c.output strm := by
  obtain ⟨bytes, hroom, hbuffer, havail⟩ := c.produces strm
  rw [h.buffer, List.nil_append] at hbuffer
  rw [h.availOut] at hroom havail
  have hlen : bufferSize - (bufferSize - bytes.length) = bytes.length := by omega
  rw [ZStream.taken, output, h.buffer, hbuffer, havail, hlen, List.take_length]
  rfl

theorem Coder.Finishes.next (h : c.Finishes strm) (hgoes : c.Goes strm) :
    c.Finishes (c.call strm).2.rewind := by
  intro n hall
  refine h (n + 1) fun k hk => ?_
  cases k with
  | zero => exact hgoes
  | succ k => exact hall k (Nat.lt_of_succ_lt_succ hk)

theorem flatten_answers (h : out = out₀ ++ (answers.map Prod.snd).flatten) (res : Int32) (bytes : AString) :
    out ++ bytes = out₀ ++ ((answers ++ [(res, bytes)]).map Prod.snd).flatten := by
  rw [h, List.map_append, List.flatten_append, List.append_assoc]
  exact congrArg (fun rest => out₀ ++ (_ ++ rest)) (List.append_nil bytes).symm

/-- As long as it goes on, the loop has taken all the output. -/
theorem codeLoop_whole (hout : out = out₀ ++ (answers.map Prod.snd).flatten) (hempty : strm.Empty)
    (hfin : c.Finishes strm) (h : codeLoop c rounds out answers strm = some r) : r.Whole out₀ := by
  induction rounds generalizing out answers strm with
  | zero => cases h
  | succ rounds ih =>
    have htaken := flatten_answers hout (c.call strm).1 (c.output strm)
    rw [← c.taken_output hempty] at htaken
    by_cases hok : (c.call strm).1 = zOk
    · by_cases hnone : (c.call strm).2.availIn = 0
      · exact absurd ⟨hok, hnone⟩ (hfin 0 fun k hk => absurd hk (Nat.not_lt_zero k))
      · rw [codeLoop_goes ⟨hok, hnone⟩] at h
        rw [hok, c.taken_output hempty] at htaken
        rw [c.taken_output hempty] at h
        exact ih htaken ⟨rfl, rfl⟩ (hfin.next ⟨hok, hnone⟩) h
    · by_cases hend : (c.call strm).1 = zStreamEnd
      · rw [codeLoop_ended hend] at h
        cases h
        rw [hend, c.taken_output hempty] at htaken
        intro _
        refine ⟨⟨c.output strm, List.mem_append_right _ List.mem_cons_self⟩, ?_⟩
        rw [c.taken_output hempty]
        exact htaken
      · rw [codeLoop_failed hok hend] at h
        cases h
        exact fun hres => absurd hres hok

/-- When a call stalls after others that go on, the loop returns success, and no call has ended the stream. -/
theorem codeLoop_partial (n : Nat) (hall : ∀ k < n, c.Goes (c.after k strm)) (hstalls : c.Stalls (c.after n strm))
    (hno : ∀ answer ∈ answers, answer.1 = zOk) :
    ∃ r, codeLoop c (n + 1) out answers strm = some r ∧ r.res = zOk ∧ ∀ answer ∈ r.answers, answer.1 = zOk := by
  induction n generalizing out answers strm with
  | zero =>
    refine ⟨_, codeLoop_stalls hstalls, rfl, List.forall_mem_append.mpr ⟨hno, ?_⟩⟩
    exact List.forall_mem_singleton.mpr rfl
  | succ n ih =>
    have hfirst : c.Goes strm := hall 0 (Nat.succ_pos n)
    rw [codeLoop_goes hfirst]
    refine ih (fun k hk => hall (k + 1) (Nat.succ_lt_succ hk)) hstalls (List.forall_mem_append.mpr ⟨hno, ?_⟩)
    exact List.forall_mem_singleton.mpr rfl

theorem not_whole (hres : r.res = zOk) (hall : ∀ answer ∈ r.answers, answer.1 = zOk) : ¬r.Whole out := by
  intro hwhole
  obtain ⟨bytes, hmem⟩ := (hwhole hres).1
  have hsame : zStreamEnd = zOk := hall _ hmem
  exact absurd hsame (by decide)

variable {init : Int32 × σ} {data : AString}

theorem codeString_whole_iff : (∀ rounds r, codeString init c data out rounds = some r → r.Whole out) ↔
    (init.1 = zOk → c.Finishes (.opened data init.2)) := by
  constructor
  · intro hall hinit n hgoes hstalls
    obtain ⟨r, hr, hres, hno⟩ : ∃ r, codeLoop c (n + 1) out [] (.opened data init.2) = some r ∧ r.res = zOk ∧
        ∀ answer ∈ r.answers, answer.1 = zOk := codeLoop_partial n hgoes hstalls (List.forall_mem_nil _)
    refine not_whole hres hno (hall (n + 1) r ?_)
    rw [codeString, if_neg (not_not.mpr hinit)]
    exact hr
  · intro hfin rounds r h
    by_cases hinit : init.1 = zOk
    · rw [codeString, if_neg (not_not.mpr hinit)] at h
      exact codeLoop_whole (List.append_nil out).symm ⟨rfl, rfl⟩ (hfin hinit) h
    · rw [codeString, if_pos hinit] at h
      cases h
      exact fun hres => absurd hres hinit

end Loop

section Functions

variable {σ : Type}

/-- Each of the three functions returns success after the end of the stream only, with all the output, if and only
if no call of zlib answers `Z_OK` and leaves no input. -/
theorem Zlib.coded_whole_iff (z : Zlib σ) (data out : AString) :
    ((∀ rounds r, z.compressStringGZIP data out rounds = some r → r.Whole out) ↔
      ((z.deflateInit2 9 zDeflated 31 9 zDefaultStrategy).1 = zOk →
        (z.deflate zFinish).Finishes (.opened data (z.deflateInit2 9 zDeflated 31 9 zDefaultStrategy).2))) ∧
    ((∀ rounds r, z.uncompressStringGZIP data out rounds = some r → r.Whole out) ↔
      ((z.inflateInit2 31).1 = zOk → (z.inflate zNoFlush).Finishes (.opened data (z.inflateInit2 31).2))) ∧
    ((∀ rounds r, z.inflateString data out rounds = some r → r.Whole out) ↔
      (z.inflateInit.1 = zOk → (z.inflate zNoFlush).Finishes (.opened data z.inflateInit.2))) :=
  ⟨codeString_whole_iff, codeString_whole_iff, codeString_whole_iff⟩

end Functions

section Storing

/-- What a coder answers that stores what it is given. With `Z_FINISH` the stream ends with what is pending, without
with a zero. -/
def storingCall (flush : Int32) (strm : ZStream AString) : Int32 × ZStream AString :=
  let pending := strm.state ++ strm.nextIn.take strm.availIn
  let res :=
    if pending.length ≤ strm.availOut ∧ (flush = zFinish ∨ pending.getLast? = some 0) then zStreamEnd
    else if pending = [] ∨ strm.availOut = 0 then zBufError
    else zOk
  (res, {
    nextIn := strm.nextIn.drop strm.availIn
    availIn := 0
    buffer := strm.buffer ++ pending.take strm.availOut
    availOut := strm.availOut - (pending.take strm.availOut).length
    state := pending.drop strm.availOut })

theorem storing_ok {flush : Int32} {strm : ZStream AString} (h : (storingCall flush strm).1 = zOk) :
    strm.state ++ strm.nextIn.take strm.availIn ≠ [] ∧ strm.availOut ≠ 0 := by
  simp only [storingCall] at h
  split at h
  next => exact absurd h (by decide)
  next =>
    split at h
    next => exact absurd h (by decide)
    next hno => exact not_or.mp hno

def storing (flush : Int32) : Coder AString where
  call := storingCall flush
  whole pending := pending = []
  consumes strm := ⟨strm.availIn, Nat.le_refl _, rfl, (Nat.sub_self _).symm⟩
  produces strm := ⟨_, List.length_take_le _ _, rfl, rfl⟩
  progress strm h := by
    obtain ⟨hpending, hroom⟩ := storing_ok h
    right
    have hlen := List.length_pos_iff.mpr hpending
    change strm.availOut - (List.take strm.availOut _).length < strm.availOut
    rw [List.length_take]
    omega
  ends strm h := by
    have hfits : (strm.state ++ strm.nextIn.take strm.availIn).length ≤ strm.availOut := by
      simp only [storingCall] at h
      split at h
      next hall => exact hall.1
      next =>
        split at h
        next => exact absurd h (by decide)
        next => exact absurd h (by decide)
    exact List.drop_eq_nil_of_le hfits

def storingZlib : Zlib AString where
  deflateInit2 _ _ _ _ _ := (zOk, [])
  deflate := storing
  inflateInit2 _ := (zOk, [])
  inflateInit := (zOk, [])
  inflate := storing

/-- Data that the buffer does not hold comes to one call that leaves no input. -/
theorem storing_stalls {data : AString} (hlong : bufferSize < data.length) (h : data.length < 2 ^ 32) :
    (storing zFinish).Stalls (.opened data []) := by
  have hall : (ZStream.opened data ([] : AString)).state ++
      (ZStream.opened data ([] : AString)).nextIn.take (ZStream.opened data ([] : AString)).availIn = data := by
    change [] ++ data.take (data.length % 2 ^ 32) = data
    rw [Nat.mod_eq_of_lt h, List.take_length, List.nil_append]
  refine ⟨?_, rfl⟩
  change (storingCall zFinish (.opened data [])).1 = zOk
  simp only [storingCall]
  rw [hall, if_neg (fun hfits => absurd hfits.1 (Nat.not_le.mpr hlong)), if_neg]
  rintro (hnil | hroom)
  · rw [hnil] at hlong
    exact absurd hlong (Nat.not_lt_zero _)
  · exact absurd (show bufferSize = 0 from hroom) (by decide)

/-- Too much for the buffer is compressed in part only, and what is uncompressed may be cut off. -/
theorem coded_in_part :
    (¬∀ rounds r, storingZlib.compressStringGZIP (List.replicate 65537 0) [] rounds = some r → r.Whole []) ∧
      storingZlib.uncompressStringGZIP [1] [] 1 = some ⟨zOk, [1], [(zOk, [1])]⟩ ∧
        storingZlib.inflateString [1] [] 1 = some ⟨zOk, [1], [(zOk, [1])]⟩ ∧
          ¬(⟨zOk, [1], [(zOk, [1])]⟩ : Coded).Whole [] := by
  refine ⟨fun hall => ?_, rfl, rfl, not_whole rfl (List.forall_mem_singleton.mpr rfl)⟩
  have hlen : (List.replicate 65537 (0 : UInt8)).length = 65537 := List.length_replicate
  refine codeString_whole_iff.mp hall rfl 0 (fun k hk => absurd hk (Nat.not_lt_zero k)) ?_
  exact storing_stalls (by rw [hlen]; decide) (by rw [hlen]; decide)

end Storing

end P2PChat
