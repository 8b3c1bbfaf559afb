import P2PChat.BufferRefinement
import P2PChat.Packet
import P2PChat.TypedCodec

namespace P2PChat

open ByteQueue

section Refinement

variable {β γ : Type} [ByteQueue β] [ByteQueue γ] {f : β → γ} (hf : Hom f)

include hf

theorem HostOrder.readInteger_commutes (width : Nat) :
    Commutes f (readInteger width) (readInteger width) := by
  intro b
  simp only [readInteger, hf.canReadBytes, hf.readBuf]
  split <;> rfl

theorem HostOrder.writeInteger_commutes (width n : Nat) :
    Commutes f (writeInteger width n) (writeInteger width n) := by
  intro b
  simp only [writeInteger, hf.canWriteBytes, hf.writeBuf]
  split <;> rfl

namespace TypedValue

theorem writeValue_commutes (v : TypedValue) : Commutes f (writeValue v) (writeValue v) := by
  cases v with
  | bool v => exact hf.write _
  | beInt8 v | beUInt8 v => exact HostOrder.writeInteger_commutes hf 1 _
  | beInt16 v | beUInt16 v => exact HostOrder.writeInteger_commutes hf 2 _
  | beInt32 v | beUInt32 v => exact HostOrder.writeInteger_commutes hf 4 _
  | beInt64 v | beUInt64 v => exact HostOrder.writeInteger_commutes hf 8 _
  | leInt v => exact hf.writeBuf _
  | varInt32 v => exact writeVarInt32_commutes hf v
  | varInt64 v => exact hf.writeBuf _
  | varUTF8String s => exact writeVarUTF8String_commutes hf s

theorem writeValues_commutes (values : List TypedValue) :
    Commutes f (writeValues values) (writeValues values) := by
  induction values with
  | nil => intro b; rfl
  | cons v values ih =>
    intro b
    simp only [writeValues, writeValue_commutes hf v b]
    rcases writeValue v b with ⟨_ | _, b'⟩
    · rfl
    · exact ih b'

variable [Platform]

theorem readValue_commutes (t : ValueType) : Commutes f (readValue t) (readValue t) := by
  cases t with
  | bool | beInt8 | beUInt8 =>
    exact ((HostOrder.readInteger_commutes hf 1).map _).map _
  | beInt16 | beUInt16 => exact ((HostOrder.readInteger_commutes hf 2).map _).map _
  | beInt32 | beUInt32 | leInt => exact ((HostOrder.readInteger_commutes hf 4).map _).map _
  | beInt64 | beUInt64 => exact ((HostOrder.readInteger_commutes hf 8).map _).map _
  | varInt32 => exact (readVarInt32_commutes hf).map _
  | varInt64 => exact (readVarInt64_commutes hf).map _
  | varUTF8String => exact (readVarUTF8String_commutes hf).map _

theorem readValues_commutes (types : List ValueType) :
    Commutes f (readValues types) (readValues types) := by
  induction types with
  | nil => intro b; rfl
  | cons t types ih => exact (readValue_commutes hf t).andThen (fun v => ih.map _)

end TypedValue

end Refinement

namespace TypedValue

/-- What a value is sent as. -/
def encode : TypedValue → AString
  | .bool v => [if v then 1 else 0]
  | .beInt8 v => (LittleEndian.bytes 1 v.toUInt8.toNat)
  | .beUInt8 v => (LittleEndian.bytes 1 v.toNat)
  | .beInt16 v => (LittleEndian.bytes 2 v.toUInt16.toNat).reverse
  | .beUInt16 v => (LittleEndian.bytes 2 v.toNat).reverse
  | .beInt32 v => (LittleEndian.bytes 4 v.toUInt32.toNat).reverse
  | .beUInt32 v => (LittleEndian.bytes 4 v.toNat).reverse
  | .beInt64 v => (LittleEndian.bytes 8 v.toUInt64.toNat).reverse
  | .beUInt64 v => (LittleEndian.bytes 8 v.toNat).reverse
  | .leInt v => LittleEndian.bytes 4 v.toUInt32.toNat
  | .varInt32 v => Leb128.encode v.toNat
  | .varInt64 v => Leb128.encode v.toNat
  | .varUTF8String s => Leb128.encode s.length ++ s

theorem encode_length (v : TypedValue) : v.encode.length = v.size := by
  cases v <;> simp [encode, size]

theorem writeInteger_appends (width n : Nat) :
    Appends (HostOrder.writeInteger width n) (LittleEndian.bytes width n) :=
  guarded_appends (LittleEndian.bytes_length width n)

theorem varInt64_byte (v : UInt64) :
    ((v &&& 0x7f) ||| (if 0x7f < v then 0x80 else 0x00)).toUInt8 =
      if v.toNat < 128 then UInt8.ofNat v.toNat else UInt8.ofNat (v.toNat % 128 + 128) := by
  have hlow : (v &&& 0x7f).toNat = v.toNat % 128 := by
    rw [UInt64.toNat_and, show (0x7f : UInt64).toNat = 2 ^ 7 - 1 from rfl,
      Nat.and_two_pow_sub_one_eq_mod]
  have hhigh : (if 0x7f < v then (0x80 : UInt64) else 0x00).toNat = if 127 < v.toNat then 128 else 0 := by
    rw [apply_ite UInt64.toNat]
    exact if_congr UInt64.lt_iff_toNat_lt rfl rfl
  apply UInt8.toNat_inj.mp
  rw [UInt64.toNat_toUInt8, UInt64.toNat_or, hlow, hhigh, ← Leb128.group_toNat]

theorem varInt64Bytes_take (rounds : Nat) (v : UInt64) :
    HostOrder.varInt64Bytes rounds v = (Leb128.encode v.toNat).take rounds := by
  refine Leb128.loop_encode HostOrder.varInt64Bytes UInt64.toNat _ (· >>> 7) varInt64_byte (fun v => ?_)
    (fun _ => rfl) (fun rounds v => ?_) rounds v
  · rw [UInt64.toNat_shiftRight]
    simp [Nat.shiftRight_eq_div_pow]
  · exact if_congr UInt64.lt_iff_toNat_lt rfl rfl

/-- With as many rounds as the number has groups of seven bits, the loop writes all of them. -/
theorem varInt64Bytes_eq (rounds : Nat) (v : UInt64) (h : v.toNat < 128 ^ (rounds + 1)) :
    HostOrder.varInt64Bytes (rounds + 1) v = Leb128.encode v.toNat := by
  rw [varInt64Bytes_take, List.take_of_length_le (Leb128.encode_length_le (by omega) h)]

theorem string_size {s : AString} (hs : s.length < 2 ^ 32) :
    varInt (UInt32.ofNat s.length) = Leb128.encode s.length := by
  rw [varInt, UInt32.toNat_ofNat', Nat.mod_eq_of_lt hs]

/-- A value is written as its encoding. -/
theorem writeValue_appends {v : TypedValue} (hv : v.Sendable) : Appends (writeValue v) v.encode := by
  cases v with
  | bool v => exact append_appends _
  | beInt8 v | beUInt8 v => exact writeInteger_appends 1 _
  | beInt16 v | beUInt16 v =>
    rw [encode, ← LittleEndian.bytes_reversed, ← htons_toNat]
    exact writeInteger_appends 2 _
  | beInt32 v | beUInt32 v =>
    rw [encode, ← LittleEndian.bytes_reversed, ← ntohl_toNat]
    exact writeInteger_appends 4 _
  | beInt64 v | beUInt64 v =>
    rw [encode, ← LittleEndian.bytes_reversed, ← ntohll_toNat]
    exact writeInteger_appends 8 _
  | leInt v => exact append_appends _
  | varInt32 v => exact writeVarInt32_appends v
  | varInt64 v =>
    have hlt := v.toNat_lt
    rw [encode, ← varInt64Bytes_eq 9 v (by omega)]
    exact append_appends _
  | varUTF8String s =>
    rw [encode, ← string_size hv]
    exact writeVarUTF8String_appends s

theorem writeValues_fifo {values : List TypedValue} (hv : ∀ v ∈ values, v.Sendable) {q : Fifo}
    (hroom : (values.flatMap encode).length ≤ q.free) :
    writeValues values q = (true, (q.append (values.flatMap encode)).2) := by
  induction values generalizing q with
  | nil => simp [writeValues, Fifo.append, q.fits]
  | cons v values ih =>
    rw [List.flatMap_cons] at hroom
    have hjoin := hroom
    rw [List.length_append] at hroom
    have hone := (writeValue_appends (hv v List.mem_cons_self) q).1 (by omega)
    have hfree := @Fifo.append_free v.encode q (by omega)
    rw [writeValues, hone]
    dsimp only
    rw [ih (fun w hw => hv w (List.mem_cons_of_mem _ hw)) (by omega), List.flatMap_cons,
      Fifo.append_append hjoin]

theorem readInteger_reads (width : Nat) :
    Reads (HostOrder.readInteger width) ((Parser.bytes width).map LittleEndian.value) := by
  intro q
  have hr := readBuf_reads width q
  simp only [HostOrder.readInteger, hr, Parser.map]
  by_cases hw : width ≤ q.unread.length
  · simp [canReadBytes, getReadableSpace, hw]
  · simp [canReadBytes, getReadableSpace, hw, Parser.bytes, Fifo.advance_zero]

/-- The integer whose bytes come next is read, and made into a value. -/
theorem readInteger_fifo {α : Type} {width : Nat} {bytes rest : AString} {q : Fifo} {v : α}
    {g : Nat → α} (hb : bytes.length = width) (hq : q.unread = bytes ++ rest)
    (hv : g (LittleEndian.value bytes) = v) :
    (HostOrder.readInteger width).map g q = (some v, q.advance bytes.length) := by
  rw [Reader.map, readInteger_reads width q, hq]
  simp [Parser.map, Parser.bytes, hb, List.take_left' hb, hv]

theorem readInteger_host {α : Type} {width n : Nat} {rest : AString} {q : Fifo} {v : α} {g : Nat → α}
    (hn : n < 256 ^ width) (hq : q.unread = LittleEndian.bytes width n ++ rest) (hv : g n = v) :
    (HostOrder.readInteger width).map g q = (some v, q.advance (LittleEndian.bytes width n).length) := by
  apply readInteger_fifo (LittleEndian.bytes_length width n) hq
  rw [LittleEndian.value_bytes hn, hv]

theorem readInteger_network {α : Type} {width n : Nat} {rest : AString} {q : Fifo} {v : α} {g : Nat → α}
    (hq : q.unread = (LittleEndian.bytes width n).reverse ++ rest)
    (hv : g (LittleEndian.reversed width n) = v) :
    (HostOrder.readInteger width).map g q =
      (some v, q.advance (LittleEndian.bytes width n).reverse.length) :=
  readInteger_fifo (by simp) hq hv

section Reading

variable [Platform]

theorem parseVarInt64_encode (v : UInt64) (rest : AString) :
    parseVarIntWith join64 0 0 (Leb128.encode v.toNat ++ rest) =
      (some v, (Leb128.encode v.toNat).length) := by
  have hv := v.toNat_lt
  have hvalue := joinAll_encode UInt64.toNat 64 join64 join64_toNat v.toNat (v := 0) (s := 0)
    (by omega) (by decide) (by omega)
  rw [show (0 : UInt64).toNat = 0 from rfl, Nat.pow_zero, Nat.mul_one, Nat.zero_add] at hvalue
  simp only [parseVarIntWith, Leb128.firstLength_encode, List.take_left', UInt64.toNat_inj.mp hvalue]

/-- The value whose encoding comes next is read, and nothing behind it. -/
theorem readValue_fifo {v : TypedValue} (hv : v.Sendable) {rest : AString} {q : Fifo}
    (hq : q.unread = v.encode ++ rest) :
    readValue v.type q = (some v, q.advance v.encode.length) := by
  have hmap : ∀ {α δ : Type} (g : α → δ) (r : Reader Fifo α), (r.map g) q = ((r q).1.map g, (r q).2) :=
    fun g r => rfl
  cases v with
  | bool v =>
    have hr : HostOrder.readBool q = (some v, q.advance (bool v).encode.length) := by
      apply readInteger_fifo rfl hq
      cases v <;> decide
    simp only [type, readValue, hmap, hr]
    rfl
  | beInt8 v =>
    have hlt := v.toUInt8.toNat_lt
    have hr : HostOrder.readBEInt8 q = (some v, q.advance (beInt8 v).encode.length) :=
      readInteger_host (by omega) hq (by simp)
    simp only [type, readValue, hmap, hr]
    rfl
  | beUInt8 v =>
    have hlt := v.toNat_lt
    have hr : HostOrder.readBEUInt8 q = (some v, q.advance (beUInt8 v).encode.length) :=
      readInteger_host (by omega) hq (by simp)
    simp only [type, readValue, hmap, hr]
    rfl
  | beInt16 v =>
    have hr : HostOrder.readBEInt16 q = (some v, q.advance (beInt16 v).encode.length) := by
      apply readInteger_network hq
      exact (congrArg UInt16.toInt16 (ntohs_htons v.toUInt16)).trans (by simp)
    simp only [type, readValue, hmap, hr]
    rfl
  | beUInt16 v =>
    have hr : HostOrder.readBEUInt16 q = (some v, q.advance (beUInt16 v).encode.length) :=
      readInteger_network hq (ntohs_htons v)
    simp only [type, readValue, hmap, hr]
    rfl
  | beInt32 v =>
    have hr : HostOrder.readBEInt32 q = (some v, q.advance (beInt32 v).encode.length) := by
      apply readInteger_network hq
      exact (congrArg UInt32.toInt32 (ntohl_hostToNetwork4 v.toUInt32)).trans (by simp)
    simp only [type, readValue, hmap, hr]
    rfl
  | beUInt32 v =>
    have hr : HostOrder.readBEUInt32 q = (some v, q.advance (beUInt32 v).encode.length) :=
      readInteger_network hq (ntohl_hostToNetwork4 v)
    simp only [type, readValue, hmap, hr]
    rfl
  | beInt64 v =>
    have hr : HostOrder.readBEInt64 q = (some v, q.advance (beInt64 v).encode.length) := by
      apply readInteger_network hq
      exact (congrArg UInt64.toInt64 (ntohll_reversed v.toUInt64)).trans (by simp)
    simp only [type, readValue, hmap, hr]
    rfl
  | beUInt64 v =>
    have hr : HostOrder.readBEUInt64 q = (some v, q.advance (beUInt64 v).encode.length) :=
      readInteger_network hq (ntohll_reversed v)
    simp only [type, readValue, hmap, hr]
    rfl
  | leInt v =>
    have hlt := v.toUInt32.toNat_lt
    have hr : HostOrder.readLEInt q = (some v, q.advance (leInt v).encode.length) :=
      readInteger_host (by omega) hq (by simp)
    simp only [type, readValue, hmap, hr]
    rfl
  | varInt32 v =>
    have hr := readVarInt32_reads q
    rw [hq] at hr
    simp only [type, readValue, hmap, hr, encode]
    rw [show Leb128.encode v.toNat = varInt v from rfl, parseVarInt32_varInt]
    rfl
  | varInt64 v =>
    have hr : readVarInt64 q = (some v, q.advance (Leb128.encode v.toNat).length) := by
      apply (readVarIntLoop_reads join64 0 0 (Nat.lt_succ_self _)).trans
      rw [hq, encode, parseVarInt64_encode]
    simp only [type, readValue, hmap, hr]
    rfl
  | varUTF8String s =>
    have hr := readVarUTF8String_reads q
    rw [hq, encode, ← string_size hv, parseString_string hv] at hr
    simp only [type, readValue, hmap, hr, encode, string_size hv]
    rfl

theorem readValues_fifo {values : List TypedValue} (hv : ∀ v ∈ values, v.Sendable) {rest : AString}
    {q : Fifo} (hq : q.unread = values.flatMap encode ++ rest) :
    readValues (values.map type) q = (some values, q.advance (values.flatMap encode).length) := by
  induction values generalizing q with
  | nil =>
    rw [List.flatMap_nil, List.length_nil, Fifo.advance_zero]
    rfl
  | cons v values ih =>
    rw [List.flatMap_cons, List.append_assoc] at hq
    have hone := readValue_fifo (hv v List.mem_cons_self) hq
    have hrest : (q.advance v.encode.length).unread = values.flatMap encode ++ rest := by
      simp [Fifo.advance, hq]
    have hmore := ih (fun w hw => hv w (List.mem_cons_of_mem _ hw)) hrest
    simp only [List.map_cons, readValues, Reader.andThen, hone, Reader.map, hmore, Fifo.advance_advance,
      List.flatMap_cons, List.length_append]
    rfl

end Reading

/-- However many rounds the loop may make, it stops at the last group. -/
theorem varInt32Bytes_length (rounds : Nat) (v : UInt32) : (varInt32Bytes rounds v).length ≤ 5 := by
  have hlt := v.toNat_lt
  rw [varInt32Bytes_take]
  exact (List.length_take_le' _ _).trans (Leb128.encode_length_le (by omega) (by omega))

theorem varInt64Bytes_length (rounds : Nat) (v : UInt64) :
    (HostOrder.varInt64Bytes rounds v).length ≤ 10 := by
  have hlt := v.toNat_lt
  rw [varInt64Bytes_take]
  exact (List.length_take_le' _ _).trans (Leb128.encode_length_le (by omega) (by omega))

end TypedValue

/-- The network order of the host's integers is the big-endian order of the wire. -/
theorem bigEndianBytes_eq (width n : Nat) :
    bigEndianBytes width n = (LittleEndian.bytes width n).reverse := by
  induction width generalizing n with
  | zero => rfl
  | succ width ih => rw [bigEndianBytes_succ, ih, LittleEndian.bytes, List.reverse_cons]

theorem HostOrder.writeBEInt32_eq {β : Type} [ByteQueue β] (v : Int32) (b : β) :
    writeBEInt32 v b = P2PChat.writeBEInt32 v b := by
  simp only [writeBEInt32, writeInteger, hostToNetwork4, ntohl_toNat, LittleEndian.bytes_reversed,
    P2PChat.writeBEInt32, writeBE, bigEndianBytes_eq]

theorem HostOrder.writeBEInt64_eq {β : Type} [ByteQueue β] (v : Int64) (b : β) :
    writeBEInt64 v b = P2PChat.writeBEInt64 v b := by
  simp only [writeBEInt64, writeInteger, hostToNetwork8_eq, ntohll_toNat,
    LittleEndian.bytes_reversed, P2PChat.writeBEInt64, writeBE, bigEndianBytes_eq]

namespace ByteBuffer

/-- A buffer without data, its three positions at `pos`. -/
def emptyAt (memory : Nat → UInt8) (capacity pos : Nat) (hpos : pos ≤ capacity) : ByteBuffer :=
  ⟨⟨memory, capacity + 1, pos, pos, pos⟩, Nat.lt_succ_of_le hpos, Nat.lt_succ_of_le hpos,
    Nat.lt_succ_of_le hpos, Nat.le_refl _⟩

theorem emptyAt_contents (memory : Nat → UInt8) (capacity pos : Nat) (hpos : pos ≤ capacity) :
    (emptyAt memory capacity pos hpos).contents = Fifo.empty capacity :=
  Fifo.ext rfl (Ring.slice_self _ _) (Ring.slice_self _ _)

/-- Values written one after the other into an empty buffer that holds them, wherever its data
begins, are read back as they are, and with them all that is in it; a VarInt takes at most five
bytes, or ten. -/
theorem typed_round_trip [Platform] (memory : Nat → UInt8) {capacity pos : Nat} (hpos : pos ≤ capacity)
    {values : List TypedValue} (hv : ∀ v ∈ values, v.Sendable)
    (hroom : (values.map TypedValue.size).sum ≤ capacity) :
    (∃ b b' : ByteBuffer,
      TypedValue.writeValues values (emptyAt memory capacity pos hpos) = (true, b) ∧
        TypedValue.readValues (values.map TypedValue.type) b = (some values, b') ∧
        getReadableSpace b' = 0) ∧
      (∀ rounds v, (varInt32Bytes rounds v).length ≤ 5) ∧
      ∀ rounds v, (HostOrder.varInt64Bytes rounds v).length ≤ 10 := by
  refine ⟨?_, TypedValue.varInt32Bytes_length, TypedValue.varInt64Bytes_length⟩
  have hlen : (values.flatMap TypedValue.encode).length = (values.map TypedValue.size).sum := by
    simp only [List.length_flatMap, TypedValue.encode_length]
  have hfree : (values.flatMap TypedValue.encode).length ≤ (Fifo.empty capacity).free := by
    rw [hlen]
    exact hroom
  have hw := TypedValue.writeValues_commutes contents_hom values (emptyAt memory capacity pos hpos)
  rw [emptyAt_contents, TypedValue.writeValues_fifo hv hfree] at hw
  obtain ⟨hok, hwritten⟩ := Prod.mk.inj hw
  obtain ⟨_, _, hunread⟩ := Fifo.append_snd hfree
  obtain ⟨b, hb⟩ : ∃ b, TypedValue.writeValues values (emptyAt memory capacity pos hpos) = (true, b) :=
    ⟨_, Prod.ext hok.symm rfl⟩
  rw [hb] at hwritten
  have hq : b.contents.unread = values.flatMap TypedValue.encode ++ [] := by
    rw [← hwritten, hunread, List.append_nil]
    rfl
  have hr := TypedValue.readValues_commutes contents_hom (values.map TypedValue.type) b
  rw [TypedValue.readValues_fifo hv hq] at hr
  obtain ⟨hsome, hread⟩ := Prod.mk.inj hr
  refine ⟨b, _, hb, Prod.ext hsome.symm rfl, ?_⟩
  rw [← contents_hom.getReadableSpace, ← hread]
  change (b.contents.unread.drop (values.flatMap TypedValue.encode).length).length = 0
  simp [hq]

theorem typed_round_trip_wrapped :
    letI := zeroPlatform
    (∃ b b' : ByteBuffer,
      TypedValue.writeValues [.beInt16 (-2), .varUTF8String [7, 0]] (emptyAt (fun _ => 9) 6 5 (by decide)) =
          (true, b) ∧
        TypedValue.readValues [.beInt16, .varUTF8String] b =
          (some [.beInt16 (-2), .varUTF8String [7, 0]], b') ∧
        getReadableSpace b' = 0) ∧
      (∀ rounds v, (varInt32Bytes rounds v).length ≤ 5) ∧
      ∀ rounds v, (HostOrder.varInt64Bytes rounds v).length ≤ 10 := by
  let : Platform := zeroPlatform
  apply @typed_round_trip _ (fun _ => 9) 6 5 (by decide) [.beInt16 (-2), .varUTF8String [7, 0]]
  · intro v hv
    rcases List.mem_pair.mp hv with rfl | rfl
    · trivial
    · exact (by decide : (2 : Nat) < 2 ^ 32)
  · have hone : (Leb128.encode 2).length = 1 := by simp [Leb128.encode]
    simp [TypedValue.size, hone]

end ByteBuffer

end P2PChat
