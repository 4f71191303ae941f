import QQChat.Lib.BigEndian

/-!
# `ProtocolCodec`'s byte helpers

Both `protocol_codec.cpp` files open with the same private helpers, character
for character: `write_*` appends to a `std::vector<uint8_t>`, `read_*` reads
through a raw pointer into one. They are modelled once here and used by both
codecs (`write_int64` is in the server's file only).

Mirroring notes:
- A `std::vector<uint8_t>` and a `std::string` are both the list of their
  bytes; no codec path interprets text.
- `read_uint16(&data[offset])` is `readUint16 data offset`. The pointer is
  unchecked in C++, so the result is `Access`: `none` means that some byte
  outside the vector was read, which is undefined behaviour — never a
  decoder's `return false`. A decoder's own answer is a second `Option` inside.
- `int32_t` travels as the `uint32_t` with the same bits; `int64_t` is written
  by arithmetic right shifts and read by left shifts on the signed type.

Every helper has one equation lemma to the digit lists of `Lib.BigEndian`
(`writeUint16_eq`, …) and one reading lemma phrased on the unread suffix
`data.drop offset` (`readUint16_of_drop`, …); decoders are proved through
these and never unfold a shift.
-/

namespace QQChat

open BigEndian

/-- `std::vector<uint8_t>` and `std::string`. -/
abbrev Bytes := List UInt8

/-- A computation that reads through unchecked pointers: `none` is a read
outside the vector. -/
abbrev Access (α : Type) := Option α

/-! ## Writing -/

def writeUint16 (buffer : Bytes) (value : UInt16) : Bytes :=
  buffer ++ [((value >>> 8) &&& 0xFF).toUInt8, (value &&& 0xFF).toUInt8]

def writeUint32 (buffer : Bytes) (value : UInt32) : Bytes :=
  buffer ++ [((value >>> 24) &&& 0xFF).toUInt8, ((value >>> 16) &&& 0xFF).toUInt8,
    ((value >>> 8) &&& 0xFF).toUInt8, (value &&& 0xFF).toUInt8]

def writeInt32 (buffer : Bytes) (value : Int32) : Bytes :=
  writeUint32 buffer value.toUInt32

/-- The `for (int i = 7; i >= 0; --i)` loop; `>>` on `int64_t` is arithmetic. -/
def writeInt64 (buffer : Bytes) (value : Int64) : Bytes :=
  buffer ++ ([7, 6, 5, 4, 3, 2, 1, 0] : List Int64).map fun i =>
    ((value >>> (8 * i)) &&& 0xFF).toUInt64.toUInt8

/-- The length is cut to `uint16_t`, the contents are appended whole. -/
def writeString (buffer : Bytes) (str : Bytes) : Bytes :=
  writeUint16 buffer (UInt16.ofNat str.length) ++ str

/-! ## Reading -/

def readUint16 (data : Bytes) (offset : Nat) : Access UInt16 := do
  let b0 ← data[offset]?
  let b1 ← data[offset + 1]?
  return b0.toUInt16 <<< 8 ||| b1.toUInt16

def readUint32 (data : Bytes) (offset : Nat) : Access UInt32 := do
  let b0 ← data[offset]?
  let b1 ← data[offset + 1]?
  let b2 ← data[offset + 2]?
  let b3 ← data[offset + 3]?
  return b0.toUInt32 <<< 24 ||| b1.toUInt32 <<< 16 ||| b2.toUInt32 <<< 8 ||| b3.toUInt32

def readInt32 (data : Bytes) (offset : Nat) : Access Int32 := do
  let value ← readUint32 data offset
  return value.toInt32

/-- `(value << 8) | data[i]`. -/
def shiftIn (value : Int64) (b : UInt8) : Int64 :=
  value <<< 8 ||| b.toUInt64.toInt64

/-- The `for (int i = 0; i < 8; ++i)` loop. -/
def readInt64 (data : Bytes) (offset : Nat) : Access Int64 :=
  (List.range 8).foldlM (fun value i => (data[offset + i]?).map (shiftIn value)) 0

/-- `std::string(data, len)` copies `len` bytes from the pointer. -/
def readString (data : Bytes) (offset len : Nat) : Access Bytes :=
  if offset + len ≤ data.length then some ((data.drop offset).take len) else none

/-! ## What is written -/

theorem writeUint16_eq (buffer : Bytes) (value : UInt16) :
    writeUint16 buffer value = buffer ++ toBytes 2 value.toNat := by
  have h1 : ((value >>> 8) &&& 0xFF).toUInt8 = UInt8.ofNat (value.toNat / 256 ^ 1) := by
    apply UInt8.toNat_inj.mp
    simp [Nat.shiftRight_eq_div_pow, and_255]
  have h0 : (value &&& 0xFF).toUInt8 = UInt8.ofNat (value.toNat / 256 ^ 0) := by
    apply UInt8.toNat_inj.mp
    simp [and_255]
  unfold writeUint16
  rw [h1, h0]
  rfl

theorem writeUint32_eq (buffer : Bytes) (value : UInt32) :
    writeUint32 buffer value = buffer ++ toBytes 4 value.toNat := by
  have h3 : ((value >>> 24) &&& 0xFF).toUInt8 = UInt8.ofNat (value.toNat / 256 ^ 3) := by
    apply UInt8.toNat_inj.mp
    simp [Nat.shiftRight_eq_div_pow, and_255]
  have h2 : ((value >>> 16) &&& 0xFF).toUInt8 = UInt8.ofNat (value.toNat / 256 ^ 2) := by
    apply UInt8.toNat_inj.mp
    simp [Nat.shiftRight_eq_div_pow, and_255]
  have h1 : ((value >>> 8) &&& 0xFF).toUInt8 = UInt8.ofNat (value.toNat / 256 ^ 1) := by
    apply UInt8.toNat_inj.mp
    simp [Nat.shiftRight_eq_div_pow, and_255]
  have h0 : (value &&& 0xFF).toUInt8 = UInt8.ofNat (value.toNat / 256 ^ 0) := by
    apply UInt8.toNat_inj.mp
    simp [and_255]
  unfold writeUint32
  rw [h3, h2, h1, h0]
  rfl

theorem writeInt32_eq (buffer : Bytes) (value : Int32) :
    writeInt32 buffer value = buffer ++ toBytes 4 value.toUInt32.toNat :=
  writeUint32_eq buffer value.toUInt32

/-- The wire form of a length-prefixed string. -/
def field (str : Bytes) : Bytes :=
  toBytes 2 (str.length % 2 ^ 16) ++ str

theorem length_field (str : Bytes) : (field str).length = 2 + str.length := by
  unfold field
  rw [List.length_append, length_toBytes]

theorem writeString_eq (buffer str : Bytes) : writeString buffer str = buffer ++ field str := by
  unfold writeString field
  rw [writeUint16_eq, UInt16.toNat_ofNat', List.append_assoc]

/-- Bits copied from the sign stay out of the low byte while the shift is at
most 56. -/
theorem low_byte_sshiftRight (x : BitVec 64) {s : Nat} (hs : s + 8 ≤ 64) :
    (x.sshiftRight s).setWidth 8 = (x >>> s).setWidth 8 := by
  apply BitVec.eq_of_getLsbD_eq
  intro i hi
  simp only [BitVec.getLsbD_setWidth, BitVec.getLsbD_sshiftRight, BitVec.getLsbD_ushiftRight]
  simp [show s + i < 64 by omega, show ¬ 64 ≤ i by omega]

/-- One iteration of `writeInt64`'s loop pushes a digit of the word. -/
theorem shifted_byte_eq (value shift : Int64) {k : Nat} (hk : k ≤ 7)
    (hs : (shift.toBitVec.smod 64).toNat = 8 * k) :
    ((value >>> shift) &&& 0xFF).toUInt64.toUInt8
      = UInt8.ofNat (value.toUInt64.toNat / 256 ^ k) := by
  apply UInt8.toBitVec_inj.mp
  show ((value >>> shift) &&& 0xFF).toBitVec.setWidth 8 = _
  rw [Int64.toBitVec_and, Int64.toBitVec_shiftRight, BitVec.sshiftRight_eq', hs,
    BitVec.setWidth_and, low_byte_sshiftRight _ (by omega)]
  show _ &&& BitVec.allOnes 8 = _
  rw [BitVec.and_allOnes]
  apply BitVec.eq_of_toNat_eq
  rw [BitVec.toNat_setWidth, BitVec.toNat_ushiftRight, Nat.shiftRight_eq_div_pow, Nat.pow_mul]
  simp only [UInt8.toBitVec_ofNat', BitVec.toNat_ofNat]
  rfl

theorem writeInt64_eq (buffer : Bytes) (value : Int64) :
    writeInt64 buffer value = buffer ++ toBytes 8 value.toUInt64.toNat := by
  unfold writeInt64
  simp only [List.map_cons, List.map_nil]
  rw [shifted_byte_eq value (8 * 7) (k := 7) (by decide) (by decide),
    shifted_byte_eq value (8 * 6) (k := 6) (by decide) (by decide),
    shifted_byte_eq value (8 * 5) (k := 5) (by decide) (by decide),
    shifted_byte_eq value (8 * 4) (k := 4) (by decide) (by decide),
    shifted_byte_eq value (8 * 3) (k := 3) (by decide) (by decide),
    shifted_byte_eq value (8 * 2) (k := 2) (by decide) (by decide),
    shifted_byte_eq value (8 * 1) (k := 1) (by decide) (by decide),
    shifted_byte_eq value (8 * 0) (k := 0) (by decide) (by decide)]
  rfl

/-! ## What is read -/

/-- A pointer into the vector sees the unread suffix. -/
theorem getElem?_of_drop {data bs : Bytes} {offset : Nat} (h : data.drop offset = bs)
    (i : Nat) : data[offset + i]? = bs[i]? := by
  rw [← h, List.getElem?_drop]

/-- A byte shifted left inside a word wide enough for it loses nothing. -/
theorem shiftLeft_byte_lt (b : UInt8) {s w : Nat} (h : s + 8 ≤ w) :
    b.toNat <<< s % 2 ^ w = b.toNat <<< s := by
  apply Nat.mod_eq_of_lt
  rw [Nat.shiftLeft_eq]
  calc b.toNat * 2 ^ s < 2 ^ 8 * 2 ^ s := Nat.mul_lt_mul_of_pos_right b.toNat_lt (Nat.two_pow_pos s)
    _ = 2 ^ (s + 8) := by rw [← Nat.pow_add, Nat.add_comm]
    _ ≤ 2 ^ w := Nat.pow_le_pow_right (by omega) h

theorem uint16_toNat (a b : UInt8) :
    (a.toUInt16 <<< 8 ||| b.toUInt16).toNat = ofBytes [a, b] := by
  rw [UInt16.toNat_or, UInt16.toNat_shiftLeft, UInt8.toNat_toUInt16, UInt8.toNat_toUInt16]
  rw [show (8 : UInt16).toNat % 16 = 8 from rfl, shiftLeft_byte_lt a (by omega)]
  exact or_two_bytes a b

theorem uint32_toNat (a b c d : UInt8) :
    (a.toUInt32 <<< 24 ||| b.toUInt32 <<< 16 ||| c.toUInt32 <<< 8 ||| d.toUInt32).toNat
      = ofBytes [a, b, c, d] := by
  simp only [UInt32.toNat_or, UInt32.toNat_shiftLeft, UInt8.toNat_toUInt32]
  rw [show (24 : UInt32).toNat % 32 = 24 from rfl, show (16 : UInt32).toNat % 32 = 16 from rfl,
    show (8 : UInt32).toNat % 32 = 8 from rfl, shiftLeft_byte_lt a (by omega),
    shiftLeft_byte_lt b (by omega), shiftLeft_byte_lt c (by omega)]
  exact or_four_bytes a b c d

/-- One iteration of `readInt64`'s loop, on the bits of the accumulator. -/
theorem shiftIn_toNat (value : Int64) (b : UInt8) :
    (shiftIn value b).toUInt64.toNat = (value.toUInt64.toNat * 256 + b.toNat) % 2 ^ 64 := by
  have hword : (shiftIn value b).toUInt64 = value.toUInt64 <<< 8 ||| b.toUInt64 := by
    apply UInt64.toBitVec_inj.mp
    show (value <<< 8 ||| b.toUInt64.toInt64).toBitVec = _
    rw [Int64.toBitVec_or, Int64.toBitVec_shiftLeft]
    rfl
  have hb : b.toNat < 2 ^ 64 := Nat.lt_trans b.toNat_lt (by decide)
  rw [hword, UInt64.toNat_or, UInt64.toNat_shiftLeft, UInt8.toNat_toUInt64]
  rw [show (8 : UInt64).toNat % 64 = 8 from rfl]
  conv => lhs; rw [← Nat.mod_eq_of_lt hb, ← Nat.or_mod_two_pow]
  rw [shiftLeft_or_byte]

/-- Consuming a block leaves the suffix after it. -/
theorem drop_of_drop {data block rest : Bytes} {offset : Nat}
    (h : data.drop offset = block ++ rest) : data.drop (offset + block.length) = rest := by
  rw [← List.drop_drop, h, List.drop_left]

/-- A nonempty block that is still unread lies inside the vector. -/
theorem length_of_drop {data block rest : Bytes} {offset : Nat}
    (h : data.drop offset = block ++ rest) (hpos : 0 < block.length) :
    offset + block.length + rest.length = data.length := by
  have hlen : data.length - offset = block.length + rest.length := by
    rw [← List.length_drop, h, List.length_append]
  omega

theorem readUint16_of_drop {data rest : Bytes} {offset v : Nat}
    (h : data.drop offset = toBytes 2 v ++ rest) :
    readUint16 data offset = some (UInt16.ofNat v) := by
  have h0 : data[offset]? = some (UInt8.ofNat (v / 256 ^ 1)) := getElem?_of_drop h 0
  have h1 : data[offset + 1]? = some (UInt8.ofNat (v / 256 ^ 0)) := getElem?_of_drop h 1
  unfold readUint16
  rw [h0, h1]
  refine congrArg some (UInt16.toNat_inj.mp ?_)
  rw [uint16_toNat, UInt16.toNat_ofNat']
  exact ofBytes_toBytes 2 v

theorem readUint32_of_drop {data rest : Bytes} {offset v : Nat}
    (h : data.drop offset = toBytes 4 v ++ rest) :
    readUint32 data offset = some (UInt32.ofNat v) := by
  have h0 : data[offset]? = some (UInt8.ofNat (v / 256 ^ 3)) := getElem?_of_drop h 0
  have h1 : data[offset + 1]? = some (UInt8.ofNat (v / 256 ^ 2)) := getElem?_of_drop h 1
  have h2 : data[offset + 2]? = some (UInt8.ofNat (v / 256 ^ 1)) := getElem?_of_drop h 2
  have h3 : data[offset + 3]? = some (UInt8.ofNat (v / 256 ^ 0)) := getElem?_of_drop h 3
  unfold readUint32
  rw [h0, h1, h2, h3]
  refine congrArg some (UInt32.toNat_inj.mp ?_)
  rw [uint32_toNat, UInt32.toNat_ofNat']
  exact ofBytes_toBytes 4 v

/-- Two bytes inside the vector are read. -/
theorem readUint16_of_le {data : Bytes} {offset : Nat} (h : offset + 2 ≤ data.length) :
    ∃ value, readUint16 data offset = some value := by
  have h0 : data[offset]? = some data[offset] := List.getElem?_eq_getElem (by omega)
  have h1 : data[offset + 1]? = some data[offset + 1] := List.getElem?_eq_getElem (by omega)
  unfold readUint16
  rw [h0, h1]
  exact ⟨_, rfl⟩

/-- Four bytes inside the vector are read, as their numeral. -/
theorem readUint32_of_le {data : Bytes} {offset : Nat} (h : offset + 4 ≤ data.length) :
    ∃ value : UInt32, readUint32 data offset = some value
      ∧ value.toNat = ofBytes ((data.drop offset).take 4) := by
  match hdrop : data.drop offset with
  | a :: b :: c :: d :: rest =>
    have h0 : data[offset]? = some a := getElem?_of_drop hdrop 0
    have h1 : data[offset + 1]? = some b := getElem?_of_drop hdrop 1
    have h2 : data[offset + 2]? = some c := getElem?_of_drop hdrop 2
    have h3 : data[offset + 3]? = some d := getElem?_of_drop hdrop 3
    unfold readUint32
    rw [h0, h1, h2, h3]
    exact ⟨_, rfl, uint32_toNat a b c d⟩
  | [] | [_] | [_, _] | [_, _, _] =>
    have hlen := congrArg List.length hdrop
    simp only [List.length_drop, List.length_cons, List.length_nil] at hlen
    omega

/-- The word that was read stands at the front of the unread suffix. -/
theorem drop_of_readUint16 {data : Bytes} {offset : Nat} {value : UInt16}
    (h : readUint16 data offset = some value) :
    data.drop offset = toBytes 2 value.toNat ++ data.drop (offset + 2) := by
  unfold readUint16 at h
  simp only [Option.bind_eq_bind, Option.bind_eq_some_iff] at h
  obtain ⟨b0, h0, b1, h1, hvalue⟩ := h
  obtain ⟨hlt0, rfl⟩ := List.getElem?_eq_some_iff.mp h0
  obtain ⟨hlt1, rfl⟩ := List.getElem?_eq_some_iff.mp h1
  rw [← Option.some.inj hvalue, uint16_toNat, List.drop_eq_getElem_cons hlt0,
    List.drop_eq_getElem_cons hlt1]
  have hfield := toBytes_ofBytes [data[offset], data[offset + 1]]
  exact congrArg (· ++ data.drop (offset + 2)) hfield.symm

theorem ofBytes_of_readUint16 {data : Bytes} {offset : Nat} {value : UInt16}
    (h : readUint16 data offset = some value) :
    ofBytes ((data.drop offset).take 2) = value.toNat := by
  have htake : (data.drop offset).take 2 = toBytes 2 value.toNat := by
    rw [drop_of_readUint16 h]
    exact List.take_left' (length_toBytes 2 _)
  rw [htake, ofBytes_toBytes]
  exact Nat.mod_eq_of_lt value.toNat_lt

/-- A word was read, so its four bytes lie inside the vector. -/
theorem le_of_readUint32 {data : Bytes} {offset : Nat} {value : UInt32}
    (h : readUint32 data offset = some value) : offset + 4 ≤ data.length := by
  unfold readUint32 at h
  simp only [Option.bind_eq_bind, Option.bind_eq_some_iff] at h
  obtain ⟨_, _, _, _, _, _, _, h3, _⟩ := h
  obtain ⟨hlt, _⟩ := List.getElem?_eq_some_iff.mp h3
  omega

theorem drop_of_readUint32 {data : Bytes} {offset : Nat} {value : UInt32}
    (h : readUint32 data offset = some value) :
    data.drop offset = toBytes 4 value.toNat ++ data.drop (offset + 4) := by
  have hle := le_of_readUint32 h
  obtain ⟨word, hword, hnum⟩ := readUint32_of_le hle
  have hvalue : value = word := Option.some.inj (h.symm.trans hword)
  have hlen : ((data.drop offset).take 4).length = 4 := by
    rw [List.length_take, List.length_drop]
    omega
  have hbytes : toBytes 4 value.toNat = (data.drop offset).take 4 := by
    have hdigits := toBytes_ofBytes ((data.drop offset).take 4)
    rw [hlen] at hdigits
    rw [hvalue, hnum, hdigits]
  rw [hbytes, ← List.drop_drop, List.take_append_drop]

theorem readInt32_of_drop {data rest : Bytes} {offset : Nat} {value : Int32}
    (h : data.drop offset = toBytes 4 value.toUInt32.toNat ++ rest) :
    readInt32 data offset = some value := by
  unfold readInt32
  rw [readUint32_of_drop h, UInt32.ofNat_toNat]
  rfl

theorem drop_of_readInt32 {data : Bytes} {offset : Nat} {value : Int32}
    (h : readInt32 data offset = some value) :
    data.drop offset = toBytes 4 value.toUInt32.toNat ++ data.drop (offset + 4) := by
  unfold readInt32 at h
  obtain ⟨word, hword, hvalue⟩ := Option.bind_eq_some_iff.mp h
  rw [← Option.some.inj hvalue]
  exact drop_of_readUint32 hword

theorem readInt32_of_le {data : Bytes} {offset : Nat} (h : offset + 4 ≤ data.length) :
    ∃ value, readInt32 data offset = some value
      ∧ value.toUInt32.toNat = ofBytes ((data.drop offset).take 4) := by
  obtain ⟨word, hread, hnum⟩ := readUint32_of_le h
  refine ⟨word.toInt32, ?_, hnum⟩
  unfold readInt32
  rw [hread]
  rfl

/-- `readInt64`'s loop over bytes that are all present is a plain fold. -/
theorem readInt64_loop {data : Bytes} {offset : Nat} :
    ∀ (bs : Bytes) (k : Nat) (value : Int64),
      (∀ i, i < bs.length → data[offset + (k + i)]? = bs[i]?) →
      (List.range' k bs.length).foldlM
          (fun value i => (data[offset + i]?).map (shiftIn value)) value
        = some (bs.foldl shiftIn value)
  | [], _, _, _ => rfl
  | b :: bs, k, value, h => by
    have hb : data[offset + k]? = some b := h 0 (Nat.succ_pos _)
    rw [List.length_cons, List.range'_succ, List.foldlM_cons, hb]
    refine readInt64_loop bs (k + 1) _ fun i hi => ?_
    rw [show k + 1 + i = k + (i + 1) from by omega]
    exact h (i + 1) (Nat.succ_lt_succ hi)

/-- The fold's bits are the numeral, modulo the width of the accumulator. -/
theorem foldl_shiftIn_toNat (bs : Bytes) (value : Int64) :
    (bs.foldl shiftIn value).toUInt64.toNat
      = (value.toUInt64.toNat * 256 ^ bs.length + ofBytes bs) % 2 ^ 64 := by
  induction bs generalizing value with
  | nil =>
    rw [List.foldl_nil, ofBytes_nil, List.length_nil, Nat.pow_zero, Nat.mul_one, Nat.add_zero]
    exact (Nat.mod_eq_of_lt value.toUInt64.toNat_lt).symm
  | cons b bs ih =>
    rw [List.foldl_cons, ih, shiftIn_toNat, ofBytes_cons, List.length_cons]
    rw [Nat.add_mod, Nat.mod_mul_mod, ← Nat.add_mod, Nat.add_mul, Nat.mul_assoc, Nat.add_assoc]
    rw [show 256 ^ (bs.length + 1) = 256 * 256 ^ bs.length from Nat.pow_succ']

theorem readInt64_of_drop {data rest : Bytes} {offset : Nat} {value : Int64}
    (h : data.drop offset = toBytes 8 value.toUInt64.toNat ++ rest) :
    readInt64 data offset = some value := by
  have hpresent : ∀ i, i < (toBytes 8 value.toUInt64.toNat).length →
      data[offset + (0 + i)]? = (toBytes 8 value.toUInt64.toNat)[i]? := by
    intro i hi
    rw [Nat.zero_add, getElem?_of_drop h i, List.getElem?_append_left hi]
  have hbits : ((toBytes 8 value.toUInt64.toNat).foldl shiftIn 0).toUInt64 = value.toUInt64 := by
    apply UInt64.toNat_inj.mp
    rw [foldl_shiftIn_toNat, ofBytes_toBytes, show (0 : Int64).toUInt64.toNat = 0 from rfl]
    rw [Nat.zero_mul, Nat.zero_add, show 256 ^ 8 = 2 ^ 64 from rfl, Nat.mod_mod]
    exact Nat.mod_eq_of_lt value.toUInt64.toNat_lt
  unfold readInt64
  rw [List.range_eq_range']
  refine (readInt64_loop (toBytes 8 value.toUInt64.toNat) 0 0 hpresent).trans ?_
  exact congrArg (fun word => some (UInt64.toInt64 word)) hbits

theorem readInt64_of_le {data : Bytes} {offset : Nat} (h : offset + 8 ≤ data.length) :
    ∃ value, readInt64 data offset = some value
      ∧ value.toUInt64.toNat = ofBytes ((data.drop offset).take 8) := by
  generalize hbytes : (data.drop offset).take 8 = bytes
  have hlen : bytes.length = 8 := by
    rw [← hbytes, List.length_take, List.length_drop]
    omega
  have hlt : ofBytes bytes < 2 ^ 64 := by
    have hdigits := ofBytes_lt bytes
    rwa [hlen] at hdigits
  have hword : (UInt64.ofNat (ofBytes bytes)).toNat = ofBytes bytes := by
    rw [UInt64.toNat_ofNat', Nat.mod_eq_of_lt hlt]
  have hdrop : data.drop offset = toBytes 8 (UInt64.ofNat (ofBytes bytes)).toInt64.toUInt64.toNat
      ++ data.drop (offset + 8) := by
    have hdigits := toBytes_ofBytes bytes
    rw [hlen] at hdigits
    rw [UInt64.toUInt64_toInt64, hword, hdigits, ← hbytes, ← List.drop_drop, List.take_append_drop]
  exact ⟨_, readInt64_of_drop hdrop, by rw [UInt64.toUInt64_toInt64, hword]⟩

theorem le_of_readInt64 {data : Bytes} {offset : Nat} {value : Int64}
    (h : readInt64 data offset = some value) : offset + 8 ≤ data.length := by
  unfold readInt64 at h
  rw [show List.range 8 = [0, 1, 2, 3, 4, 5, 6, 7] from rfl] at h
  simp only [List.foldlM_cons, List.foldlM_nil, Option.bind_eq_bind, Option.bind_eq_some_iff,
    Option.map_eq_some_iff] at h
  obtain ⟨_, _, _, _, _, _, _, _, _, _, _, _, _, _, _, ⟨_, h7, _⟩, _⟩ := h
  obtain ⟨hlt, _⟩ := List.getElem?_eq_some_iff.mp h7
  omega

theorem readString_of_drop {data str rest : Bytes} {offset : Nat}
    (hoff : offset ≤ data.length) (h : data.drop offset = str ++ rest) :
    readString data offset str.length = some str := by
  have hlen : data.length - offset = str.length + rest.length := by
    rw [← List.length_drop, h, List.length_append]
  unfold readString
  rw [if_pos (by omega), h, List.take_left]

/-! ## Length-prefixed strings -/

/-- The three reads every decoder makes of a string that is next in `data`:
its length, the bound its body is checked against, and its body. -/
theorem field_of_drop {data str rest : Bytes} {offset : Nat} (hstr : str.length ≤ 65535)
    (h : data.drop offset = field str ++ rest) :
    ∃ len : UInt16, readUint16 data offset = some len ∧ len.toNat = str.length
      ∧ offset + 2 + str.length ≤ data.length
      ∧ readString data (offset + 2) str.length = some str := by
  have hlen := length_of_drop h (by rw [length_field]; omega)
  have hbody : data.drop offset = toBytes 2 (str.length % 2 ^ 16) ++ (str ++ rest) := by
    rw [h, field, List.append_assoc]
  have hdrop := drop_of_drop hbody
  rw [length_toBytes] at hdrop
  rw [length_field] at hlen
  refine ⟨_, readUint16_of_drop hbody, ?_, by omega, readString_of_drop (by omega) hdrop⟩
  rw [UInt16.toNat_ofNat', Nat.mod_mod, Nat.mod_eq_of_lt (by omega)]

/-- Conversely, a length that was read and that the vector has room for is the length
of a string that is next. -/
theorem drop_eq_field {data : Bytes} {offset : Nat} {len : UInt16}
    (hlen : readUint16 data offset = some len) (hroom : offset + 2 + len.toNat ≤ data.length) :
    ((data.drop (offset + 2)).take len.toNat).length = len.toNat
      ∧ data.drop offset = field ((data.drop (offset + 2)).take len.toNat)
        ++ data.drop (offset + 2 + len.toNat) := by
  have hstr : ((data.drop (offset + 2)).take len.toNat).length = len.toNat := by
    rw [List.length_take, List.length_drop]
    omega
  refine ⟨hstr, ?_⟩
  rw [field, hstr, Nat.mod_eq_of_lt len.toNat_lt, List.append_assoc,
    ← List.drop_drop (i := len.toNat), List.take_append_drop]
  exact drop_of_readUint16 hlen

/-- The guard before a field's length passes when the field is there. -/
theorem room_of_drop {data str rest : Bytes} {offset : Nat}
    (h : data.drop offset = field str ++ rest) : offset + 2 ≤ data.length := by
  have hlen := length_of_drop h (by rw [length_field]; omega)
  rw [length_field] at hlen
  omega

end QQChat
