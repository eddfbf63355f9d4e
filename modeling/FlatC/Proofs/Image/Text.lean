import FlatC.Proofs.Image.Fill

/-!
# Texts in memory

A text in memory is a run of bytes up to the first zero.  Reading one searches for the zero and turns
bytes into characters, and writing one turns characters into bytes.  Bytes and Latin-1 characters
correspond one to one, so neither loses anything.

* `Image.TextAt` says which bytes are the text at an address, and `Image.textBytes_eq_ok` that these
  are the bytes that are read;
* `Image.textAt_filled` is a text of one byte over and over;
* `Image.write_eq_ok` says what a write of bytes does that succeeds;
* `Image.readText_of_writeText` says that a text that was written is read back.
-/

namespace FlatC

/-! ## Bytes and characters -/

namespace Text

theorem toNat_decodeByte (b : UInt8) : (decodeByte b).toNat = b.toNat := by
  have small := b.toNat_lt
  have valid : b.toNat.isValidChar := .inl (by omega)
  rw [decodeByte, Char.ofNat, dif_pos valid]
  exact UInt32.toNat_ofNatLT

theorem encodeChar_decodeByte (b : UInt8) : encodeChar (decodeByte b) = b := by
  rw [encodeChar, toNat_decodeByte, if_pos b.toNat_lt]
  exact UInt8.ofNat_toNat

/-- Bytes are stored as they were read. -/
theorem encode_decode (bytes : List UInt8) : encode (decode bytes) = bytes := by
  rw [encode, decode, List.map_map]
  exact (List.map_congr_left fun b _ => encodeChar_decodeByte b).trans (List.map_id _)

/-- Only the zero character is stored as zero. -/
theorem zero_notMem_encode {text : List Char}
    (latin : ∀ c ∈ text, c ≠ Char.ofNat 0 ∧ c.toNat < 256) : 0 ∉ encode text := by
  intro mem
  obtain ⟨c, among, stored⟩ := List.mem_map.mp mem
  obtain ⟨nonzero, small⟩ := latin c among
  have back := decodeByte_encodeChar small
  rw [stored] at back
  exact nonzero back.symm

end Text

namespace Image

variable {image image' : Image} {address size stop i : Nat} {text data : List UInt8}

/-! ## Runs of bytes -/

theorem length_bytesAt (inside : address + size ≤ image.size) :
    (image.bytesAt address size).length = size := by
  have total : image.size = image.bytes.size := rfl
  rw [bytesAt, Bytes.length_slice]
  omega

/-- A run of bytes and the byte behind it are a longer run. -/
theorem bytesAt_succ {byte : UInt8} (last : image.bytes[address + size]? = some byte) :
    image.bytesAt address (size + 1) = image.bytesAt address size ++ [byte] := by
  obtain ⟨below, -⟩ := Bytes.getElem?_eq_some_iff.mp last
  have length : (image.bytesAt address size).length = size := length_bytesAt (Nat.le_of_lt below)
  apply List.ext_getElem?
  intro i
  rcases Nat.lt_trichotomy i size with within | rfl | behind
  · rw [List.getElem?_append_left (length.symm ▸ within),
      getElem?_bytesAt _ _ (Nat.lt_succ_of_lt within), getElem?_bytesAt _ _ within]
  · rw [List.getElem?_append_right (Nat.le_of_eq length), length, Nat.sub_self,
      getElem?_bytesAt _ _ (Nat.lt_succ_self i), last]
    rfl
  · rw [getElem?_bytesAt_of_le _ _ behind, List.getElem?_eq_none]
    rw [List.length_append, length, List.length_singleton]
    exact behind

/-- No more bytes are read than there are. -/
theorem inside_of_length_bytesAt (length : (image.bytesAt address size).length = size)
    (some : 0 < size) : address + size ≤ image.size := by
  rw [bytesAt, Bytes.length_slice] at length
  show address + size ≤ image.bytes.size
  omega

/-! ## Texts -/

/-- These bytes stand at the address, a zero stands behind them and none is among them. -/
structure TextAt (image : Image) (address : Nat) (text : List UInt8) : Prop where
  nonzero : address ≠ 0
  bytes : image.bytesAt address (text.length + 1) = text ++ [0]
  unbroken : 0 ∉ text

namespace TextAt

theorem inside (h : image.TextAt address text) : address + (text.length + 1) ≤ image.size := by
  refine inside_of_length_bytesAt ?_ (Nat.succ_pos _)
  rw [h.bytes, List.length_append, List.length_singleton]

theorem getElem? (h : image.TextAt address text) (within : i < text.length + 1) :
    image.bytes[address + i]? = (text ++ [0])[i]? := by
  rw [← image.getElem?_bytesAt address within, h.bytes]

theorem ended (h : image.TextAt address text) : image.bytes[address + text.length]? = some 0 := by
  rw [h.getElem? (Nat.lt_succ_self _)]
  simp

/-- The text without its zero. -/
theorem bytesAt_length (h : image.TextAt address text) :
    image.bytesAt address text.length = text := by
  have whole := h.bytes
  rw [bytesAt_succ h.ended] at whole
  exact List.append_cancel_right whole

theorem readable (h : image.TextAt address text) : image.checkReadable address 1 = .ok () :=
  image.checkReadable_eq h.nonzero (by have := h.inside; omega)

/-- The text ends at its zero. -/
theorem textStop (h : image.TextAt address text) :
    image.textStop address = .ok (address + text.length) := by
  refine textStop_eq_ok.mpr ⟨h.readable, Bytes.find?_eq_some_iff.mpr
    ⟨Nat.le_add_right .., h.ended, fun i lower upper zero => ?_⟩⟩
  obtain ⟨k, rfl⟩ := Nat.exists_eq_add_of_le lower
  have within : k < text.length := by omega
  rw [h.getElem? (by omega), List.getElem?_append_left within] at zero
  exact h.unbroken (List.mem_of_getElem? zero)

end TextAt

/-- What stands between an address and the first zero is a text. -/
theorem textAt_of_textStop (found : image.textStop address = .ok stop) :
    address ≤ stop ∧ image.TextAt address (image.bytesAt address (stop - address)) := by
  obtain ⟨readable, search⟩ := textStop_eq_ok.mp found
  obtain ⟨nonzero, -⟩ := checkReadable_iff.mp readable
  obtain ⟨lower, zero, first⟩ := Bytes.find?_eq_some_iff.mp search
  obtain ⟨below, -⟩ := Bytes.getElem?_eq_some_iff.mp zero
  obtain ⟨length, rfl⟩ := Nat.exists_eq_add_of_le lower
  have inside : address + length ≤ image.size := Nat.le_of_lt below
  rw [Nat.add_sub_cancel_left]
  refine ⟨lower, nonzero, ?_, fun mem => ?_⟩
  · rw [length_bytesAt inside, bytesAt_succ zero]
  · obtain ⟨i, here⟩ := List.mem_iff_getElem?.mp mem
    have within : i < length := by
      rw [← length_bytesAt inside]
      exact (List.getElem?_eq_some_iff.mp here).1
    rw [image.getElem?_bytesAt address within] at here
    exact first (address + i) (Nat.le_add_right ..) (Nat.add_lt_add_left within _) here

/-- What is read from an address is the text there. -/
theorem textBytes_eq_ok : image.textBytes address = .ok text ↔ image.TextAt address text := by
  constructor
  · intro read
    obtain ⟨stop, found, read⟩ := bind_eq_ok.mp read
    cases read
    exact (textAt_of_textStop found).2
  · intro h
    refine bind_eq_ok.mpr ⟨_, h.textStop, ?_⟩
    rw [Nat.add_sub_cancel_left, h.bytesAt_length]
    rfl

/-- The length that is measured is that of the text. -/
theorem textLength_eq (h : image.TextAt address text) :
    image.textLength address = .ok text.length :=
  bind_eq_ok.mpr ⟨_, h.textStop, congrArg Except.ok (Nat.add_sub_cancel_left ..)⟩

theorem readText_eq (h : image.TextAt address text) :
    image.readText address = .ok (Text.decode text) :=
  bind_eq_ok.mpr ⟨text, textBytes_eq_ok.mpr h, rfl⟩

/-- A range that is filled with one byte, and ends in front of a zero, is a text. -/
theorem textAt_filled {byte : UInt8} (nonzero : address ≠ 0) (used : byte ≠ 0)
    (ended : image.bytes[address + size]? = some 0) :
    (image.filled address size byte).TextAt address (List.replicate size byte) := by
  obtain ⟨below, -⟩ := Bytes.getElem?_eq_some_iff.mp ended
  have behind : (image.filled address size byte).bytes[address + size]? = some 0 := by
    rw [filled, Bytes.getElem?_fill, if_neg (by omega), ended]
  refine ⟨nonzero, ?_, fun mem => used (List.eq_of_mem_replicate mem).symm⟩
  rw [List.length_replicate, bytesAt_succ behind, image.bytesAt_filled byte (Nat.le_of_lt below)]

/-! ## Writing -/

/-- A write that succeeds puts the bytes where they may be written. -/
theorem write_eq_ok : write address data image = .ok () image' ↔
    image.checkWritable address data.length = .ok () ∧ image' = image.put address data := by
  unfold write
  cases check : image.checkWritable address data.length with
  | ok _ => simp [eq_comm]
  | error fault => simp

/-- One that fails changes nothing. -/
theorem write_of_refused (refused : image.checkWritable address data.length ≠ .ok ()) :
    ∃ fault, write address data image = .error fault image := by
  unfold write
  cases check : image.checkWritable address data.length with
  | ok _ => exact absurd check refused
  | error fault => exact ⟨fault, rfl⟩

/-- A text that was read is written as the bytes that it was read from. -/
theorem writeText_decode (address : Nat) (text : List UInt8) :
    writeText address (Text.decode text) = write address (text ++ [0]) := by
  rw [writeText, Text.encode_decode]

/-- A text of Latin-1 characters other than zero is read back after it was written. -/
theorem readText_of_writeText {text : List Char}
    (latin : ∀ c ∈ text, c ≠ Char.ofNat 0 ∧ c.toNat < 256)
    (done : writeText address text image = .ok () image') :
    image'.readText address = .ok text := by
  obtain ⟨writable, rfl⟩ := write_eq_ok.mp done
  obtain ⟨nonzero, -, inside⟩ := checkWritable_iff.mp writable
  have placed := image.bytesAt_put inside
  rw [List.length_append, List.length_singleton] at placed
  rw [readText_eq ⟨nonzero, placed, Text.zero_notMem_encode latin⟩,
    Text.decode_encode fun c mem => (latin c mem).2]

end Image

end FlatC
