import FlatC.Image.Literal
import FlatC.Image.Typed
import FlatC.Proofs.Refine

/-!
# What memory holds after a write

Every change of memory is a run of bytes put at an address.  This file says what that leaves
alone, first for single bytes, then for the words that the allocator reads, and then for each
operation that a program can write with.

* `Image.SameBytes` compares two images on a range of addresses;
* `Image.OnlyBytes` says that two images agree in all but the contents of their bytes;
* `Image.wordAt` is the word at an address, and `Image.wordAt_putWord` and
  `Image.wordAt_congr` say when a write changes it;
* `Image.readBytes_congr` and `Image.read_congr` say what a program reads depends on, and
  `Image.textStop_eq_ok` where a text ends;
* `Image.Written` bounds what an operation may have changed, and `Image.write_written` and its
  companions give the bound for each operation.
-/

namespace FlatC

/-- The image that a step leaves behind, however it ends. -/
def Store.after {α : Type} (step : Store α) (image : Image) : Image :=
  match step image with
  | .ok _ image => image
  | .error _ image => image

theorem Store.after_eq_left {α : Type} (step : Store α) (image : Image) :
    step.after image = Step.left (step image) := by
  unfold Store.after
  cases step image <;> rfl

namespace Image

/-! ## Ranges of bytes -/

/-- The two images hold the same bytes from `start` up to `stop`. -/
def SameBytes (image image' : Image) (start stop : Nat) : Prop :=
  ∀ i, start ≤ i → i < stop → image'.bytes[i]? = image.bytes[i]?

/-- A range of one byte. -/
theorem SameBytes.getElem?_eq {image image' : Image} {i : Nat}
    (h : image.SameBytes image' i (i + 1)) : image'.bytes[i]? = image.bytes[i]? :=
  h i (Nat.le_refl i) (Nat.lt_succ_self i)

theorem SameBytes.refl (image : Image) (start stop : Nat) : image.SameBytes image start stop :=
  fun _ _ _ => rfl

theorem SameBytes.trans {a b c : Image} {start stop : Nat} (hab : a.SameBytes b start stop)
    (hbc : b.SameBytes c start stop) : a.SameBytes c start stop := by
  intro i lower upper
  rw [hbc i lower upper, hab i lower upper]

theorem SameBytes.mono {image image' : Image} {start stop start' stop' : Nat}
    (h : image.SameBytes image' start stop) (lower : start ≤ start') (upper : stop' ≤ stop) :
    image.SameBytes image' start' stop' :=
  fun i hi hi' => h i (Nat.le_trans lower hi) (Nat.lt_of_lt_of_le hi' upper)

/-- A write leaves every range alone that it does not meet. -/
theorem sameBytes_put (image : Image) {address start stop : Nat} {data : List UInt8}
    (h : stop ≤ address ∨ address + data.length ≤ start) :
    image.SameBytes (image.put address data) start stop := by
  intro i lower upper
  rcases h with h | h
  · exact getElem?_putFrom_of_lt _ _ _ (Nat.lt_of_lt_of_le upper h)
  · exact getElem?_putFrom_of_le _ _ _ (Nat.le_trans h lower)

/-- One byte all over a range leaves every range alone that the range does not meet. -/
theorem sameBytes_filled (image : Image) {address size start stop : Nat} (byte : UInt8)
    (h : stop ≤ address ∨ address + size ≤ start) :
    image.SameBytes (image.filled address size byte) start stop := by
  intro i lower upper
  rw [filled, Bytes.getElem?_fill, if_neg (by omega)]

theorem getElem?_bytesAt (image : Image) (address : Nat) {size i : Nat} (h : i < size) :
    (image.bytesAt address size)[i]? = image.bytes[address + i]? :=
  image.bytes.getElem?_slice address h

/-- There is nothing behind a range. -/
theorem getElem?_bytesAt_of_le (image : Image) (address : Nat) {size i : Nat} (h : size ≤ i) :
    (image.bytesAt address size)[i]? = none := by
  refine List.getElem?_eq_none ?_
  rw [bytesAt, Bytes.length_slice]
  omega

/-- What is read from a range depends on the bytes of the range alone. -/
theorem bytesAt_congr {image image' : Image} {address size : Nat}
    (h : image.SameBytes image' address (address + size)) :
    image'.bytesAt address size = image.bytesAt address size := by
  apply List.ext_getElem?
  intro i
  by_cases hi : i < size
  · rw [getElem?_bytesAt _ _ hi, getElem?_bytesAt _ _ hi]
    exact h (address + i) (Nat.le_add_right ..) (Nat.add_lt_add_left hi _)
  · have behind : size ≤ i := Nat.not_lt.mp hi
    rw [getElem?_bytesAt_of_le _ _ behind, getElem?_bytesAt_of_le _ _ behind]

/-- Bytes that were put in place are read back. -/
theorem bytesAt_put (image : Image) {address : Nat} {data : List UInt8}
    (h : address + data.length ≤ image.size) :
    (image.put address data).bytesAt address data.length = data := by
  apply List.ext_getElem?
  intro i
  by_cases hi : i < data.length
  · rw [getElem?_bytesAt _ _ hi]
    exact getElem?_putFrom_add image.bytes address data hi h
  · have behind : data.length ≤ i := Nat.not_lt.mp hi
    rw [getElem?_bytesAt_of_le _ _ behind, List.getElem?_eq_none behind]

/-- What a range was filled with is read back. -/
theorem bytesAt_filled (image : Image) {address size : Nat} (byte : UInt8)
    (h : address + size ≤ image.size) :
    (image.filled address size byte).bytesAt address size = List.replicate size byte := by
  apply List.ext_getElem?
  intro i
  by_cases hi : i < size
  · have inside : address + i < image.bytes.size :=
      Nat.lt_of_lt_of_le (Nat.add_lt_add_left hi _) h
    rw [getElem?_bytesAt _ _ hi, filled, Bytes.getElem?_fill,
      if_pos ⟨Nat.le_add_right .., Nat.add_lt_add_left hi _, inside⟩,
      List.getElem?_replicate_of_lt hi]
  · have behind : size ≤ i := Nat.not_lt.mp hi
    rw [getElem?_bytesAt_of_le _ _ behind, List.getElem?_eq_none]
    rwa [List.length_replicate]

/-! ## All that is not bytes -/

/-- The second image differs from the first in nothing but the contents of its bytes. -/
def OnlyBytes (image image' : Image) : Prop :=
  ∃ bytes : Bytes, bytes.size = image.bytes.size ∧ image' = { image with bytes := bytes }

namespace OnlyBytes

variable {a b c : Image}

theorem refl (image : Image) : image.OnlyBytes image := ⟨image.bytes, rfl, rfl⟩

theorem trans (hab : a.OnlyBytes b) (hbc : b.OnlyBytes c) : a.OnlyBytes c := by
  obtain ⟨bytes, size, rfl⟩ := hab
  obtain ⟨bytes', size', rfl⟩ := hbc
  exact ⟨bytes', size'.trans size, rfl⟩

theorem size (h : a.OnlyBytes b) : b.size = a.size := by
  obtain ⟨bytes, size, rfl⟩ := h
  exact size

theorem heapBottom (h : a.OnlyBytes b) : b.heapBottom = a.heapBottom := by
  obtain ⟨bytes, size, rfl⟩ := h
  rfl

theorem stackBottom (h : a.OnlyBytes b) : b.stackBottom = a.stackBottom := by
  obtain ⟨bytes, size, rfl⟩ := h
  rfl

theorem readOnlyTop (h : a.OnlyBytes b) : b.readOnlyTop = a.readOnlyTop := by
  obtain ⟨bytes, size, rfl⟩ := h
  rfl

theorem live (h : a.OnlyBytes b) : b.live = a.live := by
  obtain ⟨bytes, size, rfl⟩ := h
  rfl

theorem literals (h : a.OnlyBytes b) : b.literals = a.literals := by
  obtain ⟨bytes, size, rfl⟩ := h
  rfl

theorem policy (h : a.OnlyBytes b) : b.policy = a.policy := by
  obtain ⟨bytes, size, rfl⟩ := h
  rfl

end OnlyBytes

theorem onlyBytes_put (image : Image) (address : Nat) (data : List UInt8) :
    image.OnlyBytes (image.put address data) :=
  ⟨putFrom image.bytes address data, size_putFrom .., rfl⟩

theorem onlyBytes_filled (image : Image) (address size : Nat) (byte : UInt8) :
    image.OnlyBytes (image.filled address size byte) :=
  ⟨image.bytes.fill address size byte, Bytes.size_fill .., rfl⟩

/-! ## Words -/

/-- The word at an address. -/
def wordAt (image : Image) (address : Nat) : Nat :=
  Word.ofBytes (image.bytesAt address wordSize)

/-- The image with a word put at an address. -/
def putWord (image : Image) (address word : Nat) : Image :=
  image.put address (Word.toBytes wordSize word)

theorem readWord_eq (image : Image) {address : Nat} (h : address + wordSize ≤ image.size) :
    image.readWord address = .ok (image.wordAt address) := by
  simp only [readWord, checkBounds, if_pos h]
  rfl

theorem writeWord_eq (image : Image) {address : Nat} (word : Nat)
    (h : address + wordSize ≤ image.size) :
    writeWord address word image = .ok () (image.putWord address word) := by
  simp only [writeWord, checkBounds, if_pos h]
  rfl

theorem wordAt_congr {image image' : Image} {address : Nat}
    (h : image.SameBytes image' address (address + wordSize)) :
    image'.wordAt address = image.wordAt address := by
  rw [wordAt, wordAt, bytesAt_congr h]

theorem sameBytes_putWord (image : Image) {address start stop : Nat} (word : Nat)
    (h : stop ≤ address ∨ address + wordSize ≤ start) :
    image.SameBytes (image.putWord address word) start stop :=
  image.sameBytes_put (by simpa using h)

/-- A word that was put in place is read back. -/
theorem wordAt_putWord (image : Image) {address word : Nat} (h : address + wordSize ≤ image.size)
    (fits : word < wordRange) : (image.putWord address word).wordAt address = word := by
  have inside : address + (Word.toBytes wordSize word).length ≤ image.size := by simpa using h
  have back := image.bytesAt_put inside
  rw [Word.length_toBytes] at back
  rw [wordAt, putWord, back, Word.ofBytes_toBytes]
  exact Nat.mod_eq_of_lt fits

theorem onlyBytes_putWord (image : Image) (address word : Nat) :
    image.OnlyBytes (image.putWord address word) :=
  image.onlyBytes_put ..

/-! ## Reading -/

theorem readBytes_congr {image image' : Image} {address size : Nat}
    (total : image'.size = image.size)
    (same : image.SameBytes image' address (address + size)) :
    image'.readBytes address size = image.readBytes address size := by
  simp only [readBytes, checkReadable, checkBounds, total, bytesAt_congr same]

/-- A value that is read depends on the bytes of its place alone. -/
theorem read_congr {table : StructTable} {image image' : Image} {address size : Nat} {type : CType}
    (sized : table.sizeOf type = .ok size) (total : image'.size = image.size)
    (same : image.SameBytes image' address (address + size)) :
    image'.read table address type = image.read table address type := by
  cases type with
  | int | float | char | pointer _ =>
    cases sized
    simp only [read, readInt, readFloat, readChar, readPointer, readUnsigned,
      readBytes_congr total same]
  | array _ _ | struct _ => simp only [read, sized, checkReadable, checkBounds, total]
  | void | function => rfl

/-- A text ends at the first zero from its start on. -/
theorem textStop_eq_ok {image : Image} {address stop : Nat} :
    image.textStop address = .ok stop ↔
      image.checkReadable address 1 = .ok () ∧ image.bytes.find? 0 address = some stop := by
  constructor
  · intro found
    obtain ⟨_, readable, found⟩ := bind_eq_ok.mp found
    refine ⟨readable, ?_⟩
    cases search : image.bytes.find? 0 address with
    | none =>
      rw [search] at found
      cases found
    | some place =>
      rw [search] at found
      cases found
      rfl
  · rintro ⟨readable, found⟩
    exact bind_eq_ok.mpr ⟨(), readable, by rw [found]; rfl⟩

/-! ## Operations of a program -/

/-- What an operation on a range of `size` bytes may have done: nothing, or changed bytes of the
range, which then lies above the read-only region and inside the image. -/
inductive Written (image : Image) (address size : Nat) : Image → Prop where
  | unchanged : Written image address size image
  | changed {image' : Image} (only : image.OnlyBytes image')
      (outside : ∀ {start stop}, stop ≤ address ∨ address + size ≤ start →
        image.SameBytes image' start stop)
      (above : image.heapBottom ≤ address) (inside : address + size ≤ image.size) :
      Written image address size image'

theorem Written.sameBytes {image image' : Image} {address size start stop : Nat}
    (h : Written image address size image') (outside : stop ≤ address ∨ address + size ≤ start) :
    image.SameBytes image' start stop := by
  cases h with
  | unchanged => exact SameBytes.refl _ _ _
  | changed _ same _ _ => exact same outside

theorem Written.onlyBytes {image image' : Image} {address size : Nat}
    (h : Written image address size image') : image.OnlyBytes image' := by
  cases h with
  | unchanged => exact OnlyBytes.refl image
  | changed only _ _ _ => exact only

theorem checkWritable_ok {image : Image} {address size : Nat}
    (h : image.checkWritable address size = .ok ()) :
    image.heapBottom ≤ address ∧ address + size ≤ image.size := by
  unfold checkWritable checkReadable checkBounds at h
  by_cases null : address = 0
  · rw [if_pos null] at h
    cases h
  · by_cases inside : address + size ≤ image.size
    · by_cases low : address < image.heapBottom
      · simp [null, inside, low, bind, Except.bind, throw, throwThe, MonadExceptOf.throw] at h
      · exact ⟨Nat.le_of_not_lt low, inside⟩
    · rw [if_neg null, if_neg inside] at h
      cases h

theorem write_written (image : Image) (address : Nat) (data : List UInt8) :
    Written image address data.length ((write address data).after image) := by
  unfold Store.after write
  cases check : image.checkWritable address data.length with
  | ok _ =>
    obtain ⟨above, inside⟩ := checkWritable_ok check
    exact .changed (image.onlyBytes_put ..) image.sameBytes_put above inside
  | error fault => exact .unchanged

theorem fill_written (image : Image) (address size : Nat) (byte : UInt8) :
    Written image address size ((fill address size byte).after image) := by
  unfold Store.after fill
  cases check : image.checkWritable address size with
  | ok _ =>
    obtain ⟨above, inside⟩ := checkWritable_ok check
    exact .changed (image.onlyBytes_filled ..) (image.sameBytes_filled byte) above inside
  | error fault => exact .unchanged

theorem writeText_written (image : Image) (address : Nat) (text : List Char) :
    Written image address (text.length + 1) ((writeText address text).after image) := by
  have h := image.write_written address (Text.encode text ++ [0])
  rwa [List.length_append, Text.length_encode, List.length_singleton] at h

/-- The number of bytes that store a value. -/
def storedSize (value : Value) : Nat :=
  ((stored? value).getD []).length

theorem store_written (image : Image) (address : Nat) (value : Value) :
    Written image address (storedSize value) ((store address value).after image) := by
  unfold store storedSize
  cases stored? value with
  | some data => exact image.write_written address data
  | none => exact .unchanged

end Image

end FlatC
