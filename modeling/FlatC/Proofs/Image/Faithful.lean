import FlatC.Proofs.Image.Bytes
import FlatC.Proofs.Number.Pattern
import FlatC.Proofs.Value.Range

/-!
# Memory as a typed store

A scalar goes into memory as bytes and comes back through other conversions than it went in by:
whole numbers as their low bits, read as signed or unsigned, and `float` as a bit pattern.  In the
range of its type nothing is lost on the way, wherever the bytes lie.

* `Image.checkWritable_iff` and `Image.store_cases` say when a value is stored, and what becomes of
  the image;
* `Value.Recovers` says that a value is found again, and `Image.recovers_stored` that the bytes a
  value is stored as give it back;
* `Image.typed_store_faithful` puts this together with what a write leaves alone.
-/

namespace FlatC

/-! ## Numbers found again in words -/

/-- A number is equal to itself unless it is a not-a-number. -/
theorem Binary64.numEq_self_or (x : Binary64) : x.numEq x = true ∨ x.rank = none := by
  cases place : x.rank with
  | none => exact .inr rfl
  | some a => exact .inl (numEq_iff.mpr ⟨a, place, place⟩)

namespace Value

variable {v : Value}

/-- The low bytes of a value in the range of a whole type are its whole number modulo their
width. -/
theorem lowBytes_of_isWhole {n : Int} (lower : -2147483648 ≤ n) (upper : n ≤ 4294967295)
    (whole : v.number.IsWhole n) (width : Nat) (divides : width ∣ wordRange) :
    ((v.toAddress % width : Nat) : Int) = n % width := by
  have long : longTop = 9223372036854775808 := rfl
  have word : (v.toAddress : Int) = n % wordRange := by
    rw [toAddress, whole.toInt64 (by omega) (by omega)]
    exact Int.toNat_of_nonneg (Int.emod_nonneg n (by decide))
  rw [Int.natCast_emod, word]
  exact Int.emod_emod_of_dvd n (Int.natCast_dvd_natCast.mpr divides)

/-- The low bytes of a value, read as a signed number, are its whole number if that lies around
zero. -/
theorem signedBytes_of_isWhole {n : Int} (lower : -2147483648 ≤ n) (upper : n ≤ 4294967295)
    (whole : v.number.IsWhole n) (width : Nat) (divides : width ∣ wordRange)
    (least : -(width / 2 : Int) ≤ n) (greatest : n < (width + 1 : Int) / 2) :
    ((v.toAddress % width : Nat) : Int).bmod width = n := by
  rw [lowBytes_of_isWhole lower upper whole width divides, Int.emod_bmod]
  exact Int.bmod_eq_of_le least greatest

/-- The value is found again at an address: with its type, and with an equal number.  For `float`
the number is the same in all its bits, so also if it is a not-a-number, which is equal to
nothing. -/
structure Recovers (v : Value) (address : Nat) (w : Value) : Prop where
  type : w.type = v.type
  address : w.address = some address
  equal : w.number.numEq v.number = true ∨ v.number.rank = none
  float : v.type = .float → w.number = v.number

/-- A whole number is found again in any number that is the same whole number. -/
theorem recovers_of_isWhole {x : Binary64} {n : Int} (address : Nat) (inRange : v.InRange)
    (notFloat : v.type ≠ .float) (whole : v.number.IsWhole n) (found : x.IsWhole n) :
    v.Recovers address (lvalue x v.type address) := by
  have held : v.type.Holds x := by
    have bounded := inRange
    unfold InRange CType.Holds at *
    cases bounds : v.type.bounds? with
    | none => exact fun float => absurd float notFloat
    | some range =>
      rw [bounds] at bounded
      obtain ⟨m, lower, upper, isWhole⟩ := bounded
      obtain rfl := isWhole.unique whole
      exact ⟨m, lower, upper, found⟩
  refine ⟨rfl, rfl, .inl ?_, fun float => absurd float notFloat⟩
  show (v.type.fit x).numEq v.number = true
  rw [held.fit_eq]
  exact (found.numEq_iff whole).mpr rfl

end Value

/-! ## Writing and reading -/

namespace Image

variable {table : StructTable} {image image' : Image} {address size : Nat} {v : Value}
  {data : List UInt8}

/-- A range that a program may write: not at address zero, not in the read-only region, and inside
the image. -/
theorem checkWritable_iff : image.checkWritable address size = .ok () ↔
    address ≠ 0 ∧ image.heapBottom ≤ address ∧ address + size ≤ image.size := by
  constructor
  · intro writable
    refine ⟨?_, checkWritable_ok writable⟩
    rintro rfl
    cases writable
  · rintro ⟨nonzero, above, inside⟩
    have notBelow : ¬ address < image.heapBottom := Nat.not_lt.mpr above
    simp only [checkWritable, checkReadable, checkBounds, if_neg nonzero, if_pos inside,
      if_neg notBelow]
    rfl

/-- What storing a value does, if values of its type are stored. -/
theorem store_cases (image : Image) (address : Nat) (bytes : stored? v = some data) :
    (image.checkWritable address data.length = .ok () ∧
      store address v image = .ok () (image.put address data)) ∨
    (image.checkWritable address data.length ≠ .ok () ∧
      ∃ fault, store address v image = .error fault image) := by
  simp only [store, bytes, write]
  cases check : image.checkWritable address data.length with
  | ok _ => exact .inl ⟨rfl, rfl⟩
  | error fault => exact .inr ⟨nofun, fault, rfl⟩

/-- Values are stored in as many bytes as their types are large. -/
theorem sizeOf_stored (table : StructTable) (storable : v.type.isStorable = true) :
    ∃ data, stored? v = some data ∧ table.sizeOf v.type = .ok data.length := by
  unfold stored?
  cases type : v.type with
  | int | float | char | pointer _ => exact ⟨_, rfl, by rw [Word.length_toBytes]; rfl⟩
  | void | function | array _ _ | struct _ =>
    rw [type] at storable
    cases storable

/-- What has been put in place is read back as a number. -/
theorem readUnsigned_put (nonzero : address ≠ 0) (inside : address + data.length ≤ image.size) :
    (image.put address data).readUnsigned address data.length = .ok (Word.ofBytes data) := by
  simp only [readUnsigned, readBytes, checkReadable, checkBounds, size_put, if_neg nonzero,
    if_pos inside, image.bytesAt_put inside]
  rfl

/-- What is read from a place depends on the bytes that its type takes up there, if any. -/
theorem read_unchanged {place : Nat} {type : CType} (total : image'.size = image.size)
    (same : ∀ n, table.sizeOf type = .ok n → image.SameBytes image' place (place + n)) :
    image'.read table place type = image.read table place type := by
  cases sized : table.sizeOf type with
  | ok n => exact read_congr sized total (same n sized)
  | error fault =>
    cases type with
    | int | float | char | pointer _ => cases sized
    | array _ _ | struct _ =>
      simp only [read, sized]
      rfl
    | void | function => rfl

/-- The bytes that store a value, put in place, give the value back. -/
theorem recovers_stored (table : StructTable) (bytes : stored? v = some data) (inRange : v.InRange)
    (wellFormed : v.type = .float → v.number.WellFormed) (nonzero : address ≠ 0)
    (inside : address + data.length ≤ image.size) :
    ∃ w, (image.put address data).read table address v.type = .ok w ∧ v.Recovers address w := by
  have back := readUnsigned_put nonzero inside
  have held : v.type.Holds v.number := inRange
  have small : (4294967296 : Nat) < twoPow 53 := by decide
  cases type : v.type with
  | int =>
    rw [type] at held
    obtain ⟨n, lower, upper, whole⟩ := held
    obtain rfl : Word.toBytes 4 v.toAddress = data := by simpa [stored?, type] using bytes
    rw [Word.ofBytes_toBytes, Word.length_toBytes] at back
    have word := Value.signedBytes_of_isWhole lower (by omega) whole wordRange (Nat.dvd_refl _)
      lower (Int.lt_add_one_of_le upper)
    refine ⟨.lvalue (.ofInt n) .int address, ?_, ?_⟩
    · simp only [read, readInt, back]
      exact congrArg (fun m => Except.ok (Value.lvalue (.ofInt m) .int address)) word
    · rw [← type]
      exact Value.recovers_of_isWhole address inRange (by simp [type]) whole
        (Binary64.isWhole_ofInt (by omega))
  | char =>
    rw [type] at held
    obtain ⟨n, lower, upper, whole⟩ := held
    obtain rfl : Word.toBytes 1 v.toAddress = data := by simpa [stored?, type] using bytes
    rw [Word.ofBytes_toBytes, Word.length_toBytes] at back
    have word := Value.signedBytes_of_isWhole (by omega) (by omega) whole byteRange (by decide)
      lower (Int.lt_add_one_of_le upper)
    refine ⟨.lvalue (.ofInt n) .char address, ?_, ?_⟩
    · simp only [read, readChar, back]
      exact congrArg (fun m => Except.ok (Value.lvalue (.ofInt m) .char address)) word
    · rw [← type]
      exact Value.recovers_of_isWhole address inRange (by simp [type]) whole
        (Binary64.isWhole_ofInt (by omega))
  | pointer target =>
    rw [type] at held
    obtain ⟨n, lower, upper, whole⟩ := held
    obtain rfl : Word.toBytes 4 v.toAddress = data := by simpa [stored?, type] using bytes
    rw [Word.ofBytes_toBytes, Word.length_toBytes] at back
    have word := Value.lowBytes_of_isWhole (by omega) upper whole wordRange (Nat.dvd_refl _)
    have bounded : n % wordRange = n := Int.emod_eq_of_lt lower (Int.lt_add_one_of_le upper)
    have below : v.toAddress % wordRange < 4294967296 := Nat.mod_lt _ (by decide)
    have found := Binary64.isWhole_ofNat (Nat.lt_trans below small)
    rw [word, bounded] at found
    refine ⟨.lvalue (.ofNat (v.toAddress % wordRange)) (.pointer target) address, ?_, ?_⟩
    · simp only [read, readPointer, back]
      rfl
    · rw [← type]
      exact Value.recovers_of_isWhole address inRange (by simp [type]) whole found
  | float =>
    rw [type] at held
    have single : v.number.toSingle = v.number := held rfl
    have bits : v.number.toSingleBits < Nat.pow 256 4 :=
      Binary64.toSingleBits_lt single (wellFormed type)
    have found := Binary64.ofSingleBits_toSingleBits single (wellFormed type)
    obtain rfl : Word.toBytes 4 v.number.toSingleBits = data := by
      simpa [stored?, type] using bytes
    rw [Word.ofBytes_toBytes, Word.length_toBytes, Nat.mod_eq_of_lt bits] at back
    refine ⟨.lvalue v.number .float address, ?_, ?_⟩
    · simp only [read, readFloat, back]
      exact congrArg (fun x => Except.ok (Value.lvalue x .float address)) found
    · have same : (Value.lvalue v.number .float address).number = v.number := single
      refine ⟨type.symm, rfl, ?_, fun _ => same⟩
      rw [same]
      exact v.number.numEq_self_or
  | void | function | array _ _ | struct _ =>
    simp only [stored?, type] at bytes
    cases bytes

/-- **Memory is a faithful typed store.**  A value of a scalar type, in the range of its type, can
be stored wherever its bytes fit behind the read-only region, and nowhere else.  Stored, it is read
back as it was; no byte outside its place has changed, so every read of a place apart from it gives
what it gave before.  Where the value cannot be stored, the image stays as it was. -/
theorem typed_store_faithful (table : StructTable) (image : Image) (address : Nat) (v : Value)
    (storable : v.type.isStorable = true) (inRange : v.InRange)
    (wellFormed : v.type = .float → v.number.WellFormed) :
    ∃ size, table.sizeOf v.type = .ok size ∧
      ((∃ image', store address v image = .ok () image') ↔
        address ≠ 0 ∧ image.heapBottom ≤ address ∧ address + size ≤ image.size) ∧
      (∀ image', store address v image = .ok () image' →
        (∃ w, image'.read table address v.type = .ok w ∧ v.Recovers address w) ∧
        image.OnlyBytes image' ∧
        (∀ i, i < address ∨ address + size ≤ i → image'.bytes[i]? = image.bytes[i]?) ∧
        ∀ place type,
          (∀ n, table.sizeOf type = .ok n →
            ∀ i, place ≤ i → i < place + n → i < address ∨ address + size ≤ i) →
          image'.read table place type = image.read table place type) ∧
      ∀ fault image', store address v image = .error fault image' → image' = image := by
  obtain ⟨data, bytes, sized⟩ := sizeOf_stored table storable
  refine ⟨data.length, sized, ?_⟩
  rw [← checkWritable_iff]
  rcases image.store_cases address bytes with ⟨writable, stored⟩ | ⟨refused, fault, failed⟩
  · obtain ⟨nonzero, -, inside⟩ := checkWritable_iff.mp writable
    refine ⟨⟨fun _ => writable, fun _ => ⟨_, stored⟩⟩, ?_, ?_⟩
    · intro image' success
      cases stored.symm.trans success
      have outside : ∀ i, i < address ∨ address + data.length ≤ i →
          (image.put address data).bytes[i]? = image.bytes[i]? := by
        intro i apart
        exact (image.sameBytes_put apart).getElem?_eq
      refine ⟨recovers_stored table bytes inRange wellFormed nonzero inside,
        image.onlyBytes_put address data, outside, ?_⟩
      intro place type apart
      exact read_unchanged (size_put ..) fun n sized i lower upper =>
        outside i (apart n sized i lower upper)
    · intro fault image' failure
      cases stored.symm.trans failure
  · refine ⟨⟨fun ⟨image', success⟩ => ?_, fun writable => absurd writable refused⟩, ?_, ?_⟩
    · cases failed.symm.trans success
    · intro image' success
      cases failed.symm.trans success
    · intro fault' image' failure
      cases failed.symm.trans failure
      rfl

/-- A negative `int` at an odd place, half of it in the heap and half in the stack. -/
theorem typed_store_faithful_across_regions :
    let image := blank ⟨5, 16, 32, .reclaim⟩
    let v := Value.ofInt (-2)
    v.type.isStorable = true ∧ v.InRange ∧ (v.type = .float → v.number.WellFormed) ∧
      ∃ image', store 19 v image = .ok () image' ∧ image'.bytes[18]? = image.bytes[18]? ∧
        ∃ w, image'.read .empty 19 .int = .ok w ∧ v.Recovers 19 w := by
  intro image v
  have storable : v.type.isStorable = true := rfl
  have inRange : v.InRange := Value.inRange_rvalue _ _
  have notFloat : v.type ≠ .float := by decide
  have wellFormed : v.type = .float → v.number.WellFormed := fun float => absurd float notFloat
  obtain ⟨size, sized, success, faithful, -⟩ :=
    typed_store_faithful .empty image 19 v storable inRange wellFormed
  obtain rfl : 4 = size := by simpa [v, Value.ofInt, StructTable.sizeOf] using sized
  obtain ⟨image', stored⟩ := success.mpr (by decide)
  obtain ⟨back, -, outside, -⟩ := faithful image' stored
  exact ⟨storable, inRange, wellFormed, image', stored, outside 18 (by decide), back⟩

end Image

end FlatC
