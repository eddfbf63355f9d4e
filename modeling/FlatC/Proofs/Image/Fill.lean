import FlatC.Machine.Variable
import FlatC.Proofs.Image.Faithful

/-!
# Ranges of zeros

A new variable and a zeroed allocation are ranges of bytes that a program may write, filled with
zeros.  What lies in memory as a whole can be read, whatever its bytes are.

* `Image.zeroed` is the image with such a range, and `Image.fill_zero` the step that leads to it;
* `Image.exists_read` says that there is something to read.
-/

namespace FlatC

namespace Image

variable {table : StructTable} {image : Image} {address size : Nat}

/-- The image with a range of zeros. -/
def zeroed (image : Image) (address size : Nat) : Image :=
  image.filled address size 0

theorem size_zeroed (image : Image) (address size : Nat) :
    (image.zeroed address size).size = image.size :=
  image.size_filled ..

theorem bytesAt_zeroed (inside : address + size ≤ image.size) :
    (image.zeroed address size).bytesAt address size = List.replicate size 0 :=
  image.bytesAt_filled 0 inside

theorem getElem?_zeroed_of_outside {i : Nat} (outside : i < address ∨ address + size ≤ i) :
    (image.zeroed address size).bytes[i]? = image.bytes[i]? :=
  (image.sameBytes_filled 0 (by omega)).getElem?_eq

theorem fill_zero (writable : image.checkWritable address size = .ok ()) :
    fill address size 0 image = .ok () (image.zeroed address size) := by
  simp only [fill, writable, zeroed]

theorem checkReadable_eq (nonzero : address ≠ 0) (inside : address + size ≤ image.size) :
    image.checkReadable address size = .ok () := by
  rw [checkReadable, if_neg nonzero, checkBounds, if_pos inside]

theorem checkReadable_iff : image.checkReadable address size = .ok () ↔
    address ≠ 0 ∧ address + size ≤ image.size := by
  constructor
  · intro readable
    unfold checkReadable checkBounds at readable
    split at readable
    · cases readable
    · split at readable
      · exact ⟨‹_›, ‹_›⟩
      · cases readable
  · rintro ⟨nonzero, inside⟩
    exact image.checkReadable_eq nonzero inside

theorem readUnsigned_eq (nonzero : address ≠ 0) (inside : address + size ≤ image.size) :
    image.readUnsigned address size = .ok (Word.ofBytes (image.bytesAt address size)) := by
  simp only [readUnsigned, readBytes, checkReadable_eq nonzero inside]
  rfl

/-- Whatever there are variables of can be read where it lies in memory as a whole. -/
theorem exists_read {type : CType} (sized : table.sizeOf type = .ok size)
    (complete : Machine.isIncomplete type = false) (nonzero : address ≠ 0)
    (inside : address + size ≤ image.size) :
    ∃ value, image.read table address type = .ok value ∧ value.address = some address := by
  cases type with
  | int | float | char | pointer _ =>
    cases sized
    simp only [read, readInt, readFloat, readChar, readPointer, readUnsigned_eq nonzero inside]
    exact ⟨_, rfl, rfl⟩
  | array _ _ | struct _ =>
    have readable := image.checkReadable_eq nonzero inside
    exact ⟨_, bind_eq_ok.mpr ⟨size, sized, bind_eq_ok.mpr ⟨(), readable, rfl⟩⟩, rfl⟩
  | void | function => cases complete

end Image

end FlatC
