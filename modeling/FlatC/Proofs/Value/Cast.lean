import FlatC.Proofs.Image.Faithful
import FlatC.Proofs.Number.Exact
import Mathlib.Algebra.GroupWithZero.Nat

/-!
# Casts and storage

A cast computes with numbers of the double format, where memory keeps the low bytes of an integer.
Between `int`, `char` and the pointers the two come to the same.  A cast gives the one number of its
type that agrees with the value in as many low bytes as the type has, so it gives what would be read
if the value were stored and its bytes taken for a value of the other type.

* `CType.Spans` is the whole numbers of a type, and `CType.residue` the one of them that is
  congruent to a given one;
* `Value.castTo_isWhole` says that a cast computes it, and `Image.exists_read_word` that memory
  does;
* `Value.casts_agree_with_storage` puts the two together.
-/

namespace FlatC

namespace CType

variable {type target middle : CType} {k l m n : Int}

/-! ## The numbers of a type -/

/-- The types whose values are stored as whole numbers: `int`, `char` and the pointers. -/
def storesWhole (type : CType) : Bool :=
  type.isWhole || type.isPointer

/-- The bytes that a value of such a type is stored in. -/
def width : CType → Nat
  | .char => 1
  | _ => 4

/-- How many numbers such a type has. -/
def modulus (type : CType) : Nat :=
  256 ^ type.width

/-- The whole number lies between the bounds of the type. -/
def Spans (type : CType) (k : Int) : Prop :=
  ∃ bounds ∈ type.bounds?, bounds.1 ≤ k ∧ k ≤ bounds.2

/-- The number of the type that agrees with `n` in its low bytes. -/
def residue (type : CType) (n : Int) : Int :=
  match type with
  | .int => n.bmod wordRange
  | .char => n.bmod byteRange
  | _ => n % wordRange

theorem sizeOf_storesWhole (table : StructTable) (stores : type.storesWhole = true) :
    table.sizeOf type = .ok type.width := by
  cases type with
  | int | char | pointer _ => rfl
  | float | void | function | array _ _ | struct _ => cases stores

theorem Spans.bounds (h : type.Spans k) : -2147483648 ≤ k ∧ k ≤ 4294967295 := by
  obtain ⟨bounds, bounded, lower, upper⟩ := h
  cases type with
  | int | char | pointer _ | array _ _ | struct _ =>
    cases bounded
    omega
  | float | void | function => cases bounded

theorem spans_residue (stores : type.storesWhole = true) (n : Int) :
    type.Spans (type.residue n) := by
  cases type with
  | int =>
    have lower : -(wordRange / 2 : Int) ≤ n.bmod wordRange := Int.le_bmod (by decide)
    have upper : n.bmod wordRange < (wordRange + 1 : Int) / 2 := Int.bmod_lt (by decide)
    exact ⟨_, rfl, lower, Int.le_of_lt_add_one upper⟩
  | char =>
    have lower : -(byteRange / 2 : Int) ≤ n.bmod byteRange := Int.le_bmod (by decide)
    have upper : n.bmod byteRange < (byteRange + 1 : Int) / 2 := Int.bmod_lt (by decide)
    exact ⟨_, rfl, lower, Int.le_of_lt_add_one upper⟩
  | pointer _ =>
    have lower : 0 ≤ n % wordRange := Int.emod_nonneg n (by decide)
    have upper : n % wordRange < wordRange := Int.emod_lt_of_pos n (by decide)
    exact ⟨_, rfl, lower, Int.le_of_lt_add_one upper⟩
  | float | void | function | array _ _ | struct _ => cases stores

theorem residue_congr (stores : type.storesWhole = true) (n : Int) :
    type.residue n % type.modulus = n % type.modulus := by
  cases type with
  | int => exact Int.bmod_emod
  | char => exact Int.bmod_emod
  | pointer _ => exact Int.emod_emod_of_dvd n (Int.dvd_refl _)
  | float | void | function | array _ _ | struct _ => cases stores

/-- No two numbers of a type are congruent. -/
theorem Spans.unique (h : type.Spans k) (h' : type.Spans l) (stores : type.storesWhole = true)
    (congruent : k % type.modulus = l % type.modulus) : k = l := by
  obtain ⟨bounds, bounded, lower, upper⟩ := h
  obtain ⟨bounds', bounded', lower', upper'⟩ := h'
  obtain rfl : bounds = bounds' := Option.some.inj (bounded.symm.trans bounded')
  cases type with
  | int | char | pointer _ =>
    cases bounded
    simp only [modulus, width] at congruent
    omega
  | float | void | function | array _ _ | struct _ => cases stores

/-- A number of a type is its own residue. -/
theorem residue_eq (stores : type.storesWhole = true) (h : type.Spans n) : type.residue n = n :=
  (spans_residue stores n).unique h stores (residue_congr stores n)

/-- The residue for a type that is no narrower does not change what agrees in the low bytes. -/
theorem residue_residue (stores : target.storesWhole = true) (stores' : middle.storesWhole = true)
    (wide : target.width ≤ middle.width) (n : Int) :
    target.residue (middle.residue n) = target.residue n := by
  have divides : (target.modulus : Int) ∣ middle.modulus :=
    Int.natCast_dvd_natCast.mpr (Nat.pow_dvd_pow 256 wide)
  have congruent : middle.residue n % target.modulus = n % target.modulus := by
    rw [← Int.emod_emod_of_dvd (middle.residue n) divides, residue_congr stores',
      Int.emod_emod_of_dvd n divides]
  refine (spans_residue stores _).unique (spans_residue stores n) stores ?_
  rw [residue_congr stores, congruent, residue_congr stores]

end CType

namespace Value

variable {v : Value} {x : Binary64} {source target : CType} {n : Int}

/-! ## What a cast computes -/

/-- The whole number of a value, which is one of its type. -/
theorem InRange.whole (inRange : v.InRange) (stores : v.type.storesWhole = true) :
    ∃ n, v.number.IsWhole n ∧ v.type.Spans n := by
  have held : v.type.Holds v.number := inRange
  cases type : v.type with
  | int | char | pointer _ =>
    rw [type] at held
    obtain ⟨n, lower, upper, whole⟩ := held
    exact ⟨n, whole, _, rfl, lower, upper⟩
  | float | void | function | array _ _ | struct _ =>
    rw [type] at stores
    cases stores

theorem fit_isWhole (stores : target.storesWhole = true) (whole : x.IsWhole n) :
    (target.fit x).IsWhole (target.residue n) := by
  cases target with
  | int => exact whole.wrap wordRange true
  | char => exact whole.wrap byteRange true
  | pointer _ => exact whole.wrap wordRange false
  | float | void | function | array _ _ | struct _ => cases stores

/-- On its way to `char` a whole number is reduced to a byte, and would be without that. -/
theorem fit_carried (whole : x.IsWhole n) (plain : source.isFloat = false) (target : CType) :
    target.fit (carried x source target) = target.fit x := by
  have byte : byteRange < twoPow 53 := by decide
  unfold carried
  by_cases kept : (source.same target || (source.isPointerLike && target.isPointer)) = true
  · rw [if_pos kept]
  · rw [if_neg kept]
    simp only [plain, Bool.false_eq_true, if_false]
    cases target with
    | char => exact whole.wrap_remEuclid (by decide) byte true
    | int | float | void | function | pointer _ | array _ _ | struct _ => rfl

/-- A cast of a whole number gives the number of the type that agrees with it in the low bytes. -/
theorem castTo_isWhole (stores : v.type.storesWhole = true) (stores' : target.storesWhole = true)
    (whole : v.number.IsWhole n) (keepAddress : Bool) :
    (v.castTo target keepAddress).number.IsWhole (target.residue n) := by
  have plain : v.type.isFloat = false := by
    cases type : v.type with
    | int | char | pointer _ | void | function | array _ _ | struct _ => rfl
    | float =>
      rw [type] at stores
      cases stores
  have number : (v.castTo target keepAddress).number = target.fit v.number :=
    fit_carried whole plain target
  rw [number]
  exact fit_isWhole stores' whole

end Value

/-! ## What memory does -/

theorem Word.take_toBytes {count total : Nat} (short : count ≤ total) (word : Nat) :
    (toBytes total word).take count = toBytes count word := by
  induction count generalizing total word with
  | zero => rfl
  | succ count ih =>
    obtain ⟨rest, rfl⟩ : ∃ rest, total = rest + 1 := ⟨total - 1, by omega⟩
    rw [toBytes, List.take_succ_cons, ih (by omega), ← toBytes]

namespace Image

variable {table : StructTable} {image : Image} {address count : Nat} {v : Value} {target : CType}
  {n : Int} {data : List UInt8}

theorem take_bytesAt {size : Nat} (short : count ≤ size) (image : Image) (address : Nat) :
    (image.bytesAt address size).take count = image.bytesAt address count := by
  apply List.ext_getElem?
  intro i
  by_cases within : i < count
  · rw [List.getElem?_take_of_lt within, getElem?_bytesAt _ _ (Nat.lt_of_lt_of_le within short),
      getElem?_bytesAt _ _ within]
  · have behind : count ≤ i := Nat.not_lt.mp within
    rw [List.getElem?_take_eq_none behind, getElem?_bytesAt_of_le _ _ behind]

/-- The first bytes of what has been put in place are read back. -/
theorem readUnsigned_put_take (nonzero : address ≠ 0) (inside : address + data.length ≤ image.size)
    (short : count ≤ data.length) :
    (image.put address data).readUnsigned address count = .ok (Word.ofBytes (data.take count)) := by
  have within : address + count ≤ (image.put address data).size := by
    rw [size_put]
    omega
  have taken : (image.put address data).bytesAt address count = data.take count := by
    rw [← take_bytesAt short, image.bytesAt_put inside]
  simp only [readUnsigned, readBytes, checkReadable, checkBounds, if_neg nonzero, if_pos within,
    taken]
  rfl

/-- The low bytes of a word are read back as its residue. -/
theorem exists_read_word (table : StructTable) (image : Image) (stores : target.storesWhole = true)
    (lower : -2147483648 ≤ n) (upper : n ≤ 4294967295) (whole : v.number.IsWhole n)
    (nonzero : address ≠ 0) (inside : address + 4 ≤ image.size) :
    ∃ x, (image.put address (Word.toBytes 4 v.toAddress)).read table address target =
        .ok (.lvalue x target address) ∧ x.IsWhole (target.residue n) := by
  have power : twoPow 53 = 9007199254740992 := rfl
  have length : (Word.toBytes 4 v.toAddress).length = 4 := Word.length_toBytes ..
  have back (count : Nat) (short : count ≤ 4) :
      (image.put address (Word.toBytes 4 v.toAddress)).readUnsigned address count =
        .ok (v.toAddress % Nat.pow 256 count) := by
    rw [readUnsigned_put_take nonzero (by omega) (by omega), Word.take_toBytes short,
      Word.ofBytes_toBytes]
  obtain ⟨bounds, bounded, least, greatest⟩ := CType.spans_residue stores n
  cases target with
  | int =>
    cases bounded
    have word := Value.lowBytes_of_isWhole lower upper whole wordRange (Nat.dvd_refl _)
    have signed : ((v.toAddress % wordRange : Nat) : Int).bmod wordRange = n.bmod wordRange := by
      rw [word, Int.emod_bmod]
    refine ⟨.ofInt (n.bmod wordRange), ?_, Binary64.isWhole_ofInt ?_⟩
    · simp only [read, readInt, back 4 (Nat.le_refl 4)]
      exact congrArg (fun m => Except.ok (Value.lvalue (.ofInt m) .int address)) signed
    · simp only [CType.residue] at least greatest
      omega
  | char =>
    cases bounded
    have word := Value.lowBytes_of_isWhole lower upper whole byteRange (by decide)
    have signed : ((v.toAddress % byteRange : Nat) : Int).bmod byteRange = n.bmod byteRange := by
      rw [word, Int.emod_bmod]
    refine ⟨.ofInt (n.bmod byteRange), ?_, Binary64.isWhole_ofInt ?_⟩
    · simp only [read, readChar, back 1 (by decide)]
      exact congrArg (fun m => Except.ok (Value.lvalue (.ofInt m) .char address)) signed
    · simp only [CType.residue] at least greatest
      omega
  | pointer target =>
    cases bounded
    have word := Value.lowBytes_of_isWhole lower upper whole wordRange (Nat.dvd_refl _)
    refine ⟨.ofInt (n % wordRange), ?_, Binary64.isWhole_ofInt ?_⟩
    · simp only [read, readPointer, back 4 (Nat.le_refl 4)]
      exact congrArg (fun m => Except.ok (Value.lvalue (.ofInt m) (.pointer target) address)) word
    · simp only [CType.residue] at least greatest
      omega
  | float | void | function | array _ _ | struct _ => cases stores

end Image

/-! ## Together -/

namespace Value

open Image

variable {v : Value} {target : CType} {n : Int}

/-- A value of four bytes is stored where these can be written, and its first bytes read for
another type are what a cast to that type gives. -/
theorem exists_read_cast (table : StructTable) (stores : v.type.storesWhole = true)
    (stores' : target.storesWhole = true) (inRange : v.InRange) (four : v.type.width = 4)
    (keepAddress : Bool) {image : Image} {address : Nat} (nonzero : address ≠ 0)
    (above : image.heapBottom ≤ address) (inside : address + 4 ≤ image.size) :
    ∃ image' w, store address v image = .ok () image' ∧
      image'.read table address target = .ok w ∧ w.type = target ∧
      w.number.numEq (v.castTo target keepAddress).number = true := by
  obtain ⟨n, whole, spans⟩ := inRange.whole stores
  have bytes : stored? v = some (Word.toBytes 4 v.toAddress) := by
    unfold stored?
    cases type : v.type with
    | int | pointer _ => rfl
    | char =>
      rw [type] at four
      cases four
    | float | void | function | array _ _ | struct _ =>
      rw [type] at stores
      cases stores
  have length : (Word.toBytes 4 v.toAddress).length = 4 := Word.length_toBytes ..
  have writable : image.checkWritable address (Word.toBytes 4 v.toAddress).length = .ok () := by
    rw [length]
    exact checkWritable_iff.mpr ⟨nonzero, above, inside⟩
  obtain ⟨-, done⟩ | ⟨refused, -⟩ := image.store_cases address bytes
  · obtain ⟨lower, upper⟩ := spans.bounds
    obtain ⟨x, back, found⟩ :=
      exists_read_word table image stores' lower upper whole nonzero inside
    refine ⟨_, _, done, back, rfl, ?_⟩
    have fitted := fit_isWhole stores' found
    rw [CType.residue_residue stores' stores' (Nat.le_refl _)] at fitted
    exact (fitted.numEq_iff (castTo_isWhole stores stores' whole keepAddress)).mpr rfl
  · exact absurd writable refused

/-- A cast on the way to a type that is no wider makes no difference. -/
theorem castTo_castTo (middle target : CType) (stores : v.type.storesWhole = true)
    (stores' : middle.storesWhole = true) (stores'' : target.storesWhole = true)
    (wide : target.width ≤ middle.width) (whole : v.number.IsWhole n) (keep keep' : Bool) :
    ((v.castTo middle keep).castTo target keep').number.IsWhole (target.residue n) := by
  have first : (v.castTo middle keep).number.IsWhole (middle.residue n) :=
    castTo_isWhole stores stores' whole keep
  have second : ((v.castTo middle keep).castTo target keep').number.IsWhole
      (target.residue (middle.residue n)) := castTo_isWhole stores' stores'' first keep'
  rwa [CType.residue_residue stores'' stores' wide] at second

/-- **Casts agree with storage.**  Between `int`, `char` and the pointers, a cast gives the one
number of its type that is congruent to the value modulo `2 ^ 32`, or `2 ^ 8` for `char`.  For a
value of four bytes it is what is read if the value is stored, wherever it can be, and its first
bytes are read for the other type.  So an `int` comes back from a cast to a pointer and a pointer
from a cast to `int`, and a cast on the way to a type that is no wider makes no difference. -/
theorem casts_agree_with_storage (table : StructTable) (v : Value) (target : CType)
    (keep keep' : Bool) (stores : v.type.storesWhole = true)
    (stores' : target.storesWhole = true) (inRange : v.InRange) :
    ((v.castTo target keep).type = target ∧ table.sizeOf target = .ok target.width ∧
      ∃ n k, v.number.IsWhole n ∧ (v.castTo target keep).number.IsWhole k ∧ target.Spans k ∧
        k % target.modulus = n % target.modulus ∧
        ∀ l, target.Spans l → l % target.modulus = n % target.modulus → l = k) ∧
      (table.sizeOf v.type = .ok 4 → ∀ (image : Image) (address : Nat), address ≠ 0 →
        image.heapBottom ≤ address → address + 4 ≤ image.size →
        ∃ image' w, Image.store address v image = .ok () image' ∧
          image'.read table address target = .ok w ∧ w.type = target ∧
          w.number.numEq (v.castTo target keep).number = true) ∧
      (v.type = .int → ∀ t,
        ((v.castTo (.pointer t) keep).castTo .int keep').number.numEq v.number = true) ∧
      (∀ s t, v.type = .pointer s →
        ((v.castTo .int keep).castTo (.pointer t) keep').number.numEq v.number = true) ∧
      ∀ middle : CType, middle.storesWhole = true → target.width ≤ middle.width →
        ((v.castTo middle keep').castTo target keep).number.numEq
          (v.castTo target keep).number = true := by
  obtain ⟨n, whole, spans⟩ := inRange.whole stores
  have cast := castTo_isWhole stores stores' whole keep
  refine ⟨⟨rfl, CType.sizeOf_storesWhole table stores', n, target.residue n, whole, cast,
    CType.spans_residue stores' n, CType.residue_congr stores' n, ?_⟩, ?_, ?_, ?_, ?_⟩
  · intro l spans' congruent
    refine spans'.unique (CType.spans_residue stores' n) stores' ?_
    rw [congruent, CType.residue_congr stores']
  · intro sized image address
    rw [CType.sizeOf_storesWhole table stores] at sized
    exact exists_read_cast table stores stores' inRange (Except.ok.inj sized) keep
  · intro type t
    rw [type] at spans
    have kept : CType.int.residue n = n := CType.residue_eq rfl spans
    have back := castTo_castTo (.pointer t) .int stores rfl rfl (Nat.le_refl 4) whole keep keep'
    exact (back.numEq_iff whole).mpr kept
  · intro s t type
    rw [type] at spans
    have spans' : (CType.pointer t).Spans n := spans
    have kept : (CType.pointer t).residue n = n := CType.residue_eq rfl spans'
    have back := castTo_castTo .int (.pointer t) stores rfl rfl (Nat.le_refl 4) whole keep keep'
    exact (back.numEq_iff whole).mpr kept
  · intro middle stores'' wide
    have via := castTo_castTo middle target stores stores'' stores' wide whole keep' keep
    exact (via.numEq_iff cast).mpr rfl

/-- A negative `int` out of the range of `char`: its first byte is the `char` that it is cast to,
and is positive. -/
theorem minus_two_hundred_is_stored_as_it_is_cast :
    let v := Value.ofInt (-200)
    let image := Image.blank ⟨5, 16, 32, .reclaim⟩
    v.type.storesWhole = true ∧ CType.char.storesWhole = true ∧ v.InRange ∧
      (v.castTo .char false).number.numEq (.ofInt 56) = true ∧
      (v.castTo .voidPointer false).number.numEq (.ofInt 4294967096) = true ∧
      ∃ image' w, Image.store 19 v image = .ok () image' ∧
        image'.read .empty 19 .char = .ok w ∧ w.type = .char ∧
        w.number.numEq (v.castTo .char false).number = true := by
  intro v image
  have inRange : v.InRange := inRange_rvalue _ _
  have agrees := casts_agree_with_storage .empty v .char false false rfl rfl inRange
  exact ⟨rfl, rfl, inRange, by decide +kernel, by decide +kernel,
    agrees.2.1 rfl image 19 (by decide) (by decide) (by decide +kernel)⟩

end Value

end FlatC
