import FlatC.Proofs.Scope.FreshSlot
import FlatC.Proofs.Value.PointerArithmetic
import Mathlib.Algebra.Order.BigOperators.GroupWithZero.List
import Mathlib.Algebra.Order.Ring.Nat
import Mathlib.Data.List.Forall2

/-!
# Elements of arrays

An index into an array of several dimensions gives a row, an array with one dimension less, and only
the last index gives an element.  A row is not loaded; its value is its own address, from which the
next index counts in rows of the next dimension.

* `place` is the place of an element in row-major order, `place_lt` and `place_injective` say that
  different indices have different places within the array, and `elements_apart` that the elements
  there have no byte in common;
* `CType.rows` is the type that is left when some dimensions are, and `StructTable.sizeOf_rows` its
  size;
* `Value.literal_integer` says which integer a number written in a program is;
* `Image.HasArray` says that an array lies in memory, and `Image.HasArray.elementAt_eq` takes one
  index of it.
-/

namespace FlatC

/-! ## Places in row-major order -/

/-- The place of an element in row-major order, behind as many blocks of the given dimensions as
come before it: `((before * d₁ + i₁) * d₂ + i₂) * …`. -/
def place (before : Nat) : (dims indices : List Nat) → Nat
  | d :: dims, i :: indices => place (before * d + i) dims indices
  | _, _ => before

variable {before before' : Nat} {dims indices indices' : List Nat}

/-- The element lies in its block. -/
theorem place_bounds (within : List.Forall₂ (· < ·) indices dims) :
    before * dims.prod ≤ place before dims indices ∧
      place before dims indices < (before + 1) * dims.prod := by
  induction within generalizing before with
  | nil => simp [place]
  | @cons i d indices dims less _ ih =>
    obtain ⟨lower, upper⟩ : (before * d + i) * dims.prod ≤ place (before * d + i) dims indices ∧
        place (before * d + i) dims indices < (before * d + i + 1) * dims.prod := ih
    have below : before * d * dims.prod ≤ (before * d + i) * dims.prod :=
      Nat.mul_le_mul_right _ (Nat.le_add_right ..)
    have next : before * d + i + 1 ≤ (before + 1) * d := by
      rw [Nat.succ_mul]
      omega
    have above : (before * d + i + 1) * dims.prod ≤ (before + 1) * d * dims.prod :=
      Nat.mul_le_mul_right _ next
    rw [List.prod_cons, ← Nat.mul_assoc, ← Nat.mul_assoc, place]
    omega

theorem place_lt (within : List.Forall₂ (· < ·) indices dims) :
    place 0 dims indices < dims.prod := by
  have upper : place 0 dims indices < (0 + 1) * dims.prod := (place_bounds within).2
  rwa [Nat.zero_add, Nat.one_mul] at upper

/-- The place determines the block and the indices. -/
theorem place_injective (within : List.Forall₂ (· < ·) indices dims)
    (within' : List.Forall₂ (· < ·) indices' dims)
    (same : place before dims indices = place before' dims indices') :
    before = before' ∧ indices = indices' := by
  induction within generalizing before before' indices' with
  | nil =>
    cases within'
    exact ⟨same, rfl⟩
  | @cons i d indices dims less _ ih =>
    cases within' with
    | @cons j _ indices' _ less' within' =>
      obtain ⟨row, rfl⟩ := ih within' same
      have block (k l : Nat) (inside : l < d) : (k * d + l) / d = k := by
        rw [Nat.mul_comm, Nat.mul_add_div (by omega), Nat.div_eq_of_lt inside, Nat.add_zero]
      have first : before = before' := by rw [← block before i less, row, block before' j less']
      subst first
      obtain rfl : i = j := by omega
      exact ⟨rfl, rfl⟩

/-- Elements at different places have no byte in common. -/
theorem elements_apart (within : List.Forall₂ (· < ·) indices dims)
    (within' : List.Forall₂ (· < ·) indices' dims) (different : indices' ≠ indices) (b s : Nat) :
    Slot.Apart ⟨b + place 0 dims indices * s, s⟩ ⟨b + place 0 dims indices' * s, s⟩ := by
  have later {p q : Nat} (less : p < q) : b + p * s + s ≤ b + q * s := by
    have next : (p + 1) * s ≤ q * s := Nat.mul_le_mul_right s less
    rw [Nat.succ_mul] at next
    omega
  have places : place 0 dims indices ≠ place 0 dims indices' := by
    intro same
    exact different (place_injective within within' same).2.symm
  obtain before | behind := Nat.lt_or_gt_of_ne places
  · exact .inl (later before)
  · exact .inr (later behind)

/-! ## Rows and their sizes -/

/-- The type that is left of an array when the given dimensions are. -/
def CType.rows (element : CType) : (dims : List Nat) → CType
  | [] => element
  | d :: dims => .array element (d :: dims)

theorem CType.pointee?_array (element : CType) (d : Nat) (dims : List Nat) :
    (CType.array element (d :: dims)).pointee? = some (element.rows dims) := by
  cases dims <;> rfl

theorem CType.decay_array (element : CType) (d : Nat) (dims : List Nat) :
    (CType.array element (d :: dims)).decay = .pointer (element.rows dims) := by
  cases dims <;> rfl

/-- What there are variables of can be reached by a dereference. -/
theorem CType.dereferenced_pointer {target : CType}
    (complete : Machine.isIncomplete target = false) :
    (CType.pointer target).dereferenced = .ok target := by
  cases target with
  | int | float | char | pointer _ | array _ _ | struct _ => rfl
  | void | function => cases complete

/-- There are variables of rows if there are of elements. -/
theorem CType.isIncomplete_rows {element : CType} (complete : Machine.isIncomplete element = false)
    (dims : List Nat) : Machine.isIncomplete (element.rows dims) = false := by
  cases dims with
  | nil => exact complete
  | cons d dims => rfl

namespace StructTable

variable {table : StructTable} {element whole : CType} {s size : Nat}

/-- The size of an array is that of all its elements together. -/
theorem foldlM_repeated_eq (folded : dims.foldlM (repeated whole) s = .ok size) :
    size = s * dims.prod := by
  induction dims generalizing s with
  | nil =>
    cases folded
    rw [List.prod_nil, Nat.mul_one]
  | cons d dims ih =>
    rw [List.foldlM_cons] at folded
    obtain ⟨next, first, rest⟩ := bind_eq_ok.mp folded
    unfold repeated at first
    by_cases fits : d < wordRange ∧ s * d < wordRange
    · rw [if_pos fits] at first
      cases first
      rw [ih rest, List.prod_cons, Nat.mul_assoc]
    · rw [if_neg fits] at first
      cases first

theorem foldlM_repeated_of_lt (positive : ∀ d ∈ dims, 1 ≤ d) (some : 1 ≤ s)
    (inSpace : s * dims.prod < wordRange) :
    dims.foldlM (repeated whole) s = .ok (s * dims.prod) := by
  induction dims generalizing s with
  | nil => rw [List.prod_nil, Nat.mul_one]; rfl
  | cons d dims ih =>
    obtain ⟨least, others⟩ := List.forall_mem_cons.mp positive
    have rest : 1 ≤ dims.prod := List.one_le_prod others
    rw [List.prod_cons, ← Nat.mul_assoc] at inSpace ⊢
    have next : s * d ≤ s * d * dims.prod := Nat.le_mul_of_pos_right _ rest
    have count : d ≤ s * d := Nat.le_mul_of_pos_left d some
    have first : repeated whole s d = .ok (s * d) := if_pos ⟨by omega, by omega⟩
    rw [List.foldlM_cons, first]
    exact ih others (Nat.le_trans least count) inSpace

theorem sizeOf_array (sized : table.sizeOf element = .ok s)
    (whole : table.sizeOf (.array element dims) = .ok size) : size = s * dims.prod := by
  obtain ⟨inner, found, folded⟩ := bind_eq_ok.mp whole
  cases sized.symm.trans found
  exact foldlM_repeated_eq folded

/-- Rows are as large as all their elements together, if that fits the address space. -/
theorem sizeOf_rows (sized : table.sizeOf element = .ok s) (some : 1 ≤ s)
    (positive : ∀ d ∈ dims, 1 ≤ d) (inSpace : s * dims.prod < wordRange) :
    table.sizeOf (element.rows dims) = .ok (s * dims.prod) := by
  cases dims with
  | nil => rw [List.prod_nil, Nat.mul_one]; exact sized
  | cons d dims => exact bind_eq_ok.mpr ⟨s, sized, foldlM_repeated_of_lt positive some inSpace⟩

end StructTable

/-! ## Numbers written in a program -/

namespace Value

open Binary64

variable {x : Binary64} {n : Int}

theorem hasFraction_of_isWhole (whole : x.IsWhole n) : x.hasFraction = false := by
  obtain ⟨negative, rfl, -⟩ := whole.cases
  simp [hasFraction]

/-- A whole number written in a program is an integer, which wraps if no `int` can hold it. -/
theorem literal_integer (whole : x.IsWhole n) : (literal x).Integer (n.bmod wordRange) := by
  have least : (Binary64.ofInt (-128)).IsWhole (-128) := isWhole_ofInt (by decide)
  have greatest : (Binary64.ofInt 127).IsWhole 127 := isWhole_ofInt (by decide)
  have type : CType.ofLiteral x = if -128 ≤ n ∧ n ≤ 127 then .char else .int := by
    simp only [CType.ofLiteral, hasFraction_of_isWhole whole, least.numLe_eq whole,
      whole.numLe_eq greatest, Bool.false_eq_true, if_false, Bool.and_eq_true, decide_eq_true_eq]
  by_cases small : -128 ≤ n ∧ n ≤ 127
  · rw [if_pos small] at type
    have kept : n.bmod wordRange = n := by
      simp only [wordRange]
      exact Int.bmod_eq_of_le (by omega) (by omega)
    have held : CType.char.Holds x := ⟨n, small.1, small.2, whole⟩
    rw [literal, type, kept]
    refine ⟨.inr rfl, inRange_rvalue .., ?_⟩
    show (CType.char.fit x).IsWhole n
    rwa [held.fit_eq]
  · rw [if_neg small] at type
    rw [literal, type]
    exact ⟨.inl rfl, inRange_rvalue .., whole.wrap wordRange true⟩

end Value

/-! ## Arrays in memory -/

/-- There are variables of the type, and they take `s` bytes. -/
structure CType.TakesUp (type : CType) (table : StructTable) (s : Nat) : Prop where
  complete : Machine.isIncomplete type = false
  sized : table.sizeOf type = .ok s
  some : 1 ≤ s

/-- An array of elements of `s` bytes with the given dimensions lies in memory at the address `a`;
without dimensions it is a single element. -/
structure Image.HasArray (image : Image) (table : StructTable) (element : CType) (dims : List Nat)
    (a s : Nat) : Prop where
  elements : element.TakesUp table s
  positive : ∀ d ∈ dims, 1 ≤ d
  nonzero : a ≠ 0
  inside : a + s * dims.prod ≤ image.size
  inSpace : image.size < wordRange

namespace Image.HasArray

variable {image image' : Image} {table : StructTable} {element : CType} {a d i s : Nat} {v : Value}
  {x : Binary64}

theorem sizeOf_rows (h : image.HasArray table element dims a s) :
    table.sizeOf (element.rows dims) = .ok (s * dims.prod) := by
  have inside := h.inside
  have inSpace := h.inSpace
  exact StructTable.sizeOf_rows h.elements.sized h.elements.some h.positive (by omega)

/-- The bytes before a row of an array and those of the row lie in the array. -/
theorem rows_le (less : i < d) (r : Nat) : i * r + r ≤ d * r := by
  have next : (i + 1) * r ≤ d * r := Nat.mul_le_mul_right r less
  rwa [Nat.succ_mul] at next

/-- Each index leads to an array with one dimension less. -/
theorem row (h : image.HasArray table element (d :: dims) a s) (less : i < d) :
    image.HasArray table element dims (a + i * (s * dims.prod)) s := by
  obtain ⟨elements, positive, nonzero, inside, inSpace⟩ := h
  have whole : s * (d :: dims).prod = d * (s * dims.prod) := by
    rw [List.prod_cons, Nat.mul_left_comm]
  have last := rows_le less (s * dims.prod)
  exact ⟨elements, (List.forall_mem_cons.mp positive).2, by omega, by omega, inSpace⟩

/-- The elements before an element of an array and that element lie in the array. -/
theorem element_le (within : List.Forall₂ (· < ·) indices dims) (s : Nat) :
    place 0 dims indices * s + s ≤ s * dims.prod := by
  rw [Nat.mul_comm s]
  exact rows_le (place_lt within) s

/-- The indices together lead to an element. -/
theorem single (h : image.HasArray table element dims a s)
    (within : List.Forall₂ (· < ·) indices dims) :
    image.HasArray table element [] (a + place 0 dims indices * s) s := by
  obtain ⟨elements, -, nonzero, inside, inSpace⟩ := h
  have last := element_le within s
  refine ⟨elements, nofun, by omega, ?_, inSpace⟩
  rw [List.prod_nil, Nat.mul_one]
  omega

/-- The value of an array can be read; its address is where it lies. -/
theorem exists_read (h : image.HasArray table element dims a s) :
    ∃ v, image.read table a (element.rows dims) = .ok v ∧ v.type = element.rows dims ∧
      v.address = .some a := by
  obtain ⟨v, reading, address⟩ := Image.exists_read h.sizeOf_rows
    (CType.isIncomplete_rows h.elements.complete dims) h.nonzero h.inside
  exact ⟨v, reading, Image.type_read reading, address⟩

/-- The value of an array is its address, and it counts in rows. -/
theorem points (h : image.HasArray table element (d :: dims) a s)
    (reading : image.read table a (element.rows (d :: dims)) = .ok v) :
    v.Points table a (s * dims.prod) := by
  have less : 0 < d := h.positive d List.mem_cons_self
  have inside := h.inside
  have inSpace := h.inSpace
  have type : v.type = .array element (d :: dims) := Image.type_read reading
  have reached : v.type.pointee? = .some (element.rows dims) := by
    rw [type, CType.pointee?_array]
  have sized := (h.row less).sizeOf_rows
  have number : v.number = v.type.fit (.ofInt a) := by
    obtain ⟨size, -, rest⟩ := bind_eq_ok.mp reading
    obtain ⟨-, -, rest⟩ := bind_eq_ok.mp rest
    cases rest
    rfl
  exact Value.points_of_fit reached sized (by omega) number

/-- An index moves as many bytes as its rows have.  One that no `int` can hold has wrapped, but then
rows are single bytes, and the sum wraps back. -/
theorem bytes_moved {r : Nat} (positive : 1 ≤ r) (inside : i * r + r < wordRange) :
    (i : Int).bmod wordRange * r = i * r ∨ (i : Int).bmod wordRange * r = i * r - wordRange := by
  by_cases small : i < 2147483648
  · left
    have kept : (i : Int).bmod wordRange = i := by
      simp only [wordRange]
      exact Int.bmod_eq_of_le (by omega) (by omega)
    rw [kept]
  · right
    have single : r = 1 := by
      by_contra more
      have double : i * 2 ≤ i * r := Nat.mul_le_mul_left i (by omega)
      simp only [wordRange] at inside
      omega
    subst single
    have wrapped : (i : Int).bmod wordRange = i - wordRange := by
      simp only [wordRange] at inside ⊢
      rw [Int.bmod_def]
      split <;> omega
    rw [wrapped, Int.natCast_one, Int.mul_one, Int.mul_one]

/-- An index reads the row or the element that lies as many rows behind the start. -/
theorem elementAt_eq (h : image.HasArray table element (d :: dims) a s)
    (reading : image.read table a (element.rows (d :: dims)) = .ok v) (whole : x.IsWhole i)
    (less : i < d) : v.elementAt table (.literal x) image =
      image.read table (a + i * (s * dims.prod)) (element.rows dims) := by
  obtain ⟨r, size⟩ : ∃ r, r = s * dims.prod := ⟨_, rfl⟩
  have row := h.row less
  have points := h.points reading
  have inside := row.inside
  have inSpace := row.inSpace
  have positive : 1 ≤ r := by
    have rest : 1 ≤ dims.prod := List.one_le_prod row.positive
    rw [size]
    exact Nat.mul_pos h.elements.some rest
  rw [← size] at points inside ⊢
  -- where the index leads to, as a whole number and as an address
  have integer := Value.literal_integer whole
  have power : twoPow 53 = 9007199254740992 := rfl
  obtain ⟨m, distance⟩ : ∃ m, m = (i : Int).bmod wordRange * r := ⟨_, rfl⟩
  obtain ⟨k, bytes⟩ : ∃ k : Nat, k = i * r := ⟨_, rfl⟩
  have moved := bytes_moved positive (i := i) (by omega)
  rw [← Int.natCast_mul, ← bytes, ← distance] at moved
  rw [← bytes] at inside ⊢
  simp only [wordRange] at moved inSpace
  have fits : FitsLong m ∧ FitsLong (a + m) := by
    simp only [FitsLong, longTop]
    omega
  rw [distance] at fits
  have sum := (points.plus_eq integer fits.1 fits.2).1
  rw [← distance, Image.type_read reading, CType.rows, CType.decay_array] at sum
  have address : (Value.rvalue (.ofInt (a + m)) (.pointer (element.rows dims))).toAddress =
      a + k := by
    have reached : (CType.pointer (element.rows dims)).pointee? = .some (element.rows dims) := rfl
    have wrapped := Value.toAddress_rvalue reached (Binary64.isWhole_ofInt (n := a + m) (by omega))
    simp only [wordRange] at wrapped
    omega
  have complete := CType.isIncomplete_rows h.elements.complete dims
  simp only [Value.elementAt, sum, Value.deref, Value.type_rvalue,
    CType.dereferenced_pointer complete, address, bind, Except.bind]

end Image.HasArray

end FlatC
