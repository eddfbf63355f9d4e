/-!
# Bytes in pages

A memory may be as large as the address space, and most of it may never hold anything but zeros.  So
its bytes are kept in pages, and a page that holds one byte in all its places is kept as this byte.

* `Page` is a page, and `Bytes` a number of bytes in pages;
* `Bytes.set` writes one byte and `Bytes.fill` a range of equal ones;
* `Bytes.slice` lists the bytes of a range, and `Bytes.find?` searches for a byte;
* `Bytes.getElem?_set`, `Bytes.getElem?_fill`, `Bytes.getElem?_slice` and
  `Bytes.find?_eq_some_iff` say what these do, address by address.
-/

namespace FlatC

/-! ## Pages -/

/-- The places of a page. -/
def pageSize : Nat := 4096

theorem pageSize_pos : 0 < pageSize := by decide

/-- The place of an address in its page. -/
def pagePlace (address : Nat) : Fin pageSize :=
  ⟨address % pageSize, Nat.mod_lt _ pageSize_pos⟩

/-- A page. -/
inductive Page where
  /-- All places hold one byte. -/
  | uniform (byte : UInt8)
  /-- Each place has a byte of its own. -/
  | mixed (bytes : Vector UInt8 pageSize)

namespace Page

/-- The byte in a place. -/
def byteAt (page : Page) (place : Fin pageSize) : UInt8 :=
  match page with
  | uniform byte => byte
  | mixed bytes => bytes[place]

/-- The page with a byte written. -/
def set (page : Page) (place : Fin pageSize) (byte : UInt8) : Page :=
  match page with
  | uniform old => mixed ((Vector.replicate pageSize old).set place byte)
  | mixed bytes => mixed (bytes.set place byte)

theorem byteAt_set (page : Page) (place other : Fin pageSize) (byte : UInt8) :
    (page.set place byte).byteAt other = if place = other then byte else page.byteAt other := by
  have written (bytes : Vector UInt8 pageSize) :
      (bytes.set place byte)[other] = if place = other then byte else bytes[other] := by
    rw [Fin.getElem_fin, Vector.getElem_set]
    simp only [Fin.val_inj, Fin.getElem_fin]
  cases page with
  | mixed bytes => exact written bytes
  | uniform old =>
    refine (written _).trans ?_
    rw [Fin.getElem_fin, Vector.getElem_replicate]
    rfl

/-- The first place from `start` on that holds a byte. -/
def find? (page : Page) (byte : UInt8) (start : Nat) : Option Nat :=
  match page with
  | uniform own => if own = byte then some start else none
  | mixed bytes =>
    (List.range' start (pageSize - start)).find? fun place => bytes[pagePlace place] == byte

/-- A page is searched from a place on. -/
theorem find?_eq_some_iff {page : Page} {byte : UInt8} {start stop : Nat}
    (inside : start < pageSize) :
    page.find? byte start = some stop ↔
      start ≤ stop ∧ stop < pageSize ∧ page.byteAt (pagePlace stop) = byte ∧
        ∀ i, start ≤ i → i < stop → page.byteAt (pagePlace i) ≠ byte := by
  cases page with
  | uniform own =>
    rw [find?]
    by_cases same : own = byte
    · rw [if_pos same, Option.some.injEq]
      constructor
      · rintro rfl
        exact ⟨Nat.le_refl _, inside, same, fun i lower upper => by omega⟩
      · rintro ⟨lower, -, -, first⟩
        rcases Nat.eq_or_lt_of_le lower with rfl | later
        · rfl
        · exact absurd same (first start (Nat.le_refl _) later)
    · rw [if_neg same]
      exact ⟨nofun, fun ⟨_, _, found, _⟩ => absurd found same⟩
  | mixed bytes =>
    rw [find?, List.find?_range'_eq_some]
    have range (i : Nat) : i ∈ List.range' start (pageSize - start) ↔ start ≤ i ∧ i < pageSize := by
      rw [List.mem_range'_1]
      omega
    simp only [range, beq_iff_eq, Bool.not_eq_true', beq_eq_false_iff_ne, byteAt]
    exact ⟨fun ⟨found, ⟨lower, upper⟩, first⟩ => ⟨lower, upper, found, first⟩,
      fun ⟨lower, upper, found, first⟩ => ⟨found, ⟨lower, upper⟩, first⟩⟩

/-- A search without result has met another byte in every place. -/
theorem ne_of_find?_eq_none {page : Page} {byte : UInt8} {start i : Nat}
    (none : page.find? byte start = none) (lower : start ≤ i) (upper : i < pageSize) :
    page.byteAt (pagePlace i) ≠ byte := by
  cases page with
  | uniform own =>
    intro same
    have same : own = byte := same
    rw [find?, if_pos same] at none
    cases none
  | mixed bytes =>
    have among : i ∈ List.range' start (pageSize - start) := by
      rw [List.mem_range'_1]
      omega
    simpa [byteAt] using List.find?_eq_none.mp none i among

end Page

/-! ## Bytes -/

/-- A number of bytes, in as many pages as they need. -/
structure Bytes where
  size : Nat
  pages : Array Page
  covered : size ≤ pages.size * pageSize

namespace Bytes

instance : Inhabited Bytes := ⟨0, #[], Nat.zero_le _⟩

/-- A page by its number; behind the last one all are zeros. -/
def page (bytes : Bytes) (number : Nat) : Page :=
  bytes.pages.getD number (.uniform 0)

/-- What the pages hold at an address. -/
def byteAt (bytes : Bytes) (address : Nat) : UInt8 :=
  (bytes.page (address / pageSize)).byteAt (pagePlace address)

instance : GetElem? Bytes Nat UInt8 fun bytes address => address < bytes.size where
  getElem bytes address _ := bytes.byteAt address
  getElem? bytes address := if address < bytes.size then some (bytes.byteAt address) else none

variable {bytes : Bytes} {address start count i : Nat} {byte : UInt8}

theorem getElem?_of_lt (bytes : Bytes) (inside : address < bytes.size) :
    bytes[address]? = some (bytes.byteAt address) :=
  if_pos inside

theorem getElem?_of_le (bytes : Bytes) (outside : bytes.size ≤ address) : bytes[address]? = none :=
  if_neg (Nat.not_lt.mpr outside)

theorem getElem?_eq_some_iff :
    bytes[address]? = some byte ↔ address < bytes.size ∧ bytes.byteAt address = byte := by
  by_cases inside : address < bytes.size
  · rw [bytes.getElem?_of_lt inside, Option.some.injEq, and_iff_right inside]
  · rw [bytes.getElem?_of_le (Nat.not_lt.mp inside)]
    exact ⟨nofun, fun ⟨here, _⟩ => absurd here inside⟩

/-- As many equal bytes. -/
def replicate (size : Nat) (byte : UInt8) : Bytes where
  size := size
  pages := Array.replicate ((size + (pageSize - 1)) / pageSize) (.uniform byte)
  covered := by
    rw [Array.size_replicate]
    simp only [pageSize]
    omega

@[simp] theorem size_replicate (count : Nat) (byte : UInt8) : (replicate count byte).size = count :=
  rfl

theorem getElem?_replicate (inside : address < count) :
    (replicate count byte)[address]? = some byte := by
  have number : address / pageSize < (count + (pageSize - 1)) / pageSize := by
    simp only [pageSize]
    omega
  refine getElem?_eq_some_iff.mpr ⟨inside, ?_⟩
  simp only [byteAt, page, replicate, Array.getD_eq_getD_getElem?, Array.getElem?_replicate,
    if_pos number, Option.getD_some]
  rfl

/-! ## Writing -/

/-- The bytes with a page changed. -/
def changePage (bytes : Bytes) (number : Nat) (change : Page → Page) : Bytes where
  size := bytes.size
  pages := bytes.pages.modify number change
  covered := by
    rw [Array.size_modify]
    exact bytes.covered

theorem page_changePage {number other : Nat} {change : Page → Page}
    (inside : number < bytes.pages.size) :
    (bytes.changePage number change).page other =
      if number = other then change (bytes.page other) else bytes.page other := by
  simp only [page, changePage, Array.getD_eq_getD_getElem?, Array.getElem?_modify]
  split
  · rename_i same
    subst same
    rw [Array.getElem?_eq_getElem inside]
    rfl
  · rfl

/-- An address is in one of the pages. -/
theorem number_lt (inside : address < bytes.size) : address / pageSize < bytes.pages.size := by
  have covered := bytes.covered
  simp only [pageSize] at covered ⊢
  omega

/-- Two addresses are one if they have the same place in the same page. -/
theorem eq_iff_place {a b : Nat} :
    a = b ↔ a / pageSize = b / pageSize ∧ pagePlace a = pagePlace b := by
  simp only [pagePlace, Fin.mk.injEq, pageSize]
  omega

/-- The bytes with one of them written.  Behind the end there is nothing to write to. -/
def set (bytes : Bytes) (address : Nat) (byte : UInt8) : Bytes :=
  bytes.changePage (address / pageSize) (·.set (pagePlace address) byte)

@[simp] theorem size_set (bytes : Bytes) (address : Nat) (byte : UInt8) :
    (bytes.set address byte).size = bytes.size := rfl

theorem getElem?_set (bytes : Bytes) (address i : Nat) (byte : UInt8) :
    (bytes.set address byte)[i]? =
      if address = i ∧ i < bytes.size then some byte else bytes[i]? := by
  by_cases inside : i < bytes.size
  · rw [bytes.getElem?_of_lt inside, (bytes.set address byte).getElem?_of_lt inside]
    by_cases here : address = i
    · subst here
      rw [if_pos ⟨rfl, inside⟩, byteAt, set, page_changePage (number_lt inside), if_pos rfl,
        Page.byteAt_set, if_pos rfl]
    · rw [if_neg fun h => here h.1, byteAt, byteAt]
      by_cases number : address / pageSize = i / pageSize
      · have place : pagePlace address ≠ pagePlace i := fun same =>
          here (eq_iff_place.mpr ⟨number, same⟩)
        rw [set, page_changePage (number ▸ number_lt inside), if_pos number, Page.byteAt_set,
          if_neg place]
      · simp only [set, page, changePage, Array.getD_eq_getD_getElem?, Array.getElem?_modify,
          if_neg number]
  · rw [if_neg fun h => inside h.2, bytes.getElem?_of_le (Nat.not_lt.mp inside),
      (bytes.set address byte).getElem?_of_le (Nat.not_lt.mp inside)]

/-- The bytes with a byte written to `count` addresses, one after another. -/
def fillEach (bytes : Bytes) (address : Nat) (byte : UInt8) : (count : Nat) → Bytes
  | 0 => bytes
  | count + 1 => (bytes.set address byte).fillEach (address + 1) byte count

/-- The bytes with a byte written to all places of `count` pages. -/
def fillPages (bytes : Bytes) (number : Nat) (byte : UInt8) : (count : Nat) → Bytes
  | 0 => bytes
  | count + 1 => (bytes.changePage number fun _ => .uniform byte).fillPages (number + 1) byte count

/-- The bytes with a byte written to a range, page by page where it covers whole pages. -/
def fill (bytes : Bytes) (address count : Nat) (byte : UInt8) : Bytes :=
  let first := min count ((pageSize - address % pageSize) % pageSize)
  let whole := (count - first) / pageSize
  let last := (count - first) % pageSize
  let bytes := bytes.fillEach address byte first
  let bytes := bytes.fillPages ((address + first) / pageSize) byte whole
  bytes.fillEach (address + first + whole * pageSize) byte last

/-- The second bytes are the first with a byte written to the addresses from `start` up to
`stop`. -/
structure Filled (bytes : Bytes) (start stop : Nat) (byte : UInt8) (bytes' : Bytes) : Prop where
  size_eq : bytes'.size = bytes.size
  getElem?_eq : ∀ i, bytes'[i]? =
    if start ≤ i ∧ i < stop ∧ i < bytes.size then some byte else bytes[i]?

namespace Filled

variable {bytes' bytes'' : Bytes} {start middle stop : Nat}

theorem nothing (bytes : Bytes) (start : Nat) (byte : UInt8) :
    bytes.Filled start start byte bytes := by
  refine ⟨rfl, fun i => ?_⟩
  rw [if_neg (by omega)]

/-- A range may be filled in two parts. -/
theorem append (first : bytes.Filled start middle byte bytes')
    (second : bytes'.Filled middle stop byte bytes'') (lower : start ≤ middle)
    (upper : middle ≤ stop) : bytes.Filled start stop byte bytes'' := by
  refine ⟨second.size_eq.trans first.size_eq, fun i => ?_⟩
  rw [second.getElem?_eq, first.getElem?_eq, first.size_eq]
  by_cases here : start ≤ i ∧ i < stop ∧ i < bytes.size
  · rw [if_pos here]
    by_cases late : middle ≤ i
    · rw [if_pos ⟨late, here.2⟩]
    · rw [if_neg fun h => late h.1, if_pos ⟨here.1, Nat.not_le.mp late, here.2.2⟩]
  · rw [if_neg here, if_neg (by omega), if_neg (by omega)]

theorem set (bytes : Bytes) (address : Nat) (byte : UInt8) :
    bytes.Filled address (address + 1) byte (bytes.set address byte) := by
  refine ⟨rfl, fun i => ?_⟩
  rw [getElem?_set]
  have one : address = i ∧ i < bytes.size ↔
      address ≤ i ∧ i < address + 1 ∧ i < bytes.size := by omega
  simp only [one]

/-- A page holds the addresses from its number, in pages, up to the next. -/
theorem page (bytes : Bytes) (number : Nat) (byte : UInt8) :
    bytes.Filled (number * pageSize) ((number + 1) * pageSize) byte
      (bytes.changePage number fun _ => .uniform byte) := by
  refine ⟨rfl, fun i => ?_⟩
  by_cases inside : i < bytes.size
  · have own : number = i / pageSize ↔
        number * pageSize ≤ i ∧ i < (number + 1) * pageSize := by
      simp only [pageSize]
      omega
    rw [bytes.getElem?_of_lt inside, (bytes.changePage ..).getElem?_of_lt inside, byteAt]
    by_cases here : number = i / pageSize
    · rw [if_pos ⟨(own.mp here).1, (own.mp here).2, inside⟩,
        page_changePage (here ▸ number_lt inside), if_pos here]
      rfl
    · rw [if_neg fun h => here (own.mpr ⟨h.1, h.2.1⟩)]
      simp only [byteAt, Bytes.page, changePage, Array.getD_eq_getD_getElem?,
        Array.getElem?_modify, if_neg here]
  · rw [if_neg fun h => inside h.2.2, bytes.getElem?_of_le (Nat.not_lt.mp inside),
      (bytes.changePage ..).getElem?_of_le (Nat.not_lt.mp inside)]

theorem each (bytes : Bytes) (address : Nat) (byte : UInt8) (count : Nat) :
    bytes.Filled address (address + count) byte (bytes.fillEach address byte count) := by
  induction count generalizing bytes address with
  | zero => exact nothing bytes address byte
  | succ count ih =>
    have rest := ih (bytes.set address byte) (address + 1)
    rw [show address + 1 + count = address + (count + 1) by omega] at rest
    exact (set bytes address byte).append rest (by omega) (by omega)

theorem pages (bytes : Bytes) (number : Nat) (byte : UInt8) (count : Nat) :
    bytes.Filled (number * pageSize) ((number + count) * pageSize) byte
      (bytes.fillPages number byte count) := by
  induction count generalizing bytes number with
  | zero => exact nothing bytes _ byte
  | succ count ih =>
    have rest := ih (bytes.changePage number fun _ => .uniform byte) (number + 1)
    rw [show number + 1 + count = number + (count + 1) by omega] at rest
    exact (page bytes number byte).append rest (Nat.mul_le_mul_right _ (by omega))
      (Nat.mul_le_mul_right _ (by omega))

end Filled

/-- The parts of a filled range follow one another. -/
theorem filled_fill (bytes : Bytes) (address count : Nat) (byte : UInt8) :
    bytes.Filled address (address + count) byte (bytes.fill address count byte) := by
  simp only [fill]
  generalize first_eq : min count ((pageSize - address % pageSize) % pageSize) = first
  generalize whole_eq : (count - first) / pageSize = whole
  have few : first ≤ count := by omega
  have split : first + whole * pageSize + (count - first) % pageSize = count := by
    simp only [pageSize] at whole_eq ⊢
    omega
  have head := Filled.each bytes address byte first
  have body := Filled.pages (bytes.fillEach address byte first) ((address + first) / pageSize) byte
    whole
  have tail := Filled.each
    ((bytes.fillEach address byte first).fillPages ((address + first) / pageSize) byte whole)
    (address + first + whole * pageSize) byte ((count - first) % pageSize)
  rw [show address + first + whole * pageSize + (count - first) % pageSize = address + count by
    omega] at tail
  refine (head.append ?_ (by omega) (Nat.le_add_right _ (whole * pageSize))).append tail (by omega)
    (by omega)
  by_cases none : whole = 0
  · subst none
    rw [Nat.zero_mul]
    exact .nothing ..
  · -- there is a whole page only behind a page boundary
    have boundary : (address + first) / pageSize * pageSize = address + first := by
      simp only [pageSize] at first_eq whole_eq ⊢
      omega
    rwa [Nat.add_mul, boundary] at body

@[simp] theorem size_fill (bytes : Bytes) (address count : Nat) (byte : UInt8) :
    (bytes.fill address count byte).size = bytes.size :=
  (bytes.filled_fill address count byte).size_eq

theorem getElem?_fill (bytes : Bytes) (address count i : Nat) (byte : UInt8) :
    (bytes.fill address count byte)[i]? =
      if address ≤ i ∧ i < address + count ∧ i < bytes.size then some byte else bytes[i]? :=
  (bytes.filled_fill address count byte).getElem?_eq i

/-! ## Reading -/

/-- The bytes of a range, as far as there are any. -/
def slice (bytes : Bytes) (address count : Nat) : List UInt8 :=
  (List.range' address (min count (bytes.size - address))).map bytes.byteAt

theorem length_slice (bytes : Bytes) (address count : Nat) :
    (bytes.slice address count).length = min count (bytes.size - address) := by
  rw [slice, List.length_map, List.length_range']

theorem getElem?_slice (bytes : Bytes) (address : Nat) (h : i < count) :
    (bytes.slice address count)[i]? = bytes[address + i]? := by
  rw [slice, List.getElem?_map]
  by_cases inside : address + i < bytes.size
  · rw [List.getElem?_range' (by omega), bytes.getElem?_of_lt inside, Nat.one_mul]
    rfl
  · rw [bytes.getElem?_of_le (Nat.not_lt.mp inside), List.getElem?_eq_none]
    · rfl
    · rw [List.length_range']
      omega

/-! ## Searching -/

/-- The first address with a byte, in `left` pages from a place in a page on. -/
def findFrom (bytes : Bytes) (byte : UInt8) : (left number place : Nat) → Option Nat
  | 0, _, _ => none
  | left + 1, number, place =>
    match (bytes.page number).find? byte place with
    | some found => some (number * pageSize + found)
    | none => bytes.findFrom byte left (number + 1) 0

/-- The first address from `start` on with a byte. -/
def find? (bytes : Bytes) (byte : UInt8) (start : Nat) : Option Nat :=
  let number := start / pageSize
  (bytes.findFrom byte (bytes.pages.size - number) number (start % pageSize)).filter
    (· < bytes.size)

theorem byteAt_place {number place : Nat} (inside : place < pageSize) :
    bytes.byteAt (number * pageSize + place) = (bytes.page number).byteAt (pagePlace place) := by
  have quotient : (number * pageSize + place) / pageSize = number := by
    simp only [pageSize] at inside ⊢
    omega
  have rest : pagePlace (number * pageSize + place) = pagePlace place := by
    simp only [pagePlace, Fin.mk.injEq, pageSize]
    omega
  rw [byteAt, quotient, rest]

/-- The search looks at one page after another. -/
theorem findFrom_eq_some_iff {left number place stop : Nat} (inside : place < pageSize) :
    bytes.findFrom byte left number place = some stop ↔
      number * pageSize + place ≤ stop ∧ stop < (number + left) * pageSize ∧
        bytes.byteAt stop = byte ∧
        ∀ i, number * pageSize + place ≤ i → i < stop → bytes.byteAt i ≠ byte := by
  induction left generalizing number place with
  | zero =>
    refine ⟨nofun, fun ⟨lower, upper, _⟩ => ?_⟩
    rw [Nat.add_zero] at upper
    omega
  | succ left ih =>
    have next : (number + (left + 1)) * pageSize = (number + 1 + left) * pageSize := by
      rw [Nat.add_right_comm, Nat.add_assoc]
    have turn : (number + 1) * pageSize = number * pageSize + pageSize := Nat.succ_mul ..
    have later : (number + 1) * pageSize ≤ (number + 1 + left) * pageSize :=
      Nat.mul_le_mul_right _ (Nat.le_add_right ..)
    -- the addresses of this page, by their places
    have here {i : Nat} (lower : number * pageSize ≤ i) (upper : i < (number + 1) * pageSize) :
        ∃ p, i = number * pageSize + p ∧ p < pageSize :=
      ⟨i - number * pageSize, by omega, by omega⟩
    rw [findFrom]
    cases found : (bytes.page number).find? byte place with
    | some first =>
      obtain ⟨lower, upper, holds, none⟩ := (Page.find?_eq_some_iff inside).mp found
      have least (i : Nat) (lower : number * pageSize + place ≤ i)
          (upper : i < number * pageSize + first) : bytes.byteAt i ≠ byte := by
        obtain ⟨p, rfl, small⟩ := here (i := i) (by omega) (by omega)
        rw [byteAt_place small]
        exact none p (by omega) (by omega)
      have holds : bytes.byteAt (number * pageSize + first) = byte := by rwa [byteAt_place upper]
      simp only [Option.some.injEq]
      constructor
      · rintro rfl
        exact ⟨by omega, by omega, holds, least⟩
      · rintro ⟨lower', -, holds', first'⟩
        rcases Nat.lt_trichotomy (number * pageSize + first) stop with before | same | behind
        · exact absurd holds (first' _ (by omega) before)
        · exact same
        · exact absurd holds' (least stop lower' behind)
    | none =>
      have missing (i : Nat) (lower : number * pageSize + place ≤ i)
          (upper : i < (number + 1) * pageSize) : bytes.byteAt i ≠ byte := by
        obtain ⟨p, rfl, small⟩ := here (i := i) (by omega) upper
        rw [byteAt_place small]
        exact Page.ne_of_find?_eq_none found (by omega) small
      simp only [ih pageSize_pos, Nat.add_zero, next]
      constructor
      · rintro ⟨lower, upper, holds, first⟩
        refine ⟨by omega, upper, holds, fun i lower' upper' => ?_⟩
        by_cases early : i < (number + 1) * pageSize
        · exact missing i lower' early
        · exact first i (Nat.not_lt.mp early) upper'
      · rintro ⟨lower, upper, holds, first⟩
        have late : (number + 1) * pageSize ≤ stop := by
          refine Nat.not_lt.mp fun early => ?_
          exact missing stop lower early holds
        exact ⟨late, upper, holds, fun i lower' upper' => first i (by omega) upper'⟩

/-- The search finds the first address from `start` on that holds the byte. -/
theorem find?_eq_some_iff {stop : Nat} :
    bytes.find? byte start = some stop ↔
      start ≤ stop ∧ bytes[stop]? = some byte ∧
        ∀ i, start ≤ i → i < stop → bytes[i]? ≠ some byte := by
  have place : start % pageSize < pageSize := Nat.mod_lt _ pageSize_pos
  have whole : start / pageSize * pageSize + start % pageSize = start := Nat.div_add_mod' ..
  have covered := bytes.covered
  rw [find?, Option.filter_eq_some_iff, findFrom_eq_some_iff place, whole]
  simp only [decide_eq_true_eq, ne_eq, getElem?_eq_some_iff, not_and]
  constructor
  · rintro ⟨⟨lower, -, holds, first⟩, inside⟩
    exact ⟨lower, ⟨inside, holds⟩, fun i lower' upper' _ => first i lower' upper'⟩
  · rintro ⟨lower, ⟨inside, holds⟩, first⟩
    refine ⟨⟨lower, ?_, holds, fun i lower' upper' => first i lower' upper' (by omega)⟩, inside⟩
    have enough : bytes.pages.size * pageSize ≤
        (start / pageSize + (bytes.pages.size - start / pageSize)) * pageSize :=
      Nat.mul_le_mul_right _ (by omega)
    omega

end Bytes

end FlatC
