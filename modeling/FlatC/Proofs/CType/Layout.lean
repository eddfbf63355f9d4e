import FlatC.CType.Struct
import FlatC.Proofs.Refine
import Mathlib.Algebra.GroupWithZero.Nat
import Mathlib.Algebra.Order.BigOperators.Group.List
import Mathlib.Algebra.Order.Group.Nat
import Mathlib.Data.Nat.Find
import Mathlib.Order.WellFounded

/-!
# Layouts of structs

A struct is defined by fields that have a size at that time, so its parts were complete before it
was.  From this it follows that no struct contains itself, whatever is declared and defined in
whatever order; that the size of a type can be computed through all its parts; and that it stays
what it is while other structs are defined.

* `StructStep` is a step in which structs come about, and `StructTable.after` the table it leaves;
* `StructTable.Part` says that a type is a part of another, and `StructTable.recomputed` is the size
  of a type taken from its parts alone;
* `StructTable.Packs` says that the fields of a layout lie one behind the other;
* `StructTable.Sound` is the invariant, `StructTable.Sound.after` the step that keeps it, and
  `StructTable.Sound.afterAll` the statement about every sequence of steps.
-/

namespace FlatC

/-- A step in which structs come about: a declaration, a definition, or both in one. -/
inductive StructStep where
  | declare (tag : String)
  | declareDefined (tag : String) (fields : List (String × CType))
  | define (ref : StructRef) (fields : List (String × CType))
deriving Repr

namespace StructTable

variable {table table' : StructTable} {ref other : StructRef} {layout : Layout} {type : CType}
  {fields : List (String × CType)} {size : Nat} {sizes : List Nat}

/-- The table that a step leaves; a step that fails leaves the table it found. -/
def after (table : StructTable) : StructStep → StructTable
  | .declare tag => (table.declare tag).1
  | .declareDefined tag fields =>
    match table.declareDefined tag fields with
    | .ok (table', _) => table'
    | .error _ => table
  | .define ref fields =>
    match table.define ref fields with
    | .ok table' => table'
    | .error _ => table

/-- The table that steps leave, one after another. -/
def afterAll (table : StructTable) (steps : List StructStep) : StructTable :=
  steps.foldl after table

/-! ## Parts -/

/-- The first type is a part of the second by value: its element, or the type of a field. -/
inductive Part (table : StructTable) : CType → CType → Prop where
  | element (element : CType) (dims : List Nat) : Part table element (.array element dims)
  | field {ref : StructRef} {layout : Layout} {field : Field}
      (found : table.layout? ref = some layout) (mem : field ∈ layout.fields) :
      Part table field.type (.struct ref)

/-- The sum of two sizes, which must fit the address space. -/
def addSize (ref : StructRef) (total size : Nat) : Except Fault Nat :=
  if total + size < wordRange then .ok (total + size)
  else .error (.type (.tooLarge (.struct ref)))

/-- The size of a type by the sizes of its parts. -/
def sizeByParts (table : StructTable) (type : CType)
    (sizeOf : (part : CType) → table.Part part type → Except Fault Nat) : Except Fault Nat :=
  match type with
  | .int | .float | .pointer _ => .ok 4
  | .char | .void => .ok 1
  | .function => .error (.type (.incompleteType .function))
  | .array element dims => do
    let size ← sizeOf element (.element element dims)
    dims.foldlM (repeated (.array element dims)) size
  | .struct ref =>
    match found : table.layout? ref with
    | none => .error (.type (.incompleteType (.struct ref)))
    | some layout =>
      layout.fields.attach.foldlM (fun total field => do
        let size ← sizeOf field.1.type (.field found field.2)
        addSize ref total size) 0

/-- The size of a type, computed anew from its parts and their parts, down to types without any. -/
noncomputable def recomputed (table : StructTable) (founded : WellFounded table.Part)
    (type : CType) : Except Fault Nat :=
  founded.fix table.sizeByParts type

/-- What is part of a struct depends on the place of its declaration alone. -/
theorem Part.of_index {part : CType} (h : table.Part part (.struct ref))
    (same : other.index = ref.index) : table.Part part (.struct other) := by
  cases h with
  | field found mem =>
    refine .field ?_ mem
    rwa [layout?, same]

/-- In a table whose parts are well founded no struct contains itself, however deep. -/
theorem index_ne_of_contains (founded : WellFounded table.Part)
    (contains : Relation.TransGen table.Part (.struct ref) (.struct other)) :
    ref.index ≠ other.index := by
  intro same
  have itself : Relation.TransGen table.Part (.struct ref) (.struct ref) := by
    cases contains with
    | single last => exact .single (last.of_index same)
    | tail inner last => exact .tail inner (last.of_index same)
  exact founded.transGen.asymmetric _ _ itself itself

/-! ## Packed layouts -/

/-- The layout packs fields of the given sizes: their names are distinct, each starts where those
before it end, and the last one ends with the struct, inside the address space. -/
structure Packs (table : StructTable) (layout : Layout) (sizes : List Nat) : Prop where
  names : (layout.fields.map (·.name)).Nodup
  sized : (layout.fields.map fun field => table.sizeOf field.type) = sizes.map .ok
  offsets : ∀ i field, layout.fields[i]? = some field → field.offset = (sizes.take i).sum
  total : layout.size = sizes.sum
  inSpace : layout.size < wordRange

/-- The byte of the struct belongs to the field at position `i`. -/
def Occupies (table : StructTable) (layout : Layout) (i byte : Nat) : Prop :=
  ∃ field size, layout.fields[i]? = some field ∧ table.sizeOf field.type = .ok size ∧
    field.offset ≤ byte ∧ byte < field.offset + size

namespace Packs

theorem length_eq (h : table.Packs layout sizes) : layout.fields.length = sizes.length := by
  simpa using congrArg List.length h.sized

/-- The field at a position has the size at that position. -/
theorem sizeOf_eq (h : table.Packs layout sizes) {i : Nat} {field : Field}
    (at_i : layout.fields[i]? = some field) :
    ∃ size, sizes[i]? = some size ∧ table.sizeOf field.type = .ok size := by
  have entry := congrArg (·[i]?) h.sized
  simp only [List.getElem?_map, at_i, Option.map_some] at entry
  cases found : sizes[i]? with
  | none =>
    rw [found] at entry
    cases entry
  | some size =>
    rw [found] at entry
    exact ⟨size, rfl, Option.some.inj entry⟩

theorem sizeOf_mem (h : table.Packs layout sizes) {field : Field} (mem : field ∈ layout.fields) :
    ∃ size, table.sizeOf field.type = .ok size := by
  obtain ⟨i, at_i⟩ := List.mem_iff_getElem?.mp mem
  obtain ⟨size, -, sized⟩ := h.sizeOf_eq at_i
  exact ⟨size, sized⟩

/-- A field occupies the bytes between two partial sums of the sizes. -/
theorem occupies_iff (h : table.Packs layout sizes) {i byte : Nat} :
    table.Occupies layout i byte ↔
      i < sizes.length ∧ (sizes.take i).sum ≤ byte ∧ byte < (sizes.take (i + 1)).sum := by
  constructor
  · rintro ⟨field, size, at_i, sized, lower, upper⟩
    obtain ⟨size', at_i', sized'⟩ := h.sizeOf_eq at_i
    obtain rfl : size = size' := Except.ok.inj (sized.symm.trans sized')
    obtain ⟨inside, entry⟩ := List.getElem?_eq_some_iff.mp at_i'
    rw [h.offsets i field at_i] at lower upper
    rw [List.sum_take_succ sizes i inside, entry]
    exact ⟨inside, lower, upper⟩
  · rintro ⟨inside, lower, upper⟩
    have at_i := List.getElem?_eq_getElem (h.length_eq.symm ▸ inside)
    obtain ⟨size, at_i', sized⟩ := h.sizeOf_eq at_i
    have entry : sizes[i] = size := by simpa [inside] using at_i'
    rw [List.sum_take_succ sizes i inside, entry] at upper
    refine ⟨_, size, at_i, sized, ?_, ?_⟩
    · rwa [h.offsets i _ at_i]
    · rwa [h.offsets i _ at_i]

/-- Fields occupy no byte outside the struct. -/
theorem lt_of_occupies (h : table.Packs layout sizes) {i byte : Nat}
    (occupied : table.Occupies layout i byte) : byte < layout.size := by
  obtain ⟨-, -, upper⟩ := h.occupies_iff.mp occupied
  have le : (sizes.take (i + 1)).sum ≤ (sizes.take sizes.length).sum :=
    if inside : i + 1 ≤ sizes.length then List.monotone_sum_take sizes inside
    else by rw [List.take_length, List.take_of_length_le (Nat.le_of_not_le inside)]
  rw [List.take_length, ← h.total] at le
  exact Nat.lt_of_lt_of_le upper le

/-- Two fields have no byte in common. -/
theorem eq_of_occupies (h : table.Packs layout sizes) {i j byte : Nat}
    (first : table.Occupies layout i byte) (second : table.Occupies layout j byte) : i = j := by
  obtain ⟨-, lower, upper⟩ := h.occupies_iff.mp first
  obtain ⟨-, lower', upper'⟩ := h.occupies_iff.mp second
  have grows := List.monotone_sum_take sizes
  rcases Nat.lt_trichotomy i j with before | same | behind
  · have : (sizes.take (i + 1)).sum ≤ (sizes.take j).sum := grows before
    omega
  · exact same
  · have : (sizes.take (j + 1)).sum ≤ (sizes.take i).sum := grows behind
    omega

/-- Every byte of the struct belongs to exactly one field. -/
theorem existsUnique_occupies (h : table.Packs layout sizes) {byte : Nat}
    (inside : byte < layout.size) : ∃! i, table.Occupies layout i byte := by
  rw [h.total] at inside
  have reached : ∃ i, byte < (sizes.take (i + 1)).sum :=
    ⟨sizes.length, by rwa [List.take_of_length_le (Nat.le_succ _)]⟩
  classical
  -- the first partial sum beyond the byte closes the field that it belongs to
  have least := Nat.find_spec reached
  have before := fun {i : Nat} (lt : i < Nat.find reached) => Nat.find_min reached lt
  generalize Nat.find reached = i at least before
  have lower : (sizes.take i).sum ≤ byte := by
    cases i with
    | zero => exact Nat.zero_le byte
    | succ i => exact Nat.le_of_not_lt (before (Nat.lt_succ_self i))
  have bounded : i < sizes.length := by
    by_contra beyond
    have all : sizes.take i = sizes := List.take_of_length_le (Nat.le_of_not_lt beyond)
    rw [all] at lower
    omega
  have occupied := h.occupies_iff.mpr ⟨bounded, lower, least⟩
  exact ⟨i, occupied, fun j other => h.eq_of_occupies other occupied⟩

end Packs

/-! ## Laying out -/

/-- A field that could be appended has a new name and a size, and starts where the layout ended. -/
theorem appendField_eq_ok {name : String} {layout' : Layout} :
    table.appendField ref layout (name, type) = .ok layout' ↔
      name ∉ layout.fields.map (·.name) ∧ ∃ size, table.sizeOf type = .ok size ∧
        layout.size + size < wordRange ∧
        layout' = ⟨layout.fields ++ [⟨name, type, layout.size⟩], layout.size + size⟩ := by
  have taken : (layout.fields.any fun f => f.name == name) = true ↔
      name ∈ layout.fields.map (·.name) := by simp
  constructor
  · intro appended
    unfold appendField at appended
    obtain ⟨new, appended⟩ := ok_of_guarded appended
    obtain ⟨size, sized, appended⟩ := bind_eq_ok.mp appended
    by_cases fits : layout.size + size < wordRange
    · rw [if_pos fits] at appended
      cases appended
      exact ⟨fun mem => new (taken.mpr mem), size, sized, fits, rfl⟩
    · rw [if_neg fits] at appended
      cases appended
  · rintro ⟨new, size, sized, fits, rfl⟩
    have untaken : ¬ (layout.fields.any fun f => f.name == name) = true := fun h => new (taken.mp h)
    simp only [appendField, if_neg untaken, sized, bind, Except.bind, if_pos fits, pure,
      Except.pure]

theorem Packs.append (h : table.Packs layout sizes) {name : String}
    (new : name ∉ layout.fields.map (·.name)) (sized : table.sizeOf type = .ok size)
    (fits : layout.size + size < wordRange) :
    table.Packs ⟨layout.fields ++ [⟨name, type, layout.size⟩], layout.size + size⟩
      (sizes ++ [size]) := by
  refine ⟨?_, ?_, fun i field at_i => ?_, ?_, fits⟩
  · rw [List.map_append, List.nodup_append]
    refine ⟨h.names, by simp, fun a old b last same => new ?_⟩
    obtain rfl : b = name := List.mem_singleton.mp last
    exact same ▸ old
  · simp [h.sized, sized]
  · rcases Nat.lt_trichotomy i layout.fields.length with before | last | behind
    · rw [List.getElem?_append_left before] at at_i
      rw [h.offsets i field at_i, List.take_append_of_le_length]
      exact h.length_eq ▸ before.le
    · subst last
      rw [List.getElem?_concat_length] at at_i
      cases at_i
      rw [h.length_eq, List.take_left]
      exact h.total
    · have none : (layout.fields ++ [⟨name, type, layout.size⟩])[i]? = none :=
        List.getElem?_eq_none (by simpa using Nat.succ_le_of_lt behind)
      rw [none] at at_i
      cases at_i
  · simp [h.total]

/-- Fields behind a packed layout keep it packed. -/
theorem Packs.appendFields (h : table.Packs layout sizes) {layout' : Layout}
    (laid : fields.foldlM (table.appendField ref) layout = .ok layout') :
    (∃ sizes', table.Packs layout' sizes') ∧
      layout'.fields.map (fun field => (field.name, field.type)) =
        layout.fields.map (fun field => (field.name, field.type)) ++ fields := by
  induction fields generalizing layout sizes with
  | nil =>
    cases laid
    exact ⟨⟨sizes, h⟩, (List.append_nil _).symm⟩
  | cons field rest ih =>
    obtain ⟨name, type⟩ := field
    rw [List.foldlM_cons] at laid
    obtain ⟨next, appended, laid⟩ := bind_eq_ok.mp laid
    obtain ⟨new, size, sized, fits, rfl⟩ := appendField_eq_ok.mp appended
    obtain ⟨packed, same⟩ := ih (h.append new sized fits) laid
    refine ⟨packed, ?_⟩
    rw [same]
    simp

/-- A layout that could be made packs the fields that it was made from. -/
theorem packs_of_layOut (laid : table.layOut ref fields = .ok layout) :
    (∃ sizes, table.Packs layout sizes) ∧
      layout.fields.map (fun field => (field.name, field.type)) = fields := by
  have start : table.Packs ⟨[], 0⟩ [] := ⟨List.nodup_nil, rfl, nofun, rfl, by decide⟩
  exact start.appendFields laid

/-- Fields with new names and with sizes for which there is room can be laid out behind a layout. -/
theorem exists_appendFields
    (names : (layout.fields.map (·.name) ++ fields.map Prod.fst).Nodup)
    (sized : (fields.map fun field => table.sizeOf field.2) = sizes.map .ok)
    (fits : layout.size + sizes.sum < wordRange) :
    ∃ layout', fields.foldlM (table.appendField ref) layout = .ok layout' := by
  induction fields generalizing layout sizes with
  | nil => exact ⟨layout, rfl⟩
  | cons field rest ih =>
    obtain ⟨name, type⟩ := field
    cases sizes with
    | nil => cases sized
    | cons size sizes =>
      obtain ⟨first, others⟩ := List.cons_eq_cons.mp sized
      rw [List.sum_cons] at fits
      have new : name ∉ layout.fields.map (·.name) := by
        intro old
        exact (List.nodup_append.mp names).2.2 name old name List.mem_cons_self rfl
      have appended : table.appendField ref layout (name, type) =
          .ok ⟨layout.fields ++ [⟨name, type, layout.size⟩], layout.size + size⟩ :=
        appendField_eq_ok.mpr ⟨new, size, first, by omega, rfl⟩
      rw [List.foldlM_cons, appended]
      refine ih ?_ others ?_
      · simpa using names
      · simp only
        omega

/-- Fields can be laid out if their names are distinct and they have sizes that add up to less than
the address space. -/
theorem exists_layOut_iff : (∃ layout, table.layOut ref fields = .ok layout) ↔
    (fields.map Prod.fst).Nodup ∧
      ∃ sizes : List Nat, (fields.map fun field => table.sizeOf field.2) = sizes.map .ok ∧
        sizes.sum < wordRange := by
  constructor
  · rintro ⟨layout, laid⟩
    obtain ⟨⟨sizes, packs⟩, rfl⟩ := packs_of_layOut laid
    refine ⟨?_, sizes, ?_, packs.total ▸ packs.inSpace⟩
    · rw [List.map_map]
      exact packs.names
    · rw [List.map_map]
      exact packs.sized
  · rintro ⟨names, sizes, sized, inSpace⟩
    refine exists_appendFields names sized ?_
    rwa [Nat.zero_add]

/-! ## Steps -/

/-- The second table knows all that is known of complete structs in the first. -/
def Extends (table table' : StructTable) : Prop :=
  ∀ ref layout, table.layout? ref = some layout → table'.layout? ref = some layout

theorem Extends.refl (table : StructTable) : table.Extends table :=
  fun _ _ found => found

/-- A type that has a size keeps it. -/
theorem Extends.sizeOf_eq (h : table.Extends table') (sized : table.sizeOf type = .ok size) :
    table'.sizeOf type = .ok size := by
  induction type generalizing size with
  | int | float | char | void | function | pointer _ => exact sized
  | array element dims ih =>
    obtain ⟨inner, found, folded⟩ := bind_eq_ok.mp sized
    exact bind_eq_ok.mpr ⟨inner, ih found, folded⟩
  | struct ref =>
    obtain ⟨layout, found, rest⟩ := bind_eq_ok.mp sized
    refine bind_eq_ok.mpr ⟨layout, ?_, rest⟩
    unfold StructTable.layout at found ⊢
    cases complete : table.layout? ref with
    | none =>
      rw [complete] at found
      cases found
    | some layout =>
      rw [complete] at found
      rwa [h ref layout complete]

theorem Packs.extend (h : table.Packs layout sizes) (extended : table.Extends table') :
    table'.Packs layout sizes := by
  refine { h with sized := ?_ }
  rw [← h.sized]
  refine List.map_congr_left fun field mem => ?_
  obtain ⟨size, sized⟩ := h.sizeOf_mem mem
  rw [sized, extended.sizeOf_eq sized]

/-- A declaration makes no struct complete. -/
theorem layout?_declare (table : StructTable) (tag : String) (ref : StructRef) :
    (table.declare tag).1.layout? ref = table.layout? ref := by
  simp only [declare, layout?]
  by_cases old : ref.index < table.decls.length
  · rw [List.getElem?_append_left old]
  · have new : table.decls.length ≤ ref.index := Nat.le_of_not_lt old
    rw [List.getElem?_append_right new, List.getElem?_eq_none new]
    cases ref.index - table.decls.length with
    | zero => rfl
    | succ _ => rfl

/-- The size of a complete struct is that of its layout. -/
theorem sizeOf_struct (found : table.layout? ref = some layout) :
    table.sizeOf (.struct ref) = .ok layout.size := by
  simp only [sizeOf, StructTable.layout, found]
  rfl

/-- A definition that succeeds is of a struct that was not complete, and gives it its fields. -/
theorem define_eq_ok :
    table.define ref fields = .ok table' ↔
      ∃ layout, table.layOut ref fields = .ok layout ∧ table.layout? ref = none ∧
        table' = ⟨table.decls.set ref.index ⟨ref.tag, some layout⟩⟩ := by
  constructor
  · intro defined
    obtain ⟨layout, laid, defined⟩ := bind_eq_ok.mp defined
    cases found : table.layout? ref with
    | some first =>
      rw [found] at defined
      cases defined
    | none =>
      rw [found] at defined
      cases defined
      exact ⟨layout, laid, rfl, rfl⟩
  · rintro ⟨layout, laid, incomplete, rfl⟩
    refine bind_eq_ok.mpr ⟨layout, laid, ?_⟩
    rw [incomplete]
    rfl

/-- A definition succeeds if the struct is not complete and the fields can be laid out. -/
theorem exists_define_iff : (∃ table', table.define ref fields = .ok table') ↔
    table.layout? ref = none ∧ (fields.map Prod.fst).Nodup ∧
      ∃ sizes : List Nat, (fields.map fun field => table.sizeOf field.2) = sizes.map .ok ∧
        sizes.sum < wordRange := by
  constructor
  · rintro ⟨table', defined⟩
    obtain ⟨layout, laid, incomplete, -⟩ := define_eq_ok.mp defined
    exact ⟨incomplete, exists_layOut_iff.mp ⟨layout, laid⟩⟩
  · rintro ⟨incomplete, fits⟩
    obtain ⟨layout, laid⟩ := exists_layOut_iff.mpr fits
    exact ⟨_, define_eq_ok.mpr ⟨layout, laid, incomplete, rfl⟩⟩

/-- After a definition the struct has the layout, if it is declared, and every other struct is as it
was. -/
theorem layout?_set (table : StructTable) (ref other : StructRef) (tag : String)
    (layout : Layout) :
    layout? ⟨table.decls.set ref.index ⟨tag, some layout⟩⟩ other =
      if other.index = ref.index ∧ ref.index < table.decls.length then some layout
      else table.layout? other := by
  simp only [layout?, List.getElem?_set]
  by_cases same : ref.index = other.index
  · by_cases declared : ref.index < table.decls.length
    · simp [same.symm, declared]
    · have undeclared : ¬ other.index < table.decls.length := same ▸ declared
      simp [same, undeclared]
  · simp [same, Ne.symm same]

/-- What a step that succeeds may do: make one struct complete that was not, by fields that all have
a size. -/
theorem define_cases (defined : table.define ref fields = .ok table') :
    table.Extends table' ∧ ∀ other layout, table'.layout? other = some layout →
      table.layout? other = some layout ∨ ∃ sizes, table.Packs layout sizes := by
  obtain ⟨layout, laid, incomplete, rfl⟩ := define_eq_ok.mp defined
  refine ⟨fun other first found => ?_, fun other found complete => ?_⟩
  · have apart : other.index ≠ ref.index := by
      intro same
      simp only [layout?, same] at found incomplete
      rw [incomplete] at found
      cases found
    rw [layout?_set, if_neg (fun h => apart h.1)]
    exact found
  · rw [layout?_set] at complete
    split at complete
    · cases complete
      exact .inr (packs_of_layOut laid).1
    · exact .inl complete

/-! ## The invariant -/

/-- No type contains itself, and every complete struct packs its fields. -/
structure Sound (table : StructTable) : Prop where
  founded : WellFounded table.Part
  packed : ∀ ref layout, table.layout? ref = some layout → ∃ sizes, table.Packs layout sizes

/-- Only structs can lead back to where one started: if the types of all fields have finite trees of
parts, so have all types. -/
theorem founded_of_fields (h : ∀ ref layout field, table.layout? ref = some layout →
    field ∈ layout.fields → Acc table.Part field.type) : WellFounded table.Part := by
  refine ⟨fun type => ?_⟩
  induction type with
  | int | float | char | void | function | pointer _ => exact ⟨_, nofun⟩
  | array element dims ih =>
    refine ⟨_, fun part inner => ?_⟩
    cases inner with
    | element => exact ih
  | struct ref =>
    refine ⟨_, fun part inner => ?_⟩
    cases inner with
    | field found mem => exact h ref _ _ found mem

/-- A type that had a size before a step has a finite tree of parts after it. -/
theorem Sound.acc_of_sizeOf (sound : table.Sound) (extended : table.Extends table')
    (sized : table.sizeOf type = .ok size) : Acc table'.Part type := by
  induction type using sound.founded.induction generalizing size with
  | _ type ih =>
    refine ⟨_, fun part inner => ?_⟩
    cases inner with
    | element =>
      obtain ⟨size, found, -⟩ := bind_eq_ok.mp sized
      exact ih _ (.element _ _) found
    | @field ref layout field found mem =>
      obtain ⟨first, complete, -⟩ := bind_eq_ok.mp sized
      have complete : table.layout? ref = some first := by
        unfold StructTable.layout at complete
        split at complete <;> cases complete
        assumption
      obtain rfl : first = layout :=
        Option.some.inj ((extended ref first complete).symm.trans found)
      obtain ⟨sizes, packs⟩ := sound.packed ref first complete
      obtain ⟨size, sized⟩ := packs.sizeOf_mem mem
      exact ih _ (.field complete mem) sized

/-- A step keeps the invariant if every struct that it makes complete is packed from types that had
a size before. -/
theorem Sound.extend (sound : table.Sound) (extended : table.Extends table')
    (added : ∀ ref layout, table'.layout? ref = some layout →
      table.layout? ref = some layout ∨ ∃ sizes, table.Packs layout sizes) : table'.Sound := by
  have packed (ref : StructRef) (layout : Layout) (found : table'.layout? ref = some layout) :
      ∃ sizes, table.Packs layout sizes := by
    rcases added ref layout found with old | new
    · exact sound.packed ref layout old
    · exact new
  refine ⟨founded_of_fields fun ref layout field found mem => ?_, fun ref layout found => ?_⟩
  · obtain ⟨sizes, packs⟩ := packed ref layout found
    obtain ⟨size, sized⟩ := packs.sizeOf_mem mem
    exact sound.acc_of_sizeOf extended sized
  · obtain ⟨sizes, packs⟩ := packed ref layout found
    exact ⟨sizes, packs.extend extended⟩

theorem sound_empty : empty.Sound := by
  have incomplete (ref : StructRef) : empty.layout? ref = none := rfl
  refine ⟨founded_of_fields fun ref layout field found _ => ?_, fun ref layout found => ?_⟩
  · cases (incomplete ref).symm.trans found
  · cases (incomplete ref).symm.trans found

/-- Every step extends the table, by structs that are packed. -/
theorem after_cases (table : StructTable) (step : StructStep) :
    table.Extends (table.after step) ∧ ∀ ref layout, (table.after step).layout? ref = some layout →
      table.layout? ref = some layout ∨ ∃ sizes, table.Packs layout sizes := by
  have unchanged : table.Extends table ∧ ∀ ref layout, table.layout? ref = some layout →
      table.layout? ref = some layout ∨ ∃ sizes, table.Packs layout sizes :=
    ⟨.refl table, fun _ _ found => .inl found⟩
  have same := table.layout?_declare
  cases step with
  | declare tag =>
    show table.Extends (table.declare tag).1 ∧ ∀ ref layout,
      (table.declare tag).1.layout? ref = some layout → _
    simpa only [Extends, same] using unchanged
  | define ref fields =>
    simp only [after]
    cases defined : table.define ref fields with
    | error fault => exact unchanged
    | ok table' => exact define_cases defined
  | declareDefined tag fields =>
    simp only [after]
    cases made : table.declareDefined tag fields with
    | error fault => exact unchanged
    | ok result =>
      obtain ⟨table', defined, made⟩ := bind_eq_ok.mp made
      cases made
      have defined : (table.declare tag).1.define (table.declare tag).2 fields = .ok table' :=
        defined
      obtain ⟨extended, added⟩ := define_cases defined
      have back : (table.declare tag).1.Extends table := fun ref layout found => by
        rwa [same] at found
      simp only [Extends, same] at extended added
      refine ⟨extended, fun ref layout found => ?_⟩
      rcases added ref layout found with old | ⟨sizes, packs⟩
      · exact .inl old
      · exact .inr ⟨sizes, packs.extend back⟩

theorem Sound.after (sound : table.Sound) (step : StructStep) : (table.after step).Sound := by
  obtain ⟨extended, added⟩ := table.after_cases step
  exact sound.extend extended added

theorem Sound.afterAll (sound : table.Sound) (steps : List StructStep) :
    (table.afterAll steps).Sound := by
  induction steps generalizing table with
  | nil => exact sound
  | cons step rest ih => exact ih (sound.after step)

theorem extends_afterAll (table : StructTable) (steps : List StructStep) :
    table.Extends (table.afterAll steps) := by
  induction steps generalizing table with
  | nil => exact .refl table
  | cons step rest ih =>
    intro ref layout found
    exact ih (table.after step) ref layout ((table.after_cases step).1 ref layout found)

/-! ## Sizes in the address space -/

theorem foldlM_repeated_lt {whole : CType} {dims : List Nat} {start : Nat}
    (below : start < wordRange) (folded : dims.foldlM (repeated whole) start = .ok size) :
    size < wordRange := by
  induction dims generalizing start with
  | nil =>
    cases folded
    exact below
  | cons dim rest ih =>
    rw [List.foldlM_cons] at folded
    obtain ⟨next, first, folded⟩ := bind_eq_ok.mp folded
    simp only [repeated] at first
    split at first
    next fits =>
      cases first
      exact ih fits.2 folded
    next => cases first

/-- A type that has a size fits the address space. -/
theorem Sound.sizeOf_lt (sound : table.Sound) (sized : table.sizeOf type = .ok size) :
    size < wordRange := by
  induction type generalizing size with
  | int | float | char | void | pointer _ =>
    cases sized
    decide
  | function => cases sized
  | array element dims ih =>
    obtain ⟨inner, found, folded⟩ := bind_eq_ok.mp sized
    exact foldlM_repeated_lt (ih found) folded
  | struct ref =>
    cases found : table.layout? ref with
    | none =>
      simp only [sizeOf, StructTable.layout, found] at sized
      cases sized
    | some layout =>
      obtain ⟨sizes, packs⟩ := sound.packed ref layout found
      cases (sizeOf_struct found).symm.trans sized
      exact packs.inSpace

theorem Sound.elementSize_lt (sound : table.Sound) (sized : table.elementSize type = .ok size) :
    size < wordRange := by
  unfold elementSize at sized
  split at sized
  · exact sound.sizeOf_lt sized
  · exact sound.sizeOf_lt sized

/-! ## Sizes through all parts -/

/-- Packed fields add up without leaving the address space. -/
theorem foldlM_addSize (ref : StructRef) {types : List CType} {start : Nat}
    (sized : types.map table.sizeOf = sizes.map .ok) (inSpace : start + sizes.sum < wordRange) :
    types.foldlM (fun total type => table.sizeOf type >>= addSize ref total) start =
      .ok (start + sizes.sum) := by
  induction types generalizing sizes start with
  | nil =>
    obtain rfl : sizes = [] := by simpa using sized.symm
    rfl
  | cons type rest ih =>
    cases sizes with
    | nil => cases sized
    | cons size sizes =>
      obtain ⟨first, others⟩ := List.cons_eq_cons.mp sized
      rw [List.sum_cons] at inSpace ⊢
      have fits : addSize ref start size = .ok (start + size) := if_pos (by omega)
      rw [List.foldlM_cons, first]
      show addSize ref start size >>= _ = _
      rw [fits, ← Nat.add_assoc]
      exact ih others (by omega)

/-- The sizes of the fields of a packed layout add up to its size. -/
theorem Packs.foldlM_addSize (h : table.Packs layout sizes) :
    layout.fields.attach.foldlM
        (fun total field => table.sizeOf field.1.type >>= addSize ref total) 0 =
      .ok layout.size := by
  let typeOf (field : { field // field ∈ layout.fields }) : CType := field.1.type
  have types : layout.fields.attach.map typeOf = layout.fields.map (·.type) := by
    simp [typeOf]
  have sized : (layout.fields.map (·.type)).map table.sizeOf = sizes.map .ok := by
    rw [List.map_map]
    exact h.sized
  have inSpace : 0 + sizes.sum < wordRange := by
    rw [Nat.zero_add, ← h.total]
    exact h.inSpace
  have folded := StructTable.foldlM_addSize ref sized inSpace
  rw [← types, List.foldlM_map, Nat.zero_add, ← h.total] at folded
  exact folded

/-- The size of a type is what the recursion through all its parts gives. -/
theorem Sound.recomputed_eq (sound : table.Sound) (type : CType) :
    table.recomputed sound.founded type = table.sizeOf type := by
  induction type using sound.founded.induction with
  | _ type ih =>
    unfold recomputed at ih ⊢
    rw [WellFounded.fix_eq]
    cases type with
    | int | float | char | void | function | pointer _ => rfl
    | array element dims =>
      simp only [sizeByParts, ih element (.element element dims), sizeOf]
    | struct ref =>
      simp only [sizeByParts]
      split
      next incomplete =>
        simp only [sizeOf, StructTable.layout, incomplete]
        rfl
      next layout found =>
        obtain ⟨sizes, packs⟩ := sound.packed ref layout found
        have inner (field : { field // field ∈ layout.fields }) :=
          ih field.1.type (.field found field.2)
        simp only [inner, packs.foldlM_addSize, sizeOf_struct found]

/-! ## All tables -/

/-- **Layouts of structs are well founded and stable.**  After any steps: no struct contains itself,
directly, in arrays or through others, so the recursion through parts ends for every type, with the
size of the type.  The size of a complete struct is the sum of the sizes of its fields, below the
end of the address space; its fields have distinct names, each starts behind those before it, and
every byte belongs to exactly one of them.  Nothing that is done later changes its layout or its
size.  A definition succeeds exactly if the struct is not complete yet, the names of the fields are
distinct, and the fields have sizes that add up to less than the address space.  One that fails
changes nothing, and every one of a struct that is complete fails; one that succeeds gives a
declared struct the fields that it names. -/
theorem struct_layouts_founded_and_stable (steps : List StructStep) :
    let table := empty.afterAll steps
    (∃ founded : WellFounded table.Part,
        ∀ type, table.recomputed founded type = table.sizeOf type) ∧
      (∀ ref other : StructRef, Relation.TransGen table.Part (.struct ref) (.struct other) →
        ref.index ≠ other.index) ∧
      (∀ ref layout, table.layout? ref = some layout →
        table.sizeOf (.struct ref) = .ok layout.size ∧
          (∃ sizes, table.Packs layout sizes) ∧
          (∀ byte, byte < layout.size → ∃! i, table.Occupies layout i byte) ∧
          (∀ i byte, table.Occupies layout i byte → byte < layout.size) ∧
          (∀ later, (table.afterAll later).layout? ref = some layout ∧
            (table.afterAll later).sizeOf (.struct ref) = .ok layout.size) ∧
          ∀ fields, ∃ fault, table.define ref fields = .error fault) ∧
      (∀ ref fields, (∃ table', table.define ref fields = .ok table') ↔
        table.layout? ref = none ∧ (fields.map Prod.fst).Nodup ∧
          ∃ sizes : List Nat, (fields.map fun field => table.sizeOf field.2) = sizes.map .ok ∧
            sizes.sum < wordRange) ∧
      (∀ ref fields fault, table.define ref fields = .error fault →
        table.after (.define ref fields) = table) ∧
      ∀ ref fields table', ref.index < table.decls.length →
        table.define ref fields = .ok table' → table.layout? ref = none ∧
          ∃ layout, table'.layout? ref = some layout ∧
            layout.fields.map (fun field => (field.name, field.type)) = fields := by
  intro table
  have sound : table.Sound := sound_empty.afterAll steps
  refine ⟨⟨sound.founded, sound.recomputed_eq⟩, fun ref other contains => ?_,
    fun ref layout found => ?_, fun _ _ => exists_define_iff, fun ref fields fault failed => ?_,
    fun ref fields table' declared defined => ?_⟩
  · exact index_ne_of_contains sound.founded contains
  · obtain ⟨sizes, packs⟩ := sound.packed ref layout found
    refine ⟨sizeOf_struct found, ⟨sizes, packs⟩, fun _ inside => packs.existsUnique_occupies inside,
      fun _ _ occupied => packs.lt_of_occupies occupied, fun later => ?_, fun fields => ?_⟩
    · have kept := table.extends_afterAll later ref layout found
      exact ⟨kept, sizeOf_struct kept⟩
    · cases defined : table.define ref fields with
      | error fault => exact ⟨fault, rfl⟩
      | ok table' =>
        obtain ⟨-, -, incomplete, -⟩ := define_eq_ok.mp defined
        cases incomplete.symm.trans found
  · simp only [after, failed]
  · obtain ⟨layout, laid, incomplete, rfl⟩ := define_eq_ok.mp defined
    refine ⟨incomplete, layout, ?_, (packs_of_layOut laid).2⟩
    rw [layout?_set, if_pos ⟨rfl, declared⟩]

/-- A list node that points to its like, a struct of such nodes, and what fails: a second definition
of the node, by that struct, and an array of the struct that is being defined. -/
def nodeSteps : List StructStep :=
  [.declare "Node",
    .define ⟨0, "Node"⟩
      [("value", .int), ("marks", .array .char [3]), ("next", .pointer (.struct ⟨0, "Node"⟩))],
    .declareDefined "Pair"
      [("left", .struct ⟨0, "Node"⟩), ("others", .array (.struct ⟨0, "Node"⟩) [2])],
    .define ⟨0, "Node"⟩ [("pair", .struct ⟨1, "Pair"⟩)],
    .declare "Loop",
    .define ⟨2, "Loop"⟩ [("self", .array (.struct ⟨2, "Loop"⟩) [1])]]

/-- The struct of nodes is three nodes long, whatever comes later, and no definition of the node
succeeds any more.  The last struct can still be defined, but not with itself inside. -/
theorem nodes_are_laid_out_once :
    let table := empty.afterAll nodeSteps
    (∀ later, (table.afterAll later).sizeOf (.struct ⟨1, "Pair"⟩) = .ok 33) ∧
      (∀ fields, ∃ fault, table.define ⟨0, "Node"⟩ fields = .error fault) ∧
      (∃ table', table.define ⟨2, "Loop"⟩ [("self", .pointer (.struct ⟨2, "Loop"⟩))] =
        .ok table') ∧
      ¬ ∃ table', table.define ⟨2, "Loop"⟩ [("self", .array (.struct ⟨2, "Loop"⟩) [1])] =
        .ok table' := by
  intro table
  obtain ⟨-, -, complete, definable, -⟩ := struct_layouts_founded_and_stable nodeSteps
  have incomplete : table.layout? ⟨2, "Loop"⟩ = none := by decide
  have size : (table.layout? ⟨1, "Pair"⟩).map (·.size) = some 33 := by decide
  have defined : (table.layout? ⟨0, "Node"⟩).isSome := by decide
  obtain ⟨pair, foundPair, rightSize⟩ := Option.map_eq_some_iff.mp size
  obtain ⟨node, foundNode⟩ := Option.isSome_iff_exists.mp defined
  refine ⟨fun later => ?_, ?_, ?_, fun again => ?_⟩
  · rw [← rightSize]
    exact ((complete _ pair foundPair).2.2.2.2.1 later).2
  · exact (complete _ node foundNode).2.2.2.2.2
  · exact (definable _ _).mpr ⟨incomplete, by decide, [4], rfl, by decide⟩
  · obtain ⟨-, -, sizes, sized, -⟩ := (definable _ _).mp again
    cases sizes with
    | nil => cases sized
    | cons size rest => cases (List.cons_eq_cons.mp sized).1

end StructTable

end FlatC
