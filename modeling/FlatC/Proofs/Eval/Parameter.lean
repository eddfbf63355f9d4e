import FlatC.Eval.Call
import FlatC.Proofs.Scope.FreshSlot
import FlatC.Proofs.Value.Cast
import FlatC.Proofs.Value.Increment

/-!
# Parameters

A call converts each argument to the type of its parameter, and converts it again when it is stored
in the slot of the parameter.  When the body of the function starts, all of them can be read back:
the slots lie one behind the other above the cursor of the caller, and a value that has the type of
its slot is stored as it is.

* `CType.cursorBehind` is how far the slots reach, and so how much room a call needs;
* `Machine.Passed` is what storing some arguments does; `Machine.Passed.cons` puts one in front, and
  `Machine.Reached.storeParams` says when all of them can be stored;
* `Bound` is how arguments are bound to parameters;
* `Machine.ParametersArrived` is what the body of a function finds, and
  `Machine.parameters_arrive_intact` says that it finds it.
-/

namespace FlatC

/-- What is comparable to numbers is no not-a-number. -/
theorem Binary64.WellFormed.of_rank {x : Binary64} (comparable : x.rank.isSome = true) :
    x.WellFormed := by
  rintro negative fraction rfl
  cases comparable

/-- An argument for a `float` is rounded, whatever type it has. -/
theorem Value.number_castTo_float (v : Value) (keepAddress : Bool) :
    (v.castTo .float keepAddress).number = v.number.toSingle := by
  show CType.float.fit (carried v.number v.type .float) = v.number.toSingle
  cases type : v.type with
  | int | float | char | void | function | pointer _ | array _ _ | struct _ => rfl

/-! ## Where the slots of parameters go -/

namespace CType

/-- Where the slot of a scalar goes: a `char` at the cursor, and anything else at the next word. -/
def slotStart (top : Nat) : CType → Nat
  | .char => top
  | _ => (top + (wordSize - 1)) / wordSize * wordSize

/-- The cursor behind the slots of scalars. -/
def cursorBehind (top : Nat) : List CType → Nat
  | [] => top
  | type :: types => cursorBehind (type.slotStart top + type.width) types

variable {type : CType} {top : Nat}

theorem le_slotStart (type : CType) (top : Nat) : top ≤ type.slotStart top := by
  cases type with
  | char => exact Nat.le_refl top
  | int | float | void | function | pointer _ | array _ _ | struct _ =>
    simp only [slotStart, wordSize]
    omega

/-- The next word is where the slot goes if its bytes would not fit the word of the cursor. -/
theorem slotStart_eq (type : CType) (top : Nat) :
    type.slotStart top =
      if wordSize < top % wordSize + type.width then (top + (wordSize - 1)) / wordSize * wordSize
      else top := by
  cases type with
  | char =>
    have fits : ¬ wordSize < top % wordSize + 1 := by
      simp only [wordSize]
      omega
    exact (if_neg fits).symm
  | int | float | void | function | pointer _ | array _ _ | struct _ =>
    by_cases crosses : wordSize < top % wordSize + 4
    · exact (if_pos crosses).symm
    · have aligned : (top + (wordSize - 1)) / wordSize * wordSize = top := by
        simp only [wordSize] at crosses ⊢
        omega
      exact aligned.trans (if_neg crosses).symm

theorem width_le (type : CType) : type.width ≤ wordSize := by
  cases type with
  | char => decide
  | int | float | void | function | pointer _ | array _ _ | struct _ => exact Nat.le_refl 4

theorem le_cursorBehind (top : Nat) (types : List CType) : top ≤ cursorBehind top types := by
  induction types generalizing top with
  | nil => exact Nat.le_refl top
  | cons type types ih =>
    have := type.le_slotStart top
    have := ih (type.slotStart top + type.width)
    rw [cursorBehind]
    omega

/-- Scalars take up a word, or a byte for a `char`. -/
theorem sizeOf_storable (table : StructTable) (storable : type.isStorable = true) :
    table.sizeOf type = .ok type.width ∧ table.elementSize type = .ok type.width := by
  cases type with
  | int | float | char | pointer _ => exact ⟨rfl, rfl⟩
  | void | function | array _ _ | struct _ => cases storable

theorem isIncomplete_of_storable (storable : type.isStorable = true) :
    Machine.isIncomplete type = false := by
  cases type with
  | int | float | char | pointer _ => rfl
  | void | function | array _ _ | struct _ => cases storable

theorem convertsTo_self (storable : type.isStorable = true) : type.convertsTo type = true := by
  cases type with
  | int | float | char => rfl
  | pointer target => simp [convertsTo, decay, convertsPlainly, isPointer]
  | void | function | array _ _ | struct _ => cases storable

/-- The type of a parameter decays, so it is stored if it is a scalar. -/
theorem isStorable_decay (scalar : type.decay.isScalar = true) : type.decay.isStorable = true := by
  rw [isStorable, scalar, isArray_decay]
  rfl

end CType

namespace Frame

variable {frame : Frame} {type : CType} {address : Nat}

/-- The slot of a scalar is at its place, if that is a number of 32 bits. -/
theorem slotAddress_width (type : CType) (inside : frame.scope.top < wordRange) :
    frame.slotAddress type.width = .ok address ↔
      address = type.slotStart frame.scope.top ∧ address < wordRange := by
  have sum : frame.scope.top % wordSize + type.width < wordRange := by
    have short := type.width_le
    simp only [wordSize, wordRange] at short ⊢
    omega
  rw [slotAddress_of_fits sum, type.slotStart_eq]
  by_cases crosses : wordSize < frame.scope.top % wordSize + type.width
  · rw [if_pos crosses, if_pos crosses, checkedWord_eq_ok]
    constructor
    · rintro ⟨small, rfl⟩
      exact ⟨rfl, small⟩
    · rintro ⟨rfl, small⟩
      exact ⟨small, rfl⟩
  · rw [if_neg crosses, if_neg crosses]
    constructor
    · rintro ⟨⟩
      exact ⟨rfl, inside⟩
    · rintro ⟨rfl, -⟩
      rfl

end Frame

/-- The parameter has a type whose values are stored, and its value was converted to this type. -/
structure BoundParam.Converted (param : BoundParam) : Prop where
  storable : param.type.isStorable = true
  fitted : ∃ x, param.value = .rvalue x param.type
  double : param.type = .float → param.value.number.WellFormed

namespace BoundParam.Converted

variable {param : BoundParam}

theorem type_eq (h : param.Converted) : param.value.type = param.type := by
  obtain ⟨x, fitted⟩ := h.fitted
  rw [fitted]
  rfl

theorem inRange (h : param.Converted) : param.value.InRange := by
  obtain ⟨x, fitted⟩ := h.fitted
  rw [fitted]
  exact Value.inRange_rvalue x param.type

/-- A converted value is stored as it is, wherever its bytes may be written. -/
theorem exists_store (h : param.Converted) (table : StructTable) {image : Image} {address : Nat}
    (nonzero : address ≠ 0) (writable : image.heapBottom ≤ address)
    (inside : address + param.type.width ≤ image.size) :
    ∃ data, Image.stored? param.value = some data ∧ data.length = param.type.width ∧
      param.value.storeAs address param.type image = .ok () (image.put address data) := by
  obtain ⟨x, fitted⟩ := h.fitted
  have same : param.value.implicit param.type = .ok param.value := by
    rw [fitted]
    exact Value.implicit_self (CType.convertsTo_self h.storable) x
  obtain ⟨data, bytes, sized⟩ := Image.sizeOf_stored (v := param.value) table
    (by rw [h.type_eq]; exact h.storable)
  rw [h.type_eq, (param.type.sizeOf_storable table h.storable).1] at sized
  have length : data.length = param.type.width := (Except.ok.inj sized).symm
  refine ⟨data, bytes, length, ?_⟩
  have writes : image.checkWritable address data.length = .ok () := by
    rw [Image.checkWritable_iff, length]
    exact ⟨nonzero, writable, inside⟩
  rcases image.store_cases address bytes with ⟨-, done⟩ | ⟨refused, -⟩
  · simp only [Value.storeAs, same]
    exact done
  · exact absurd writes refused

end BoundParam.Converted

namespace Machine

variable {env : Env} {image : Image} {regions : Regions} {slots : List Slot}
  {machine machine' machine'' : Machine} {table : StructTable} {param : BoundParam}
  {params : List BoundParam}

/-- The slot of a scalar with a new name can be planned if there is room for it. -/
theorem planVariable_storable {name : String} {type : CType}
    {address size : Nat} (storable : type.isStorable = true)
    (new : machine.frame.local? name = none) (inside : machine.frame.scope.top < wordRange)
    (space : machine.image.size < wordRange) :
    machine.planVariable table name type = .ok (address, size) ↔
      (address = type.slotStart machine.frame.scope.top ∧ size = type.width) ∧
        address + size ≤ machine.image.size := by
  obtain ⟨sized, elements⟩ := type.sizeOf_storable table storable
  rw [planVariable_eq_ok, placeSlot_eq_ok, sized, elements]
  constructor
  · rintro ⟨-, -, bytes, ⟨elementSize, one, placed⟩, fits⟩
    cases bytes
    cases one
    rw [Frame.slotAddress_width type inside] at placed
    exact ⟨⟨placed.1, rfl⟩, fits⟩
  · rintro ⟨⟨start, rfl⟩, fits⟩
    have small : address < wordRange := by omega
    refine ⟨Bindings.find?_eq_none.mp new, CType.isIncomplete_of_storable storable, rfl,
      ⟨_, rfl, ?_⟩, fits⟩
    rw [Frame.slotAddress_width type inside]
    exact ⟨start, small⟩

/-! ## Storing the arguments -/

/-- The arguments have arrived in slots of their own above the old cursor.  What was below it and
what other names stand for is as it was. -/
structure Passed (table : StructTable) (params : List BoundParam) (machine machine' : Machine) :
    Prop where
  arrived : ∀ param ∈ params, ∃ address w,
    machine'.frame.find? param.name = some ⟨param.type, .slot address⟩ ∧
      machine'.image.read table address param.type = .ok w ∧ param.value.Recovers address w ∧
      address + param.type.width ≤ machine'.frame.scope.top
  above : machine.frame.scope.top ≤ machine'.frame.scope.top
  below : ∀ i, i < machine.frame.scope.top → machine'.image.bytes[i]? = machine.image.bytes[i]?
  others : ∀ name, (∀ param ∈ params, name ≠ param.name) →
    machine'.frame.find? name = machine.frame.find? name
  image : machine.image.OnlyBytes machine'.image

theorem Passed.nil (table : StructTable) (machine : Machine) : Passed table [] machine machine where
  arrived _ mem := nomatch mem
  above := Nat.le_refl _
  below _ _ := rfl
  others _ _ := rfl
  image := .refl _

/-- What lies below the old cursor is read as before. -/
theorem Passed.read_eq (h : Passed table params machine machine') {type : CType}
    {address size : Nat} (sized : table.sizeOf type = .ok size)
    (low : address + size ≤ machine.frame.scope.top) :
    machine'.image.read table address type = machine.image.read table address type := by
  apply Image.read_congr sized h.image.size
  intro i _ upper
  exact h.below i (Nat.lt_of_lt_of_le upper low)

/-- The argument that is passed first is not disturbed by the others. -/
theorem Passed.cons (first : Passed table [param] machine machine')
    (rest : Passed table params machine' machine'') (storable : param.type.isStorable = true)
    (different : ∀ other ∈ params, param.name ≠ other.name) :
    Passed table (param :: params) machine machine'' where
  arrived other mem := by
    rcases List.mem_cons.mp mem with rfl | later
    · obtain ⟨address, w, found, reading, recovers, low⟩ := first.arrived other List.mem_cons_self
      have sized := (other.type.sizeOf_storable table storable).1
      refine ⟨address, w, ?_, ?_, recovers, Nat.le_trans low rest.above⟩
      · rw [rest.others other.name different, found]
      · rw [rest.read_eq sized low, reading]
    · exact rest.arrived other later
  above := Nat.le_trans first.above rest.above
  below i low := by rw [rest.below i (Nat.lt_of_lt_of_le low first.above), first.below i low]
  others name different := by
    obtain ⟨here, later⟩ := List.forall_mem_cons.mp different
    rw [rest.others name later, first.others name (by simpa using here)]
  image := first.image.trans rest.image

/-- An argument that is stored in a fresh slot has arrived there. -/
theorem Fresh.passed {slot w : Value} {address elementSize : Nat} {data : List UInt8}
    (fresh : Fresh table param.name param.type machine machine' slot address param.type.width
      elementSize)
    (reading : (machine'.image.put address data).read table address param.type = .ok w)
    (recovers : param.value.Recovers address w) :
    Passed table [param] machine { machine' with image := machine'.image.put address data } where
  arrived other mem := by
    obtain rfl := List.mem_singleton.mp mem
    exact ⟨address, w, fresh.resolves, reading, recovers, Nat.le_of_eq fresh.cursor.1.symm⟩
  above := by
    have stop := fresh.cursor.1
    have start := fresh.next.1
    show machine.frame.scope.top ≤ machine'.frame.scope.top
    omega
  below i low := by
    have before : i < address := Nat.lt_of_lt_of_le low fresh.next.1
    have kept : (machine'.image.put address data).bytes[i]? = machine'.image.bytes[i]? :=
      (machine'.image.sameBytes_put (.inl before)).getElem?_eq
    exact kept.trans (fresh.outside i (.inl before))
  others name different := fresh.others name (different param List.mem_cons_self)
  image := fresh.image.trans (Image.onlyBytes_put ..)

/-- Passing one argument: its slot is claimed, and its value stored there. -/
theorem Reached.pass (env : Env) (created : Image.create regions = .ok image)
    (reached : Reached env.structs image.shape slots machine) (converted : param.Converted)
    (new : machine.frame.local? param.name = none)
    (room : param.type.slotStart machine.frame.scope.top + param.type.width ≤ machine.image.size) :
    ∃ next slots', (∀ rest, (FlatC.storeParams env (param :: rest) : Exec Unit) machine =
        (FlatC.storeParams env rest : Exec Unit) next) ∧
      Reached env.structs image.shape slots' next ∧
      next.frame.scope.top = param.type.slotStart machine.frame.scope.top + param.type.width ∧
      Passed env.structs [param] machine next ∧
      ∀ name, name ≠ param.name → next.frame.local? name = machine.frame.local? name := by
  obtain ⟨positive, writable, inside, total, space⟩ := reached.stack_bounds created
  have start := param.type.le_slotStart machine.frame.scope.top
  generalize place : param.type.slotStart machine.frame.scope.top = address at room start ⊢
  have plan : machine.planVariable env.structs param.name param.type =
      .ok (address, param.type.width) := by
    rw [planVariable_storable converted.storable new (by omega) (by omega)]
    exact ⟨⟨place.symm, rfl⟩, room⟩
  obtain ⟨slot, declared, elementSize, run, fresh⟩ := reached.declareVariable_of_plan created plan
  -- The value has the type of the slot, so it is stored as it is.
  obtain ⟨data, bytes, length, stored⟩ := converted.exists_store env.structs (by omega)
    (Nat.le_trans (Nat.le_of_eq fresh.image.heapBottom) (Nat.le_trans writable start))
    (Nat.le_trans room (Nat.le_of_eq fresh.image.size.symm))
  have fits : address + data.length ≤ declared.image.size := by
    rw [length, fresh.image.size]
    exact room
  obtain ⟨w, reading, recovers⟩ := Image.recovers_stored env.structs bytes converted.inRange
    (by rw [converted.type_eq]; exact converted.double) (by omega) fits
  rw [converted.type_eq] at reading
  refine ⟨{ declared with image := declared.image.put address data }, _, ?_,
    (reached.declared plan run).other (Image.shape_put ..) rfl rfl, fresh.cursor.1,
    fresh.passed reading recovers, fun name different => fresh.local?_other different⟩
  intro rest
  refine (Step.bind_of_ok run).trans ?_
  simp only [fresh.lvalue.2]
  exact Step.bind_of_ok (Exec.onImage_of_ok stored)

/-- Without room for its slot, no argument is passed. -/
theorem Reached.pass_refused (env : Env) (created : Image.create regions = .ok image)
    (reached : Reached env.structs image.shape slots machine) (converted : param.Converted)
    (new : machine.frame.local? param.name = none)
    (full : ¬ param.type.slotStart machine.frame.scope.top + param.type.width ≤ machine.image.size)
    (rest : List BoundParam) :
    ∃ fault,
      (FlatC.storeParams env (param :: rest) : Exec Unit) machine = .error fault machine := by
  obtain ⟨-, -, inside, total, space⟩ := reached.stack_bounds created
  cases plan : machine.planVariable env.structs param.name param.type with
  | error fault => exact ⟨fault, Step.bind_of_error (declareVariable_of_unplanned plan)⟩
  | ok slot =>
    obtain ⟨address, size⟩ := slot
    rw [planVariable_storable converted.storable new (by omega) (by omega)] at plan
    obtain ⟨⟨rfl, rfl⟩, fits⟩ := plan
    exact absurd fits full

/-- The arguments of a call can be passed if and only if there is room for them, and then all of
them have arrived. -/
theorem Reached.storeParams (env : Env) (created : Image.create regions = .ok image)
    (reached : Reached env.structs image.shape slots machine)
    (converted : ∀ param ∈ params, param.Converted) (distinct : (params.map (·.name)).Nodup)
    (new : ∀ param ∈ params, machine.frame.local? param.name = none) :
    ((∃ inside, (FlatC.storeParams env params : Exec Unit) machine = .ok () inside) ↔
      CType.cursorBehind machine.frame.scope.top (params.map (·.type)) ≤ machine.image.size) ∧
    ∀ inside, (FlatC.storeParams env params : Exec Unit) machine = .ok () inside →
      Passed env.structs params machine inside := by
  induction params generalizing machine slots with
  | nil =>
    obtain ⟨-, -, inside, -, -⟩ := reached.stack_bounds created
    refine ⟨iff_of_true ⟨machine, rfl⟩ inside, ?_⟩
    rintro _ ⟨⟩
    exact .nil env.structs machine
  | cons param rest ih =>
    obtain ⟨ready, others⟩ := List.forall_mem_cons.mp converted
    obtain ⟨unbound, later⟩ := List.forall_mem_cons.mp new
    obtain ⟨unlike, distinct⟩ := List.nodup_cons.mp distinct
    have different : ∀ other ∈ rest, param.name ≠ other.name := by
      intro other mem same
      exact unlike (List.mem_map.mpr ⟨other, mem, same.symm⟩)
    rw [List.map_cons, CType.cursorBehind]
    by_cases room : param.type.slotStart machine.frame.scope.top + param.type.width ≤
        machine.image.size
    · obtain ⟨next, slots', continues, reached', top, passed, locals⟩ :=
        reached.pass env created ready unbound room
      have new' : ∀ other ∈ rest, next.frame.local? other.name = none := by
        intro other mem
        rw [locals other.name (different other mem).symm]
        exact later other mem
      obtain ⟨succeeds, arrive⟩ := ih reached' others distinct new'
      rw [top, passed.image.size] at succeeds
      rw [continues rest]
      exact ⟨succeeds, fun inside run => passed.cons (arrive inside run) ready.storable different⟩
    · obtain ⟨fault, failed⟩ := reached.pass_refused env created ready unbound room rest
      rw [failed]
      refine ⟨iff_of_false ?_ ?_, ?_⟩
      · rintro ⟨_, ⟨⟩⟩
      · intro fits
        exact room (Nat.le_trans (CType.le_cursorBehind ..) fits)
      · rintro _ ⟨⟩

end Machine

/-! ## Arguments -/

/-- The argument, converted to the decayed type of the parameter. -/
structure BoundParam.Binds (param : Param) (argument : Value) (bound : BoundParam) : Prop where
  name : bound.name = param.name
  type : bound.type = param.type.decay
  converts : argument.implicit param.type.decay = .ok bound.value

/-- A bound argument is ready to be stored. -/
theorem BoundParam.Binds.converted {param : Param} {argument : Value} {bound : BoundParam}
    (h : Binds param argument bound) (scalar : param.type.decay.isScalar = true)
    (double : argument.number.WellFormed) : bound.Converted := by
  have cast := Value.eq_castTo_of_implicit h.converts
  refine ⟨?_, ?_, ?_⟩
  · rw [h.type]
    exact CType.isStorable_decay scalar
  · rw [h.type, cast]
    exact ⟨_, rfl⟩
  · intro float
    rw [h.type] at float
    rw [cast, float, Value.number_castTo_float]
    exact double.toSingle

/-- The arguments are bound to the parameters in their order, one to each. -/
inductive Bound : List Param → List Value → List BoundParam → Prop where
  | nil : Bound [] [] []
  | cons {param : Param} {argument : Value} {first : BoundParam} {params : List Param}
      {arguments : List Value} {rest : List BoundParam} : first.Binds param argument →
      Bound params arguments rest →
      Bound (param :: params) (argument :: arguments) (first :: rest)

namespace Bound

variable {params : List Param} {arguments values : List Value} {bound : List BoundParam}

theorem names (h : Bound params arguments bound) :
    bound.map (·.name) = params.map (·.name) := by
  induction h with
  | nil => rfl
  | cons first _ ih => rw [List.map_cons, List.map_cons, first.name, ih]

theorem types (h : Bound params arguments bound) :
    bound.map (·.type) = params.map (·.type.decay) := by
  induction h with
  | nil => rfl
  | cons first _ ih => rw [List.map_cons, List.map_cons, first.type, ih]

/-- What the argument at a place is bound to. -/
theorem getElem? (h : Bound params arguments bound) {i : Nat} {param : Param} {argument : Value}
    (there : params[i]? = some param) (given : arguments[i]? = some argument) :
    ∃ b ∈ bound, b.Binds param argument := by
  induction h generalizing i with
  | nil => cases there
  | cons first _ ih =>
    cases i with
    | zero =>
      cases there
      cases given
      exact ⟨_, List.mem_cons_self, first⟩
    | succ i =>
      obtain ⟨b, mem, binds⟩ := ih there given
      exact ⟨b, List.mem_cons_of_mem _ mem, binds⟩

/-- All of them are ready to be stored. -/
theorem converted (h : Bound params arguments bound)
    (scalar : ∀ param ∈ params, param.type.decay.isScalar = true)
    (double : ∀ argument ∈ arguments, argument.number.WellFormed) :
    ∀ b ∈ bound, b.Converted := by
  induction h with
  | nil => exact fun _ mem => nomatch mem
  | cons first _ ih =>
    obtain ⟨scalar, scalars⟩ := List.forall_mem_cons.mp scalar
    obtain ⟨double, doubles⟩ := List.forall_mem_cons.mp double
    exact List.forall_mem_cons.mpr ⟨first.converted scalar double, ih scalars doubles⟩

/-- Arguments that can be converted are bound. -/
theorem of_convertAll {function : String} {index : Nat}
    (counted : arguments.length = params.length)
    (h : convertAll function index (params.map fun param => param.type.decay) arguments =
      .ok values) :
    Bound params arguments ((params.zip ((params.map fun param => param.type.decay).zip values)).map
      fun (param, type, value) => ⟨param.name, type, value⟩) := by
  induction params generalizing index arguments values with
  | nil =>
    rw [List.length_eq_zero_iff.mp counted]
    exact .nil
  | cons param rest ih =>
    cases arguments with
    | nil => cases counted
    | cons argument others =>
      obtain ⟨value, values, converts, later, rfl⟩ := convertAll_cons h
      exact .cons ⟨rfl, rfl, converts⟩ (ih (Nat.succ.inj counted) later)

end Bound

/-- The checks of a call bind its arguments to the parameters of the function. -/
theorem FunctionDef.bound_of_bindArguments {function : FunctionDef} {arguments : List Value}
    {bound : List BoundParam} (h : function.bindArguments arguments = .ok bound) :
    Bound function.params arguments bound := by
  rw [bindArguments] at h
  by_cases counted : arguments.length = function.params.length
  · rw [if_neg (not_not_intro counted)] at h
    obtain ⟨values, converted, h⟩ := bind_eq_ok.mp h
    cases h
    exact .of_convertAll counted converted
  · rw [if_pos counted] at h
    cases h

/-! ## Calls -/

/-- How a call goes on once its body has ended: its frame is closed however it ended, and the line
of the caller is restored unless there was a fault. -/
def FunctionDef.afterBody (function : FunctionDef) (line : Nat) :
    EStateM.Result Fault Machine Flow → EStateM.Result Fault Machine Value
  | .ok flow machine =>
    Exec.of (function.result flow)
      ((machine.close.onConsole Console.exitCall).onConsole (·.setLine line))
  | .error fault machine => .error fault (machine.close.onConsole Console.exitCall)

namespace Machine

variable {env : Env} {image : Image} {regions : Regions} {slots : List Slot}
  {machine inside : Machine} {function : FunctionDef} {arguments : List Value}
  {body : List Stmt} {bound : List BoundParam}

/-- The machine in the empty frame of a call. -/
def called (machine : Machine) : Machine :=
  (machine.onConsole Console.deepen).enter Frame.activation

theorem Reached.called {table : StructTable} {shape : Shape}
    (reached : Reached table shape slots machine) : Reached table shape slots machine.called := by
  have counted : Reached table shape slots (machine.onConsole Console.deepen) :=
    reached.other rfl rfl rfl
  exact counted.activation

/-- Names are found in the program scope. -/
theorem find?_called (machine : Machine) (name : String) :
    machine.called.frame.find? name =
      machine.frame.programScopes.findSome? fun scope => scope.bindings.find? name := rfl

section Activation

variable {α : Type} {x : Exec α} {last : Machine}

/-- The frame of a call is closed when the call returns. -/
theorem asCall_of_ok {a : α} (h : x machine.called = .ok a last) :
    Runner.asCall x machine = .ok a (last.close.onConsole Console.exitCall) := by
  unfold called at h
  simp only [Runner.asCall, Runner.inFrame, Runner.part, Runner.between, h]

/-- It is also closed when the call fails. -/
theorem asCall_of_error {fault : Fault} (h : x machine.called = .error fault last) :
    Runner.asCall x machine = .error fault (last.close.onConsole Console.exitCall) := by
  unfold called at h
  simp only [Runner.asCall, Runner.inFrame, Runner.part, Runner.between, h]

end Activation

/-- The body of a called function runs where its arguments are stored. -/
theorem callWithin_of_stored (defined : function.definedBody = .ok body)
    (checked : function.bindArguments arguments = .ok bound)
    (stored : (FlatC.storeParams env bound : Exec Unit) machine.called = .ok () inside)
    (left : Nat) :
    (callWithin env (left + 1) function arguments : Exec Value) machine =
      function.afterBody machine.console.line
        ((Stmt.execAllWith env (callWithin env left) body : Exec Flow) inside) := by
  have found : Exec.of function.definedBody machine = .ok body machine := by
    simp only [Exec.of, defined]
  have converted : Exec.of (function.bindArguments arguments) machine = .ok bound machine := by
    simp only [Exec.of, checked]
  have line : Exec.ask (fun machine => .ok machine.console.line) machine =
      .ok machine.console.line machine := rfl
  have running : (FlatC.storeParams env bound >>= fun _ =>
      Stmt.execAllWith env (callWithin env left) body : Exec Flow) machine.called =
        (Stmt.execAllWith env (callWithin env left) body : Exec Flow) inside :=
    Step.bind_of_ok stored
  unfold callWithin
  refine (Step.bind_of_ok found).trans ?_
  refine (Step.bind_of_ok converted).trans ?_
  refine (Step.bind_of_ok line).trans ?_
  cases ended : (Stmt.execAllWith env (callWithin env left) body : Exec Flow) inside with
  | ok flow last => exact Step.bind_of_ok (asCall_of_ok (running.trans ended))
  | error fault last => exact Step.bind_of_error (asCall_of_error (running.trans ended))

/-- What the body of a called function finds.  Each parameter stands for an lvalue of the decayed
type, with the number of the converted argument.  Below the cursor of the caller, memory is as it
was.  And all other names stand for what they stand for in the program scope. -/
structure ParametersArrived (table : StructTable) (function : FunctionDef)
    (arguments : List Value) (machine inside : Machine) : Prop where
  values : ∀ (i : Nat) param argument, function.params[i]? = some param →
    arguments[i]? = some argument → ∃ v w address,
      argument.implicit param.type.decay = .ok v ∧ inside.valueOf table param.name = .ok w ∧
        w.type = param.type.decay ∧ v.Recovers address w
  below : ∀ i, i < machine.frame.scope.top → inside.image.bytes[i]? = machine.image.bytes[i]?
  others : ∀ name, name ∉ function.params.map (·.name) →
    inside.frame.find? name =
        machine.frame.programScopes.findSome? (fun scope => scope.bindings.find? name) ∧
      inside.resolve table name = machine.called.resolve table name

/-- What is found once all bound arguments have arrived. -/
theorem Reached.parametersArrived {table : StructTable} {shape : Shape}
    (reached : Reached table shape slots machine) (binds : Bound function.params arguments bound)
    (passed : Passed table bound machine.called inside) :
    ParametersArrived table function arguments machine inside where
  values i param argument there given := by
    obtain ⟨b, mem, same⟩ := binds.getElem? there given
    obtain ⟨address, w, found, reading, recovers, -⟩ := passed.arrived b mem
    rw [same.name] at found
    rw [same.type] at reading
    refine ⟨b.value, w, address, same.converts, ?_, Image.type_read reading, recovers⟩
    rw [same.type] at found
    exact valueOf_of_find? found reading
  below i low := passed.below i low
  others name other := by
    have different : ∀ b ∈ bound, name ≠ b.name := by
      rintro b mem rfl
      apply other
      rw [← binds.names]
      exact List.mem_map_of_mem mem
    have found := passed.others name different
    refine ⟨found.trans (find?_called machine name), resolve_congr found ?_⟩
    intro type address slot
    have stacked := reached.called.wellStacked
    have mem := mem_vars_of_find? stacked slot
    exact passed.read_eq (sizeOf_of_mem_vars stacked mem) (stop_le_top stacked mem)

/-- **Parameters arrive intact.**  In every state that frames and declarations lead to, whatever the
memory holds, for every function whose parameters have different names and scalar types, and all
arguments that pass the checks of the call and are numbers of the double format: they can be stored
if and only if there is room for their slots.  Once they are stored, the body finds each of them as
it was converted, and the call ends as its body does. -/
theorem parameters_arrive_intact (created : Image.create regions = .ok image)
    (reached : Reached env.structs image.shape slots machine)
    (defined : function.definedBody = .ok body)
    (checked : function.bindArguments arguments = .ok bound)
    (distinct : (function.params.map (·.name)).Nodup)
    (scalar : ∀ param ∈ function.params, param.type.decay.isScalar = true)
    (double : ∀ argument ∈ arguments, argument.number.WellFormed) :
    ((∃ inside, (FlatC.storeParams env bound : Exec Unit) machine.called = .ok () inside) ↔
      CType.cursorBehind machine.frame.scope.top (function.params.map (·.type.decay)) ≤
        machine.image.size) ∧
    ∀ inside, (FlatC.storeParams env bound : Exec Unit) machine.called = .ok () inside →
      ParametersArrived env.structs function arguments machine inside ∧
        ∀ left, (callWithin env (left + 1) function arguments : Exec Value) machine =
          function.afterBody machine.console.line
            ((Stmt.execAllWith env (callWithin env left) body : Exec Flow) inside) := by
  have binds := FunctionDef.bound_of_bindArguments checked
  have different : (bound.map (·.name)).Nodup := by
    rw [binds.names]
    exact distinct
  obtain ⟨succeeds, passes⟩ := reached.called.storeParams env created
    (binds.converted scalar double) different fun _ _ => rfl
  rw [binds.types] at succeeds
  refine ⟨succeeds, ?_⟩
  intro inside stored
  exact ⟨reached.parametersArrived binds (passes inside stored),
    callWithin_of_stored defined checked stored⟩

/-- A function with parameters of several types, one of them declared as an array. -/
def mixedFunction : FunctionDef :=
  ⟨"mixed", .void, [⟨"d", .char⟩, ⟨"n", .int⟩, ⟨"x", .float⟩, ⟨"p", .array .int [2]⟩], some [], 1⟩

/-- An `int` that is no `char`, a `char`, an `int` that is no `float`, and a pointer. -/
def mixedArguments : List Value :=
  [.ofInt 321, .rvalue (.ofInt (-1)) .char, .ofInt 16777217, .pointerTo 24 (.pointer .int)]

/-- They all arrive behind a `char` that lies at the cursor of the caller, which keeps its value. -/
theorem mixed_parameters_arrive :
    let env : Env := ⟨.empty, {}⟩
    let machine := behindChar .empty
    Image.create eightWords = .ok (.blank eightWords) ∧
      (∃ slots, Reached env.structs (Image.blank eightWords).shape slots machine) ∧
      mixedFunction.definedBody = .ok [] ∧ (mixedFunction.params.map (·.name)).Nodup ∧
      (∀ param ∈ mixedFunction.params, param.type.decay.isScalar = true) ∧
      (∀ argument ∈ mixedArguments, argument.number.WellFormed) ∧
      ∃ bound inside, mixedFunction.bindArguments mixedArguments = .ok bound ∧
        (FlatC.storeParams env bound : Exec Unit) machine.called = .ok () inside ∧
        ParametersArrived env.structs mixedFunction mixedArguments machine inside := by
  intro env machine
  have created : Image.create eightWords = .ok (.blank eightWords) := rfl
  obtain ⟨slots, reached⟩ : ∃ slots,
      Reached env.structs (Image.blank eightWords).shape slots machine := reached_behindChar .empty
  have distinct : (mixedFunction.params.map (·.name)).Nodup := by decide
  have scalar : ∀ param ∈ mixedFunction.params, param.type.decay.isScalar = true := by decide
  have ranked : ∀ argument ∈ mixedArguments, argument.number.rank.isSome = true := by
    decide +kernel
  have double : ∀ argument ∈ mixedArguments, argument.number.WellFormed :=
    fun argument mem => .of_rank (ranked argument mem)
  have fits : CType.cursorBehind machine.frame.scope.top (mixedFunction.params.map (·.type.decay)) ≤
      machine.image.size := by
    decide +kernel
  have bindable : (mixedFunction.bindArguments mixedArguments).isOk = true := by decide +kernel
  cases checked : mixedFunction.bindArguments mixedArguments with
  | error fault =>
    rw [checked] at bindable
    cases bindable
  | ok bound =>
    obtain ⟨succeeds, arrive⟩ :=
      parameters_arrive_intact created reached rfl checked distinct scalar double
    obtain ⟨inside, stored⟩ := succeeds.mpr fits
    exact ⟨created, ⟨slots, reached⟩, rfl, distinct, scalar, double, bound, inside, rfl, stored,
      (arrive inside stored).1⟩

end Machine

end FlatC
