import FlatC.Proofs.Eval.ScopeKept
import FlatC.Proofs.Eval.StaticType
import FlatC.Proofs.Value.Element

/-!
# Variables that are arrays

A variable of an array type is indexed once for each dimension.  Each index evaluates the row that
it is an index into and goes on from the address of that row, so that the last one comes to the
place of the element in row-major order.  Different indices come to different elements, which have
no byte in common, and so an assignment to one of them is not seen in any other.

* `Expr.element` is the expression for an element, and `IndexedBy` says what may be written there;
* `Machine.NamesArray` says that a name stands for an array that lies in memory;
* `Image.sameBytes_assign` says what an assignment leaves alone;
* `elements_lie_in_row_major_order` puts this together.
-/

namespace FlatC

open Step

/-! ## Expressions for elements -/

/-- The element of a variable with a number for each index, `name[x₁]…[xₖ]`. -/
def Expr.element (name : String) (xs : List Binary64) : Expr :=
  xs.foldl (fun array x => .index array (.number x)) (.var name)

/-- The numbers are indices within the dimensions. -/
structure IndexedBy (xs : List Binary64) (indices dims : List Nat) : Prop where
  whole : List.Forall₂ (fun (x : Binary64) (i : Nat) => x.IsWhole i) xs indices
  within : List.Forall₂ (· < ·) indices dims

section Elements

variable {env : Env} {user : UserCall Exec} {machine : Machine} {table : StructTable}
  {element : CType} {dims indices others : List Nat} {b s : Nat} {name : String}
  {xs ys : List Binary64} {array : Expr} {v w : Value} {x : Binary64}

/-- A number as an index changes nothing. -/
theorem Expr.evalWith_index_number (evaluated : array.evalWith env user machine = .ok v machine)
    (reading : v.elementAt env.structs (.literal x) machine.image = .ok w) :
    ((Expr.index array (.number x)).evalWith env user : Exec Value) machine = .ok w machine := by
  have indexed : ((Expr.index array (.number x)).evalWith env user : Exec Value) =
      (array.evalWith env user >>= fun v =>
        Exec.onImage (Image.query (v.elementAt env.structs (.literal x)))) := rfl
  rw [indexed, bind_of_ok evaluated]
  simp only [Exec.onImage, Image.query, reading]

/-- Indices into rows come to the place of the element in row-major order. -/
theorem Expr.evalWith_indices
    (whole : List.Forall₂ (fun (x : Binary64) (i : Nat) => x.IsWhole i) xs indices)
    (within : List.Forall₂ (· < ·) indices dims) {before : Nat}
    (rows : machine.image.HasArray env.structs element dims (b + before * (s * dims.prod)) s)
    (reading : machine.image.read env.structs (b + before * (s * dims.prod)) (element.rows dims) =
      .ok v)
    (evaluated : array.evalWith env user machine = .ok v machine)
    (found : machine.image.read env.structs (b + place before dims indices * s) element = .ok w) :
    ((xs.foldl (fun array x => Expr.index array (.number x)) array).evalWith env user :
      Exec Value) machine = .ok w machine := by
  induction within generalizing xs before array v with
  | nil =>
    cases whole
    rw [List.prod_nil, Nat.mul_one] at reading
    cases reading.symm.trans found
    exact evaluated
  | @cons i d indices dims less within ih =>
    cases whole with
    | @cons x _ xs _ whole rest =>
      have place : b + before * (s * (d :: dims).prod) + i * (s * dims.prod) =
          b + (before * d + i) * (s * dims.prod) := by
        rw [List.prod_cons, Nat.add_mul, Nat.mul_assoc before, Nat.mul_left_comm d, Nat.add_assoc]
      have row := rows.row less
      have step := rows.elementAt_eq reading whole less
      rw [place] at row step
      obtain ⟨u, next, -, -⟩ := row.exists_read
      rw [List.foldl_cons]
      exact ih rest row next (evalWith_index_number evaluated (step.trans next)) found

/-! ## Names of arrays -/

/-- The name stands for an array, and the array lies in memory. -/
structure Machine.NamesArray (machine : Machine) (table : StructTable) (name : String)
    (element : CType) (dims : List Nat) (b s : Nat) : Prop where
  found : machine.frame.find? name = some ⟨.array element dims, .slot b⟩
  dimensions : dims ≠ []
  array : machine.image.HasArray table element dims b s

/-- Variables of array types lie in memory, in slots of the size of all their elements. -/
theorem Machine.Reached.namesArray {regions : Regions} {image : Image} {slots : List Slot}
    (created : Image.create regions = .ok image)
    (reached : Machine.Reached table image.shape slots machine)
    (found : machine.frame.find? name = some ⟨.array element dims, .slot b⟩)
    (dimensions : dims ≠ []) (positive : ∀ d ∈ dims, 1 ≤ d) (elements : element.TakesUp table s) :
    machine.NamesArray table name element dims b s ∧
      table.sizeOf (.array element dims) = .ok (s * dims.prod) := by
  obtain ⟨-, -, total, inSpace⟩ := reached.memory_bounds created
  have stacked := reached.wellStacked
  have mem := Machine.mem_vars_of_find? stacked found
  have sized := Machine.sizeOf_of_mem_vars stacked mem
  have size := StructTable.sizeOf_array elements.sized sized
  obtain ⟨start, stop⟩ := reached.variable_bounds created mem
  rw [size] at sized stop
  exact ⟨⟨found, dimensions, elements, positive, start.ne', stop, by omega⟩, sized⟩

namespace Machine.NamesArray

/-- The name still stands for the array when the scope was kept. -/
theorem scopeKept (h : machine.NamesArray table name element dims b s) {machine' : Machine}
    (kept : machine.ScopeKept machine') : machine'.NamesArray table name element dims b s := by
  obtain ⟨found, dimensions, elements, positive, nonzero, inside, inSpace⟩ := h
  have total : machine'.image.size = machine.image.size := congrArg Shape.size kept.shape
  rw [← total] at inside inSpace
  refine ⟨?_, dimensions, elements, positive, nonzero, inside, inSpace⟩
  rw [← found]
  exact Frame.find?_of_visible kept.visible name

/-- An element of the array is where row-major order puts it. -/
theorem evalWith_element (h : machine.NamesArray env.structs name element dims b s)
    (indexed : IndexedBy xs indices dims)
    (reading : machine.image.read env.structs (b + place 0 dims indices * s) element = .ok w) :
    ((Expr.element name xs).evalWith env user : Exec Value) machine = .ok w machine := by
  have start : b + 0 * (s * dims.prod) = b := by rw [Nat.zero_mul, Nat.add_zero]
  have rows : element.rows dims = .array element dims := by
    obtain ⟨d, rest, rfl⟩ := List.exists_cons_of_ne_nil h.dimensions
    rfl
  have array := h.array
  obtain ⟨v, whole, -, -⟩ := array.exists_read
  have named : machine.valueOf env.structs name = .ok v := by
    rw [rows] at whole
    exact Machine.valueOf_of_find? h.found whole
  have evaluated : ((Expr.var name).evalWith env user : Exec Value) machine = .ok v machine := by
    have asked : ((Expr.var name).evalWith env user : Exec Value) =
        Exec.ask (Machine.valueOf env.structs name) := rfl
    simp only [asked, Exec.ask, named]
  rw [← start] at array whole
  exact Expr.evalWith_indices indexed.whole indexed.within array whole evaluated reading

end Machine.NamesArray

/-! ## Assignments to elements -/

/-- The answer of a step does not matter for what it leaves. -/
theorem Store.after_answering {α β : Type} (step : Store α) (answer : β) (image : Image) :
    (step >>= fun _ => pure answer).after image = step.after image := by
  rw [after_eq_left, after_eq_left]
  cases ended : step image with
  | ok _ image' =>
    rw [bind_of_ok ended]
    rfl
  | error fault image' =>
    rw [bind_of_error ended]
    rfl

/-- What an assignment stores has the type of its target. -/
theorem Value.type_assigned {op : AssignOp} {target source stored yielded : Value}
    (h : target.assigned table op source = .ok (stored, yielded)) : stored.type = target.type := by
  cases op with
  | plain =>
    obtain ⟨converted, conversion, rest⟩ := bind_eq_ok.mp h
    cases rest
    exact Value.type_implicit conversion
  | compound op =>
    obtain ⟨result, -, rest⟩ := bind_eq_ok.mp h
    split at rest
    · cases rest
      rfl
    · cases rest

/-- An assignment stores a value of the type of its target at the place of the target, or
nothing. -/
theorem Value.after_assign (table : StructTable) (op : AssignOp) (source : Value) {target : Value}
    {address : Nat} (place : target.address = some address) (image : Image) :
    (target.assign table op source).after image = image ∨
      ∃ stored : Value, stored.type = target.type ∧
        (target.assign table op source).after image = (Image.store address stored).after image := by
  cases storable : target.type.isStorable with
  | false =>
    left
    simp only [assign, place, storable, Bool.false_eq_true, if_false, Store.after]
    rfl
  | true =>
    cases planned : target.assigned table op source with
    | error fault =>
      left
      simp only [assign, place, storable, if_true, planned, Store.after]
      rfl
    | ok values =>
      obtain ⟨stored, yielded⟩ := values
      refine .inr ⟨stored, type_assigned planned, ?_⟩
      rw [← Store.after_answering (Image.store address stored) yielded image]
      simp only [assign, place, storable, if_true, planned]
      rfl

/-- An assignment changes no byte outside of its target. -/
theorem Image.sameBytes_assign (image : Image) (op : AssignOp) (source : Value) {target : Value}
    {address start stop : Nat} (place : target.address = some address)
    (sized : table.sizeOf target.type = .ok s) (outside : stop ≤ address ∨ address + s ≤ start) :
    image.SameBytes ((target.assign table op source).after image) start stop := by
  obtain unchanged | ⟨stored, type, written⟩ := Value.after_assign table op source place image
  · rw [unchanged]
    exact SameBytes.refl _ _ _
  · have fits : storedSize stored ≤ s := storedSize_le (by rw [type]; exact sized)
    rw [written]
    exact (image.store_written address stored).sameBytes (by omega)

/-- An assignment to an element changes no byte outside of it, compared to the state in which its
right side has been evaluated. -/
theorem Machine.NamesArray.sameBytes_assign
    (h : machine.NamesArray env.structs name element dims b s) (indexed : IndexedBy xs indices dims)
    (calls : Nat) (op : AssignOp) (source : Expr) {start stop : Nat}
    (outside : stop ≤ b + place 0 dims indices * s ∨ b + place 0 dims indices * s + s ≤ start) :
    (left ((source.evalWith env (callWithin env calls) : Exec Value) machine)).image.SameBytes
      (left (((Expr.assign op (.element name xs) source).evalWith env (callWithin env calls) :
        Exec Value) machine)).image start stop := by
  have kept := scopeKept_evalWith env calls source machine
  have assignment : ((Expr.assign op (.element name xs) source).evalWith env
      (callWithin env calls) : Exec Value) =
      (source.evalWith env (callWithin env calls) >>= fun v =>
        (Expr.element name xs).evalWith env (callWithin env calls) >>= fun target =>
          Exec.onImage (target.assign env.structs op v)) := rfl
  rw [assignment]
  cases evaluated : (source.evalWith env (callWithin env calls) : Exec Value) machine with
  | error fault machine' =>
    rw [bind_of_error evaluated]
    exact Image.SameBytes.refl _ _ _
  | ok v machine' =>
    rw [evaluated] at kept
    have names : machine'.NamesArray env.structs name element dims b s := h.scopeKept kept
    obtain ⟨target, reading, type, place⟩ := (names.array.single indexed.within).exists_read
    rw [bind_of_ok evaluated, bind_of_ok (names.evalWith_element indexed reading)]
    have sized := names.array.elements.sized
    rw [Exec.left_onImage]
    exact machine'.image.sameBytes_assign op v place (by rw [type]; exact sized) outside

/-- An assignment to an element is not seen in any other. -/
theorem Machine.NamesArray.unseen (h : machine.NamesArray env.structs name element dims b s)
    (indexed : IndexedBy xs indices dims) (indexed' : IndexedBy ys others dims)
    (different : others ≠ indices) (op : AssignOp) (source : Expr) :
    let before := left ((source.eval env : Exec Value) machine)
    let after := left (((Expr.assign op (.element name xs) source).eval env : Exec Value) machine)
    ∃ v, ((Expr.element name ys).eval env : Exec Value) before = .ok v before ∧
      ((Expr.element name ys).eval env : Exec Value) after = .ok v after := by
  intro before after
  have keptBefore : machine.ScopeKept before := (evaluation_keeps_scope env machine).1 source
  have keptAfter : machine.ScopeKept after :=
    (evaluation_keeps_scope env machine).1 (.assign op (.element name xs) source)
  have namesBefore := h.scopeKept keptBefore
  have namesAfter := h.scopeKept keptAfter
  obtain ⟨v, reading, -, -⟩ := (namesBefore.array.single indexed'.within).exists_read
  -- the place of the other element has the same bytes in both states
  have apart := elements_apart indexed'.within indexed.within different.symm b s
  have same := h.sameBytes_assign indexed (machine.callsLeft env) op source apart
  have total : after.image.size = before.image.size :=
    congrArg Shape.size (keptAfter.shape.trans keptBefore.shape.symm)
  have reading' := Image.read_congr h.array.elements.sized total same
  exact ⟨v, namesBefore.evalWith_element indexed' reading,
    namesAfter.evalWith_element indexed' (reading'.trans reading)⟩

end Elements

/-! ## Together -/

/-- **Elements lie in row-major order and apart from each other.**  In every state that frames and
declarations lead to, take a variable of an array type whose elements are not `void` and have a
size, and a number within its dimension for each of its indices.  The element evaluates without a
change, it has the type of the elements, and its address is the place in row-major order, counted in
elements from the start of the variable; all of it lies inside the slot of the variable.  An element
with other indices has no byte in common with it.  So whatever is assigned to the one, and whether
that succeeds or fails, the other is afterwards what it was when the right side had been
evaluated. -/
theorem elements_lie_in_row_major_order (env : Env) {regions : Regions} {image : Image}
    {slots : List Slot} {machine : Machine} {name : String} {element : CType} {dims : List Nat}
    {b s : Nat} (created : Image.create regions = .ok image)
    (reached : Machine.Reached env.structs image.shape slots machine)
    (found : machine.frame.find? name = some ⟨.array element dims, .slot b⟩)
    (dimensions : dims ≠ []) (positive : ∀ d ∈ dims, 1 ≤ d) (valued : element ≠ .void)
    (sized : env.structs.sizeOf element = .ok s) (nonempty : 1 ≤ s) {xs : List Binary64}
    {indices : List Nat} (indexed : IndexedBy xs indices dims) :
    let address (indices : List Nat) := b + place 0 dims indices * s
    (∃ size, env.structs.sizeOf (.array element dims) = .ok size ∧
        b ≤ address indices ∧ address indices + s ≤ b + size) ∧
      (∃ v, ((Expr.element name xs).eval env : Exec Value) machine = .ok v machine ∧
        v.type = element ∧ v.address = some (address indices)) ∧
      ∀ ys others, IndexedBy ys others dims → others ≠ indices →
        Slot.Apart ⟨address indices, s⟩ ⟨address others, s⟩ ∧
          ∀ op source,
            let before := left ((source.eval env : Exec Value) machine)
            let after :=
              left (((Expr.assign op (.element name xs) source).eval env : Exec Value) machine)
            ∃ v, ((Expr.element name ys).eval env : Exec Value) before = .ok v before ∧
              ((Expr.element name ys).eval env : Exec Value) after = .ok v after := by
  intro address
  have complete : Machine.isIncomplete element = false := by
    cases element with
    | int | float | char | pointer _ | array _ _ | struct _ => rfl
    | void => exact absurd rfl valued
    | function => cases sized
  obtain ⟨names, size⟩ :=
    reached.namesArray created found dimensions positive ⟨complete, sized, nonempty⟩
  obtain ⟨v, reading, type, place⟩ := (names.array.single indexed.within).exists_read
  have last := Image.HasArray.element_le indexed.within s
  refine ⟨⟨s * dims.prod, size, Nat.le_add_right .., ?_⟩, ?_, ?_⟩
  · show b + FlatC.place 0 dims indices * s + s ≤ b + s * dims.prod
    omega
  · exact ⟨v, names.evalWith_element indexed reading, type, place⟩
  · intro ys others indexed' different
    exact ⟨elements_apart indexed.within indexed'.within different b s,
      fun op source => names.unseen indexed indexed' different op source⟩

/-- A machine with a variable of two rows of three numbers. -/
def twoRows : Machine :=
  left (Machine.declareVariable .empty "a" (.array .int [2, 3])
    (.start (.blank Machine.eightWords) (.start [])))

/-- The last number of the second row is the sixth one, and to change it does not change the number
behind which the second row starts. -/
theorem last_of_two_rows_is_sixth :
    Image.create Machine.eightWords = .ok (.blank Machine.eightWords) ∧
      (∃ slots, Machine.Reached .empty (Image.blank Machine.eightWords).shape slots twoRows) ∧
      twoRows.frame.find? "a" = some ⟨.array .int [2, 3], .slot 20⟩ ∧
      IndexedBy [.ofNat 1, .ofNat 2] [1, 2] [2, 3] ∧ IndexedBy [.ofNat 0, .ofNat 2] [0, 2] [2, 3] ∧
      let env : Env := ⟨.empty, ⟨10, 10⟩⟩
      let last := Expr.element "a" [.ofNat 1, .ofNat 2]
      let other := Expr.element "a" [.ofNat 0, .ofNat 2]
      let before := left (((Expr.number (.ofNat 7)).eval env : Exec Value) twoRows)
      let after :=
        left (((Expr.assign .plain last (.number (.ofNat 7))).eval env : Exec Value) twoRows)
      (∃ v, (last.eval env : Exec Value) twoRows = .ok v twoRows ∧ v.type = .int ∧
        v.address = some 40) ∧
      ∃ v, (other.eval env : Exec Value) before = .ok v before ∧
        (other.eval env : Exec Value) after = .ok v after := by
  have created : Image.create Machine.eightWords = .ok (.blank Machine.eightWords) := rfl
  have start : Machine.Reached .empty (Image.blank Machine.eightWords).shape []
      (.start (.blank Machine.eightWords) (.start [])) := .start _ rfl (by decide +kernel)
  have plan : Machine.planVariable .empty "a" (.array .int [2, 3])
      (.start (.blank Machine.eightWords) (.start [])) = .ok (20, 24) := rfl
  obtain ⟨value, machine, elementSize, run, fresh⟩ := start.declareVariable_of_plan created plan
  have declared : twoRows = machine := by rw [twoRows, run, left]
  have reached := start.declared plan run
  have found := fresh.resolves
  rw [← declared] at reached found
  have whole (n : Nat) (small : n < 3) : (Binary64.ofNat n).IsWhole n :=
    Binary64.isWhole_ofNat (Nat.lt_trans small (by decide))
  have indexed : IndexedBy [.ofNat 1, .ofNat 2] [1, 2] [2, 3] :=
    ⟨.cons (whole 1 (by decide)) (.cons (whole 2 (by decide)) .nil),
      .cons (by decide) (.cons (by decide) .nil)⟩
  have indexed' : IndexedBy [.ofNat 0, .ofNat 2] [0, 2] [2, 3] :=
    ⟨.cons (whole 0 (by decide)) (.cons (whole 2 (by decide)) .nil),
      .cons (by decide) (.cons (by decide) .nil)⟩
  obtain ⟨-, element, others⟩ := elements_lie_in_row_major_order ⟨.empty, ⟨10, 10⟩⟩ created reached
    found (by decide) (by decide) (by decide) rfl (by decide) indexed
  obtain ⟨-, unseen⟩ := others _ _ indexed' (by decide)
  exact ⟨created, ⟨_, reached⟩, found, indexed, indexed', element,
    unseen .plain (.number (.ofNat 7))⟩

end FlatC
