import FlatC.Proofs.Scope.Layout
import Mathlib.Data.List.DropRight

/-!
# What a called function sees

A called function is to see the program scope and the root, and nothing of its callers.  The program
scope is told by its depth alone: it is the first scope on the way out that has at most one other
around it.  That scope belongs to the first frame that was opened from the root and is still open,
and it is the program scope only if that frame was opened as a block.  If it was opened by a call,
then its variables are those of a caller, and every function called from inside of it sees them.

* `Opening` is how a frame was opened, and `Machine.Opened` are the states that frames and
  declarations lead to, with the openings of all open frames;
* `Nested` is what one step preserves, and `Nested.program` finds the program scope of a frame;
* `Opening.callers` and `Opening.shared` part the open frames into those that belong to a call and
  the others;
* `Machine.callee_sees_two_outermost_frames` says what the names of a called function stand for, and
  when none of them stands for a variable of a caller;
* `Machine.callee_of_call_in_root_sees_local` has a call that sees one.
-/

namespace FlatC

/-! ## Openings -/

/-- How a frame was opened. -/
inductive Opening where
  | block
  | call
deriving DecidableEq, Repr

/-- The frame that is opened from another one. -/
def Opening.frame : Opening → Frame → Frame
  | .block, opener => opener.block
  | .call, opener => opener.activation

/-- Each frame sees what the one behind it gave it when it was opened, and the last one is the root.
There is an opening for each of them but the root. -/
inductive Nested : List Opening → List Frame → Prop where
  | root {frame : Frame} : frame.outer = [] → frame.scope.depth = 0 → Nested [] [frame]
  | opened {opening : Opening} {openings : List Opening} {frame opener : Frame}
      {rest : List Frame} : frame.outer = (opening.frame opener).outer →
      frame.scope.depth = (opening.frame opener).scope.depth → Nested openings (opener :: rest) →
      Nested (opening :: openings) (frame :: opener :: rest)

/-! ## The program scope -/

namespace Frame

variable {frame : Frame}

theorem programScopes_of_root (alone : frame.outer = []) (outermost : frame.scope.depth = 0) :
    frame.programScopes = [frame.scope] := by
  rw [programScopes_of_outer (by omega), scopes, alone]

theorem programDepth_of_programScopes {scope : Scope} {scopes : List Scope}
    (h : frame.programScopes = scope :: scopes) : frame.programDepth = scope.depth := by
  rw [programDepth, h]
  rfl

end Frame

namespace Opening

variable {opener : Frame} (opening : Opening)

/-- From the root, a call opens the same frame as a block. -/
theorem frame_of_root (alone : opener.outer = []) (outermost : opener.scope.depth = 0) :
    (opening.frame opener).outer = [opener.scope] ∧ (opening.frame opener).scope.depth = 1 := by
  have program := Frame.programScopes_of_root alone outermost
  cases opening with
  | block =>
    have around : (Opening.frame .block opener).outer = opener.scope :: opener.outer := rfl
    have depth : (Opening.frame .block opener).scope.depth = opener.scope.depth + 1 := rfl
    rw [around, depth, alone, outermost]
    exact ⟨rfl, rfl⟩
  | call =>
    have depth : (Opening.frame .call opener).scope.depth = opener.programDepth + 1 := rfl
    rw [depth, Frame.programDepth_of_programScopes program, outermost]
    exact ⟨program, rfl⟩

theorem depth_of_inner (inner : opener.scope.depth ≠ 0) (program : opener.programDepth = 1) :
    1 < (opening.frame opener).scope.depth := by
  cases opening with
  | block =>
    have depth : (Opening.frame .block opener).scope.depth = opener.scope.depth + 1 := rfl
    omega
  | call =>
    have depth : (Opening.frame .call opener).scope.depth = opener.programDepth + 1 := rfl
    omega

/-- A frame hands on its program scope, however another one is opened from it. -/
theorem programPart_outer (opener : Frame) :
    Frame.programPart (opening.frame opener).outer = opener.programScopes := by
  cases opening with
  | block => rfl
  | call => exact List.dropWhile_idempotent _ _

end Opening

theorem rtake_two_cons {α : Type} (a b c : α) (rest : List α) :
    (a :: b :: c :: rest).rtake 2 = (b :: c :: rest).rtake 2 := by
  simp [List.rtake]

namespace Nested

variable {openings : List Opening} {frame : Frame} {rest frames : List Frame}

theorem length_eq (h : Nested openings frames) : frames.length = openings.length + 1 := by
  induction h with
  | root _ _ => rfl
  | opened _ _ _ ih => rw [List.length_cons, ih, List.length_cons]

/-- The first frame may be replaced by one of the same depth that sees the same. -/
theorem replace {frame' : Frame} (h : Nested openings (frame :: rest))
    (outer : frame'.outer = frame.outer) (depth : frame'.scope.depth = frame.scope.depth) :
    Nested openings (frame' :: rest) := by
  cases h with
  | root alone outermost => exact .root (outer.trans alone) (depth.trans outermost)
  | opened sees deep below => exact .opened (outer.trans sees) (depth.trans deep) below

/-- The program scope of a frame is that of the first frame opened from the root: from there on, the
scopes around it are those of the last two frames.  Only the root is not inside of another frame. -/
theorem program (h : Nested openings (frame :: rest)) :
    frame.programScopes = ((frame :: rest).map Frame.scope).rtake 2 ∧
      frame.programDepth = min 1 rest.length ∧ (frame.scope.depth = 0 ↔ rest = []) := by
  induction rest generalizing openings frame with
  | nil =>
    cases h with
    | root alone outermost =>
      have program := Frame.programScopes_of_root alone outermost
      refine ⟨program, ?_, by simp [outermost]⟩
      rw [Frame.programDepth_of_programScopes program, outermost]
      rfl
  | cons opener rest ih =>
    cases h with
    | @opened opening _ _ _ _ outer depth below =>
      cases rest with
      | nil =>
        -- a frame opened from the root has the program scope itself
        cases below with
        | root alone outermost =>
          obtain ⟨sees, one⟩ := opening.frame_of_root alone outermost
          have program : frame.programScopes = [frame.scope, opener.scope] := by
            rw [Frame.programScopes_of_outer (by omega), Frame.scopes, outer, sees]
          refine ⟨program, ?_, by simp [depth, one]⟩
          rw [Frame.programDepth_of_programScopes program, depth, one]
          rfl
      | cons next rest =>
        -- any other frame has the program scope of its opener
        obtain ⟨program, programDepth, isRoot⟩ := ih below
        have inner : opener.scope.depth ≠ 0 := fun zero => by simpa using isRoot.mp zero
        have deep : 1 < frame.scope.depth := by
          rw [depth]
          exact opening.depth_of_inner inner (by simpa using programDepth)
        have same : frame.programScopes = opener.programScopes := by
          rw [Frame.programScopes_of_inner deep, outer, opening.programPart_outer]
        refine ⟨?_, ?_, by simp; omega⟩
        · rw [same, program]
          exact (rtake_two_cons ..).symm
        · rw [Frame.programDepth, same, ← Frame.programDepth, programDepth]
          simp

end Nested

/-! ## Frames of callers -/

/-- The binding of a name in the first of the frames that has one. -/
def Frame.seen? (frames : List Frame) (name : String) : Option Binding :=
  frames.findSome? (·.local? name)

namespace Opening

/-- How many of the open frames were opened by a call or inside of one. -/
def calls (openings : List Opening) : Nat :=
  (openings.rdropWhile (· = .block)).length

/-- The frames that were opened by a call or inside of one. -/
def callers (openings : List Opening) (frames : List Frame) : List Frame :=
  frames.take (calls openings)

/-- The frames that belong to no call: the root and the blocks that were opened before any call. -/
def shared (openings : List Opening) (frames : List Frame) : List Frame :=
  frames.drop (calls openings)

theorem calls_concat_block (openings : List Opening) :
    calls (openings ++ [.block]) ≤ openings.length := by
  rw [calls, List.rdropWhile_concat_pos _ _ _ (by simp)]
  exact (List.rdropWhile_prefix _ openings).length_le

theorem calls_concat_call (openings : List Opening) :
    calls (openings ++ [.call]) = openings.length + 1 := by
  rw [calls, List.rdropWhile_concat_neg _ _ _ (by simp), List.length_append]
  rfl

end Opening

/-- Dropping callers first does not change what the last two frames are, if neither is a caller. -/
theorem rtake_drop {α : Type} {l : List α} {k : Nat} (enough : k + 2 ≤ l.length) :
    (l.drop k).rtake 2 = l.rtake 2 := by
  simp only [List.rtake, List.length_drop, List.drop_drop]
  congr 1
  omega

namespace Nested

variable {openings : List Opening} {frames : List Frame}

/-- The last two frames are shared unless the one inside the root was opened by a call. -/
theorem rtake_shared (h : Nested openings frames) (program : openings.getLast? ≠ some .call) :
    (Opening.shared openings frames).rtake 2 = frames.rtake 2 := by
  have length := h.length_eq
  rcases List.eq_nil_or_concat openings with rfl | ⟨inner, last, rfl⟩
  · rfl
  · rw [List.concat_eq_append] at program length ⊢
    rw [List.length_append, List.length_singleton] at length
    cases last with
    | call => simp at program
    | block =>
      have few := Opening.calls_concat_block inner
      exact rtake_drop (by omega)

/-- Otherwise they are the outermost caller and the root. -/
theorem rtake_of_call (h : Nested openings frames) (called : openings.getLast? = some .call) :
    ∃ caller root, (Opening.callers openings frames).getLast? = some caller ∧
      frames.rtake 2 = [caller, root] := by
  have length := h.length_eq
  obtain ⟨inner, rfl⟩ := List.getLast?_eq_some_iff.mp called
  rw [List.length_append, List.length_singleton] at length
  obtain ⟨front, caller, root, rfl⟩ : ∃ front caller root, frames = front ++ [caller, root] := by
    rcases List.eq_nil_or_concat frames with rfl | ⟨others, root, rfl⟩
    · cases length
    · rcases List.eq_nil_or_concat others with rfl | ⟨front, caller, rfl⟩
      · simp at length
      · exact ⟨front, caller, root, by simp⟩
  have front_length : front.length = inner.length := by simpa using length
  refine ⟨caller, root, ?_, ?_⟩
  · rw [Opening.callers, Opening.calls_concat_call, ← front_length, List.take_length_add_append]
    simp
  · simp [List.rtake]

end Nested

/-! ## Machines -/

namespace Machine

variable {table : StructTable} {openings : List Opening} {machine : Machine}

/-- The states that a machine gets into by opening and closing frames, by declarations, and by
whatever leaves the frames alone; with how each of the open frames was opened, the innermost
first. -/
inductive Opened (table : StructTable) : List Opening → Machine → Prop where
  | start (image : Image) (console : Console) : Opened table [] (start image console)
  | entered (opening : Opening) {openings : List Opening} {machine : Machine} :
      Opened table openings machine →
      Opened table (opening :: openings) (machine.enter opening.frame)
  | closed {opening : Opening} {openings : List Opening} {machine : Machine} :
      Opened table (opening :: openings) machine → Opened table openings machine.close
  | declared (name : String) (type : CType) {openings : List Opening} {machine : Machine} :
      Opened table openings machine →
      Opened table openings (Step.left (declareVariable table name type machine))
  | bound (name : String) (callee : Callee) {openings : List Opening} {machine : Machine} :
      Opened table openings machine →
      Opened table openings (Step.left (declareFunction name callee machine))
  | other {openings : List Opening} {machine machine' : Machine} :
      Opened table openings machine → machine'.frame = machine.frame →
      machine'.openers = machine.openers → Opened table openings machine'

/-! ### One step -/

theorem nested_close {opening : Opening} (h : Nested (opening :: openings) machine.frames) :
    Nested openings machine.close.frames := by
  unfold close
  cases waiting : machine.openers with
  | nil =>
    rw [frames, waiting] at h
    cases h
  | cons opener rest =>
    rw [frames, waiting] at h
    cases h with
    | opened _ _ below => exact below.replace rfl rfl

theorem nested_declareVariable (h : Nested openings machine.frames) (name : String)
    (type : CType) :
    Nested openings (Step.left (declareVariable table name type machine)).frames := by
  rcases machine.declareVariable_cases table name type with
    ⟨fault, machine', run, kept⟩ | ⟨value, image, address, size, -, -, run⟩
  · have frame : machine'.frame = machine.frame := congrArg Setting.frame kept
    have openers : machine'.openers = machine.openers := congrArg Setting.openers kept
    rw [run]
    show Nested openings (machine'.frame :: machine'.openers)
    rwa [frame, openers]
  · rw [run]
    exact h.replace rfl rfl

theorem nested_declareFunction (h : Nested openings machine.frames) (name : String)
    (callee : Callee) :
    Nested openings (Step.left (declareFunction name callee machine)).frames := by
  rcases machine.declareFunction_cases name callee with ⟨fault, run⟩ | ⟨bindings, -, run⟩
  · rwa [run]
  · rw [run]
    exact h.replace rfl rfl

/-! ### All steps -/

theorem Opened.nested (h : Opened table openings machine) : Nested openings machine.frames := by
  induction h with
  | start image console => exact .root rfl rfl
  | entered opening _ ih => exact .opened rfl rfl ih
  | closed _ ih => exact nested_close ih
  | declared name type _ ih => exact nested_declareVariable ih name type
  | bound name callee _ ih => exact nested_declareFunction ih name callee
  | other _ frame openers ih => rwa [frames, frame, openers]

/-- A called function finds what one of the two outermost frames binds. -/
theorem Opened.find?_activation (h : Opened table openings machine) (name : String) :
    machine.frame.activation.find? name = Frame.seen? (machine.frames.rtake 2) name := by
  obtain ⟨program, -, -⟩ := h.nested.program
  have outer : machine.frame.activation.find? name =
      machine.frame.programScopes.findSome? fun scope => scope.bindings.find? name := rfl
  rw [outer, program, List.rtake, List.length_map, ← List.map_drop, List.findSome?_map]
  rfl

/-- **A called function sees the two outermost open frames, and neither belongs to a call unless
the first frame inside the root was opened by one.**  Frames may be opened as blocks and by calls in
any order, be closed, and declare whatever they like.  If the first frame inside the root is a
block, or there is none, then a name means to a called function what it means in the frames that
belong to no call.  If it was opened by a call, then every name that it binds, be it a parameter or
a local variable, means the same to each function that is called from inside of it. -/
theorem callee_sees_two_outermost_frames (h : Opened table openings machine) (name : String) :
    machine.frame.activation.find? name = Frame.seen? (machine.frames.rtake 2) name ∧
      (openings.getLast? ≠ some .call →
        machine.frame.activation.find? name =
          Frame.seen? ((Opening.shared openings machine.frames).rtake 2) name) ∧
      (openings.getLast? = some .call →
        ∃ caller, (Opening.callers openings machine.frames).getLast? = some caller ∧
          ∀ binding, caller.local? name = some binding →
            machine.frame.activation.find? name = some binding) := by
  have found := h.find?_activation name
  refine ⟨found, ?_, ?_⟩
  · intro program
    rw [found, h.nested.rtake_shared program]
  · intro called
    obtain ⟨caller, root, outermost, last⟩ := h.nested.rtake_of_call called
    refine ⟨caller, outermost, ?_⟩
    intro binding bound
    rw [found, last, Frame.seen?, List.findSome?_cons, bound]

/-- A machine with nothing declared. -/
def atRoot : Machine :=
  start (.blank ⟨16, 64, 64, .reclaim⟩) (.start [])

/-- A call of a function with a local variable, from a program scope with a global one. -/
def calledFromProgram : Machine :=
  Step.left (declareVariable .empty "local" .int (enter (Opening.frame .call)
    (Step.left (declareVariable .empty "global" .int (atRoot.enter (Opening.frame .block))))))

/-- A function that is called there sees the global variable and not the local one. -/
theorem callee_sees_global_only :
    Opened .empty [.call, .block] calledFromProgram ∧
      (calledFromProgram.frame.local? "local").isSome = true ∧
      (calledFromProgram.frame.activation.find? "global").isSome = true ∧
      (calledFromProgram.frame.activation.find? "local").isSome = false := by
  have opened : Opened .empty [.call, .block] calledFromProgram :=
    .declared _ _ (.entered .call (.declared _ _ (.entered .block (.start _ _))))
  obtain ⟨-, static, -⟩ := callee_sees_two_outermost_frames opened "local"
  refine ⟨opened, by decide +kernel, by decide +kernel, ?_⟩
  rw [static (by decide)]
  decide +kernel

/-- A call of a function with a local variable, from the root. -/
def calledFromRoot : Machine :=
  Step.left (declareVariable .empty "local" .int (atRoot.enter (Opening.frame .call)))

/-- A function that is called there sees the local variable of its caller.  There is no other
variable of that name. -/
theorem callee_of_call_in_root_sees_local :
    Opened .empty [.call] calledFromRoot ∧
      (calledFromRoot.openers.all fun frame => (frame.local? "local").isNone) = true ∧
      (calledFromRoot.frame.activation.find? "local").isSome = true := by
  have opened : Opened .empty [.call] calledFromRoot :=
    .declared _ _ (.entered .call (.start _ _))
  exact ⟨opened, by decide +kernel, by decide +kernel⟩

end Machine

end FlatC
