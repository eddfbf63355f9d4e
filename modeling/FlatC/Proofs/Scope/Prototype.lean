import FlatC.Proofs.CType.Spelling
import FlatC.Proofs.Scope.Declare

/-!
# Prototypes and definitions

A function may be declared several times in a scope.  All its declarations must have one signature,
and at most one of them may be a definition.  The order in which they come does not matter: the name
stands for the definition once there is one, and for the first prototype otherwise.

* `Machine.Stands` says which function a name stands for in the innermost scope;
* `Machine.declareFunction_of_stands` is one more declaration of the name;
* `Machine.declare_after` is any number of them;
* `Machine.declarations_agree_by_type` puts this together with the spelling of types.
-/

namespace FlatC

/-! ## One declaration -/

/-- One more declaration of a function succeeds if it has the same signature and does not define the
function again.  A definition takes the name over, a prototype leaves everything as it is. -/
theorem Bindings.declareFunction_again {bindings : Bindings} {name : String} {e : FunctionDef}
    (known : bindings.meaning? name = some (.function (.user e))) (f : FunctionDef) :
    bindings.declareFunction name (.user f) =
      if e.signature = f.signature then
        if f.isDefined then
          if e.isDefined then .error (.type (.redefinition name))
          else .ok (bindings.bindFunction name (.user f))
        else .ok bindings
      else .error (.type (.conflictingSignature name e.signature f.signature)) := by
  have agree : (Callee.user e).signature ≠ (Callee.user f).signature ↔ ¬ e.signature = f.signature :=
    Iff.rfl
  rw [declareFunction, known]
  by_cases alike : e.signature = f.signature
  · simp only [agree, if_pos alike, not_not_intro alike, if_false]
    cases defined : f.isDefined with
    | false => simp [Callee.isDefined, defined]
    | true =>
      cases twice : e.isDefined with
      | true => simp [Callee.isDefined, defined, twice]
      | false => simp [Callee.isDefined, defined, twice]
  · simp only [agree, alike, not_false_eq_true, if_true]
    rfl

namespace Machine

variable {machine machine' : Machine} {name : String} {e f : FunctionDef}

/-- The name stands for the function in the innermost scope. -/
def Stands (machine : Machine) (name : String) (function : FunctionDef) : Prop :=
  machine.frame.local? name = some ⟨.function, .function (.user function)⟩

/-- The machine with other bindings in its innermost scope. -/
def withBindings (machine : Machine) (bindings : Bindings) : Machine :=
  { machine with frame := { machine.frame with scope := { machine.frame.scope with bindings } } }

theorem declareFunction_of_ok {callee : Callee} {bindings : Bindings}
    (h : machine.frame.scope.bindings.declareFunction name callee = .ok bindings) :
    declareFunction name callee machine = .ok () (machine.withBindings bindings) := by
  simp only [declareFunction, Frame.declareFunction, h, bind, Except.bind, pure, Except.pure,
    withBindings]

theorem declareFunction_of_error {callee : Callee} {fault : Fault}
    (h : machine.frame.scope.bindings.declareFunction name callee = .error fault) :
    declareFunction name callee machine = .error fault machine := by
  simp only [declareFunction, Frame.declareFunction, h, bind, Except.bind]

theorem stands_withBindings (machine : Machine) (name : String) (f : FunctionDef) :
    (machine.withBindings (machine.frame.scope.bindings.bindFunction name (.user f))).Stands
      name f :=
  Bindings.find?_bind_self ..

/-- A declaration gives a new name its meaning. -/
theorem declareFunction_of_unbound (new : machine.frame.local? name = none) (f : FunctionDef) :
    ∃ next, declareFunction name (.user f) machine = .ok () next ∧ next.Stands name f := by
  have unknown : machine.frame.scope.bindings.meaning? name = none := by
    rw [Bindings.meaning?, show machine.frame.scope.bindings.find? name = none from new]
  refine ⟨_, declareFunction_of_ok ?_, machine.stands_withBindings name f⟩
  rw [Bindings.declareFunction, unknown]

/-- Whether a function that is declared as `e` can be declared as `f` too. -/
def Admits (e f : FunctionDef) : Prop :=
  e.signature = f.signature ∧ ¬ (e.isDefined = true ∧ f.isDefined = true)

/-- One more declaration of a name that stands for a function. -/
theorem declareFunction_of_stands (h : machine.Stands name e) (f : FunctionDef) :
    (∃ fault, declareFunction name (.user f) machine = .error fault machine ∧ ¬ Admits e f) ∨
    ∃ next, declareFunction name (.user f) machine = .ok () next ∧ Admits e f ∧
      next.Stands name (if f.isDefined then f else e) := by
  have known : machine.frame.scope.bindings.meaning? name = some (.function (.user e)) := by
    rw [Bindings.meaning?, show machine.frame.scope.bindings.find? name = some _ from h]
  have again := Bindings.declareFunction_again known f
  by_cases alike : e.signature = f.signature
  · rw [if_pos alike] at again
    by_cases defined : f.isDefined = true
    · rw [if_pos defined] at again
      by_cases twice : e.isDefined = true
      · rw [if_pos twice] at again
        exact .inl ⟨_, declareFunction_of_error again, fun admits => admits.2 ⟨twice, defined⟩⟩
      · rw [if_neg twice] at again
        refine .inr ⟨_, declareFunction_of_ok again, ⟨alike, fun both => twice both.1⟩, ?_⟩
        rw [if_pos defined]
        exact machine.stands_withBindings name f
    · rw [if_neg defined] at again
      refine .inr ⟨_, declareFunction_of_ok again, ⟨alike, fun both => defined both.2⟩, ?_⟩
      rw [if_neg defined]
      exact h
  · rw [if_neg alike] at again
    exact .inl ⟨_, declareFunction_of_error again, fun admits => alike admits.1⟩

/-! ## Any number of declarations -/

/-- Declares functions under one name, one after the other, as long as they can be declared. -/
def declareEach (name : String) (functions : List FunctionDef) : Exec Unit :=
  functions.forM fun function => declareFunction name (.user function)

theorem declareEach_cons (name : String) (f : FunctionDef) (rest : List FunctionDef) :
    declareEach name (f :: rest) =
      declareFunction name (.user f) >>= fun _ => declareEach name rest := by
  rfl

/-- Declarations of a name that stands for a function succeed if they all have its signature and
there is no second definition.  The name stands for the definition then, if there is one. -/
theorem declare_after (h : machine.Stands name e) (rest : List FunctionDef) :
    ((∃ machine', declareEach name rest machine = .ok () machine') ↔
      (∀ f ∈ rest, e.signature = f.signature) ∧ (e :: rest).countP (·.isDefined) ≤ 1) ∧
    ∀ machine', declareEach name rest machine = .ok () machine' →
      machine'.Stands name (((e :: rest).find? (·.isDefined)).getD e) := by
  induction rest generalizing machine e with
  | nil =>
    refine ⟨iff_of_true ⟨machine, rfl⟩ ⟨by simp, List.countP_le_length⟩, ?_⟩
    rintro _ ⟨⟩
    by_cases defined : e.isDefined = true
    · simpa [defined] using h
    · simpa [defined] using h
  | cons f rest ih =>
    rw [declareEach_cons]
    rcases declareFunction_of_stands h f with ⟨fault, failed, refuses⟩ | ⟨next, done, admits, stands⟩
    · rw [Step.bind_of_error failed]
      refine ⟨iff_of_false ?_ ?_, ?_⟩
      · rintro ⟨_, ⟨⟩⟩
      · rintro ⟨alike, once⟩
        refine refuses ⟨alike f List.mem_cons_self, ?_⟩
        rintro ⟨defined, twice⟩
        simp [defined, twice] at once
      · rintro _ ⟨⟩
    · rw [Step.bind_of_ok done]
      obtain ⟨succeeds, leaves⟩ := ih stands
      obtain ⟨alike, once⟩ := admits
      have signatures : (∀ g ∈ f :: rest, e.signature = g.signature) ↔
          ∀ g ∈ rest, f.signature = g.signature := by
        rw [List.forall_mem_cons, alike]
        exact and_iff_right rfl
      rw [signatures]
      by_cases defined : f.isDefined = true
      · have first : ¬ e.isDefined = true := fun twice => once ⟨twice, defined⟩
        rw [if_pos defined] at succeeds leaves
        rw [List.countP_cons_of_neg first, List.find?_cons_of_neg first]
        refine ⟨succeeds, ?_⟩
        rw [List.find?_cons_of_pos defined] at leaves ⊢
        exact leaves
      · rw [if_neg defined] at succeeds leaves
        rw [alike, List.countP_cons] at succeeds
        rw [List.countP_cons, List.countP_cons_of_neg defined]
        refine ⟨succeeds, ?_⟩
        rw [List.find?_cons] at leaves ⊢
        rw [List.find?_cons_of_neg defined]
        exact leaves

/-- All declarations agree with the first one if any two of them agree. -/
theorem pairwise_sameTypes_iff {functions : List FunctionDef} (hf : f.Built)
    (built : ∀ g ∈ functions, g.Built) :
    (f :: functions).Pairwise FunctionDef.SameTypes ↔ ∀ g ∈ functions, f.signature = g.signature := by
  rw [List.pairwise_cons]
  constructor
  · rintro ⟨first, -⟩ g mem
    rw [FunctionDef.signature_eq_iff hf (built g mem)]
    exact first g mem
  · intro alike
    constructor
    · intro g mem
      rw [← FunctionDef.signature_eq_iff hf (built g mem)]
      exact alike g mem
    · refine List.pairwise_of_forall_mem_list fun g mem g' mem' => ?_
      rw [← FunctionDef.signature_eq_iff (built g mem) (built g' mem'), ← alike g mem, alike g' mem']

/-- **Functions are declared by their types.**  Two types that a program can be built from are the
same exactly if they are spelled alike, and two functions of such types have one signature exactly if
they return the same type and take the same types.  So declarations of a name that is new in the
innermost scope all succeed exactly if any two have the same types and there is at most one
definition among them.  The name stands for the definition then, wherever it came, and for the first
prototype if there is none.  A declaration that fails changes nothing. -/
theorem declarations_agree_by_type :
    (∀ s t : CType, s.Built → t.Built → (s.same t = true ↔ s.spelling = t.spelling)) ∧
    (∀ f g : FunctionDef, f.Built → g.Built → (f.signature = g.signature ↔ f.SameTypes g)) ∧
    (∀ (machine : Machine) (name : String) (functions : List FunctionDef),
      machine.frame.local? name = none → (∀ f ∈ functions, f.Built) →
      ((∃ machine', declareEach name functions machine = .ok () machine') ↔
        functions.Pairwise FunctionDef.SameTypes ∧ functions.countP (·.isDefined) ≤ 1) ∧
      ∀ machine', declareEach name functions machine = .ok () machine' →
        machine'.frame.local? name =
          ((functions.find? (·.isDefined)).or functions.head?).map fun f =>
            ⟨.function, .function (.user f)⟩) ∧
    ∀ (machine machine' : Machine) (name : String) (callee : Callee) (fault : Fault),
      declareFunction name callee machine = .error fault machine' → machine' = machine := by
  refine ⟨fun s t hs ht => hs.canonical.same_iff_spelling_eq ht.canonical,
    fun f g hf hg => FunctionDef.signature_eq_iff hf hg, ?_, ?_⟩
  · intro machine name functions new built
    cases functions with
    | nil =>
      refine ⟨iff_of_true ⟨machine, rfl⟩ ⟨.nil, Nat.zero_le 1⟩, ?_⟩
      rintro _ ⟨⟩
      exact new
    | cons f rest =>
      obtain ⟨hf, others⟩ := List.forall_mem_cons.mp built
      obtain ⟨next, done, stands⟩ := declareFunction_of_unbound new f
      obtain ⟨succeeds, leaves⟩ := declare_after stands rest
      rw [declareEach_cons, Step.bind_of_ok done, pairwise_sameTypes_iff hf others]
      refine ⟨succeeds, fun machine' run => ?_⟩
      have standing := leaves machine' run
      rw [Stands] at standing
      rw [standing]
      cases (f :: rest).find? (·.isDefined) with
      | none => rfl
      | some g => rfl
  · intro machine machine' name callee fault failed
    rcases machine.declareFunction_cases name callee with ⟨fault', run⟩ | ⟨bindings, -, run⟩
    · rw [run] at failed
      exact (EStateM.Result.error.inj failed).2.symm
    · rw [run] at failed
      cases failed

/-- The function `struct Node *f(int table[2][3], char *)`, with or without a body. -/
def nodeFunction (body : Option (List Stmt)) : FunctionDef where
  name := "f"
  returnType := .pointer (.struct ⟨0, "Node"⟩)
  params := [⟨"table", CType.int.arrayOf [2, 3]⟩, ⟨"text", .charPointer⟩]
  body := body
  line := 1

theorem built_nodeFunction (body : Option (List Stmt)) : (nodeFunction body).Built := by
  constructor
  · have letters : ∀ c ∈ ['o', 'd', 'e'], isWordChar c = true := List.all_eq_true.mp rfl
    exact .pointer (.struct ⟨'N', ['o', 'd', 'e'], rfl, rfl, letters⟩)
  · intro param mem
    rcases List.mem_cons.mp mem with rfl | mem
    · exact .arrayOf [2, 3] .int (by decide)
    · obtain rfl := List.mem_singleton.mp mem
      exact .pointer .char

/-- A definition between two prototypes is what the name stands for, and a second one is refused. -/
theorem definition_between_prototypes :
    let machine := start (.blank ⟨4, 16, 8, .reclaim⟩) (.start [])
    (nodeFunction none).signature = "struct Node*(int[2][3],char*)" ∧
      (∃ machine', declareEach "f" [nodeFunction none, nodeFunction (some []), nodeFunction none]
          machine = .ok () machine' ∧
        machine'.frame.local? "f" = some ⟨.function, .function (.user (nodeFunction (some [])))⟩) ∧
      ¬ ∃ machine', declareEach "f" [nodeFunction (some []), nodeFunction (some [])] machine =
        .ok () machine' := by
  intro machine
  have new : machine.frame.local? "f" = none := rfl
  have built : ∀ f ∈ [nodeFunction none, nodeFunction (some []), nodeFunction none], f.Built := by
    intro f mem
    simp only [List.mem_cons, List.not_mem_nil, or_false] at mem
    rcases mem with rfl | rfl | rfl <;> exact built_nodeFunction _
  have twice : ∀ f ∈ [nodeFunction (some []), nodeFunction (some [])], f.Built := by
    intro f mem
    simp only [List.mem_cons, List.not_mem_nil, or_false, or_self] at mem
    rw [mem]
    exact built_nodeFunction _
  have alike (body body' : Option (List Stmt)) :
      (nodeFunction body).SameTypes (nodeFunction body') :=
    (FunctionDef.signature_eq_iff (built_nodeFunction body) (built_nodeFunction body')).mp rfl
  obtain ⟨-, -, declared, -⟩ := declarations_agree_by_type
  obtain ⟨succeeds, leaves⟩ := declared machine "f" _ new built
  obtain ⟨machine', run⟩ := succeeds.mpr ⟨by simp [alike], by decide⟩
  refine ⟨by decide +kernel, ⟨machine', run, leaves machine' run⟩, ?_⟩
  rw [(declared machine "f" _ new twice).1]
  rintro ⟨-, once⟩
  exact absurd once (by decide)

end Machine

end FlatC
