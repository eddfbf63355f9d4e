/-!
# Steps that keep their state

Steps on memory, on the console and on the machine are of one kind: they end with an answer or a
fault, and leave a state behind in both cases.  A sequence of two such steps goes by how the
first one ends.

* `Step.left` is the state that an ending leaves behind, and `Step.viewed` an ending with a view of
  that state;
* `Step.Keeps` says that a step never changes a view of the state; sequences of such steps do not
  either;
* `Step.Yields` says that all answers of a step have a property;
* `Step.Moves` relates the state that a step leaves to the one it found, and carries over to
  sequences if the relation can be chained;
* `Step.Upholds` says how a step ends that starts from a state with an invariant.
-/

namespace FlatC.Step

variable {ε σ α β : Type} {x : EStateM ε σ α} {f : α → EStateM ε σ β} {s s' : σ}

theorem bind_of_ok {a : α} (h : x s = .ok a s') : (x >>= f) s = f a s' := by
  simp only [bind, EStateM.bind, h]

theorem bind_of_error {e : ε} (h : x s = .error e s') : (x >>= f) s = .error e s' := by
  simp only [bind, EStateM.bind, h]

/-- What a sequence does goes by what its first part does. -/
theorem bind_congr_at {y : EStateM ε σ α} (same : x s = y s') : (x >>= f) s = (y >>= f) s' := by
  simp only [bind, EStateM.bind, same]

/-- A sequence that ends well has two parts that do. -/
theorem ok_of_bind {b : β} (h : (x >>= f) s = .ok b s') :
    ∃ a middle, x s = .ok a middle ∧ f a middle = .ok b s' := by
  cases first : x s with
  | ok a middle => exact ⟨a, middle, rfl, by rwa [bind_of_ok first] at h⟩
  | error e middle =>
    rw [bind_of_error first] at h
    cases h

/-! ## What a step leaves alone -/

/-- The state that an ending leaves behind. -/
def left : EStateM.Result ε σ α → σ
  | .ok _ s => s
  | .error _ s => s

variable {τ : Type} {view : σ → τ}

/-- An ending with a view of the state that it leaves behind. -/
def viewed (view : σ → τ) : EStateM.Result ε σ α → EStateM.Result ε τ α
  | .ok a s => .ok a (view s)
  | .error e s => .error e (view s)

/-- However the step ends, the view of the state is what it was before. -/
def Keeps (view : σ → τ) (x : EStateM ε σ α) : Prop :=
  ∀ s, view (left (x s)) = view s

theorem keeps_pure (a : α) : Keeps view (pure a : EStateM ε σ α) :=
  fun _ => rfl

theorem keeps_throw (e : ε) : Keeps view (throw e : EStateM ε σ α) :=
  fun _ => rfl

theorem keeps_get : Keeps view (get : EStateM ε σ σ) :=
  fun _ => rfl

theorem keeps_modify {change : σ → σ} (h : ∀ s, view (change s) = view s) :
    Keeps view (modify change : EStateM ε σ PUnit) :=
  h

theorem keeps_bind (first : Keeps view x) (next : ∀ a, Keeps view (f a)) :
    Keeps view (x >>= f) := by
  intro s
  have start := first s
  cases h : x s with
  | ok a s₁ =>
    rw [bind_of_ok h, next a s₁]
    rwa [h] at start
  | error e s₁ =>
    rw [bind_of_error h]
    rwa [h] at start

/-! ## What a step answers -/

/-- Whatever the step answers has the property. -/
def Yields (P : α → Prop) (x : EStateM ε σ α) : Prop :=
  ∀ s a s', x s = .ok a s' → P a

theorem yields_pure {P : α → Prop} {a : α} (h : P a) : Yields P (pure a : EStateM ε σ α) := by
  rintro s b s' ⟨⟩
  exact h

theorem yields_throw {P : α → Prop} (e : ε) : Yields P (throw e : EStateM ε σ α) :=
  fun _ _ _ => nofun

/-- A sequence answers what its second part does, which may go by the answer of the first. -/
theorem yields_sequence {P : α → Prop} {Q : β → Prop} (first : Yields P x)
    (next : ∀ a, P a → Yields Q (f a)) : Yields Q (x >>= f) := by
  intro s b s' h
  obtain ⟨a, middle, start, rest⟩ := ok_of_bind h
  exact next a (first s a middle start) middle b s' rest

theorem yields_bind {P : β → Prop} (next : ∀ a, Yields P (f a)) : Yields P (x >>= f) :=
  yields_sequence (P := fun _ => True) (fun _ _ _ _ => trivial) fun a _ => next a

/-- What follows a step need only be the same for the answers that the step can give. -/
theorem bind_congr_of_yields {P : α → Prop} {g : α → EStateM ε σ β} (yields : Yields P x)
    (same : ∀ a, P a → f a = g a) : x >>= f = x >>= g := by
  funext s
  cases ended : x s with
  | ok a s' => rw [bind_of_ok ended, bind_of_ok ended, same a (yields s a s' ended)]
  | error e s' => rw [bind_of_error ended, bind_of_error ended]

/-- A step behind a check that may end it with a fault. -/
theorem yields_unless {P : α → Prop} {c : Prop} [Decidable c] (e : ε)
    {next : PUnit → EStateM ε σ α} (h : Yields P (next ⟨⟩)) :
    Yields P (if c then throw e >>= next else next ⟨⟩) := by
  split
  · exact fun _ _ _ => nofun
  · exact h

/-! ## Where a step leads -/

/-- However the step ends, the state that it leaves is related to the one it found. -/
def Moves (R : σ → σ → Prop) (x : EStateM ε σ α) : Prop :=
  ∀ s, R s (left (x s))

variable {R : σ → σ → Prop}

theorem moves_pure [Std.Refl R] (a : α) : Moves R (pure a : EStateM ε σ α) :=
  fun s => Std.Refl.refl s

theorem moves_throw [Std.Refl R] (e : ε) : Moves R (throw e : EStateM ε σ α) :=
  fun s => Std.Refl.refl s

theorem moves_get [Std.Refl R] : Moves R (get : EStateM ε σ σ) :=
  fun s => Std.Refl.refl s

theorem moves_modify {change : σ → σ} (h : ∀ s, R s (change s)) :
    Moves R (modify change : EStateM ε σ PUnit) :=
  h

theorem moves_unless [Std.Refl R] {c : Prop} [Decidable c] (e : ε)
    {next : PUnit → EStateM ε σ α} (h : Moves R (next ⟨⟩)) :
    Moves R (if c then throw e >>= next else next ⟨⟩) := by
  split
  · exact moves_throw e
  · exact h

/-- One step after another leads where their two ways lead together.  The second step may go by what
is known of the answers of the first. -/
theorem moves_sequence {S T : σ → σ → Prop} [Std.Refl S] [Trans R S T] {P : α → Prop}
    (first : Moves R x) (yields : Yields P x) (next : ∀ a, P a → Moves S (f a)) :
    Moves T (x >>= f) := by
  intro s
  have start := first s
  cases h : x s with
  | ok a s₁ =>
    rw [bind_of_ok h]
    rw [h] at start
    exact Trans.trans start (next a (yields s a s₁ h) s₁)
  | error e s₁ =>
    rw [bind_of_error h]
    rw [h] at start
    exact Trans.trans start (Std.Refl.refl (r := S) s₁)

theorem moves_bind_of_yields [Std.Refl R] [Trans R R R] {P : α → Prop} (first : Moves R x)
    (yields : Yields P x) (next : ∀ a, P a → Moves R (f a)) : Moves R (x >>= f) :=
  moves_sequence first yields next

theorem moves_bind_trans {S T : σ → σ → Prop} [Std.Refl S] [Trans R S T] (first : Moves R x)
    (next : ∀ a, Moves S (f a)) : Moves T (x >>= f) :=
  moves_sequence (P := fun _ => True) first (fun _ _ _ _ => trivial) fun a _ => next a

theorem moves_bind [Std.Refl R] [Trans R R R] (first : Moves R x) (next : ∀ a, Moves R (f a)) :
    Moves R (x >>= f) :=
  moves_bind_trans first next

/-! ## What a step upholds -/

/-- Started with an invariant, the step ends with it, and its answer has the property or its fault is
of the kind. -/
def Upholds (I : σ → Prop) (P : α → Prop) (F : ε → Prop) (x : EStateM ε σ α) : Prop :=
  ∀ s, I s →
    match x s with
    | .ok a s' => I s' ∧ P a
    | .error e s' => I s' ∧ F e

variable {I : σ → Prop} {P : α → Prop} {Q : β → Prop} {F : ε → Prop}

theorem upholds_pure {a : α} (h : P a) : Upholds I P F (pure a : EStateM ε σ α) :=
  fun _ invariant => ⟨invariant, h⟩

theorem upholds_throw {e : ε} (h : F e) : Upholds I P F (throw e : EStateM ε σ α) :=
  fun _ invariant => ⟨invariant, h⟩

theorem upholds_modify {change : σ → σ} (h : ∀ s, I s → I (change s)) :
    Upholds I (fun _ => True) F (modify change : EStateM ε σ PUnit) :=
  fun s invariant => ⟨h s invariant, trivial⟩

/-- What follows may go by the answer. -/
theorem upholds_bind (first : Upholds I P F x) (next : ∀ a, P a → Upholds I Q F (f a)) :
    Upholds I Q F (x >>= f) := by
  intro s invariant
  have start := first s invariant
  cases h : x s with
  | ok a s₁ =>
    rw [h] at start
    rw [bind_of_ok h]
    exact next a start.2 s₁ start.1
  | error e s₁ =>
    rw [h] at start
    rw [bind_of_error h]
    exact start

/-- A step that upholds an invariant has no fault of another kind. -/
theorem Upholds.fault (h : Upholds I P F x) (invariant : I s) {e : ε} (failed : x s = .error e s') :
    F e := by
  have ending := h s invariant
  rw [failed] at ending
  exact ending.2

end FlatC.Step
