import FlatC.Fault
import FlatC.Proofs.Step

/-!
# Results that follow one another

Two runs are compared as far as one of them gets.  If it fails in a way that nobody asks about,
nothing is said of the other; in every other case the two end alike.

* `Refined` compares two results, with the faults that count as a parameter;
* `Step.Follows` compares two steps from related states, which must stay related.
-/

namespace FlatC

/-- A result is found in sequence when both parts of it are. -/
theorem bind_eq_ok {α β : Type} {x : Except Fault α} {f : α → Except Fault β} {b : β} :
    x >>= f = .ok b ↔ ∃ a, x = .ok a ∧ f a = .ok b := by
  cases x with
  | error fault => exact ⟨nofun, fun ⟨_, found, _⟩ => nomatch found⟩
  | ok a =>
    refine ⟨fun h => ⟨a, rfl, h⟩, fun ⟨a', found, h⟩ => ?_⟩
    cases found
    exact h

/-- A result behind a check is found if the check passes. -/
theorem ok_of_guarded {α : Type} {c : Prop} [Decidable c] {fault : Fault}
    {f : PUnit → Except Fault α} {a : α}
    (h : (if c then throw fault >>= f else f ⟨⟩) = .ok a) : ¬ c ∧ f ⟨⟩ = .ok a := by
  by_cases holds : c
  · rw [if_pos holds] at h
    cases h
  · rw [if_neg holds] at h
    exact ⟨holds, h⟩

/-- Two results are the same, unless the first is a fault that goes unseen. -/
inductive Refined (seen : Fault → Prop) {α : Type} : Except Fault α → Except Fault α → Prop where
  | same (result : Except Fault α) : Refined seen result result
  | unseen {fault : Fault} (result : Except Fault α) :
      ¬ seen fault → Refined seen (.error fault) result

namespace Refined

variable {α β : Type} {seen : Fault → Prop} {x y : Except Fault α} {f g : α → Except Fault β}

theorem of_eq (h : x = y) : Refined seen x y :=
  h ▸ .same x

/-- If no fault counts, only an answer has to be the same. -/
theorem of_ok (h : ∀ a, x = .ok a → y = .ok a) : Refined (fun _ => False) x y := by
  cases x with
  | ok a => exact .of_eq (h a rfl).symm
  | error fault => exact .unseen y id

theorem ok {a : α} (h : Refined seen x y) (found : x = .ok a) : y = .ok a := by
  cases h with
  | same => exact found
  | unseen => cases found

theorem bind (first : Refined seen x y) (next : ∀ a, x = .ok a → Refined seen (f a) (g a)) :
    Refined seen (x >>= f) (y >>= g) := by
  cases first with
  | same =>
    cases x with
    | ok a => exact next a rfl
    | error fault => exact .same _
  | unseen _ unseen => exact .unseen _ unseen

/-- Results behind a check that may end them with a fault. -/
theorem guarded {c : Prop} [Decidable c] (fault : Fault) {f g : PUnit → Except Fault β}
    (h : Refined seen (f ⟨⟩) (g ⟨⟩)) :
    Refined seen (if c then throw fault >>= f else f ⟨⟩)
      (if c then throw fault >>= g else g ⟨⟩) := by
  split
  · exact .same _
  · exact h

end Refined

/-! ## Steps -/

namespace Step

variable {σ α β : Type} {R : σ → σ → Prop} {seen : Fault → Prop}

/-- Two steps end alike and leave related states, unless the first ends with a fault that goes
unseen. -/
inductive Followed (R : σ → σ → Prop) (seen : Fault → Prop) :
    EStateM.Result Fault σ α → EStateM.Result Fault σ α → Prop where
  | ok {s t : σ} (a : α) : R s t → Followed R seen (.ok a s) (.ok a t)
  | error {s t : σ} (fault : Fault) : R s t → Followed R seen (.error fault s) (.error fault t)
  | unseen {s : σ} {fault : Fault} (result : EStateM.Result Fault σ α) :
      ¬ seen fault → Followed R seen (.error fault s) result

/-- Steps that end by a result each, and change nothing. -/
theorem Followed.of_refined {x y : Except Fault α} {s t : σ} (related : R s t) :
    Refined seen x y → Followed R seen
      (match x with
        | .ok a => .ok a s
        | .error fault => .error fault s)
      (match y with
        | .ok a => .ok a t
        | .error fault => .error fault t) := by
  intro refined
  cases refined with
  | same =>
    cases x with
    | ok a => exact .ok a related
    | error fault => exact .error fault related
  | unseen _ unseen => exact .unseen _ unseen

/-- If every fault is seen, endings that are alike are the same to a view that related states
share. -/
theorem Followed.viewed_eq {τ : Type} {view : σ → τ} {ended ended' : EStateM.Result Fault σ α}
    (shared : ∀ {s t}, R s t → view s = view t) (h : Followed R (fun _ => True) ended ended') :
    viewed view ended = viewed view ended' := by
  cases h with
  | ok a related => exact congrArg (EStateM.Result.ok a) (shared related)
  | error fault related => exact congrArg (EStateM.Result.error fault) (shared related)
  | unseen _ unseen => exact absurd trivial unseen

/-- From related states the second step ends like the first. -/
def Follows (R : σ → σ → Prop) (seen : Fault → Prop) (x y : EStateM Fault σ α) : Prop :=
  ∀ s t, R s t → Followed R seen (x s) (y t)

variable {x y : EStateM Fault σ α} {f g : α → EStateM Fault σ β}

theorem follows_pure (a : α) : Follows R seen (pure a) (pure a) :=
  fun _ _ related => .ok a related

theorem follows_throw (fault : Fault) :
    Follows R seen (throw fault : EStateM Fault σ α) (throw fault) :=
  fun _ _ related => .error fault related

theorem follows_bind (first : Follows R seen x y) (next : ∀ a, Follows R seen (f a) (g a)) :
    Follows R seen (x >>= f) (y >>= g) := by
  intro s t related
  have followed := first s t related
  show Followed R seen (EStateM.bind x f s) (EStateM.bind y g t)
  unfold EStateM.bind
  generalize x s = ended, y t = ended' at followed
  cases followed with
  | ok a related' => exact next a _ _ related'
  | error fault related' => exact .error fault related'
  | unseen _ unseen => exact .unseen _ unseen

/-- A change of the state that keeps states related. -/
theorem follows_modify {change : σ → σ} (h : ∀ s t, R s t → R (change s) (change t)) :
    Follows R seen (modify change : EStateM Fault σ PUnit) (modify change) :=
  fun s t related => .ok _ (h s t related)

end Step

end FlatC
