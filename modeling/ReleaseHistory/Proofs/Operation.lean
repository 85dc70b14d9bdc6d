import ReleaseHistory.Fault

/-!
# Results and operations in a row

A sequence of computations that can be refused succeeds if all of them do, and is refused by the
first one that is. For operations on a state the state is passed on in both cases, so the rules say
also which state a refusal leaves.
-/

namespace ReleaseHistory

/-! ### Results -/

namespace Except

variable {ε ε' α β : Type}

theorem ok_bind (a : α) (f : α → Except ε β) : (.ok a : Except ε α) >>= f = f a := rfl

theorem bind_eq_ok {x : Except ε α} {f : α → Except ε β} {b : β} :
    x >>= f = .ok b ↔ ∃ a, x = .ok a ∧ f a = .ok b := by
  cases x <;> simp [bind, Except.bind]

theorem pure_eq_ok {a b : α} : (pure a : Except ε α) = .ok b ↔ b = a := by
  simp [pure, Except.pure, eq_comm]

theorem map_eq_ok {x : Except ε α} {f : α → β} {b : β} :
    f <$> x = .ok b ↔ ∃ a, x = .ok a ∧ b = f a := by
  cases x <;> simp [Functor.map, Except.map, eq_comm]

theorem mapError_eq_ok {x : Except ε α} {f : ε → ε'} {a : α} :
    x.mapError f = .ok a ↔ x = .ok a := by
  constructor
  · intro h
    cases x <;> cases h
    rfl
  · rintro rfl
    rfl

theorem toOption_eq_some {x : Except ε α} {a : α} : x.toOption = some a ↔ x = .ok a := by
  cases x <;> simp [Except.toOption]

end Except

/-! ### Operations -/

namespace Operation

variable {σ α β : Type}

/-- The result of an operation on a state, and the state after it. -/
def on (x : Operation σ α) (s : σ) : Except Fault α × σ := x.run s

variable {x : Operation σ α} {f : α → Operation σ β} {s t u : σ}

theorem on_eq (x : Operation σ α) (s : σ) : on x s = ((on x s).1, (on x s).2) := rfl

@[simp] theorem on_pure (a : α) : on (pure a) s = (.ok a, s) := rfl

@[simp] theorem on_throw (e : Fault) : on (throw e : Operation σ α) s = (.error e, s) := rfl

@[simp] theorem on_get : on (get : Operation σ σ) s = (.ok s, s) := rfl

@[simp] theorem on_set : on (set t : Operation σ PUnit) s = (.ok ⟨⟩, t) := rfl

@[simp] theorem on_modify (g : σ → σ) : on (modify g : Operation σ PUnit) s = (.ok ⟨⟩, g s) := rfl

theorem on_bind : on (x >>= f) s = match on x s with
    | (.ok a, t) => on (f a) t
    | (.error e, t) => (.error e, t) := by
  show (match x.run s with
    | (r, t) => ExceptT.bindCont f r t : Except Fault β × σ) = _
  unfold on
  rcases (x.run s : Except Fault α × σ) with ⟨r, t⟩
  cases r <;> rfl

theorem on_bind_of_ok {a : α} (h : on x s = (.ok a, t)) : on (x >>= f) s = on (f a) t := by
  rw [on_bind, h]

theorem on_bind_of_error {e : Fault} (h : on x s = (.error e, t)) :
    on (x >>= f) s = (.error e, t) := by
  rw [on_bind, h]

theorem bind_eq_ok {b : β} :
    on (x >>= f) s = (.ok b, u) ↔ ∃ a t, on x s = (.ok a, t) ∧ on (f a) t = (.ok b, u) := by
  rcases h : on x s with ⟨r, t⟩
  cases r with
  | error e => simp [on_bind_of_error h]
  | ok a => simp [on_bind_of_ok h, and_assoc]

/-- A sequence of two operations is refused by the first, or by the second after the first. -/
theorem bind_eq_error {e : Fault} :
    on (x >>= f) s = (.error e, u) ↔ on x s = (.error e, u) ∨
      ∃ a t, on x s = (.ok a, t) ∧ on (f a) t = (.error e, u) := by
  rcases h : on x s with ⟨r, t⟩
  cases r with
  | error e' => simp [on_bind_of_error h]
  | ok a => simp [on_bind_of_ok h, and_assoc]

/-! ### What is preserved -/

/-- An operation preserves a property of the state, whether it succeeds or is refused. -/
def Preserves (I : σ → Prop) (x : Operation σ α) : Prop := ∀ s, I s → I (on x s).2

variable {I : σ → Prop}

theorem preserves_pure (a : α) : Preserves I (pure a : Operation σ α) := fun _ hs => hs

theorem preserves_throw (e : Fault) : Preserves I (throw e : Operation σ α) := fun _ hs => hs

theorem preserves_modify {g : σ → σ} (hg : ∀ s, I s → I (g s)) :
    Preserves I (modify g : Operation σ PUnit) :=
  fun s hs => hg s hs

theorem Preserves.bind (hx : Preserves I x) (hf : ∀ a, Preserves I (f a)) :
    Preserves I (x >>= f) := by
  intro s hs
  have hfirst := hx s hs
  rcases hon : on x s with ⟨result, t⟩
  rw [hon] at hfirst
  cases result with
  | error e => rwa [on_bind_of_error hon]
  | ok a =>
    rw [on_bind_of_ok hon]
    exact hf a t hfirst

theorem preserves_get_bind {f : σ → Operation σ β} (hf : ∀ s, I s → I (on (f s) s).2) :
    Preserves I (get >>= f) := by
  intro s hs
  rw [on_bind_of_ok on_get]
  exact hf s hs

end Operation

end ReleaseHistory
