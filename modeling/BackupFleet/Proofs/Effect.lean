import BackupFleet.Hook.Retry

/-!
# `BackupFleet.Proofs.Effect` — what a step leaves behind

File operations, services and commands are steps of one kind: each takes a state and leaves one, whether
it succeeds or fails. A failing step may have changed something before, so what is claimed of the state
afterwards is claimed of both outcomes. `Within R` says that a step goes from any state to one that `R`
relates to it; a relation that is an `IsReach` only has to be checked for the steps that a program is
put together from.

## Contents

* `bind_apply`, `bind_eq_ok_iff`, `tryCatch_apply` — one step after another, applied;
* `after`, `bind_cases`, `after_bind_cases` — the state that a step leaves;
* `succeeds`, `result?` — whether it ends without an error, and what it gives then;
* `IsReach`, `Within` — relations between the states before and after;
* `Within.bind`, `Within.tryCatch`, `Within.ite`, `Within.retry` — the ways steps are put together;
* `attempts`, `Indifferent`, `succeeds_retry` — the runs of an action that is tried again;
* `Kept` — a property of states, kept by a step;
* `Raises` — a property of the errors of a step;
* `Mirrors` — a step on a state, and the same step on a part of it.
-/

namespace BackupFleet.Effect

variable {ε σ α β : Type}

/-! ## Steps, applied -/

theorem bind_apply (x : EStateM ε σ α) (k : α → EStateM ε σ β) (s : σ) :
    (x >>= k) s = match x s with
      | .ok a s => k a s
      | .error e s => .error e s := by
  show EStateM.bind x k s = _
  unfold EStateM.bind
  cases x s <;> rfl

/-- Two steps end without an error iff the second one does where the first one has ended without one. -/
theorem bind_eq_ok_iff {x : EStateM ε σ α} {k : α → EStateM ε σ β} {s s' : σ} {b : β} :
    (x >>= k) s = .ok b s' ↔ ∃ a t, x s = .ok a t ∧ k a t = .ok b s' := by
  rw [bind_apply]
  cases x s with
  | ok a t => exact ⟨fun h => ⟨a, t, rfl, h⟩, by rintro ⟨_, _, ⟨⟩, h⟩; exact h⟩
  | error e t => exact ⟨fun h => (by cases h), by rintro ⟨_, _, h, -⟩; cases h⟩

/-- What a failing step changed is still changed when the failure is dealt with. -/
theorem tryCatch_apply (x : EStateM ε σ α) (k : ε → EStateM ε σ α) (s : σ) :
    (tryCatch x k : EStateM ε σ α) s = match x s with
      | .ok a s => .ok a s
      | .error e s => k e s := by
  show EStateM.tryCatch x k s = _
  unfold EStateM.tryCatch
  cases x s <;> rfl

@[simp] theorem pure_apply (a : α) (s : σ) : (pure a : EStateM ε σ α) s = .ok a s := rfl

@[simp] theorem get_apply (s : σ) : (get : EStateM ε σ σ) s = .ok s s := rfl

/-! ## The state afterwards -/

/-- The state that a step leaves, however it ends. -/
def after (x : EStateM ε σ α) (s : σ) : σ :=
  match x s with
  | .ok _ s => s
  | .error _ s => s

theorem after_congr {x y : EStateM ε σ α} {s t : σ} (h : x s = y t) : after x s = after y t := by
  rw [after, h, ← after]

theorem after_of_ok {x : EStateM ε σ α} {a : α} {s s' : σ} (h : x s = .ok a s') : after x s = s' := by
  rw [after, h]

theorem after_of_error {x : EStateM ε σ α} {e : ε} {s s' : σ} (h : x s = .error e s') :
    after x s = s' := by
  rw [after, h]

/-- A first step fails, or a second one starts where the first one ended. -/
theorem bind_cases (x : EStateM ε σ α) (k : α → EStateM ε σ β) (s : σ) :
    (∃ e s', x s = .error e s' ∧ (x >>= k) s = .error e s') ∨
      ∃ a s', x s = .ok a s' ∧ (x >>= k) s = k a s' := by
  rw [bind_apply]
  cases hs : x s with
  | ok a s' => exact .inr ⟨a, s', rfl, rfl⟩
  | error e s' => exact .inl ⟨e, s', rfl, rfl⟩

theorem after_bind_cases (x : EStateM ε σ α) (k : α → EStateM ε σ β) (s : σ) :
    (∃ e s', x s = .error e s' ∧ after (x >>= k) s = s') ∨
      ∃ a s', x s = .ok a s' ∧ after (x >>= k) s = after (k a) s' := by
  rcases bind_cases x k s with ⟨e, s', hs, he⟩ | ⟨a, s', hs, hk⟩
  · exact .inl ⟨e, s', hs, after_of_error he⟩
  · exact .inr ⟨a, s', hs, after_congr hk⟩

/-- The step ends without an error. -/
def succeeds (x : EStateM ε σ α) (s : σ) : Bool :=
  match x s with
  | .ok _ _ => true
  | .error _ _ => false

theorem succeeds_congr {x y : EStateM ε σ α} {s t : σ} (h : x s = y t) : succeeds x s = succeeds y t := by
  rw [succeeds, h, ← succeeds]

theorem succeeds_of_ok {x : EStateM ε σ α} {a : α} {s s' : σ} (h : x s = .ok a s') :
    succeeds x s = true := by
  rw [succeeds, h]

theorem succeeds_of_error {x : EStateM ε σ α} {e : ε} {s s' : σ} (h : x s = .error e s') :
    succeeds x s = false := by
  rw [succeeds, h]

theorem exists_of_succeeds {x : EStateM ε σ α} {s : σ} (h : succeeds x s = true) :
    ∃ a, x s = .ok a (after x s) := by
  unfold succeeds at h
  cases hs : x s with
  | ok a s' => exact ⟨a, by rw [after_of_ok hs]⟩
  | error e s' =>
    rw [hs] at h
    cases h

/-- What the step gives, if it ends without an error. -/
def result? (x : EStateM ε σ α) (s : σ) : Option α :=
  match x s with
  | .ok a _ => some a
  | .error _ _ => none

theorem eq_ok_of_result? {x : EStateM ε σ α} {s : σ} {a : α} (h : result? x s = some a) :
    x s = .ok a (after x s) := by
  unfold result? at h
  cases hs : x s with
  | ok b s' =>
    rw [hs] at h
    rw [after_of_ok hs, Option.some.inj h]
  | error e s' =>
    rw [hs] at h
    cases h

/-! ## Relations between the states before and after -/

/-- A state is related to itself, and where two steps lead, one step may lead. -/
structure IsReach (R : σ → σ → Prop) : Prop where
  refl : ∀ s, R s s
  trans : ∀ {a b c}, R a b → R b c → R a c

/-- The state that a step leaves is related to the one before it, whatever that one is. -/
def Within (R : σ → σ → Prop) (x : EStateM ε σ α) : Prop := ∀ s, R s (after x s)

variable {R : σ → σ → Prop}

theorem Within.pure (hR : IsReach R) (a : α) : Within R (Pure.pure a : EStateM ε σ α) := hR.refl

theorem Within.throw (hR : IsReach R) (e : ε) : Within R (MonadExcept.throw e : EStateM ε σ α) := hR.refl

/-- A second step may count on what the first one is known to answer. -/
theorem Within.bind {x : EStateM ε σ α} {k : α → EStateM ε σ β} (hR : IsReach R) (hx : Within R x)
    (hk : ∀ a s s', x s = .ok a s' → R s' (after (k a) s')) : Within R (x >>= k) := by
  intro s
  have h := hx s
  unfold after at h ⊢
  rw [bind_apply]
  cases hs : x s with
  | ok a s' =>
    rw [hs] at h
    exact hR.trans h (hk a s s' hs)
  | error e s' =>
    rw [hs] at h
    exact h

theorem Within.tryCatch {x : EStateM ε σ α} {k : ε → EStateM ε σ α} (hR : IsReach R)
    (hx : Within R x) (hk : ∀ e, Within R (k e)) : Within R (MonadExcept.tryCatch x k) := by
  intro s
  have h := hx s
  unfold after at h ⊢
  rw [tryCatch_apply]
  cases hs : x s with
  | ok a s' =>
    rw [hs] at h
    exact h
  | error e s' =>
    rw [hs] at h
    exact hR.trans h (hk e s')

theorem Within.ite {p : Prop} [Decidable p] {x y : EStateM ε σ α} (hx : Within R x) (hy : Within R y) :
    Within R (if p then x else y) := by
  split
  · exact hx
  · exact hy

/-- Trying again leads where the steps and the pauses between them lead. -/
theorem Within.retry {x : EStateM ε σ α} {pause : Nat → σ → σ} (hR : IsReach R) (hx : Within R x)
    (hpause : ∀ k s, R s (pause k s)) (times : Nat) : Within R (BackupFleet.retry x pause times) := by
  intro s
  unfold BackupFleet.retry
  generalize 0 = attempt
  induction attempt, s using retryFrom.induct x pause times with
  | case1 attempt s a s' hs =>
    have h := hx s
    rw [after_of_ok hs] at h
    rwa [after_of_ok (retryFrom_of_ok hs)]
  | case2 attempt s e s' hs hlt ih =>
    have h := hx s
    rw [after_of_error hs] at h
    rw [after_congr (retryFrom_of_lt hs hlt)]
    exact hR.trans h (hR.trans (hpause _ s') ih)
  | case3 attempt s e s' hs hlt =>
    have h := hx s
    rw [after_of_error hs] at h
    rwa [after_of_error (retryFrom_of_not_lt hs hlt)]

/-- The states in which the runs of an action start that is tried again while it fails. -/
def attempts (x : EStateM ε σ α) (pause : σ → σ) : (times : Nat) → σ → List σ
  | 0, s => [s]
  | times + 1, s => s :: if succeeds x s then [] else attempts x pause times (pause (after x s))

/-- The step does not tell related states apart: it ends alike in both, and leaves related states. -/
structure Indifferent (R : σ → σ → Prop) (x : EStateM ε σ α) : Prop where
  succeeds : ∀ {s t}, R s t → Effect.succeeds x s = Effect.succeeds x t
  after : ∀ {s t}, R s t → R (after x s) (after x t)

/-- **Trying again ends without an error iff some attempt does**, and pauses do not matter to that if the
    action takes no notice of them. -/
theorem succeeds_retry {x : EStateM ε σ α} {pause : Nat → σ → σ} (hx : Indifferent R x)
    (hpause : ∀ k s t, R s t → R (pause k s) t) (times : Nat) {s t : σ} (h : R s t) :
    succeeds (BackupFleet.retry x pause times) s = (attempts x id times t).any (succeeds x) := by
  suffices hfrom : ∀ attempt ≤ times, succeeds (retryFrom x pause times attempt) s
      = (attempts x id (times - attempt) t).any (succeeds x) from hfrom 0 (Nat.zero_le _)
  intro attempt hle
  induction attempt, s using retryFrom.induct x pause times generalizing t with
  | case1 attempt s a s' hs =>
    have hsucceeds : succeeds x t = true := (hx.succeeds h).symm.trans (succeeds_of_ok hs)
    rw [succeeds_of_ok (retryFrom_of_ok hs)]
    cases times - attempt with
    | zero => simp [attempts, hsucceeds]
    | succ left => simp [attempts, hsucceeds]
  | case2 attempt s e s' hs hlt ih =>
    have hfails : succeeds x t = false := (hx.succeeds h).symm.trans (succeeds_of_error hs)
    have hafter : R s' (after x t) := by
      rw [← after_of_error hs]
      exact hx.after h
    have hleft : times - attempt = times - (attempt + 1) + 1 := by omega
    rw [succeeds_congr (retryFrom_of_lt hs hlt), hleft, attempts, List.any_cons, hfails, Bool.false_or,
      if_neg Bool.false_ne_true]
    exact ih (hpause _ _ _ hafter) hlt
  | case3 attempt s e s' hs hlt =>
    have hfails : succeeds x t = false := (hx.succeeds h).symm.trans (succeeds_of_error hs)
    rw [succeeds_of_error (retryFrom_of_not_lt hs hlt), Nat.sub_eq_zero_of_le (Nat.not_lt.1 hlt)]
    simp [attempts, hfails]

/-! ## A property that is kept -/

/-- If the property holds of the first state, it holds of the second. -/
def Kept (P : σ → Prop) (s s' : σ) : Prop := P s → P s'

theorem isReach_kept (P : σ → Prop) : IsReach (Kept P) where
  refl := fun _ h => h
  trans := fun h h' hp => h' (h hp)

/-! ## The errors of a step -/

/-- Whatever error the step ends with has the property. -/
def Raises (P : ε → Prop) (x : EStateM ε σ α) : Prop := ∀ s e s', x s = .error e s' → P e

section Raises

variable {P : ε → Prop}

theorem Raises.pure (a : α) : Raises P (Pure.pure a : EStateM ε σ α) := by
  intro s e s' h
  cases h

theorem Raises.bind {x : EStateM ε σ α} {k : α → EStateM ε σ β} (hx : Raises P x)
    (hk : ∀ a, Raises P (k a)) : Raises P (x >>= k) := by
  intro s e s' h
  rw [bind_apply] at h
  cases hs : x s with
  | ok a t =>
    rw [hs] at h
    exact hk a t e s' h
  | error d t =>
    rw [hs] at h
    cases h
    exact hx s e s' hs

theorem Raises.ite {p : Prop} [Decidable p] {x y : EStateM ε σ α} (hx : Raises P x) (hy : Raises P y) :
    Raises P (if p then x else y) := by
  split
  · exact hx
  · exact hy

end Raises

/-! ## The same step on a part of the state -/

section Mirrors

variable {τ : Type} {π : τ → σ}

/-- The outcome, with the part of the state that is seen. -/
def seen (π : τ → σ) : EStateM.Result ε τ α → EStateM.Result ε σ α
  | .ok a t => .ok a (π t)
  | .error e t => .error e (π t)

/-- What the first step does to the part of the state that is seen is what the second one does. -/
def Mirrors (π : τ → σ) (x' : EStateM ε τ α) (x : EStateM ε σ α) : Prop := ∀ t, x (π t) = seen π (x' t)

theorem Mirrors.pure (a : α) :
    Mirrors π (Pure.pure a : EStateM ε τ α) (Pure.pure a : EStateM ε σ α) := fun _ => rfl

theorem Mirrors.bind {x' : EStateM ε τ α} {x : EStateM ε σ α} {k' : α → EStateM ε τ β}
    {k : α → EStateM ε σ β} (hx : Mirrors π x' x) (hk : ∀ a, Mirrors π (k' a) (k a)) :
    Mirrors π (x' >>= k') (x >>= k) := by
  intro t
  rw [bind_apply, bind_apply, hx t]
  cases x' t with
  | ok a t' => exact hk a t'
  | error e t' => rfl

theorem Mirrors.ite {p : Prop} [Decidable p] {x' y' : EStateM ε τ α} {x y : EStateM ε σ α}
    (hx : Mirrors π x' x) (hy : Mirrors π y' y) :
    Mirrors π (if p then x' else y') (if p then x else y) := by
  split
  · exact hx
  · exact hy

end Mirrors

end BackupFleet.Effect
