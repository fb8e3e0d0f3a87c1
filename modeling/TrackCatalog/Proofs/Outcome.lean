import TrackCatalog.Traced

/-!
# How steps succeed and fail

A run of several steps yields a value exactly when each step does, and fails where the first of them
fails. The lemmas here take such a run apart, for plain results and for tasks.

* `Task.Yields`: a task turns one tree into another and yields a value.
* `Task.Fails`: a task stops at an error and leaves a tree.
* `Task.yields_bind`, `Task.fails_bind`, `Task.rel_bind`: two tasks in a row, when both succeed, when
  one fails, and in any case.
-/

namespace Except

variable {ε ε' α β : Type}

instance decidableEq [DecidableEq ε] [DecidableEq α] : DecidableEq (Except ε α)
  | .ok a, .ok b => decidable_of_iff (a = b) (by simp)
  | .error d, .error e => decidable_of_iff (d = e) (by simp)
  | .ok _, .error _ => .isFalse (by simp)
  | .error _, .ok _ => .isFalse (by simp)

theorem map_eq_ok_iff {f : α → β} {x : Except ε α} {b : β} :
    x.map f = .ok b ↔ ∃ a, x = .ok a ∧ f a = b := by
  cases x <;> simp [Except.map]

theorem map_eq_error_iff {f : α → β} {x : Except ε α} {e : ε} :
    x.map f = .error e ↔ x = .error e := by
  cases x <;> simp [Except.map]

theorem bind_eq_ok_iff {x : Except ε α} {f : α → Except ε β} {b : β} :
    x >>= f = .ok b ↔ ∃ a, x = .ok a ∧ f a = .ok b := by
  cases x <;> simp [bind, Except.bind]

theorem bind_eq_error_iff {x : Except ε α} {f : α → Except ε β} {e : ε} :
    x >>= f = .error e ↔ x = .error e ∨ ∃ a, x = .ok a ∧ f a = .error e := by
  cases x <;> simp [bind, Except.bind]

theorem mapError_eq_ok_iff {f : ε → ε'} {x : Except ε α} {a : α} :
    x.mapError f = .ok a ↔ x = .ok a := by
  cases x with
  | error e =>
    change Except.error (f e) = Except.ok a ↔ _
    simp
  | ok b =>
    change Except.ok b = Except.ok a ↔ _
    simp

theorem mapError_eq_error_iff {f : ε → ε'} {x : Except ε α} {e : ε'} :
    x.mapError f = .error e ↔ ∃ d, x = .error d ∧ f d = e := by
  cases x with
  | error d =>
    change Except.error (f d) = Except.error e ↔ _
    simp
  | ok a =>
    change Except.ok a = Except.error e ↔ _
    simp

end Except

namespace TrackCatalog

namespace Traced

variable {ε α β : Type}

/-- What two steps note, if the first yields a value. -/
theorem events_bind_of_ok {x : Traced ε α} {f : α → Traced ε β} {a : α} (h : x.result = .ok a) :
    (x >>= f).events = x.events ++ (f a).events := by
  change (andThen x f).events = _
  unfold andThen
  rw [h]

end Traced

namespace Task

variable {ε α β : Type} {t t' : FileTree}

/-- The task turns the tree `t` into `t'` and yields `a`. -/
def Yields (x : Task ε α) (t : FileTree) (a : α) (t' : FileTree) : Prop :=
  (x.run t).result = .ok a ∧ (x.run t).tree = t'

theorem yields_of_result_eq_ok {x : Task ε α} {a : α} (h : (x.run t).result = .ok a) :
    x.Yields t a (x.run t).tree := ⟨h, rfl⟩

/-- **Two tasks in a row** yield what the second yields on the tree that the first leaves. -/
theorem yields_bind {x : Task ε α} {f : α → Task ε β} {b : β} :
    (x >>= f).Yields t b t' ↔ ∃ a u, x.Yields t a u ∧ (f a).Yields u b t' := by
  unfold Yields
  rw [run_bind]
  cases (x.run t).result with
  | error e => simp
  | ok a =>
    refine ⟨fun h => ⟨a, _, ⟨rfl, rfl⟩, h⟩, ?_⟩
    rintro ⟨_, _, ⟨h, rfl⟩, hf⟩
    cases h
    exact hf

/-- Two tasks in a row leave what the first leaves when it fails, or else what the second leaves. -/
theorem tree_bind (x : Task ε α) (f : α → Task ε β) (t : FileTree) :
    (∃ e, (x.run t).result = .error e ∧ ((x >>= f).run t).tree = (x.run t).tree) ∨
      ∃ a, x.Yields t a (x.run t).tree ∧
        ((x >>= f).run t).tree = ((f a).run (x.run t).tree).tree := by
  unfold Yields
  rw [run_bind]
  cases (x.run t).result with
  | error e => exact .inl ⟨e, rfl, rfl⟩
  | ok a => exact .inr ⟨a, ⟨rfl, rfl⟩, rfl⟩

/-- A relation between trees that each of two tasks keeps is kept by both in a row, also when one of
them fails. -/
theorem rel_bind {R : FileTree → FileTree → Prop}
    (trans : ∀ {t u v : FileTree}, R t u → R u v → R t v) {x : Task ε α} {f : α → Task ε β}
    (hx : R t (x.run t).tree) (hf : ∀ a u, x.Yields t a u → R u ((f a).run u).tree) :
    R t ((x >>= f).run t).tree := by
  rcases tree_bind x f t with ⟨e, -, htree⟩ | ⟨a, hy, htree⟩
  · rw [htree]
    exact hx
  · rw [htree]
    exact trans hx (hf a _ hy)

/-- What becomes of the value does not touch the tree. -/
theorem tree_bind_pure (x : Task ε α) (g : α → β) (t : FileTree) :
    ((x >>= fun a => pure (g a)).run t).tree = (x.run t).tree := by
  rw [run_bind]
  cases (x.run t).result <;> rfl

theorem yields_pure {a b : α} : (pure a : Task ε α).Yields t b t' ↔ a = b ∧ t = t' := by
  simp [Yields]

theorem yields_note {e : Event} {u : Unit} : (note e : Task ε Unit).Yields t u t' ↔ t = t' := by
  simp [Yields]

theorem yields_look {f : FileTree → Traced ε α} {a : α} :
    (look f).Yields t a t' ↔ (f t).result = .ok a ∧ t = t' := by
  simp [Yields]

theorem yields_change {f : FileTree → Except ε FileTree} {u : Unit} :
    (change f).Yields t u t' ↔ f t = .ok t' := by
  unfold Yields change
  dsimp only
  cases f t <;> simp

/-- The task fails on the tree `t` with the error `e` and leaves `t'`. -/
def Fails (x : Task ε α) (t : FileTree) (e : ε) (t' : FileTree) : Prop :=
  (x.run t).result = .error e ∧ (x.run t).tree = t'

/-- **Two tasks in a row** fail where the first fails, or where the second does on the tree that the
first leaves. -/
theorem fails_bind {x : Task ε α} {f : α → Task ε β} {e : ε} :
    (x >>= f).Fails t e t' ↔ x.Fails t e t' ∨ ∃ a u, x.Yields t a u ∧ (f a).Fails u e t' := by
  unfold Fails Yields
  rw [run_bind]
  cases (x.run t).result with
  | error e => simp
  | ok a =>
    simp only [reduceCtorEq, false_and, false_or, Except.ok.injEq]
    refine ⟨fun h => ⟨a, _, ⟨rfl, rfl⟩, h⟩, ?_⟩
    rintro ⟨_, _, ⟨rfl, rfl⟩, h⟩
    exact h

theorem not_fails_pure {a : α} {e : ε} : ¬ (pure a : Task ε α).Fails t e t' := by simp [Fails]

theorem not_fails_note {v : Event} {e : ε} : ¬ (note v : Task ε Unit).Fails t e t' := by
  simp [Fails]

theorem fails_look {f : FileTree → Traced ε α} {e : ε} :
    (look f).Fails t e t' ↔ (f t).result = .error e ∧ t = t' := by
  simp [Fails]

/-- A change that is refused leaves the tree. -/
theorem tree_change {f : FileTree → Except ε FileTree} {e : ε}
    (h : ((change f).run t).result = .error e) : ((change f).run t).tree = t := by
  unfold change at h ⊢
  dsimp only at h ⊢
  cases hf : f t <;> simp_all

end Task

end TrackCatalog
