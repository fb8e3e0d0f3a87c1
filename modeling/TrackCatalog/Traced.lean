import TrackCatalog.Files.Tree
import TrackCatalog.Log

/-!
# Traced computations and tasks

A traced computation notes events as it goes and ends with a value or an error; what it noted
before an error is kept. A task also changes a file tree, and the changes it made before an error
are kept too. Both are values, so what a step notes, yields or leaves is a function of its input.

* `Traced`: events and a result. It cannot change a tree.
* `Task`: from a tree to the tree that is left, with events and a result.
* `Traced.result_bind`, `Task.run_bind`: how the parts of two steps combine.
-/

namespace TrackCatalog

variable {ε α β : Type}

/-- The events of a computation and how it ended. -/
structure Traced (ε α : Type) where
  events : List Event
  result : Except ε α

namespace Traced

/-- Does one computation and, if it yields a value, the next. -/
def andThen (x : Traced ε α) (f : α → Traced ε β) : Traced ε β :=
  match x.result with
  | .ok a => ⟨x.events ++ (f a).events, (f a).result⟩
  | .error e => ⟨x.events, .error e⟩

instance : Monad (Traced ε) where
  pure a := ⟨[], .ok a⟩
  bind := andThen

/-- Notes one event. -/
def note (e : Event) : Traced ε Unit := ⟨[e], .ok ()⟩

/-- A result without events. -/
def ofExcept (r : Except ε α) : Traced ε α := ⟨[], r⟩

/-- The same events, with the way it ended as the value. -/
def attempt (x : Traced ε α) : Traced ε (Except ε α) := ⟨x.events, .ok x.result⟩

/-- Notes several events. -/
def noteAll (es : List Event) : Traced ε Unit := ⟨es, .ok ()⟩

@[simp] theorem result_attempt (x : Traced ε α) : x.attempt.result = .ok x.result := rfl

@[simp] theorem result_noteAll (es : List Event) : (noteAll es : Traced ε Unit).result = .ok () :=
  rfl

@[simp] theorem result_pure (a : α) : (pure a : Traced ε α).result = .ok a := rfl

@[simp] theorem events_pure (a : α) : (pure a : Traced ε α).events = [] := rfl

@[simp] theorem result_note (e : Event) : (note e : Traced ε Unit).result = .ok () := rfl

@[simp] theorem result_ofExcept (r : Except ε α) : (ofExcept r).result = r := rfl

@[simp] theorem events_ofExcept (r : Except ε α) : (ofExcept r).events = [] := rfl

/-- The result of two steps is that of the second on the value of the first. -/
@[simp] theorem result_bind (x : Traced ε α) (f : α → Traced ε β) :
    (x >>= f).result = x.result.bind fun a => (f a).result := by
  change (andThen x f).result = _
  unfold andThen
  cases x.result <;> rfl

/-- Two steps yield a value when both do. -/
theorem result_bind_eq_ok {x : Traced ε α} {f : α → Traced ε β} {b : β} :
    (x >>= f).result = .ok b ↔ ∃ a, x.result = .ok a ∧ (f a).result = .ok b := by
  rw [result_bind]
  cases x.result <;> simp [Except.bind]

end Traced

/-- What a task leaves, notes and yields. -/
structure Outcome (ε α : Type) where
  tree : FileTree
  events : List Event
  result : Except ε α

/-- A change of a file tree that may fail on the way. -/
structure Task (ε α : Type) where
  run : FileTree → Outcome ε α

namespace Task

/-- Does one task and, if it yields a value, the next on the tree that the first leaves. -/
def andThen (x : Task ε α) (f : α → Task ε β) : Task ε β where
  run t :=
    let first := x.run t
    match first.result with
    | .error e => ⟨first.tree, first.events, .error e⟩
    | .ok a =>
      let second := (f a).run first.tree
      ⟨second.tree, first.events ++ second.events, second.result⟩

instance : Monad (Task ε) where
  pure a := ⟨fun t => ⟨t, [], .ok a⟩⟩
  bind := andThen

/-- Looks at the tree without changing it. -/
def look (f : FileTree → Traced ε α) : Task ε α where
  run t := ⟨t, (f t).events, (f t).result⟩

/-- Notes one event. -/
def note (e : Event) : Task ε Unit where
  run t := ⟨t, [e], .ok ()⟩

/-- Changes the tree, or leaves it when the change is refused. -/
def change (f : FileTree → Except ε FileTree) : Task ε Unit where
  run t :=
    match f t with
    | .ok t => ⟨t, [], .ok ()⟩
    | .error e => ⟨t, [], .error e⟩

/-- Changes the tree, and keeps what was changed when the rest is refused. -/
def attempt (f : FileTree → FileTree × Except ε Unit) : Task ε Unit where
  run t := ⟨(f t).1, [], (f t).2⟩

@[simp] theorem run_pure (a : α) (t : FileTree) :
    (pure a : Task ε α).run t = ⟨t, [], .ok a⟩ := rfl

@[simp] theorem run_look (f : FileTree → Traced ε α) (t : FileTree) :
    (look f).run t = ⟨t, (f t).events, (f t).result⟩ := rfl

@[simp] theorem run_note (e : Event) (t : FileTree) :
    (note e : Task ε Unit).run t = ⟨t, [e], .ok ()⟩ := rfl

@[simp] theorem run_attempt (f : FileTree → FileTree × Except ε Unit) (t : FileTree) :
    (attempt f).run t = ⟨(f t).1, [], (f t).2⟩ := rfl

/-- **Two tasks in a row**: the second starts from what the first leaves, and only if that one
yields a value. -/
theorem run_bind (x : Task ε α) (f : α → Task ε β) (t : FileTree) :
    (x >>= f).run t =
      match (x.run t).result with
      | .error e => ⟨(x.run t).tree, (x.run t).events, .error e⟩
      | .ok a => ⟨((f a).run (x.run t).tree).tree,
          (x.run t).events ++ ((f a).run (x.run t).tree).events,
          ((f a).run (x.run t).tree).result⟩ := rfl

end Task

end TrackCatalog
