import Assessment.Event

/-!
# Operations

An operation acts on a state of type `σ`.  Whether it succeeds or fails, it leaves a state and the
events it has reported; a failure does not undo what was done before it, so an operation that has to
be all or nothing says so in its own theorem.
-/

namespace Assessment

/-- What an operation leaves behind. -/
structure Run (ε σ α : Type) where
  /-- The value of the operation, or why it failed. -/
  result : Except ε α
  /-- The state after it. -/
  state : σ
  /-- What it reported, in order. -/
  events : List Event

/-- An operation on a state of type `σ` that gives an `α` or fails with an `ε`. -/
def Op (ε σ α : Type) : Type := σ → Run ε σ α

namespace Op

variable {ε ε' σ τ α β : Type}

/-- Gives a value and does nothing. -/
def pure (a : α) : Op ε σ α := fun s => ⟨.ok a, s, []⟩

/-- Fails and does nothing. -/
def fail (e : ε) : Op ε σ α := fun s => ⟨.error e, s, []⟩

/-- One operation and then another on the state it leaves, unless the first fails. -/
def bind (x : Op ε σ α) (f : α → Op ε σ β) : Op ε σ β := fun s =>
  let first := x s
  match first.result with
  | .error e => ⟨.error e, first.state, first.events⟩
  | .ok a =>
    let second := f a first.state
    ⟨second.result, second.state, first.events ++ second.events⟩

instance : Monad (Op ε σ) where
  pure := Op.pure
  bind := Op.bind

/-- Gives a property of the state. -/
def get (f : σ → α) : Op ε σ α := fun s => ⟨.ok (f s), s, []⟩

/-- Changes the state. -/
def modify (f : σ → σ) : Op ε σ Unit := fun s => ⟨.ok (), f s, []⟩

/-- Reports an event. -/
def report (e : Event) : Op ε σ Unit := fun s => ⟨.ok (), s, [e]⟩

/-- Gives a value that may be missing for a reason. -/
def ofExcept (x : Except ε α) : Op ε σ α := fun s => ⟨x, s, []⟩

/-- Does an operation for each member of a list in order, up to the first that fails. -/
def forEach (f : β → Op ε σ Unit) : List β → Op ε σ Unit
  | [] => Op.pure ()
  | b :: rest => Op.bind (f b) fun _ => forEach f rest

/-- The same operation with its failures put differently. -/
def mapFailure (f : ε → ε') (x : Op ε σ α) : Op ε' σ α := fun s =>
  let r := x s
  ⟨r.result.mapError f, r.state, r.events⟩

/-- An operation on a part of the state. -/
def zoom (part : τ → σ) (put : σ → τ → τ) (x : Op ε σ α) : Op ε τ α := fun t =>
  let r := x (part t)
  ⟨r.result, put r.state t, r.events⟩

@[simp] theorem pure_apply (a : α) (s : σ) : (Op.pure a : Op ε σ α) s = ⟨.ok a, s, []⟩ := rfl

@[simp] theorem fail_apply (e : ε) (s : σ) : (Op.fail e : Op ε σ α) s = ⟨.error e, s, []⟩ := rfl

theorem bind_of_ok {x : Op ε σ α} {f : α → Op ε σ β} {s : σ} {a : α} (h : (x s).result = .ok a) :
    Op.bind x f s = ⟨(f a (x s).state).result, (f a (x s).state).state,
      (x s).events ++ (f a (x s).state).events⟩ := by
  simp [Op.bind, h]

theorem bind_of_error {x : Op ε σ α} {f : α → Op ε σ β} {s : σ} {e : ε}
    (h : (x s).result = .error e) : Op.bind x f s = ⟨.error e, (x s).state, (x s).events⟩ := by
  simp [Op.bind, h]

@[simp] theorem bind_eq (x : Op ε σ α) (f : α → Op ε σ β) : (x >>= f) = Op.bind x f := rfl

@[simp] theorem pure_eq (a : α) : (Pure.pure a : Op ε σ α) = Op.pure a := rfl

end Op
end Assessment
