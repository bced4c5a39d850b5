import BlockStudio.EditError

/-! Edits of a state. An edit may fail, and it answers for the state it leaves in either case. -/

namespace BlockStudio

def Edit (σ α : Type) : Type := σ → Except EditError α × σ

namespace Edit

variable {σ τ α β : Type}

def fail (e : EditError) : Edit σ α := fun s => (.error e, s)

def lift (r : Except EditError α) : Edit σ α := fun s => (r, s)

def get : Edit σ σ := fun s => (.ok s, s)

def modify (f : σ → σ) : Edit σ Unit := fun s => (.ok (), f s)

def change (f : σ → σ × α) : Edit σ α := fun s => (.ok (f s).2, (f s).1)

protected def bind (x : Edit σ α) (f : α → Edit σ β) : Edit σ β := fun s =>
  match x s with
  | (.ok a, s) => f a s
  | (.error e, s) => (.error e, s)

instance : Monad (Edit σ) where
  pure a := fun s => (.ok a, s)
  bind := Edit.bind

def within (part : σ → τ) (put : σ → τ → σ) (x : Edit τ α) : Edit σ α := fun s =>
  ((x (part s)).1, put s (x (part s)).2)

theorem bind_ok {x : Edit σ α} {f : α → Edit σ β} {s s' : σ} {a : α} (h : x s = (.ok a, s')) :
    (x >>= f) s = f a s' := by
  show Edit.bind x f s = _
  rw [Edit.bind, h]

theorem bind_error {x : Edit σ α} {f : α → Edit σ β} {s s' : σ} {e : EditError}
    (h : x s = (.error e, s')) : (x >>= f) s = (.error e, s') := by
  show Edit.bind x f s = _
  rw [Edit.bind, h]

@[simp] theorem get_bind (f : σ → Edit σ β) (s : σ) : (get >>= f) s = f s s := rfl

@[simp] theorem lift_ok_bind (a : α) (f : α → Edit σ β) (s : σ) : (lift (.ok a) >>= f) s = f a s := rfl

@[simp] theorem lift_error_bind (e : EditError) (f : α → Edit σ β) (s : σ) :
    (lift (.error e) >>= f) s = (.error e, s) := rfl

@[simp] theorem fail_bind (e : EditError) (f : α → Edit σ β) (s : σ) :
    (fail e >>= f) s = (.error e, s) := rfl

@[simp] theorem modify_bind (h : σ → σ) (f : Unit → Edit σ β) (s : σ) : (modify h >>= f) s = f () (h s) := rfl

@[simp] theorem change_bind (h : σ → σ × α) (f : α → Edit σ β) (s : σ) :
    (change h >>= f) s = f (h s).2 (h s).1 := rfl

@[simp] theorem pure_bind_apply (a : α) (f : α → Edit σ β) (s : σ) : ((pure a : Edit σ α) >>= f) s = f a s := rfl

end Edit

end BlockStudio
