import ScreenLocker.Op

/-! What an operation does, apart from what it logs. `outcome` is the value and the state that an
operation leaves, `tried` the same for one that may fail; the equations here push both through the
steps an operation is made of. `Within` bounds what an operation can do to the state by a relation,
whatever state it starts in. -/

namespace ScreenLocker

variable {σ τ α γ ε : Type}

/-- The value and the state an operation leaves. -/
def outcome (x : Op σ α) (s : σ) : α × σ := (x s).value

/-- What an operation that may fail leaves. -/
def tried (x : ExceptT ε (Op σ) α) (s : σ) : Except ε α × σ := outcome x.run s

@[simp] theorem outcome_pure (a : α) (s : σ) : outcome (pure a) s = (a, s) := rfl

@[simp] theorem outcome_bind (x : Op σ α) (f : α → Op σ γ) (s : σ) :
    outcome (x >>= f) s = outcome (f (outcome x s).1) (outcome x s).2 := rfl

@[simp] theorem outcome_map (f : α → γ) (x : Op σ α) (s : σ) :
    outcome (f <$> x) s = (f (outcome x s).1, (outcome x s).2) := rfl

-- A branch is taken before its condition is rewritten, so that the condition keeps its instance.
@[simp, simp ↓] theorem outcome_ite (p : Prop) [Decidable p] (x y : Op σ α) (s : σ) :
    outcome (if p then x else y) s = if p then outcome x s else outcome y s := by
  split <;> rfl

@[simp] theorem outcome_get (s : σ) : outcome (get : Op σ σ) s = (s, s) := rfl

@[simp] theorem outcome_set (t s : σ) : outcome (set t : Op σ PUnit) s = (⟨⟩, t) := rfl

@[simp] theorem outcome_modify (f : σ → σ) (s : σ) :
    outcome (modify f : Op σ PUnit) s = (⟨⟩, f s) := rfl

@[simp] theorem outcome_modifyGet (f : σ → α × σ) (s : σ) :
    outcome (modifyGet f : Op σ α) s = f s := rfl

-- Log lines leave no trace in an outcome.
attribute [simp] logError logWarn logInfo logDebug

attribute [simp] Except.map

@[simp] theorem mapError_ok {ε' : Type} (f : ε → ε') (a : α) :
    (Except.ok a : Except ε α).mapError f = .ok a := rfl

@[simp] theorem mapError_error {ε' : Type} (f : ε → ε') (e : ε) :
    (Except.error e : Except ε α).mapError f = .error (f e) := rfl

@[simp] theorem outcome_liftM (x : Logged α) (s : σ) :
    outcome (liftM x : Op σ α) s = (x.value, s) := rfl

@[simp] theorem outcome_on (p : Part σ τ) (x : Op τ α) (s : σ) :
    outcome (p.on x : Op σ α) s = ((outcome x (p.get s)).1, p.put (outcome x (p.get s)).2 s) := rfl

@[simp] theorem value_run (x : ExceptT ε (Op σ) α) (s : σ) : (x.run s).value = tried x s := rfl

@[simp] theorem outcome_run (x : ExceptT ε (Op σ) α) (s : σ) : outcome x.run s = tried x s := rfl

@[simp] theorem tried_pure (a : α) (s : σ) :
    tried (pure a : ExceptT ε (Op σ) α) s = (.ok a, s) := rfl

@[simp] theorem tried_throw (e : ε) (s : σ) :
    tried (throw e : ExceptT ε (Op σ) α) s = (.error e, s) := rfl

/-- A failure ends the operation, and what was done before it stays. -/
@[simp] theorem tried_bind (x : ExceptT ε (Op σ) α) (f : α → ExceptT ε (Op σ) γ) (s : σ) :
    tried (x >>= f) s =
      match (tried x s).1 with
      | .ok a => tried (f a) (tried x s).2
      | .error e => (.error e, (tried x s).2) := by
  change outcome (ExceptT.bindCont f (outcome x.run s).1) (outcome x.run s).2 = _
  unfold tried
  cases (outcome x.run s).1 <;> rfl

@[simp] theorem tried_map (f : α → γ) (x : ExceptT ε (Op σ) α) (s : σ) :
    tried (f <$> x) s = ((tried x s).1.map f, (tried x s).2) := by
  rw [map_eq_pure_bind, tried_bind]
  cases (tried x s).1 <;> rfl

@[simp, simp ↓] theorem tried_ite (p : Prop) [Decidable p] (x y : ExceptT ε (Op σ) α) (s : σ) :
    tried (if p then x else y) s = if p then tried x s else tried y s := by
  split <;> rfl

@[simp] theorem tried_get (s : σ) : tried (get : ExceptT ε (Op σ) σ) s = (.ok s, s) := rfl

@[simp] theorem tried_set (t s : σ) : tried (set t : ExceptT ε (Op σ) PUnit) s = (.ok ⟨⟩, t) := rfl

@[simp] theorem tried_modify (f : σ → σ) (s : σ) :
    tried (modify f : ExceptT ε (Op σ) PUnit) s = (.ok ⟨⟩, f s) := rfl

@[simp] theorem tried_modifyGet (f : σ → α × σ) (s : σ) :
    tried (modifyGet f : ExceptT ε (Op σ) α) s = (.ok (f s).1, (f s).2) := rfl

@[simp] theorem tried_liftLog (x : Logged α) (s : σ) :
    tried (liftM x : ExceptT ε (Op σ) α) s = (.ok x.value, s) := rfl

@[simp] theorem tried_liftM (x : Op σ α) (s : σ) :
    tried (liftM x : ExceptT ε (Op σ) α) s = (.ok (outcome x s).1, (outcome x s).2) := rfl

@[simp] theorem tried_on (p : Part σ τ) (x : Op τ α) (s : σ) :
    tried (p.on x : ExceptT ε (Op σ) α) s =
      (.ok (outcome x (p.get s)).1, p.put (outcome x (p.get s)).2 s) := rfl

@[simp] theorem tried_attempt (p : Part σ τ) (x : ExceptT ε (Op τ) α) (s : σ) :
    tried (p.attempt x) s = ((tried x (p.get s)).1, p.put (tried x (p.get s)).2 s) := rfl

@[simp] theorem tried_adapt {ε' : Type} (f : ε → ε') (x : ExceptT ε (Op σ) α) (s : σ) :
    tried (x.adapt f) s = ((tried x s).1.mapError f, (tried x s).2) := rfl

/-- Whatever state the operation starts in, `R` holds from there to the state it leaves. -/
def Within (R : σ → σ → Prop) (x : Op σ α) : Prop := ∀ s, R s (outcome x s).2

namespace Within

variable {R : σ → σ → Prop}

theorem pure [Std.Refl R] (a : α) : Within R (Pure.pure a : Op σ α) := fun s => Std.Refl.refl s

theorem get [Std.Refl R] : Within R (MonadState.get : Op σ σ) := fun s => Std.Refl.refl s

theorem log [Std.Refl R] (x : Logged α) : Within R (liftM x : Op σ α) := fun s => Std.Refl.refl s

theorem tryLog [Std.Refl R] (x : Logged α) : Within R (liftM x : ExceptT ε (Op σ) α).run :=
  fun s => Std.Refl.refl s

theorem map {x : Op σ α} (f : α → γ) (h : Within R x) : Within R (f <$> x) := fun s => h s

theorem bind [Trans R R R] {x : Op σ α} {f : α → Op σ γ} (hx : Within R x)
    (hf : ∀ a, Within R (f a)) :
    Within R (x >>= f) := fun s => Trans.trans (hx s) (hf _ _)

theorem tryBind [Trans R R R] {x : ExceptT ε (Op σ) α} {f : α → ExceptT ε (Op σ) γ}
    (hx : Within R x.run) (hf : ∀ a, Within R (f a).run) : Within R (x >>= f).run := by
  intro s
  rw [outcome_run, tried_bind]
  have first : R s (tried x s).2 := hx s
  cases (tried x s).1 with
  | error e => exact first
  | ok a => exact Trans.trans first (hf a _)

end Within

end ScreenLocker
