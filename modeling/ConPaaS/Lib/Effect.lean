import Mathlib.Order.Defs.Unbundled

namespace Effect

variable {ε σ α β : Type} {x : EStateM ε σ α} {f : α → EStateM ε σ β} {s t : σ} {rel : σ → σ → Prop}

/-- The state a computation leaves, whether it returns or raises. -/
def left (x : EStateM ε σ α) (s : σ) : σ :=
  match x s with
  | .ok _ t => t
  | .error _ t => t

theorem left_ok {a : α} (run : x s = .ok a t) : left x s = t := by
  simp only [left, run]

theorem left_error {e : ε} (run : x s = .error e t) : left x s = t := by
  simp only [left, run]

theorem left_of_eq {y : EStateM ε σ α} (same : x s = y t) : left x s = left y t := by
  simp only [left, same]

theorem bind_of_ok {a : α} (run : x s = .ok a t) : (x >>= f) s = f a t := by
  simp only [bind, EStateM.bind, run]

theorem bind_of_error {e : ε} (run : x s = .error e t) : (x >>= f) s = .error e t := by
  simp only [bind, EStateM.bind, run]

/-- Two computations that agree on a state agree on what follows. -/
theorem bind_of_eq {y : EStateM ε σ α} (same : x s = y t) : (x >>= f) s = (y >>= f) t := by
  simp only [bind, EStateM.bind, same]

/-- A computation in two parts returns when both parts do. -/
theorem bind_ok {b : β} : (x >>= f) s = .ok b t ↔ ∃ a u, x s = .ok a u ∧ f a u = .ok b t := by
  cases run : x s with
  | ok a u =>
    rw [bind_of_ok run]
    constructor
    · exact fun later => ⟨a, u, rfl, later⟩
    · rintro ⟨_, _, same, later⟩
      cases same
      exact later
  | error e u => simp [bind_of_error run]

theorem bind_error {e : ε} : (x >>= f) s = .error e t ↔ x s = .error e t ∨ ∃ a u, x s = .ok a u ∧ f a u = .error e t := by
  cases run : x s with
  | ok a u =>
    rw [bind_of_ok run]
    constructor
    · exact fun later => .inr ⟨a, u, rfl, later⟩
    · rintro (same | ⟨_, _, same, later⟩)
      · cases same
      · cases same
        exact later
  | error e u => simp [bind_of_error run]

/-- What a computation returns, with the state it leaves. -/
def returned (x : EStateM ε σ α) (s : σ) : Option (α × σ) :=
  match x s with
  | .ok a t => some (a, t)
  | .error _ _ => none

theorem returned_some {a : α} : returned x s = some (a, t) ↔ x s = .ok a t := by
  cases run : x s with
  | ok b u => simp [returned, run]
  | error e u => simp [returned, run]

theorem get_run : (get : EStateM ε σ σ) s = .ok s s := rfl

theorem modify_run (change : σ → σ) : (modify change : EStateM ε σ PUnit) s = .ok ⟨⟩ (change s) := rfl

theorem get_bind {f : σ → EStateM ε σ β} : (get >>= f) s = f s s := rfl

theorem throw_run (e : ε) : (throw e : EStateM ε σ α) s = .error e s := rfl

theorem tryCatch_of_ok {a : α} {handler : ε → EStateM ε σ α} (run : x s = .ok a t) : tryCatch x handler s = .ok a t := by
  simp only [tryCatch, tryCatchThe, MonadExceptOf.tryCatch]
  delta EStateM.tryCatch
  simp only [run]

theorem tryCatch_of_error {e : ε} {handler : ε → EStateM ε σ α} (run : x s = .error e t) :
    tryCatch x handler s = handler e t := by
  simp only [tryCatch, tryCatchThe, MonadExceptOf.tryCatch]
  delta EStateM.tryCatch
  simp only [run]
  rfl

theorem pure_ok {a b : α} : (pure a : EStateM ε σ α) s = .ok b t ↔ a = b ∧ s = t := by
  simp [pure, EStateM.pure]

theorem left_get {f : σ → EStateM ε σ β} : left (get >>= f) s = left (f s) s := rfl

theorem left_tryCatch (a : α) : left (tryCatch x fun _ => pure a) s = left x s := by
  cases run : x s with
  | ok a t => rw [left_ok run, left_ok (tryCatch_of_ok run)]
  | error e t =>
    rw [left_error run, left, tryCatch_of_error run]
    rfl

theorem tryCatch_ok {a b : α} : (tryCatch x fun _ => pure a) s = .ok b t ↔ x s = .ok b t ∨ ∃ e, x s = .error e t ∧ a = b := by
  cases run : x s with
  | ok a t => simp [tryCatch_of_ok run]
  | error e t => simp [tryCatch_of_error run, pure_ok, and_comm]

/-- The states before and after a computation are related, whether it returns
or raises. -/
def Keeps (rel : σ → σ → Prop) (x : EStateM ε σ α) : Prop := ∀ s, rel s (left x s)

theorem Keeps.pure (refl : ∀ s, rel s s) (a : α) : Keeps rel (pure a : EStateM ε σ α) := refl

theorem Keeps.throw (refl : ∀ s, rel s s) (e : ε) : Keeps rel (throw e : EStateM ε σ α) := refl

/-- What holds where the first part raises, and of the second where it returns. -/
theorem left_bind {p : σ → Prop} (raised : ∀ e t, x s = .error e t → p t)
    (returned : ∀ a t, x s = .ok a t → p (left (f a) t)) : p (left (x >>= f) s) := by
  cases run : x s with
  | ok a t => simpa only [left, bind_of_ok run] using returned a t run
  | error e t => simpa only [left, bind_of_error run] using raised e t run

/-- The same for one state before. -/
theorem kept_bind (trans : ∀ {s t u}, rel s t → rel t u → rel s u) (first : rel s (left x s))
    (later : ∀ a t, x s = .ok a t → rel t (left (f a) t)) : rel s (left (x >>= f) s) :=
  left_bind (fun _ _ run => left_error run ▸ first) fun a t run => trans (left_ok run ▸ first) (later a t run)

theorem Keeps.bind (trans : ∀ {s t u}, rel s t → rel t u → rel s u) (first : Keeps rel x) (later : ∀ a, Keeps rel (f a)) :
    Keeps rel (x >>= f) :=
  fun s => kept_bind trans (first s) fun a t _ => later a t

/-- A loop over a list. -/
def forEach (f : α → EStateM ε σ Unit) : List α → EStateM ε σ Unit
  | [] => pure ()
  | a :: rest => do
    f a
    forEach f rest

theorem Keeps.forEach (refl : ∀ s, rel s s) (trans : ∀ {s t u}, rel s t → rel t u → rel s u) {f : α → EStateM ε σ Unit}
    (each : ∀ a, Keeps rel (f a)) (list : List α) : Keeps rel (forEach f list) := by
  induction list with
  | nil => exact Keeps.pure refl ()
  | cons a rest ih => exact Keeps.bind trans (each a) fun _ => ih

theorem forEach_map {f : α → EStateM ε σ Unit} {g : β → α} (list : List β) : forEach f (list.map g) = forEach (fun b => f (g b)) list := by
  induction list with
  | nil => rfl
  | cons b rest ih => rw [List.map_cons, Effect.forEach, ih, Effect.forEach]

theorem forEach_append {f : α → EStateM ε σ Unit} (first second : List α) :
    forEach f (first ++ second) = (do Effect.forEach f first; Effect.forEach f second) := by
  induction first with
  | nil => rfl
  | cons a rest ih => rw [List.cons_append, Effect.forEach, ih, Effect.forEach, bind_assoc]

/-- What is kept by a step that returns and then by one that raises. -/
theorem Keeps.of_ok {a : α} (keeps : Keeps rel x) (run : x s = .ok a t) : rel s t := left_ok run ▸ keeps s

theorem Keeps.of_error {e : ε} (keeps : Keeps rel x) (run : x s = .error e t) : rel s t := left_error run ▸ keeps s

/-- A loop over a list returns when each round does. -/
theorem forEach_ok {list : List α} {f : α → EStateM ε σ Unit} {good : α → Prop} {step : σ → α → σ}
    (each : ∀ a s t, f a s = .ok () t ↔ good a ∧ t = step s a) :
    forEach f list s = .ok () t ↔ (∀ a ∈ list, good a) ∧ t = list.foldl step s := by
  induction list generalizing s with
  | nil => simp [forEach, pure_ok, eq_comm]
  | cons a rest ih =>
    rw [forEach, bind_ok]
    simp only [each, ih, List.forall_mem_cons, List.foldl_cons]
    constructor
    · rintro ⟨_, u, ⟨here, rfl⟩, later, rfl⟩
      exact ⟨⟨here, later⟩, rfl⟩
    · rintro ⟨⟨here, later⟩, rfl⟩
      exact ⟨(), _, ⟨here, rfl⟩, later, rfl⟩

/-- A computation returns under a condition, with a state that the state before
gives. -/
def Returns (x : EStateM ε σ Unit) (condition : Prop) (step : σ → σ) : Prop :=
  ∀ s t, x s = .ok () t ↔ condition ∧ t = step s

theorem Returns.bind {x y : EStateM ε σ Unit} {first second : Prop} {step later : σ → σ} (runs : Returns x first step)
    (continues : Returns y second later) : Returns (do x; y) (first ∧ second) fun s => later (step s) := by
  intro s t
  rw [bind_ok]
  constructor
  · rintro ⟨_, u, ran, continued⟩
    obtain ⟨holds, rfl⟩ := (runs s u).mp ran
    obtain ⟨holds', rfl⟩ := (continues _ t).mp continued
    exact ⟨⟨holds, holds'⟩, rfl⟩
  · rintro ⟨⟨holds, holds'⟩, rfl⟩
    exact ⟨(), _, (runs s _).mpr ⟨holds, rfl⟩, (continues _ _).mpr ⟨holds', rfl⟩⟩

theorem Returns.congr {x : EStateM ε σ Unit} {first second : Prop} {step : σ → σ} (runs : Returns x first step)
    (same : first ↔ second) : Returns x second step :=
  fun s t => (runs s t).trans (and_congr_left fun _ => same)

theorem Returns.pure : Returns (pure () : EStateM ε σ Unit) True id :=
  fun s t => by simp [pure_ok, eq_comm]

/-- A computation returns under a condition, whatever the state. -/
def Succeeds (x : EStateM ε σ α) (condition : Prop) : Prop := ∀ s, (∃ a t, x s = .ok a t) ↔ condition

theorem Returns.succeeds {x : EStateM ε σ Unit} {condition : Prop} {step : σ → σ} (runs : Returns x condition step) :
    Succeeds x condition := by
  intro s
  constructor
  · rintro ⟨_, t, run⟩
    exact ((runs s t).mp run).1
  · exact fun holds => ⟨(), _, (runs s _).mpr ⟨holds, rfl⟩⟩

theorem Succeeds.pure (a : α) : Succeeds (pure a : EStateM ε σ α) True :=
  fun s => iff_true_intro ⟨a, s, rfl⟩

theorem Succeeds.congr {first second : Prop} (succeeds : Succeeds x first) (same : first ↔ second) : Succeeds x second :=
  fun s => (succeeds s).trans same

theorem Succeeds.bind {first second : Prop} (succeeds : Succeeds x first) (later : ∀ a, Succeeds (f a) second) :
    Succeeds (x >>= f) (first ∧ second) := by
  intro s
  constructor
  · rintro ⟨b, t, run⟩
    obtain ⟨a, u, ran, continued⟩ := bind_ok.mp run
    exact ⟨(succeeds s).mp ⟨a, u, ran⟩, (later a u).mp ⟨b, t, continued⟩⟩
  · rintro ⟨holds, holds'⟩
    obtain ⟨a, u, ran⟩ := (succeeds s).mpr holds
    obtain ⟨b, t, continued⟩ := (later a u).mpr holds'
    exact ⟨b, t, bind_ok.mpr ⟨a, u, ran, continued⟩⟩

theorem Succeeds.forEach {f : α → EStateM ε σ Unit} {good : α → Prop} (each : ∀ a, Succeeds (f a) (good a)) (list : List α) :
    Succeeds (forEach f list) (∀ a ∈ list, good a) := by
  induction list with
  | nil => exact (Succeeds.pure ()).congr (iff_of_true trivial fun a member => by cases member)
  | cons a rest ih => exact ((each a).bind fun _ => ih).congr List.forall_mem_cons.symm

end Effect
