import Mathlib.Logic.Basic

/-! Work on a state that ends well, and what it comes to. -/
namespace TypeRecovery
variable {ε σ α β : Type}

theorem bind_eq_ok {work : EStateM ε σ α} {next : α → EStateM ε σ β} {s t : σ} {b : β}
    (done : (work >>= next) s = .ok b t) :
    ∃ a u, work s = .ok a u ∧ next a u = .ok b t := by
  simp only [bind, EStateM.bind] at done
  cases worked : work s with
  | ok a u => exact ⟨a, u, rfl, by simpa only [worked] using done⟩
  | error e u => simp only [worked, reduceCtorEq] at done

theorem pure_eq_ok {a b : α} {s t : σ} (done : (pure a : EStateM ε σ α) s = .ok b t) :
    b = a ∧ t = s := by
  simp only [pure, EStateM.pure, EStateM.Result.ok.injEq] at done
  exact ⟨done.1.symm, done.2.symm⟩

def succeeds : EStateM.Result ε σ α → Bool
  | .ok _ _ => true
  | .error _ _ => false

theorem exists_eq_ok {result : EStateM.Result ε σ α} (good : succeeds result) :
    ∃ a t, result = .ok a t := by
  cases result with
  | ok a t => exact ⟨a, t, rfl⟩
  | error e t => contradiction

/-- Work that does not fail, whatever state it starts from. -/
def Completes (work : EStateM ε σ α) : Prop := ∀ s, ∃ a t, work s = .ok a t

theorem Completes.pure (a : α) : Completes (pure a : EStateM ε σ α) := fun s => ⟨a, s, rfl⟩

theorem Completes.bind {work : EStateM ε σ α} {next : α → EStateM ε σ β}
    (first : Completes work) (later : ∀ a, Completes (next a)) : Completes (work >>= next) := by
  intro s
  obtain ⟨a, t, worked⟩ := first s
  obtain ⟨b, u, done⟩ := later a t
  refine ⟨b, u, ?_⟩
  simp only [Bind.bind, EStateM.bind, worked, done]

/-- Work that does not fail from a state on, and ends with a result and a state of some kind. -/
def Gives (work : EStateM ε σ α) (s : σ) (post : α → σ → Prop) : Prop :=
  ∃ a t, work s = .ok a t ∧ post a t

theorem Gives.pure {a : α} {s : σ} {post : α → σ → Prop} (holds : post a s) :
    Gives (pure a : EStateM ε σ α) s post := ⟨a, s, rfl, holds⟩

theorem Gives.bind {work : EStateM ε σ α} {next : α → EStateM ε σ β} {s : σ}
    {middle : α → σ → Prop} {post : β → σ → Prop} (first : Gives work s middle)
    (later : ∀ a t, middle a t → Gives (next a) t post) : Gives (work >>= next) s post := by
  obtain ⟨a, t, worked, holds⟩ := first
  obtain ⟨b, u, done, ends⟩ := later a t holds
  refine ⟨b, u, ?_, ends⟩
  simp only [Bind.bind, EStateM.bind, worked, done]

theorem gives_get {s : σ} : Gives (get : EStateM ε σ σ) s fun a t => a = s ∧ t = s :=
  ⟨s, s, rfl, rfl, rfl⟩

theorem gives_modify {s : σ} (f : σ → σ) :
    Gives (modify f : EStateM ε σ Unit) s fun _ t => t = f s := ⟨(), f s, rfl, rfl⟩

theorem Gives.mono {work : EStateM ε σ α} {s : σ} {post wider : α → σ → Prop}
    (given : Gives work s post) (wide : ∀ a t, post a t → wider a t) : Gives work s wider := by
  obtain ⟨a, t, worked, holds⟩ := given
  exact ⟨a, t, worked, wide a t holds⟩

theorem Gives.holds {work : EStateM ε σ α} {s t : σ} {a : α} {post : α → σ → Prop}
    (given : Gives work s post) (done : work s = .ok a t) : post a t := by
  obtain ⟨b, u, worked, holds⟩ := given
  obtain ⟨rfl, rfl⟩ := EStateM.Result.ok.inj (worked.symm.trans done)
  exact holds

theorem gives_of_eq_ok {work : EStateM ε σ α} {s t : σ} {a : α} (done : work s = .ok a t) :
    Gives work s fun b u => b = a ∧ u = t := ⟨a, t, done, rfl, rfl⟩

/-- Work that fails from a state on, with an error and a state of some kind. -/
def Fails (work : EStateM ε σ α) (s : σ) (e : ε) (post : σ → Prop) : Prop :=
  ∃ t, work s = .error e t ∧ post t

theorem Fails.bind {work : EStateM ε σ α} {s : σ} {e : ε} {post : σ → Prop}
    (failed : Fails work s e post) (next : α → EStateM ε σ β) : Fails (work >>= next) s e post := by
  obtain ⟨t, stopped, holds⟩ := failed
  refine ⟨t, ?_, holds⟩
  simp only [Bind.bind, EStateM.bind, stopped]

theorem Gives.fails {work : EStateM ε σ α} {next : α → EStateM ε σ β} {s : σ} {e : ε}
    {middle : α → σ → Prop} {post : σ → Prop} (first : Gives work s middle)
    (later : ∀ a t, middle a t → Fails (next a) t e post) : Fails (work >>= next) s e post := by
  obtain ⟨a, t, worked, holds⟩ := first
  obtain ⟨u, stopped, ends⟩ := later a t holds
  refine ⟨u, ?_, ends⟩
  simp only [Bind.bind, EStateM.bind, worked, stopped]

/-- Work that ends from a state on as one thing says if it is done, and as another if it fails. -/
def Ends (work : EStateM ε σ α) (s : σ) (good : α → σ → Prop) (bad : σ → Prop) : Prop :=
  match work s with
  | .ok a t => good a t
  | .error _ t => bad t

theorem Ends.bind {work : EStateM ε σ α} {next : α → EStateM ε σ β} {s : σ}
    {middle : α → σ → Prop} {good : β → σ → Prop} {bad : σ → Prop} (first : Ends work s middle bad)
    (later : ∀ a t, middle a t → Ends (next a) t good bad) : Ends (work >>= next) s good bad := by
  simp only [Ends, Bind.bind, EStateM.bind] at first ⊢
  cases worked : work s with
  | ok a t =>
    rw [worked] at first
    exact later a t first
  | error e t =>
    rw [worked] at first
    exact first

theorem ends_get_bind {next : σ → EStateM ε σ α} {s : σ} {good : α → σ → Prop} {bad : σ → Prop}
    (given : Ends (next s) s good bad) : Ends (get >>= next) s good bad := given

theorem Ends.mono {work : EStateM ε σ α} {s : σ} {good wider : α → σ → Prop} {bad worse : σ → Prop}
    (given : Ends work s good bad) (wide : ∀ a t, good a t → wider a t)
    (worsens : ∀ t, bad t → worse t) : Ends work s wider worse := by
  unfold Ends at given ⊢
  split
  next a t worked => exact wide a t (by simpa only [worked] using given)
  next e t stopped => exact worsens t (by simpa only [stopped] using given)

end TypeRecovery
