import QuestLogic.Step

/-!
# Laws of steps

How steps run, and what a step keeps to from whatever state it starts. `run_bind` and its
companions turn a step into the pair of its outcome and the state it leaves. A `Rule` says which
states may follow a state and which faults may be met in the state that is left; both pass through
sequencing, so that a step built from obedient parts is obedient (`Rule.Obeys.bind`), and the parts
are looked at one at a time.
-/

namespace QuestLogic

/-- A value is handed on. -/
@[simp] theorem Except.ok_bind {ε α β : Type} (a : α) (f : α → Except ε β) :
    (Except.ok a >>= f) = f a := rfl

/-- A sequence that gives a value does so in both of its parts. -/
theorem Except.bind_eq_ok {ε α β : Type} {x : Except ε α} {f : α → Except ε β} {b : β} :
    (x >>= f) = .ok b ↔ ∃ a, x = .ok a ∧ f a = .ok b := by
  rcases x with e | a
  · constructor
    · intro h
      cases h
    · rintro ⟨a, h, -⟩
      cases h
  · constructor
    · exact fun h => ⟨a, rfl, h⟩
    · rintro ⟨a', h, h'⟩
      cases h
      exact h'

/-- A sequence that fails does so in one of its parts. -/
theorem Except.bind_eq_error {ε α β : Type} {x : Except ε α} {f : α → Except ε β} {e : ε} :
    (x >>= f) = .error e ↔ x = .error e ∨ ∃ a, x = .ok a ∧ f a = .error e := by
  rcases x with e' | a
  · constructor
    · intro h
      cases h
      exact .inl rfl
    · rintro (h | ⟨a, h, -⟩)
      · cases h
        rfl
      · cases h
  · constructor
    · exact fun h => .inr ⟨a, rfl, h⟩
    · rintro (h | ⟨a', h, h'⟩)
      · cases h
      · cases h
        exact h'

/-- The elements of a list give their values one after the other just if each of them gives one. -/
theorem Except.exists_mapM_eq_ok {ε α β : Type} {f : α → Except ε β} {xs : List α} :
    (∃ ys, xs.mapM f = .ok ys) ↔ ∀ x ∈ xs, ∃ y, f x = .ok y := by
  induction xs with
  | nil => exact ⟨fun _ x hx => absurd hx List.not_mem_nil, fun _ => ⟨[], rfl⟩⟩
  | cons x rest ih =>
    rw [List.forall_mem_cons, ← ih, List.mapM_cons]
    constructor
    · rintro ⟨ys, h⟩
      obtain ⟨y, hfirst, h⟩ := Except.bind_eq_ok.1 h
      obtain ⟨ys, hrest, -⟩ := Except.bind_eq_ok.1 h
      exact ⟨⟨y, hfirst⟩, ys, hrest⟩
    · rintro ⟨⟨y, hfirst⟩, ys, hrest⟩
      exact ⟨y :: ys, by rw [hfirst, Except.ok_bind, hrest]; rfl⟩

namespace Step

variable {σ τ α β : Type}

@[simp] theorem run_pure (a : α) (s : σ) : (pure a : Step σ α).run s = (.ok a, s) := rfl

@[simp] theorem run_throw (e : Fault) (s : σ) : (throw e : Step σ α).run s = (.error e, s) := rfl

/-- What follows a step starts from the state that the step leaves, unless it met a fault. -/
theorem run_bind (x : Step σ α) (f : α → Step σ β) (s : σ) :
    (x >>= f).run s = match x.run s with
      | (.ok a, t) => (f a).run t
      | (.error e, t) => (.error e, t) := by
  change (ExceptT.bindCont f) _ _ = _
  unfold run
  rcases x s with ⟨_ | a, t⟩ <;> rfl

/-- After a step that went through comes what follows it. -/
theorem run_bind_ok {x : Step σ α} {a : α} {s t : σ} (h : x.run s = (.ok a, t))
    (f : α → Step σ β) : (x >>= f).run s = (f a).run t := by
  rw [run_bind, h]

/-- After a fault comes nothing. -/
theorem run_bind_error {x : Step σ α} {e : Fault} {s t : σ} (h : x.run s = (.error e, t))
    (f : α → Step σ β) : (x >>= f).run s = (.error e, t) := by
  rw [run_bind, h]

/-- Steps that begin alike run alike if they go on alike. -/
theorem run_bind_congr {x : Step σ α} {f g : α → Step σ β} {s : σ}
    (h : ∀ a t, x.run s = (.ok a, t) → (f a).run t = (g a).run t) :
    (x >>= f).run s = (x >>= g).run s := by
  rw [run_bind, run_bind]
  rcases hx : x.run s with ⟨e | a, t⟩
  · rfl
  · exact h a t hx

/-- A sequence that went through did so in both of its parts. -/
theorem run_bind_eq_ok {x : Step σ α} {f : α → Step σ β} {b : β} {s u : σ}
    (h : (x >>= f).run s = (.ok b, u)) :
    ∃ a t, x.run s = (.ok a, t) ∧ (f a).run t = (.ok b, u) := by
  rw [run_bind] at h
  rcases hx : x.run s with ⟨e | a, t⟩
  · rw [hx] at h
    cases h
  · rw [hx] at h
    exact ⟨a, t, rfl, h⟩

@[simp] theorem run_get (s : σ) : (get : Step σ σ).run s = (.ok s, s) := rfl

@[simp] theorem run_set (s t : σ) : (set t : Step σ PUnit).run s = (.ok ⟨⟩, t) := rfl

@[simp] theorem run_modify (f : σ → σ) (s : σ) :
    (modify f : Step σ PUnit).run s = (.ok ⟨⟩, f s) := rfl

@[simp] theorem run_view (f : σ → Except Fault α) (s : σ) : (view f).run s = (f s, s) := rfl

/-- An attempt that goes through replaces the state. -/
theorem run_attempt_ok {f : σ → Except Fault (α × σ)} {a : α} {s t : σ} (h : f s = .ok (a, t)) :
    (attempt f).run s = (.ok a, t) := by
  simp only [run, attempt, h]

/-- An attempt that meets a fault leaves the state alone. -/
theorem run_attempt_error {f : σ → Except Fault (α × σ)} {e : Fault} {s : σ} (h : f s = .error e) :
    (attempt f).run s = (.error e, s) := by
  simp only [run, attempt, h]

/-- An update that goes through replaces the state. -/
theorem run_update_ok {f : σ → Except Fault σ} {s t : σ} (h : f s = .ok t) :
    (update f).run s = (.ok (), t) := by
  simp only [run, update, attempt, h, Except.map]

/-- An update that meets a fault leaves the state alone. -/
theorem run_update_error {f : σ → Except Fault σ} {e : Fault} {s : σ} (h : f s = .error e) :
    (update f).run s = (.error e, s) := by
  simp only [run, update, attempt, h, Except.map]

/-- A step on a part of the state leaves the rest of it alone. -/
@[simp] theorem run_zoom (get : σ → τ) (set : τ → σ → σ) (x : Step τ α) (s : σ) :
    (zoom get set x).run s = ((x.run (get s)).1, set (x.run (get s)).2 s) := rfl

end Step

/-- Which states may follow a state, and which faults may be met in the state that is left. -/
structure Rule (σ : Type) where
  leads : σ → σ → Prop
  permits : Fault → σ → Prop
  refl : ∀ s, leads s s
  trans : ∀ {s t u}, leads s t → leads t u → leads s u

namespace Rule

variable {σ τ α β : Type} {ρ : Rule σ}

/-- What a step does from a state is within the rule. -/
def Holds (ρ : Rule σ) (x : Step σ α) (s : σ) : Prop :=
  ρ.leads s (x.run s).2 ∧ ∀ e, (x.run s).1 = .error e → ρ.permits e (x.run s).2

/-- Whatever a step does is within the rule. -/
def Obeys (ρ : Rule σ) (x : Step σ α) : Prop := ∀ s, ρ.Holds x s

theorem holds_pure (a : α) (s : σ) : ρ.Holds (pure a) s :=
  ⟨ρ.refl s, by simp⟩

theorem obeys_pure (a : α) : ρ.Obeys (pure a : Step σ α) := holds_pure a

theorem holds_throw {e : Fault} {s : σ} (h : ρ.permits e s) : ρ.Holds (throw e : Step σ α) s := by
  refine ⟨ρ.refl s, fun e' he => ?_⟩
  cases he
  exact h

/-- A sequence is within the rule if its first part is, and its second from where the first one
leads. -/
theorem holds_bind {x : Step σ α} {f : α → Step σ β} {s : σ} (hx : ρ.Holds x s)
    (hf : ∀ a t, x.run s = (.ok a, t) → ρ.Holds (f a) t) : ρ.Holds (x >>= f) s := by
  obtain ⟨hlead, hfault⟩ := hx
  rcases h : x.run s with ⟨e | a, t⟩
  -- A fault ends the sequence where the first part does.
  · rw [h] at hlead hfault
    rw [Holds, Step.run_bind_error h]
    exact ⟨hlead, fun e' he => hfault e' (by simpa using he)⟩
  · rw [h] at hlead
    obtain ⟨hlead', hfault'⟩ := hf a t h
    rw [Holds, Step.run_bind_ok h]
    exact ⟨ρ.trans hlead hlead', hfault'⟩

/-- What a step does from a state is within the rule if the state leads to another from which some
step within the rule does the same. -/
theorem holds_of_run_eq {x y : Step σ α} {s t : σ} (h : x.run s = y.run t) (hlead : ρ.leads s t)
    (hy : ρ.Holds y t) : ρ.Holds x s := by
  obtain ⟨hlead', hfault⟩ := hy
  rw [Holds, h]
  exact ⟨ρ.trans hlead hlead', hfault⟩

theorem Obeys.bind {x : Step σ α} {f : α → Step σ β} (hx : ρ.Obeys x) (hf : ∀ a, ρ.Obeys (f a)) :
    ρ.Obeys (x >>= f) :=
  fun s => holds_bind (hx s) fun a t _ => hf a t

theorem Obeys.map {x : Step σ α} (hx : ρ.Obeys x) (f : α → β) : ρ.Obeys (f <$> x) := by
  rw [map_eq_pure_bind]
  exact hx.bind fun a => obeys_pure (f a)

/-- What follows a look at the state may rely on what it saw. -/
theorem holds_get_bind {f : σ → Step σ β} {s : σ} (h : ρ.Holds (f s) s) :
    ρ.Holds (get >>= f) s := by
  refine holds_bind ⟨ρ.refl s, by simp⟩ fun a t hs => ?_
  cases hs
  exact h

theorem obeys_get_bind {f : σ → Step σ β} (h : ∀ s, ρ.Obeys (f s)) : ρ.Obeys (get >>= f) :=
  fun s => holds_get_bind (h s s)

theorem holds_modify {f : σ → σ} {s : σ} (h : ρ.leads s (f s)) :
    ρ.Holds (modify f : Step σ PUnit) s :=
  ⟨h, by simp⟩

theorem obeys_modify {f : σ → σ} (h : ∀ s, ρ.leads s (f s)) :
    ρ.Obeys (modify f : Step σ PUnit) :=
  fun s => holds_modify (h s)

theorem holds_set {s t : σ} (h : ρ.leads s t) : ρ.Holds (set t : Step σ PUnit) s :=
  ⟨h, by simp⟩

theorem obeys_view {f : σ → Except Fault α} (h : ∀ s e, f s = .error e → ρ.permits e s) :
    ρ.Obeys (.view f) :=
  fun s => ⟨ρ.refl s, h s⟩

/-- An update is within the rule if its successes lead on and its faults are permitted. -/
theorem obeys_update {f : σ → Except Fault σ} (hok : ∀ s t, f s = .ok t → ρ.leads s t)
    (herr : ∀ s e, f s = .error e → ρ.permits e s) : ρ.Obeys (.update f) := by
  intro s
  rcases h : f s with e | t
  · rw [Holds, Step.run_update_error h]
    refine ⟨ρ.refl s, fun e' he => ?_⟩
    cases he
    exact herr s e h
  · rw [Holds, Step.run_update_ok h]
    exact ⟨hok s t h, by simp⟩

/-- A step on a part of the state obeys what the rule makes of the rule for that part. -/
theorem obeys_zoom {π : Rule τ} {get : σ → τ} {set : τ → σ → σ} {x : Step τ α}
    (hlead : ∀ s t, π.leads (get s) t → ρ.leads s (set t s))
    (hfault : ∀ s e t, π.permits e t → ρ.permits e (set t s)) (hx : π.Obeys x) :
    ρ.Obeys (.zoom get set x) := by
  intro s
  obtain ⟨h, h'⟩ := hx (get s)
  rw [Holds, Step.run_zoom]
  exact ⟨hlead s _ h, fun e he => hfault s e _ (h' e he)⟩

/-- What a rule keeps, an obedient step keeps. -/
theorem Obeys.keeps {x : Step σ α} (hx : ρ.Obeys x) {P : σ → Prop}
    (hP : ∀ {s t}, ρ.leads s t → P s → P t) {s : σ} (hs : P s) : P (x.run s).2 :=
  hP (hx s).1 hs

/-! ## Invariants -/

/-- An invariant is kept, whatever faults are met. -/
def keeping (I : σ → Prop) : Rule σ where
  leads s t := I s → I t
  permits _ _ := True
  refl _ hs := hs
  trans h h' hs := h' (h hs)

variable {I : σ → Prop}

theorem obeys_keeping {x : Step σ α} (h : ∀ s, I s → I (x.run s).2) : (keeping I).Obeys x :=
  fun s => ⟨h s, fun _ _ => trivial⟩

/-- An update keeps what its successes keep, since its faults leave the state alone. -/
theorem obeys_keeping_update {f : σ → Except Fault σ} (h : ∀ s t, f s = .ok t → I s → I t) :
    (keeping I).Obeys (.update f) :=
  obeys_update h fun _ _ _ => trivial

/-- Looks and throws change nothing. -/
theorem obeys_keeping_view {f : σ → Except Fault α} : (keeping I).Obeys (.view f) :=
  obeys_view fun _ _ _ => trivial

end Rule

end QuestLogic
