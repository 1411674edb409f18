import Mathlib.Data.List.Forall2
import Mathlib.Order.Defs.Unbundled

/-!
# Programs that append to a ledger

A program is an `EStateM`: it reads and changes a state and ends with a value or
an error, and the state survives the error. One component of the state is a
ledger that is only ever appended to. `Extends log x Q` says what a program
appends and how that relates to the way it ends, for every state it starts in;
the rules compose such facts along `bind`, and along the draining of a set of
concurrent jobs. What a program does to more than the ledger is said with `Moves`,
by a preorder on the states.

Concurrent jobs are run in the order in which they complete. The first error ends
the draining; a job that had not completed by then is dropped, but what it already
started cannot be called back. Which of the dropped jobs still leave their effects
is up to the environment (`stray`).
-/

namespace Effect

variable {ε σ τ α β ι : Type}

/-- How a run ended. -/
def resultOf : EStateM.Result ε σ α → Except ε α
  | .ok v _ => .ok v
  | .error e _ => .error e

/-- The state a run ended in. -/
def stateOf : EStateM.Result ε σ α → σ
  | .ok _ s => s
  | .error _ s => s

@[simp] theorem resultOf_ok (v : α) (s : σ) :
    resultOf (.ok v s : EStateM.Result ε σ α) = .ok v := rfl

@[simp] theorem resultOf_error (e : ε) (s : σ) :
    resultOf (.error e s : EStateM.Result ε σ α) = .error e := rfl

@[simp] theorem stateOf_ok (v : α) (s : σ) : stateOf (.ok v s : EStateM.Result ε σ α) = s := rfl

@[simp] theorem stateOf_error (e : ε) (s : σ) :
    stateOf (.error e s : EStateM.Result ε σ α) = s := rfl

theorem run_eq_ok {x : EStateM ε σ α} {s : σ} {v : α} (h : resultOf (x s) = .ok v) :
    x s = .ok v (stateOf (x s)) := by
  cases hx : x s with
  | ok w s' => rw [hx] at h; cases h; rfl
  | error e s' => rw [hx] at h; cases h

theorem run_eq_error {x : EStateM ε σ α} {s : σ} {e : ε} (h : resultOf (x s) = .error e) :
    x s = .error e (stateOf (x s)) := by
  cases hx : x s with
  | ok w s' => rw [hx] at h; cases h
  | error e' s' => rw [hx] at h; cases h; rfl

theorem run_bind_ok {x : EStateM ε σ α} {s s' : σ} {v : α} (f : α → EStateM ε σ β)
    (h : x s = .ok v s') : (x >>= f) s = f v s' := by
  change EStateM.bind x f s = _
  unfold EStateM.bind
  rw [h]

theorem run_bind_error {x : EStateM ε σ α} {s s' : σ} {e : ε} (f : α → EStateM ε σ β)
    (h : x s = .error e s') : (x >>= f) s = .error e s' := by
  change EStateM.bind x f s = _
  unfold EStateM.bind
  rw [h]

/-- A second program that changes nothing leaves the state of the first. -/
theorem stateOf_bind {x : EStateM ε σ α} {f : α → EStateM ε σ β}
    (hf : ∀ v s, stateOf (f v s) = s) (s : σ) : stateOf ((x >>= f) s) = stateOf (x s) := by
  cases hx : x s with
  | ok v s' =>
      rw [run_bind_ok f hx]
      exact hf v s'
  | error e s' =>
      rw [run_bind_error f hx]
      rfl

/-- A value in the place of another one. -/
theorem resultOf_bind_pure (x : EStateM ε σ α) (v : β) (s : σ) :
    resultOf ((x >>= fun _ => pure v) s) = (resultOf (x s)).map fun _ => v := by
  cases hx : x s with
  | ok a s' =>
      rw [run_bind_ok _ hx]
      rfl
  | error e s' =>
      rw [run_bind_error _ hx]
      rfl

/-- A sequence of programs succeeds when both do. -/
theorem run_bind_eq_ok {x : EStateM ε σ α} {f : α → EStateM ε σ β} {s s' : σ} {v : β}
    (h : (x >>= f) s = .ok v s') : ∃ a s₁, x s = .ok a s₁ ∧ f a s₁ = .ok v s' := by
  cases hx : x s with
  | ok a s₁ =>
      rw [run_bind_ok f hx] at h
      exact ⟨a, s₁, rfl, h⟩
  | error e s₁ =>
      rw [run_bind_error f hx] at h
      cases h

/-- A sequence of programs fails when the first does, or the second after it. -/
theorem run_bind_eq_error {x : EStateM ε σ α} {f : α → EStateM ε σ β} {s s' : σ} {e : ε}
    (h : (x >>= f) s = .error e s') :
    x s = .error e s' ∨ ∃ a s₁, x s = .ok a s₁ ∧ f a s₁ = .error e s' := by
  cases hx : x s with
  | ok a s₁ =>
      rw [run_bind_ok f hx] at h
      exact Or.inr ⟨a, s₁, rfl, h⟩
  | error e₁ s₁ =>
      rw [run_bind_error f hx] at h
      cases h
      exact Or.inl rfl

/-- A sequence of pure steps succeeds when both do. -/
theorem bind_eq_ok {x : Except ε α} {f : α → Except ε β} {v : β} (h : (x >>= f) = .ok v) :
    ∃ a, x = .ok a ∧ f a = .ok v := by
  cases x with
  | ok a => exact ⟨a, rfl, h⟩
  | error e => cases h

/-- A pure traversal succeeds when it does at every item. -/
theorem mapM_eq_ok {f : α → Except ε β} {items : List α} {values : List β} :
    items.mapM f = .ok values ↔ List.Forall₂ (fun item value => f item = .ok value) items values := by
  induction items generalizing values with
  | nil =>
      rw [List.mapM_nil, List.forall₂_nil_left_iff]
      exact ⟨fun h => (Except.ok.inj h).symm, fun h => h ▸ rfl⟩
  | cons item items ih =>
      rw [List.mapM_cons]
      constructor
      · intro h
        obtain ⟨value, hvalue, h⟩ := bind_eq_ok h
        obtain ⟨rest, hrest, h⟩ := bind_eq_ok h
        obtain rfl := Except.ok.inj h
        exact List.Forall₂.cons hvalue (ih.mp hrest)
      · intro h
        cases h with
        | cons hvalue hrest =>
            rw [hvalue]
            change (List.mapM f items >>= _) = _
            rw [ih.mpr hrest]
            rfl

theorem exists_mapM_ok {f : α → Except ε β} {items : List α}
    (h : ∀ item ∈ items, ∃ value, f item = .ok value) : ∃ values, items.mapM f = .ok values := by
  induction items with
  | nil => exact ⟨[], rfl⟩
  | cons item items ih =>
      obtain ⟨value, hvalue⟩ := h item List.mem_cons_self
      obtain ⟨values, hvalues⟩ := ih fun other hother => h other (List.mem_cons_of_mem _ hother)
      exact ⟨value :: values,
        mapM_eq_ok.mpr (List.Forall₂.cons hvalue (mapM_eq_ok.mp hvalues))⟩

/-! ## What a program appends -/

/-- From every state, `x` appends some `new` to the ledger, and `Q` relates its end to `new`. -/
def Extends (log : σ → List τ) (x : EStateM ε σ α) (Q : Except ε α → List τ → Prop) : Prop :=
  ∀ s, ∃ new, log (stateOf (x s)) = log s ++ new ∧ Q (resultOf (x s)) new

/-- The end of `x >>= f`: `x` failed, or `x` succeeded and `f` went on from there. -/
def Then (Q₁ : Except ε α → List τ → Prop) (Q₂ : α → Except ε β → List τ → Prop)
    (r : Except ε β) (new : List τ) : Prop :=
  (∃ e, r = .error e ∧ Q₁ (.error e) new) ∨
    ∃ v l₁ l₂, new = l₁ ++ l₂ ∧ Q₁ (.ok v) l₁ ∧ Q₂ v r l₂

variable {log : σ → List τ} {x : EStateM ε σ α} {f : α → EStateM ε σ β}
  {Q Q' Q₁ : Except ε α → List τ → Prop}

theorem Extends.mono (h : Extends log x Q) (hQ : ∀ r new, Q r new → Q' r new) :
    Extends log x Q' := by
  intro s
  obtain ⟨new, hnew, hq⟩ := h s
  exact ⟨new, hnew, hQ _ _ hq⟩

/-- **The sequence rule.** The second program starts from a value the first one can return. -/
theorem Extends.bind (Q₂ : α → Except ε β → List τ → Prop) (hx : Extends log x Q₁)
    (hf : ∀ v l, Q₁ (.ok v) l → Extends log (f v) (Q₂ v)) :
    Extends log (x >>= f) (Then Q₁ Q₂) := by
  intro s
  obtain ⟨l₁, hl₁, hq₁⟩ := hx s
  change ∃ new, log (stateOf (EStateM.bind x f s)) = _ ∧ Then Q₁ Q₂ (resultOf (EStateM.bind x f s)) new
  unfold EStateM.bind
  cases hxs : x s with
  | ok v s₁ =>
      rw [hxs] at hl₁ hq₁
      obtain ⟨l₂, hl₂, hq₂⟩ := hf v l₁ hq₁ s₁
      refine ⟨l₁ ++ l₂, ?_, Or.inr ⟨v, l₁, l₂, rfl, hq₁, hq₂⟩⟩
      dsimp only
      rw [hl₂, ← List.append_assoc]
      exact congrArg (· ++ l₂) hl₁
  | error e s₁ =>
      rw [hxs] at hl₁ hq₁
      exact ⟨l₁, hl₁, Or.inl ⟨e, rfl, hq₁⟩⟩

/-! ## Programs that leave the ledger alone -/

/-- `x` appends nothing, and every value it returns meets `P`. -/
def Reads (log : σ → List τ) (x : EStateM ε σ α) (P : α → Prop) : Prop :=
  Extends log x fun r new => new = [] ∧ ∀ v, r = .ok v → P v

variable {P P' : α → Prop} {R : β → Prop} {Q₃ : Except ε β → List τ → Prop}

theorem Reads.mono (h : Reads log x P) (hP : ∀ v, P v → P' v) : Reads log x P' :=
  Extends.mono h fun _ _ hq => ⟨hq.1, fun v hv => hP v (hq.2 v hv)⟩

/-- What is known of the value of one run. -/
theorem Reads.value {s s' : σ} {v : α} (h : Reads log x P) (hrun : x s = .ok v s') : P v := by
  obtain ⟨-, -, -, hv⟩ := h s
  exact hv v (by rw [hrun, resultOf_ok])

/-- What follows a program matters only at the values the program can return. -/
theorem Reads.bind_congr {g : α → EStateM ε σ β} (hx : Reads log x P) (h : ∀ v, P v → f v = g v) :
    x >>= f = x >>= g := by
  funext s
  cases hs : x s with
  | ok v s' => rw [run_bind_ok f hs, run_bind_ok g hs, h v (hx.value hs)]
  | error e s' => rw [run_bind_error f hs, run_bind_error g hs]

theorem Reads.unchanged {s s' : σ} {v : α} (h : Reads log x P) (hrun : x s = .ok v s') :
    log s' = log s := by
  obtain ⟨new, hnew, rfl, -⟩ := h s
  rwa [hrun, List.append_nil] at hnew

theorem reads_pure {v : α} (h : P v) : Reads log (pure v : EStateM ε σ α) P :=
  fun _ => ⟨[], (List.append_nil _).symm, rfl, fun _ hv => Except.ok.inj hv ▸ h⟩

theorem reads_throw (e : ε) : Reads log (throw e : EStateM ε σ α) P :=
  fun _ => ⟨[], (List.append_nil _).symm, rfl, fun _ hv => by cases hv⟩

theorem reads_get : Reads log (get : EStateM ε σ σ) fun _ => True :=
  fun _ => ⟨[], (List.append_nil _).symm, rfl, fun _ _ => trivial⟩

/-- A change outside the ledger. -/
theorem reads_modifyGet {g : σ → α × σ} (h : ∀ s, log (g s).2 = log s) :
    Reads log (modifyGet g : EStateM ε σ α) fun _ => True :=
  fun s => ⟨[], (h s).trans (List.append_nil _).symm, rfl, fun _ _ => trivial⟩

theorem reads_modify {g : σ → σ} (h : ∀ s, log (g s) = log s) :
    Reads log (modify g : EStateM ε σ PUnit) fun _ => True :=
  reads_modifyGet h

/-- A step in front that always succeeds and leaves the ledger alone. -/
theorem Extends.after_step {g : σ → α} {next : σ → σ} (hx : ∀ s, x s = .ok (g s) (next s))
    (hlog : ∀ s, log (next s) = log s) (hf : ∀ v, Extends log (f v) Q₃) :
    Extends log (x >>= f) Q₃ := by
  intro s
  obtain ⟨new, hnew, hq⟩ := hf (g s) (next s)
  rw [run_bind_ok f (hx s)]
  exact ⟨new, by rw [hnew, hlog], hq⟩

/-- A reading program in front changes nothing, whether it fails or not. -/
theorem Extends.after_reads (hx : Reads log x P) (hf : ∀ v, P v → Extends log (f v) Q₃)
    (herr : ∀ e, Q₃ (.error e) []) : Extends log (x >>= f) Q₃ := by
  intro s
  obtain ⟨l₁, hl₁, hnil, hval⟩ := hx s
  subst hnil
  change ∃ new, log (stateOf (EStateM.bind x f s)) = _ ∧ Q₃ (resultOf (EStateM.bind x f s)) new
  unfold EStateM.bind
  cases hxs : x s with
  | ok v s₁ =>
      rw [hxs] at hl₁ hval
      have hsame : log s₁ = log s := hl₁.trans (List.append_nil _)
      obtain ⟨l₂, hl₂, hq₂⟩ := hf v (hval v rfl) s₁
      exact ⟨l₂, hl₂.trans (by rw [hsame]), hq₂⟩
  | error e s₁ =>
      rw [hxs] at hl₁
      exact ⟨[], hl₁, herr e⟩

theorem Reads.bind (hx : Reads log x P) (hf : ∀ v, P v → Reads log (f v) R) :
    Reads log (x >>= f) R :=
  Extends.after_reads hx hf fun _ => ⟨rfl, fun _ hv => by cases hv⟩

/-- **The loop rule**: an invariant of the accumulator and of what was consumed. -/
theorem Reads.foldlM {body : α → ι → EStateM ε σ α} (Inv : List ι → α → Prop)
    (hbody : ∀ done a i, Inv done a → Reads log (body a i) (Inv (done ++ [i]))) (items : List ι)
    (done : List ι) (a : α) (ha : Inv done a) :
    Reads log (items.foldlM body a) (Inv (done ++ items)) := by
  induction items generalizing done a with
  | nil =>
      rw [List.foldlM_nil, List.append_nil]
      exact reads_pure ha
  | cons i items ih =>
      rw [List.foldlM_cons]
      refine Reads.bind (hbody done a i ha) fun a' ha' => ?_
      have hrest := ih (done ++ [i]) a' ha'
      rwa [List.append_assoc, List.singleton_append] at hrest

/-! ## Errors and contexts -/

/-- A pure computation. -/
def ofExcept : Except ε α → EStateM ε σ α
  | .ok v => pure v
  | .error e => throw e

/-- The same program with its error rewritten. -/
def mapError {ε' : Type} (g : ε → ε') (x : EStateM ε σ α) : EStateM ε' σ α := fun s =>
  match x s with
  | .ok v s' => .ok v s'
  | .error e s' => .error (g e) s'

/-- Hand the error over as a value. -/
def attempt {ε' : Type} (x : EStateM ε σ α) : EStateM ε' σ (Except ε α) := fun s =>
  .ok (resultOf (x s)) (stateOf (x s))

/-- Run a program for its effects only. -/
def ignore (x : EStateM ε σ α) : EStateM ε σ Unit := x >>= fun _ => pure ()

/-- Two concurrent programs of which both must succeed; the first error ends both. -/
def tryJoin (firstStarts : Bool) (x : EStateM ε σ α) (y : EStateM ε σ β) : EStateM ε σ (α × β) :=
  if firstStarts then x >>= fun a => y >>= fun b => pure (a, b)
  else y >>= fun b => x >>= fun a => pure (a, b)

theorem reads_ofExcept {r : Except ε α} (h : ∀ v, r = .ok v → P v) :
    Reads log (ofExcept r : EStateM ε σ α) P := by
  cases r with
  | ok v => exact reads_pure (h v rfl)
  | error e => exact reads_throw e

theorem ofExcept_eq_ok {r : Except ε α} {s s' : σ} {v : α}
    (h : (ofExcept r : EStateM ε σ α) s = .ok v s') : r = .ok v ∧ s' = s := by
  cases r with
  | ok a => cases h; exact ⟨rfl, rfl⟩
  | error e => cases h

theorem ofExcept_eq_error {r : Except ε α} {s s' : σ} {e : ε}
    (h : (ofExcept r : EStateM ε σ α) s = .error e s') : r = .error e ∧ s' = s := by
  cases r with
  | ok a => cases h
  | error e => cases h; exact ⟨rfl, rfl⟩

theorem ofExcept_bind (r : Except ε α) (f : α → Except ε β) :
    (ofExcept (r >>= f) : EStateM ε σ β) = ofExcept r >>= fun v => ofExcept (f v) := by
  cases r <;> rfl

theorem mapError_eq_ok {ε' : Type} {g : ε → ε'} {r : Except ε α} {v : α}
    (h : r.mapError g = .ok v) : r = .ok v := by
  cases r with
  | ok a => exact congrArg _ (Except.ok.inj h)
  | error e => cases h

theorem stateOf_mapError {ε' : Type} (g : ε → ε') (x : EStateM ε σ α) (s : σ) :
    stateOf (mapError g x s) = stateOf (x s) := by
  unfold mapError
  cases x s <;> rfl

theorem resultOf_mapError {ε' : Type} (g : ε → ε') (x : EStateM ε σ α) (s : σ) :
    resultOf (mapError g x s) = (resultOf (x s)).mapError g := by
  unfold mapError
  cases x s <;> rfl

theorem Extends.mapError {ε' : Type} (g : ε → ε') (hx : Extends log x Q) :
    Extends log (mapError g x) fun r new => ∃ r₀, r = r₀.mapError g ∧ Q r₀ new := by
  intro s
  obtain ⟨new, hnew, hq⟩ := hx s
  exact ⟨new, by rw [stateOf_mapError, hnew], _, resultOf_mapError g x s, hq⟩

theorem Reads.mapError {ε' : Type} (g : ε → ε') (hx : Reads log x P) :
    Reads log (Effect.mapError g x) P := by
  refine Extends.mono (Extends.mapError g hx) ?_
  rintro r new ⟨r₀, rfl, hnew, hv⟩
  refine ⟨hnew, fun v hr => hv v ?_⟩
  cases r₀ with
  | ok w => exact congrArg _ (Except.ok.inj hr)
  | error e => exact absurd hr (by simp [Except.mapError])

@[simp] theorem mapError_pure {ε' : Type} (g : ε → ε') (v : α) :
    mapError g (pure v : EStateM ε σ α) = pure v := rfl

theorem mapError_bind {ε' : Type} (g : ε → ε') (x : EStateM ε σ α) (f : α → EStateM ε σ β) :
    mapError g (x >>= f) = mapError g x >>= fun v => mapError g (f v) := by
  funext s
  cases hx : x s with
  | ok v s' =>
      have hmapped : mapError g x s = .ok v s' := by rw [mapError, hx]
      rw [run_bind_ok _ hmapped, mapError, run_bind_ok f hx]
      rfl
  | error e s' =>
      have hmapped : mapError g x s = .error (g e) s' := by rw [mapError, hx]
      rw [run_bind_error _ hmapped, mapError, run_bind_error f hx]

theorem mapError_ofExcept {ε' : Type} (g : ε → ε') (r : Except ε α) :
    mapError g (ofExcept r : EStateM ε σ α) = ofExcept (r.mapError g) := by
  cases r <;> rfl

theorem mapError_tryJoin {ε' : Type} (g : ε → ε') (firstStarts : Bool) (x : EStateM ε σ α)
    (y : EStateM ε σ β) :
    mapError g (tryJoin firstStarts x y) = tryJoin firstStarts (mapError g x) (mapError g y) := by
  unfold tryJoin
  split <;> simp only [mapError_bind, mapError_pure]

/-- What comes after may look at a part of the second value only. -/
theorem tryJoin_bind_congr {γ δ : Type} (firstStarts : Bool) (x : EStateM ε σ α)
    (y : EStateM ε σ β) (part : β → γ) {f : α × β → EStateM ε σ δ} {g : α × γ → EStateM ε σ δ}
    (h : ∀ v, f v = g (v.1, part v.2)) :
    tryJoin firstStarts x y >>= f =
      tryJoin firstStarts x (y >>= fun b => pure (part b)) >>= g := by
  unfold tryJoin
  split <;> simp only [bind_assoc, pure_bind, h]

theorem Extends.attempt {ε' : Type} (hx : Extends log x Q) :
    Extends log (attempt x : EStateM ε' σ _) fun r new => ∃ r₀, r = .ok r₀ ∧ Q r₀ new := by
  intro s
  obtain ⟨new, hnew, hq⟩ := hx s
  exact ⟨new, hnew, _, rfl, hq⟩

theorem stateOf_ignore (x : EStateM ε σ α) (s : σ) : stateOf (ignore x s) = stateOf (x s) := by
  change stateOf (EStateM.bind x _ s) = _
  unfold EStateM.bind
  cases x s <;> rfl

theorem resultOf_ignore (x : EStateM ε σ α) (s : σ) :
    resultOf (ignore x s) = (resultOf (x s)).map fun _ => () := by
  change resultOf (EStateM.bind x _ s) = _
  unfold EStateM.bind
  cases x s <;> rfl

theorem Extends.ignore (hx : Extends log x Q) :
    Extends log (Effect.ignore x) fun r new => ∃ r₀, r = r₀.map (fun _ => ()) ∧ Q r₀ new := by
  intro s
  obtain ⟨new, hnew, hq⟩ := hx s
  exact ⟨new, by rw [stateOf_ignore, hnew], _, resultOf_ignore x s, hq⟩

theorem Reads.tryJoin {y : EStateM ε σ β} (firstStarts : Bool) (hx : Reads log x P)
    (hy : Reads log y R) :
    Reads log (Effect.tryJoin firstStarts x y) fun v => P v.1 ∧ R v.2 := by
  unfold Effect.tryJoin
  split
  · exact hx.bind fun a ha => hy.bind fun b hb => reads_pure ⟨ha, hb⟩
  · exact hy.bind fun b hb => hx.bind fun a ha => reads_pure ⟨ha, hb⟩

/-! ## Programs that always return the same value -/

/-- From every state, `x` succeeds with the value `v`. -/
def Computes (x : EStateM ε σ α) (v : α) : Prop := ∀ s, resultOf (x s) = .ok v

theorem computes_pure (v : α) : Computes (pure v : EStateM ε σ α) v := fun _ => rfl

theorem Computes.run {v : α} (h : Computes x v) (s : σ) : x s = .ok v (stateOf (x s)) :=
  run_eq_ok (h s)

theorem Computes.bind {v : α} {w : β} (hx : Computes x v) (hf : Computes (f v) w) :
    Computes (x >>= f) w := by
  intro s
  rw [run_bind_ok f (hx.run s)]
  exact hf _

/-- A loop whose body returns what a pure function says. -/
theorem Computes.foldlM {body : α → ι → EStateM ε σ α} {g : α → ι → α} (items : List ι) (a : α)
    (hbody : ∀ a, ∀ i ∈ items, Computes (body a i) (g a i)) :
    Computes (items.foldlM body a) (items.foldl g a) := by
  induction items generalizing a with
  | nil => exact computes_pure a
  | cons i items ih =>
      rw [List.foldlM_cons, List.foldl_cons]
      exact (hbody a i List.mem_cons_self).bind
        (ih _ fun a j hj => hbody a j (List.mem_cons_of_mem _ hj))

/-! ## Draining concurrent jobs -/

/-- Run jobs whose results nobody waits for any more. -/
def abandon (job : ι → EStateM ε σ Unit) : List ι → σ → σ
  | [], s => s
  | i :: rest, s => abandon job rest (stateOf (job i s))

/-- Complete the jobs in the given order, up to the first error. -/
def drain (job : ι → EStateM ε σ Unit) (stray : σ → ι → Bool) : List ι → EStateM ε σ Unit
  | [] => pure ()
  | i :: rest => fun s =>
      match job i s with
      | .ok _ s' => drain job stray rest s'
      | .error e s' => .error e (abandon job (rest.filter (stray s')) s')

@[simp] theorem drain_nil {job : ι → EStateM ε σ Unit} (stray : σ → ι → Bool) (s : σ) :
    drain job stray [] s = .ok () s := rfl

theorem drain_cons_ok {job : ι → EStateM ε σ Unit} {i : ι} {u : Unit} {s s' : σ}
    (stray : σ → ι → Bool) (rest : List ι) (h : job i s = .ok u s') :
    drain job stray (i :: rest) s = drain job stray rest s' := by
  simp only [drain, h]

theorem drain_cons_error {job : ι → EStateM ε σ Unit} {i : ι} {e : ε} {s s' : σ}
    (stray : σ → ι → Bool) (rest : List ι) (h : job i s = .error e s') :
    drain job stray (i :: rest) s = .error e (abandon job (rest.filter (stray s')) s') := by
  simp only [drain, h]

/-- The same draining, of items that the jobs are told by. -/
theorem drain_map {κ : Type} {job : κ → EStateM ε σ Unit} {job' : ι → EStateM ε σ Unit} {f : ι → κ}
    (stray : σ → κ → Bool) (items : List ι) (h : ∀ i ∈ items, job (f i) = job' i) :
    drain job stray (items.map f) = drain job' (fun s i => stray s (f i)) items := by
  have habandon : ∀ (rest : List ι) (s : σ), (∀ i ∈ rest, job (f i) = job' i) →
      abandon job (rest.map f) s = abandon job' rest s := by
    intro rest
    induction rest with
    | nil => exact fun _ _ => rfl
    | cons i rest ih =>
        intro s hrest
        rw [List.map_cons, abandon, abandon, hrest i List.mem_cons_self]
        exact ih _ fun j hj => hrest j (List.mem_cons_of_mem _ hj)
  induction items with
  | nil => rfl
  | cons i items ih =>
      funext s
      have hhead := h i List.mem_cons_self
      have htail : ∀ j ∈ items, job (f j) = job' j := fun j hj => h j (List.mem_cons_of_mem _ hj)
      rw [List.map_cons]
      cases hs : job' i s with
      | ok u s' =>
          have hs' : job (f i) s = .ok u s' := by rw [hhead, hs]
          rw [drain_cons_ok _ _ hs', drain_cons_ok _ _ hs, ih htail]
      | error e s' =>
          have hs' : job (f i) s = .error e s' := by rw [hhead, hs]
          rw [drain_cons_error _ _ hs', drain_cons_error _ _ hs, List.filter_map]
          refine congrArg _ (habandon _ s' fun j hj => htail j (List.mem_of_mem_filter hj))

/-- One job that had an effect: how it ended and what it appended. -/
structure Ran (ι ε τ : Type) where
  item : ι
  result : Except ε Unit
  appended : List τ

/-- What a draining appended: what its jobs did, one after the other. -/
structure Drained (items : List ι) (Q : ι → Except ε Unit → List τ → Prop) (r : Except ε Unit)
    (new : List τ) (jobs : List (Ran ι ε τ)) : Prop where
  sublist : (jobs.map Ran.item).Sublist items
  spec : ∀ j ∈ jobs, Q j.item j.result j.appended
  appended : new = (jobs.map Ran.appended).flatten
  /-- Success means that every job ran and succeeded. -/
  ok : r = .ok () → jobs.map Ran.item = items ∧ ∀ j ∈ jobs, j.result = .ok ()
  /-- An error is the error of a job. -/
  error : ∀ e, r = .error e → ∃ j ∈ jobs, j.result = .error e

variable {job : ι → EStateM ε σ Unit} {Q₀ : ι → Except ε Unit → List τ → Prop}
  {stray : σ → ι → Bool}

theorem abandon_spec (hjob : ∀ i, Extends log (job i) (Q₀ i)) (items : List ι) (s : σ) :
    ∃ jobs : List (Ran ι ε τ), jobs.map Ran.item = items ∧
      (∀ j ∈ jobs, Q₀ j.item j.result j.appended) ∧
      log (abandon job items s) = log s ++ (jobs.map Ran.appended).flatten := by
  induction items generalizing s with
  | nil => exact ⟨[], rfl, fun _ h => absurd h List.not_mem_nil, (List.append_nil _).symm⟩
  | cons i items ih =>
      obtain ⟨new, hnew, hq⟩ := hjob i s
      obtain ⟨jobs, hitems, hspec, hlog⟩ := ih (stateOf (job i s))
      refine ⟨⟨i, resultOf (job i s), new⟩ :: jobs, by rw [List.map_cons, hitems], ?_, ?_⟩
      · intro j hj
        rcases List.mem_cons.mp hj with rfl | hrest
        · exact hq
        · exact hspec j hrest
      · rw [abandon, hlog, hnew, List.map_cons, List.flatten_cons, List.append_assoc]

/-- **The draining rule.** -/
theorem Extends.drain (hjob : ∀ i, Extends log (job i) (Q₀ i)) (items : List ι) :
    Extends log (drain job stray items) fun r new => ∃ jobs, Drained items Q₀ r new jobs := by
  induction items with
  | nil =>
      intro s
      refine ⟨[], (List.append_nil _).symm, [], List.Sublist.refl _,
        fun _ h => absurd h List.not_mem_nil, rfl, fun _ => ⟨rfl, fun _ h => absurd h List.not_mem_nil⟩,
        fun e he => absurd he (by simp)⟩
  | cons i items ih =>
      intro s
      obtain ⟨new, hnew, hq⟩ := hjob i s
      cases hjs : job i s with
      | ok u s' =>
          -- the job succeeded: the draining goes on from its state
          rw [hjs] at hnew hq
          obtain ⟨rest, hrest, jobs, hd⟩ := ih s'
          rw [drain_cons_ok stray items hjs]
          refine ⟨new ++ rest, ?_, ⟨i, .ok (), new⟩ :: jobs, hd.sublist.cons_cons i, ?_, ?_, ?_, ?_⟩
          · rw [hrest, ← List.append_assoc]
            exact congrArg (· ++ rest) hnew
          · intro j hj
            rcases List.mem_cons.mp hj with rfl | hin
            · exact hq
            · exact hd.spec j hin
          · rw [hd.appended, List.map_cons, List.flatten_cons]
          · intro hok
            obtain ⟨hitems, hall⟩ := hd.ok hok
            refine ⟨by rw [List.map_cons, hitems], fun j hj => ?_⟩
            rcases List.mem_cons.mp hj with rfl | hin
            · rfl
            · exact hall j hin
          · intro e he
            obtain ⟨j, hj, hje⟩ := hd.error e he
            exact ⟨j, List.mem_cons_of_mem _ hj, hje⟩
      | error e s' =>
          -- the job failed: of the others, the strays still run, and nobody sees how they end
          rw [hjs] at hnew hq
          obtain ⟨jobs, hitems, hspec, hlog⟩ := abandon_spec hjob (items.filter (stray s')) s'
          rw [drain_cons_error stray items hjs]
          refine ⟨new ++ (jobs.map Ran.appended).flatten, ?_, ⟨i, .error e, new⟩ :: jobs, ?_, ?_,
            ?_, ?_, ?_⟩
          · rw [stateOf_error, hlog, ← List.append_assoc]
            exact congrArg (· ++ _) hnew
          · rw [List.map_cons, hitems]
            exact List.filter_sublist.cons_cons i
          · intro j hj
            rcases List.mem_cons.mp hj with rfl | hin
            · exact hq
            · exact hspec j hin
          · rw [List.map_cons, List.flatten_cons]
          · intro hok
            exact absurd hok (by simp)
          · intro e' he'
            simp only [resultOf_error, Except.error.injEq] at he'
            exact ⟨_, List.mem_cons_self, by rw [he']⟩

/-! ## What everything appended has in common -/

/-- Whatever `x` appends, and however it ends, meets `P`. -/
def Emits (log : σ → List τ) (x : EStateM ε σ α) (P : τ → Prop) : Prop :=
  Extends log x fun _ new => ∀ a ∈ new, P a

section Emits

variable {x : EStateM ε σ α} {f : α → EStateM ε σ β} {P P' : τ → Prop} {V : α → Prop}

theorem Emits.mono (h : Emits log x P) (hP : ∀ a, P a → P' a) : Emits log x P' :=
  Extends.mono h fun _ _ hq a ha => hP a (hq a ha)

theorem Reads.emits (h : Reads log x V) : Emits log x P :=
  Extends.mono h fun _ _ hq a ha => by
    rw [hq.1] at ha
    exact absurd ha List.not_mem_nil

theorem Emits.bind (hx : Emits log x P) (hf : ∀ v, Emits log (f v) P) :
    Emits log (x >>= f) P := by
  refine (Extends.bind (fun _ _ new => ∀ a ∈ new, P a) hx fun v _ _ => hf v).mono ?_
  rintro r new (⟨e, -, h⟩ | ⟨v, l₁, l₂, rfl, h₁, h₂⟩) a ha
  · exact h a ha
  · rcases List.mem_append.mp ha with ha | ha
    · exact h₁ a ha
    · exact h₂ a ha

theorem Emits.after_reads (hx : Reads log x V) (hf : ∀ v, V v → Emits log (f v) P) :
    Emits log (x >>= f) P :=
  Extends.after_reads hx hf fun _ _ ha => absurd ha List.not_mem_nil

theorem Emits.mapError {ε' : Type} (g : ε → ε') (hx : Emits log x P) :
    Emits log (Effect.mapError g x) P := by
  refine (Extends.mapError g hx).mono ?_
  rintro r new ⟨-, -, h⟩
  exact h

theorem Emits.attempt {ε' : Type} (hx : Emits log x P) :
    Emits log (Effect.attempt x : EStateM ε' σ _) P := by
  refine (Extends.attempt hx).mono ?_
  rintro r new ⟨-, -, h⟩
  exact h

theorem Emits.ignore (hx : Emits log x P) : Emits log (Effect.ignore x) P := by
  refine (Extends.ignore hx).mono ?_
  rintro r new ⟨-, -, h⟩
  exact h

theorem Emits.foldlM {body : α → ι → EStateM ε σ α} (items : List ι) (a : α)
    (hbody : ∀ a, ∀ i ∈ items, Emits log (body a i) P) : Emits log (items.foldlM body a) P := by
  induction items generalizing a with
  | nil => exact (reads_pure (P := fun _ => True) trivial).emits
  | cons i items ih =>
      rw [List.foldlM_cons]
      exact (hbody a i List.mem_cons_self).bind fun a' =>
        ih a' fun a j hj => hbody a j (List.mem_cons_of_mem _ hj)

theorem Emits.drain {Q : ι → τ → Prop} {job : ι → EStateM ε σ Unit} {stray : σ → ι → Bool}
    (hjob : ∀ i, Emits log (job i) (Q i)) (items : List ι) (hQ : ∀ i ∈ items, ∀ a, Q i a → P a) :
    Emits log (Effect.drain job stray items) P := by
  refine (Extends.drain hjob items).mono ?_
  rintro r new ⟨jobs, hd⟩ a ha
  rw [hd.appended] at ha
  obtain ⟨l, hl, ha⟩ := List.mem_flatten.mp ha
  obtain ⟨j, hj, rfl⟩ := List.mem_map.mp hl
  exact hQ j.item (hd.sublist.subset (List.mem_map_of_mem hj)) a (hd.spec j hj a ha)

end Emits

/-! ## What a single run appends -/

/-- From `s` to `s'` the ledger grew by entries that meet `P`. -/
def Grows (log : σ → List τ) (P : τ → Prop) (s s' : σ) : Prop :=
  ∃ new, log s' = log s ++ new ∧ ∀ a ∈ new, P a

section Grows

variable {x : EStateM ε σ α} {f : α → EStateM ε σ β} {P P' : τ → Prop} {V : α → Prop}
  {s s' s'' : σ}

theorem Grows.refl : Grows log P s s :=
  ⟨[], (List.append_nil _).symm, fun _ h => absurd h List.not_mem_nil⟩

theorem Grows.trans (h : Grows log P s s') (h' : Grows log P s' s'') : Grows log P s s'' := by
  obtain ⟨l₁, hl₁, hp₁⟩ := h
  obtain ⟨l₂, hl₂, hp₂⟩ := h'
  refine ⟨l₁ ++ l₂, by rw [hl₂, hl₁, List.append_assoc], fun a ha => ?_⟩
  rcases List.mem_append.mp ha with ha | ha
  · exact hp₁ a ha
  · exact hp₂ a ha

theorem Grows.mono (h : Grows log P s s') (hP : ∀ a, P a → P' a) : Grows log P' s s' := by
  obtain ⟨new, hnew, hp⟩ := h
  exact ⟨new, hnew, fun a ha => hP a (hp a ha)⟩

theorem Grows.isPrefix (h : Grows log P s s') : log s <+: log s' := by
  obtain ⟨new, hnew, -⟩ := h
  exact ⟨new, hnew.symm⟩

/-- The entries that were added are the ones behind the old ledger. -/
theorem Grows.of_mem_drop (h : Grows log P s s') : ∀ a ∈ (log s').drop (log s).length, P a := by
  obtain ⟨new, hnew, hp⟩ := h
  rw [hnew, List.drop_left]
  exact hp

theorem Emits.grows (h : Emits log x P) (s : σ) : Grows log P s (stateOf (x s)) := h s

theorem Reads.grows (h : Reads log x V) (s : σ) : Grows log P s (stateOf (x s)) :=
  Emits.grows (Reads.emits h) s

/-- What one run of a sequence appends: the second program matters where the first succeeds. -/
theorem Grows.bind (hx : Grows log P s (stateOf (x s)))
    (hf : ∀ v s', x s = .ok v s' → Grows log P s' (stateOf (f v s'))) :
    Grows log P s (stateOf ((x >>= f) s)) := by
  cases hxs : x s with
  | ok v s' =>
      rw [run_bind_ok f hxs]
      rw [hxs] at hx
      exact hx.trans (hf v s' hxs)
  | error e s' =>
      rw [run_bind_error f hxs]
      rw [hxs] at hx
      exact hx

/-- Whatever comes after `x` only adds to what `x` left. -/
theorem Grows.onward (hf : ∀ v, Emits log (f v) P) :
    Grows log P (stateOf (x s)) (stateOf ((x >>= f) s)) := by
  cases hxs : x s with
  | ok v s' =>
      rw [run_bind_ok f hxs]
      exact (hf v).grows s'
  | error e s' =>
      rw [run_bind_error f hxs]
      exact Grows.refl

end Grows

/-! ## Programs that move along a preorder -/

/-- However `x` ends, the state it ends in is one `R` allows from the one it started in. -/
def Moves (R : σ → σ → Prop) (x : EStateM ε σ α) : Prop := ∀ s, R s (stateOf (x s))

section Moves

variable {R : σ → σ → Prop} {x : EStateM ε σ α} {f : α → EStateM ε σ β}

theorem moves_modify {g : σ → σ} (h : ∀ s, R s (g s)) :
    Moves R (modify g : EStateM ε σ PUnit) := h

theorem Moves.mapError {ε' : Type} (g : ε → ε') (hx : Moves R x) :
    Moves R (Effect.mapError g x) := by
  intro s
  rw [stateOf_mapError]
  exact hx s

theorem Moves.attempt {ε' : Type} (hx : Moves R x) :
    Moves R (Effect.attempt x : EStateM ε' σ _) := hx

theorem Moves.ignore (hx : Moves R x) : Moves R (Effect.ignore x) := by
  intro s
  rw [stateOf_ignore]
  exact hx s

variable [IsPreorder σ R]

/-- A program that changes nothing. -/
theorem Moves.still (h : ∀ s, stateOf (x s) = s) : Moves R x := by
  intro s
  rw [h]
  exact refl_of R s

theorem moves_pure (v : α) : Moves R (pure v : EStateM ε σ α) := Moves.still fun _ => rfl

theorem moves_throw (e : ε) : Moves R (throw e : EStateM ε σ α) := Moves.still fun _ => rfl

theorem moves_get : Moves R (get : EStateM ε σ σ) := Moves.still fun _ => rfl

theorem moves_ofExcept (r : Except ε α) : Moves R (ofExcept r : EStateM ε σ α) := by
  cases r with
  | ok v => exact moves_pure v
  | error e => exact moves_throw e

theorem Moves.bind (hx : Moves R x) (hf : ∀ v, Moves R (f v)) : Moves R (x >>= f) := by
  intro s
  have hfirst := hx s
  cases hs : x s with
  | ok v s' =>
      rw [hs] at hfirst
      rw [run_bind_ok f hs]
      exact trans_of R hfirst (hf v s')
  | error e s' =>
      rw [hs] at hfirst
      rw [run_bind_error f hs]
      exact hfirst

theorem Moves.tryJoin {y : EStateM ε σ β} (firstStarts : Bool) (hx : Moves R x)
    (hy : Moves R y) : Moves R (Effect.tryJoin firstStarts x y) := by
  unfold Effect.tryJoin
  split
  · exact hx.bind fun a => hy.bind fun b => moves_pure (a, b)
  · exact hy.bind fun b => hx.bind fun a => moves_pure (a, b)

theorem Moves.foldlM {body : α → ι → EStateM ε σ α} (hbody : ∀ a i, Moves R (body a i))
    (items : List ι) (a : α) : Moves R (items.foldlM body a) := by
  induction items generalizing a with
  | nil => exact moves_pure a
  | cons i items ih =>
      rw [List.foldlM_cons]
      exact (hbody a i).bind ih

theorem Moves.abandon {job : ι → EStateM ε σ Unit} (hjob : ∀ i, Moves R (job i))
    (items : List ι) (s : σ) : R s (abandon job items s) := by
  induction items generalizing s with
  | nil => exact refl_of R s
  | cons i items ih => exact trans_of R (hjob i s) (ih _)

/-- A draining moves where its jobs do, the dropped ones included. -/
theorem Moves.drain {job : ι → EStateM ε σ Unit} {stray : σ → ι → Bool}
    (hjob : ∀ i, Moves R (job i)) (items : List ι) : Moves R (Effect.drain job stray items) := by
  induction items with
  | nil => exact moves_pure ()
  | cons i items ih =>
      intro s
      have hfirst := hjob i s
      cases hs : job i s with
      | ok u s' =>
          rw [hs] at hfirst
          rw [drain_cons_ok stray items hs]
          exact trans_of R hfirst (ih s')
      | error e s' =>
          rw [hs] at hfirst
          rw [drain_cons_error stray items hs]
          exact trans_of R hfirst (Moves.abandon hjob _ s')

end Moves

end Effect
