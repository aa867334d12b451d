import Mathlib.Data.List.Forall2
import Mathlib.Logic.Relation

/-!
# Machinery/Effect — what an operation that may throw guarantees, and what a run of them keeps

An operation over a state `σ` that may throw is an `EStateM ε σ`: a throw **keeps** the state it
was raised in, which is what a method mutating in place does.  Three layers:

* `Wp x s Q E` — started in `s`, the operation `x` ends in `Q` or throws in `E`.  Every construct
  of a `do` block has an equivalence `wp_…`, so `simp only` turns a block into a proposition.
* `final x s` — the state the operation leaves, whichever way it ends.
* `runAll` / `Admits` — a list of steps taken one after another, and a side condition every step
  of the run meets in the state it starts from.

The run lemma `runAll_induct` is the only induction on runs: a step lemma is all a user brings.
-/

namespace Effect

variable {ε σ τ α β ι : Type}

/-! ## Outcomes of one operation -/

/-- **The outcome of `x` in `s`**: `Q` of the value and the state it returns, or `E` of the error
and the state it throws in. -/
def Wp (x : EStateM ε σ α) (s : σ) (Q : α → σ → Prop) (E : ε → σ → Prop) : Prop :=
  match x s with
  | .ok a s' => Q a s'
  | .error e s' => E e s'

/-- **The state left behind**, by a return and by a throw alike. -/
def final (x : EStateM ε σ α) (s : σ) : σ :=
  match x s with
  | .ok _ s' => s'
  | .error _ s' => s'

/-- The returned value, if the operation returned. -/
def result (x : EStateM ε σ α) (s : σ) : Except ε α :=
  match x s with
  | .ok a _ => .ok a
  | .error e _ => .error e

/-- A check that reads no state, as an operation. -/
def check : Except ε α → EStateM ε σ α
  | .ok a => pure a
  | .error e => throw e

/-- An operation on a part of the state. -/
def zoom (view : σ → τ) (replace : σ → τ → σ) (x : EStateM ε τ α) : EStateM ε σ α := fun s =>
  match x (view s) with
  | .ok a t => .ok a (replace s t)
  | .error e t => .error e (replace s t)

/-- **An operation whose errors may be answered**: what it has written stays written. -/
def recover (answer : ε → Option α) (x : EStateM ε σ α) : EStateM ε σ α := fun s =>
  match x s with
  | .ok a s' => .ok a s'
  | .error e s' =>
    match answer e with
    | some a => .ok a s'
    | none => .error e s'

/-- **A transaction**: what threw has written nothing. -/
def transaction (x : EStateM ε σ α) : EStateM ε σ α := fun s =>
  match x s with
  | .ok a s' => .ok a s'
  | .error e _ => .error e s

/-! ### Checks that pass -/

variable {c : Prop}

@[simp] theorem bind_eq_ok {x : Except ε α} {f : α → Except ε β} {b : β} :
    (x >>= f) = .ok b ↔ ∃ a, x = .ok a ∧ f a = .ok b := by
  cases x <;> simp [bind, Except.bind]

@[simp] theorem throw_ne_ok {e : ε} {a : α} : (throw e : Except ε α) = .ok a ↔ False := by
  simp [throw, throwThe, MonadExceptOf.throw]

@[simp] theorem pure_eq_ok {a b : α} : (pure a : Except ε α) = .ok b ↔ a = b := by
  simp [pure, Except.pure]

@[simp] theorem map_eq_ok {f : α → β} {x : Except ε α} {b : β} :
    f <$> x = .ok b ↔ ∃ a, x = .ok a ∧ f a = b := by
  cases x <;> simp [Functor.map, Except.map]

/-- A guard at the head of a block. -/
@[simp] theorem guard_eq_ok [Decidable c] {e : ε} {f : β → Except ε α} {x : Except ε α} {a : α} :
    (if c then (throw e >>= f) else x) = .ok a ↔ ¬ c ∧ x = .ok a := by
  by_cases h : c <;> simp [h]

/-- A guard at the end of a block. -/
theorem last_guard_eq_ok [Decidable c] {e : ε} {u : Unit} :
    (if c then throw e else pure () : Except ε Unit) = .ok u ↔ ¬ c := by
  by_cases h : c <;> simp [h]

/-- A check of what may be absent. -/
theorem mapM_eq_ok {f : α → Except ε β} {o : Option α} {r : Option β} :
    o.mapM f = .ok r ↔ o = none ∧ r = none ∨ ∃ a b, o = some a ∧ r = some b ∧ f a = .ok b := by
  cases o with
  | none => simp [pure, Except.pure, eq_comm]
  | some a => cases h : f a <;> simp [h, Functor.map, Except.map, eq_comm]

/-- A check of each element of a list. -/
theorem list_mapM_eq_ok {f : α → Except ε β} : ∀ {l : List α} {r : List β},
    l.mapM f = .ok r ↔ List.Forall₂ (fun a b => f a = .ok b) l r
  | [], r => by
    rw [List.mapM_nil, pure_eq_ok, List.forall₂_nil_left_iff, eq_comm]
  | a :: l, r => by
    rw [List.mapM_cons, bind_eq_ok]
    simp only [bind_eq_ok, pure_eq_ok]
    constructor
    · rintro ⟨b, hb, bs, hbs, rfl⟩
      exact .cons hb (list_mapM_eq_ok.mp hbs)
    · rintro (_ | ⟨hb, hbs⟩)
      exact ⟨_, hb, _, list_mapM_eq_ok.mpr hbs, rfl⟩

/-- Each element of a checked list passed its check. -/
theorem ok_of_mapM_eq_ok {f : α → Except ε β} {l : List α} {r : List β} (h : l.mapM f = .ok r) :
    ∀ a ∈ l, ∃ b, f a = .ok b := by
  intro a ha
  induction list_mapM_eq_ok.mp h with
  | nil => exact absurd ha List.not_mem_nil
  | cons hf hrest ih =>
    rcases List.mem_cons.mp ha with rfl | ha
    · exact ⟨_, hf⟩
    · exact ih (list_mapM_eq_ok.mpr hrest) ha

/-- What a checked list answers, it answers of an element. -/
theorem mem_of_mapM_eq_ok {f : α → Except ε β} {l : List α} {r : List β} (h : l.mapM f = .ok r) :
    ∀ b ∈ r, ∃ a ∈ l, f a = .ok b := by
  intro b hb
  induction list_mapM_eq_ok.mp h with
  | nil => exact absurd hb List.not_mem_nil
  | cons hf hrest ih =>
    rcases List.mem_cons.mp hb with rfl | hb
    · exact ⟨_, List.mem_cons_self, hf⟩
    · obtain ⟨a, ha, hok⟩ := ih (list_mapM_eq_ok.mpr hrest) hb
      exact ⟨a, List.mem_cons_of_mem _ ha, hok⟩

/-! ### Steps whose outcome is known -/

section Steps

variable {x : EStateM ε σ α} {s s' : σ} {a : α} {e : ε}

/-- A block that begins with a look at the state. -/
theorem get_bind (f : σ → EStateM ε σ α) (s : σ) : (get >>= f) s = f s s := rfl

theorem set_bind (f : PUnit → EStateM ε σ α) (s s' : σ) : (set s' >>= f) s = f ⟨⟩ s' := rfl

theorem modify_bind (g : σ → σ) (f : PUnit → EStateM ε σ α) (s : σ) :
    (modify g >>= f) s = f ⟨⟩ (g s) := rfl

theorem check_ok_bind (a : α) (f : α → EStateM ε σ β) (s : σ) :
    (check (.ok a) >>= f) s = f a s := rfl

theorem check_error_bind (e : ε) (f : α → EStateM ε σ β) (s : σ) :
    (check (.error e) >>= f) s = .error e s := rfl

theorem bind_of_ok (h : x s = .ok a s') (f : α → EStateM ε σ β) : (x >>= f) s = f a s' := by
  simp only [bind, EStateM.bind, h]

end Steps

section Rules

variable {x : EStateM ε σ α} {f : α → EStateM ε σ β} {s : σ}
  {Q : α → σ → Prop} {R : β → σ → Prop} {E : ε → σ → Prop}

@[simp] theorem wp_pure (a : α) : Wp (pure a : EStateM ε σ α) s Q E ↔ Q a s := Iff.rfl

@[simp] theorem wp_throw (e : ε) : Wp (throw e : EStateM ε σ α) s Q E ↔ E e s := Iff.rfl

@[simp] theorem wp_get {Q : σ → σ → Prop} :
    Wp (get : EStateM ε σ σ) s Q E ↔ Q s s := Iff.rfl

@[simp] theorem wp_set {Q : PUnit → σ → Prop} (s' : σ) :
    Wp (set s' : EStateM ε σ PUnit) s Q E ↔ Q ⟨⟩ s' := Iff.rfl

@[simp] theorem wp_modify {Q : PUnit → σ → Prop} (g : σ → σ) :
    Wp (modify g : EStateM ε σ PUnit) s Q E ↔ Q ⟨⟩ (g s) := Iff.rfl

/-- **Sequencing**: a throw in the first part ends the whole. -/
@[simp] theorem wp_bind :
    Wp (x >>= f) s R E ↔ Wp x s (fun a s' => Wp (f a) s' R E) E := by
  simp only [Wp, bind, EStateM.bind]
  cases x s <;> rfl

@[simp] theorem wp_map (g : α → β) :
    Wp (g <$> x) s R E ↔ Wp x s (fun a s' => R (g a) s') E := by
  simp only [Wp, Functor.map, EStateM.map]
  cases x s <;> rfl

@[simp] theorem wp_ite [Decidable c] {y : EStateM ε σ α} :
    Wp (if c then x else y) s Q E ↔ (c → Wp x s Q E) ∧ (¬ c → Wp y s Q E) := by
  by_cases h : c <;> simp [h]

@[simp] theorem wp_check {r : Except ε α} :
    Wp (check r : EStateM ε σ α) s Q E ↔
      (∀ a, r = .ok a → Q a s) ∧ (∀ e, r = .error e → E e s) := by
  cases r <;> simp [check]

/-- A check of no value. -/
theorem wp_check_unit {r : Except ε Unit} {Q : Unit → σ → Prop} :
    Wp (check r : EStateM ε σ Unit) s Q E ↔ (r = .ok () → Q () s) ∧ ∀ e, r = .error e → E e s :=
  wp_check.trans (and_congr_left fun _ => ⟨fun h => h (), fun h _ => h⟩)

/-- A check that passes. -/
theorem wp_check_ok {r : Except ε α} {a : α} (h : r = .ok a) :
    Wp (check r : EStateM ε σ α) s Q E ↔ Q a s := by rw [h, check, wp_pure]

@[simp] theorem wp_zoom {view : σ → τ} {replace : σ → τ → σ} {y : EStateM ε τ α} :
    Wp (zoom view replace y) s Q E ↔
      Wp y (view s) (fun a t => Q a (replace s t)) (fun e t => E e (replace s t)) := by
  simp only [Wp, zoom]
  cases y (view s) <;> rfl

@[simp] theorem wp_transaction : Wp (transaction x) s Q E ↔ Wp x s Q fun e _ => E e s := by
  simp only [Wp, transaction]
  cases x s <;> rfl

/-- An answered error is a return. -/
theorem wp_recover {answer : ε → Option α} :
    Wp (recover answer x) s Q E ↔ Wp x s Q (fun e s' =>
      (∀ a, answer e = some a → Q a s') ∧ (answer e = none → E e s')) := by
  simp only [Wp, recover]
  cases x s with
  | ok a s' => rfl
  | error e s' => cases h : answer e <;> simp [h]

variable {Q' : α → σ → Prop} {E' : ε → σ → Prop}

/-- **Weakening**: a stronger outcome is an outcome. -/
theorem Wp.mono (h : Wp x s Q E) (hQ : ∀ a s', Q a s' → Q' a s') (hE : ∀ e s', E e s' → E' e s') :
    Wp x s Q' E' := by
  unfold Wp at *
  cases hx : x s with
  | ok a s' => rw [hx] at h; exact hQ a s' h
  | error e s' => rw [hx] at h; exact hE e s' h

/-- An outcome that holds whatever the operation does. -/
theorem Wp.of_forall (hQ : ∀ a s', Q a s') (hE : ∀ e s', E e s') : Wp x s Q E := by
  unfold Wp
  cases x s with
  | ok a s' => exact hQ a s'
  | error e s' => exact hE e s'

/-- Two outcomes of one operation hold together. -/
theorem Wp.and (h : Wp x s Q E) (h' : Wp x s Q' E') :
    Wp x s (fun a s' => Q a s' ∧ Q' a s') (fun e s' => E e s' ∧ E' e s') := by
  unfold Wp at *
  cases hx : x s with
  | ok a s' => rw [hx] at h h'; exact ⟨h, h'⟩
  | error e s' => rw [hx] at h h'; exact ⟨h, h'⟩

/-- An outcome that does not look at how the operation ended is one of the state left behind. -/
theorem wp_final {I : σ → Prop} : Wp x s (fun _ => I) (fun _ => I) ↔ I (final x s) := by
  unfold Wp final
  cases x s <;> rfl

/-- An outcome is one of the result and the state left behind. -/
theorem wp_iff_result : Wp x s Q E ↔ (∀ a, result x s = .ok a → Q a (final x s)) ∧
    ∀ e, result x s = .error e → E e (final x s) := by
  unfold Wp result final
  cases x s <;> simp

/-- **From `s`, the operation ends in `I`**, whichever way it ends. -/
abbrev Keeps (I : σ → Prop) (x : EStateM ε σ α) (s : σ) : Prop := Wp x s (fun _ => I) (fun _ => I)

/-- **Nothing is written unless the operation returns.** -/
abbrev Atomic (x : EStateM ε σ α) (s : σ) : Prop := Wp x s (fun _ _ => True) (fun _ s' => s' = s)

/-- An operation that only reads ends in its result. -/
theorem wp_of_reads (h : Keeps (· = s) x s) :
    Wp x s Q E ↔ (∀ a, result x s = .ok a → Q a s) ∧ ∀ e, result x s = .error e → E e s := by
  unfold Keeps Wp at h
  unfold Wp result
  cases hx : x s with
  | ok a s' =>
    rw [hx] at h
    obtain rfl : s' = s := h
    simp
  | error e s' =>
    rw [hx] at h
    obtain rfl : s' = s := h
    simp

/-- An atomic operation followed by one that cannot throw. -/
theorem atomic_bind (hf : Wp x s (fun a s' => Wp (f a) s' (fun _ _ => True) fun _ _ => False)
    fun _ _ => True) : Atomic (x >>= f) s ↔ Atomic x s := by
  rw [Atomic, wp_bind]
  refine ⟨fun h => h.mono (fun _ _ _ => trivial) fun _ _ hs => hs, fun h => ?_⟩
  exact (hf.and h).mono (fun _ _ hs => hs.1.mono (fun _ _ _ => trivial) fun _ _ hf => hf.elim)
    fun _ _ hs => hs.2

/-- An operation that returns ends where it returns. -/
theorem wp_iff_of_returns {B : Prop} (h : Wp x s Q fun _ _ => False)
    (hB : ∀ a s', Q a s' → (Q' a s' ↔ B)) : Wp x s Q' E ↔ B := by
  unfold Wp at *
  cases hx : x s with
  | ok a s' => rw [hx] at h; exact hB a s' h
  | error e s' => rw [hx] at h; exact h.elim

/-- An operation that throws ends where it throws. -/
theorem wp_iff_of_throws {B : Prop} (h : Wp x s (fun _ _ => False) E)
    (hB : ∀ e s', E e s' → (E' e s' ↔ B)) : Wp x s Q E' ↔ B := by
  unfold Wp at *
  cases hx : x s with
  | ok a s' => rw [hx] at h; exact h.elim
  | error e s' => rw [hx] at h; exact hB e s' h

/-- **Returning what is asked for, or keeping the state** as it should be. -/
theorem result_or_final {P : α → Prop} {I : σ → Prop} :
    (∃ a, result x s = .ok a ∧ P a) ∨ I (final x s) ↔
      Wp x s (fun a s' => P a ∨ I s') (fun _ => I) := by
  unfold Wp result final
  cases x s <;> simp

/-- Every operation ends in its own result. -/
theorem Wp.of_eq_ok {a : α} {s' : σ} (h : Wp x s Q E) (hx : x s = .ok a s') : Q a s' := by
  unfold Wp at h
  rwa [hx] at h

theorem Wp.of_eq_error {e : ε} {s' : σ} (h : Wp x s Q E) (hx : x s = .error e s') : E e s' := by
  unfold Wp at h
  rwa [hx] at h

/-- An operation that cannot throw returns. -/
theorem Wp.returns (h : Wp x s Q fun _ _ => False) : ∃ a s', x s = .ok a s' ∧ Q a s' := by
  unfold Wp at h
  cases hx : x s with
  | ok a s' => rw [hx] at h; exact ⟨a, s', rfl, h⟩
  | error e s' => rw [hx] at h; exact h.elim

/-- An operation that cannot return throws. -/
theorem Wp.throws (h : Wp x s (fun _ _ => False) E) :
    ∃ e, result x s = .error e ∧ E e (final x s) := by
  unfold Wp at h
  unfold result final
  cases hx : x s with
  | ok a s' => rw [hx] at h; exact h.elim
  | error e s' => rw [hx] at h; exact ⟨e, rfl, h⟩

/-- What is returned in the end changes no state. -/
theorem final_bind_pure (b : β) : final (x >>= fun _ => pure b) s = final x s := by
  unfold final
  simp only [bind, EStateM.bind]
  cases x s <;> rfl

end Rules

/-! ## Runs -/

/-- **A run**: the steps of `is`, first to last, from `s`. -/
def runAll (step : σ → ι → σ) : List ι → σ → σ
  | [], s => s
  | i :: is, s => runAll step is (step s i)

/-- **A run whose steps all meet `ok`**, each in the state it is taken from. -/
def Admits (step : σ → ι → σ) (ok : σ → ι → Prop) : List ι → σ → Prop
  | [], _ => True
  | i :: is, s => ok s i ∧ Admits step ok is (step s i)

instance Admits.decidable (step : σ → ι → σ) (ok : σ → ι → Prop) [∀ s i, Decidable (ok s i)] :
    (is : List ι) → (s : σ) → Decidable (Admits step ok is s)
  | [], _ => .isTrue trivial
  | i :: is, s =>
    match (inferInstance : Decidable (ok s i)), Admits.decidable step ok is (step s i) with
    | .isTrue h, .isTrue h' => .isTrue ⟨h, h'⟩
    | .isFalse h, _ => .isFalse fun k => h k.1
    | _, .isFalse h' => .isFalse fun k => h' k.2

section Runs

variable {step : σ → ι → σ} {ok : σ → ι → Prop}

@[simp] theorem runAll_nil (s : σ) : runAll step [] s = s := rfl

@[simp] theorem runAll_cons (i : ι) (is : List ι) (s : σ) :
    runAll step (i :: is) s = runAll step is (step s i) := rfl

theorem runAll_append (is js : List ι) (s : σ) :
    runAll step (is ++ js) s = runAll step js (runAll step is s) := by
  induction is generalizing s with
  | nil => rfl
  | cons i is ih => exact ih (step s i)

theorem admits_append (is js : List ι) (s : σ) : Admits step ok (is ++ js) s ↔
    Admits step ok is s ∧ Admits step ok js (runAll step is s) := by
  induction is generalizing s with
  | nil => exact ⟨fun h => ⟨trivial, h⟩, And.right⟩
  | cons i is ih =>
    rw [List.cons_append, Admits, ih, runAll_cons, ← and_assoc]
    rfl

/-- A side condition every step of the list meets in any state. -/
theorem admits_of_forall : ∀ {is : List ι} {s : σ}, (∀ i ∈ is, ∀ s, ok s i) → Admits step ok is s
  | [], _, _ => trivial
  | i :: _, s, h => ⟨h i List.mem_cons_self s,
      admits_of_forall fun j hj => h j (List.mem_cons_of_mem i hj)⟩

/-- Two side conditions of one run. -/
theorem Admits.and {ok' : σ → ι → Prop} : ∀ {is : List ι} {s : σ}, Admits step ok is s →
    Admits step ok' is s → Admits step (fun s i => ok s i ∧ ok' s i) is s
  | [], _, _, _ => trivial
  | _ :: _, _, h, h' => ⟨⟨h.1, h'.1⟩, Admits.and h.2 h'.2⟩

/-- **The run lemma**: what every admitted step keeps, an admitted run keeps. -/
theorem runAll_induct (I : σ → Prop) (hstep : ∀ s i, I s → ok s i → I (step s i)) :
    ∀ (is : List ι) {s : σ}, I s → Admits step ok is s → I (runAll step is s)
  | [], _, hI, _ => hI
  | i :: is, s, hI, h => runAll_induct I hstep is (hstep s i hI h.1) h.2

/-- A run kept by every step needs no side condition. -/
theorem runAll_invariant (I : σ → Prop) (hstep : ∀ s i, I s → I (step s i)) :
    ∀ (is : List ι) {s : σ}, I s → I (runAll step is s)
  | [], _, hI => hI
  | i :: is, s, hI => runAll_invariant I hstep is (hstep s i hI)

/-- **Two side conditions that agree on an invariant** admit the same runs. -/
theorem admits_congr {ok' : σ → ι → Prop} (I : σ → Prop) (hstep : ∀ s i, I s → I (step s i))
    (hiff : ∀ s i, I s → (ok s i ↔ ok' s i)) : ∀ (is : List ι) {s : σ}, I s →
      (Admits step ok is s ↔ Admits step ok' is s)
  | [], _, _ => Iff.rfl
  | i :: is, s, hI =>
    and_congr (hiff s i hI) (admits_congr I hstep hiff is (hstep s i hI))

end Runs

/-! ## Chains of elementary writes -/

section Chains

variable {r : σ → σ → Prop}

/-- **What every link keeps, a chain keeps.** -/
theorem chain_invariant (I : σ → Prop) (hlink : ∀ s s', r s s' → I s → I s') {s s' : σ}
    (h : Relation.ReflTransGen r s s') (hI : I s) : I s' := by
  induction h with
  | refl => exact hI
  | tail _ hr ih => exact hlink _ _ hr ih

/-- **An operation that writes only by `r`**, whichever way it ends. -/
def Writes (r : σ → σ → Prop) (x : EStateM ε σ α) (s : σ) : Prop :=
  Wp x s (fun _ s' => Relation.ReflTransGen r s s') (fun _ s' => Relation.ReflTransGen r s s')

section

variable {x : EStateM ε σ α} {f : α → EStateM ε σ β} {s : σ}

theorem Writes.pure (a : α) : Writes r (pure a : EStateM ε σ α) s := .refl

theorem Writes.throw_bind (e : ε) : Writes r ((throw e : EStateM ε σ α) >>= f) s := .refl

theorem Writes.throw (e : ε) : Writes r (throw e : EStateM ε σ α) s := .refl

theorem Writes.check (a : Except ε α) : Writes r (check a : EStateM ε σ α) s :=
  wp_check.mpr ⟨fun _ _ => .refl, fun _ _ => .refl⟩

theorem Writes.get : Writes r (get : EStateM ε σ σ) s := .refl

/-- **Writes in sequence.** -/
theorem Writes.bind (hx : Writes r x s) (hf : ∀ a s', Writes r (f a) s') :
    Writes r (x >>= f) s := by
  refine wp_bind.mpr (Wp.mono hx (fun a s' hs' => ?_) fun _ _ h => h)
  exact (hf a s').mono (fun _ _ h => hs'.trans h) fun _ _ h => hs'.trans h

theorem Writes.ite [Decidable c] {y : EStateM ε σ α} (hx : Writes r x s) (hy : Writes r y s) :
    Writes r (if c then x else y) s := wp_ite.mpr ⟨fun _ => hx, fun _ => hy⟩

theorem Writes.recover {answer : ε → Option α} (hx : Writes r x s) :
    Writes r (recover answer x) s :=
  wp_recover.mpr (Wp.mono hx (fun _ _ h => h) fun _ _ h => ⟨fun _ _ => h, fun _ => h⟩)

/-- Writes to a part are writes to the whole. -/
theorem Writes.zoom {r' : τ → τ → Prop} {view : σ → τ} {replace : σ → τ → σ}
    (hreplace : ∀ s, replace s (view s) = s)
    (hlink : ∀ s t t', r' t t' → r (replace s t) (replace s t'))
    {y : EStateM ε τ α} (hy : Writes r' y (view s)) : Writes r (zoom view replace y) s := by
  have hlift : ∀ t, Relation.ReflTransGen r' (view s) t →
      Relation.ReflTransGen r s (replace s t) := by
    intro t ht
    have hwhole : Relation.ReflTransGen r (replace s (view s)) (replace s t) :=
      Relation.ReflTransGen.lift (replace s) (hlink s) _ _ ht
    rwa [hreplace] at hwhole
  exact wp_zoom.mpr (Wp.mono hy (fun _ t h => hlift t h) fun _ t h => hlift t h)

end

theorem writes_iff {x : EStateM ε σ α} {s : σ} : Writes r x s ↔
    Wp x s (fun _ s' => Relation.ReflTransGen r s s') (fun _ s' => Relation.ReflTransGen r s s') :=
  Iff.rfl

section

variable {s : σ}

theorem writes_get_bind {f : σ → EStateM ε σ α} (h : Writes r (f s) s) :
    Writes r (get >>= f) s := by
  rw [writes_iff, wp_bind, wp_get]
  exact writes_iff.mp h

theorem writes_check_bind {x : Except ε α} {f : α → EStateM ε σ β}
    (h : ∀ a, x = .ok a → Writes r (f a) s) : Writes r (check x >>= f) s := by
  rw [writes_iff, wp_bind, wp_check]
  exact ⟨fun a ha => writes_iff.mp (h a ha), fun _ _ => .refl⟩

theorem writes_modify_bind {g : σ → σ} {f : Unit → EStateM ε σ α} (hg : ∀ s, r s (g s))
    (hf : ∀ s, Writes r (f ()) s) : Writes r (modify g >>= f) s := by
  rw [writes_iff, wp_bind, wp_modify]
  exact Wp.mono (writes_iff.mp (hf (g s))) (fun _ _ h => .head (hg s) h) fun _ _ h => .head (hg s) h

theorem writes_set_bind {s' : σ} {f : Unit → EStateM ε σ α}
    (hset : Relation.ReflTransGen r s s') (hf : Writes r (f ()) s') :
    Writes r (set s' >>= f) s := by
  rw [writes_iff, wp_bind, wp_set]
  exact Wp.mono (writes_iff.mp hf) (fun _ _ h => hset.trans h) fun _ _ h => hset.trans h

end

theorem Writes.final {x : EStateM ε σ α} {s : σ} (h : Writes r x s) :
    Relation.ReflTransGen r s (final x s) := (wp_final (I := Relation.ReflTransGen r s)).mp h

-- a goal `Writes r x s` is taken apart by the rules above, never by computing `x s`
attribute [irreducible] Wp Writes

end Chains

end Effect
