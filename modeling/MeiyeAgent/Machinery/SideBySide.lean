import MeiyeAgent.Machinery.Effect

/-!
# Machinery/SideBySide — two operations that end alike

`Both x s y t Q E` runs `x` in `s` and `y` in `t`: both return, in `Q`, or both throw, in `E`.  The
rules take the two programs apart at their common constructs; where one of them does something of
its own, `both_iff` leaves two ordinary outcomes.
-/

namespace Effect

variable {ε δ σ τ α β γ κ : Type}

/-- **Two operations end alike.** -/
def Both (x : EStateM ε σ α) (s : σ) (y : EStateM δ τ β) (t : τ) (Q : α → σ → β → τ → Prop)
    (E : ε → σ → δ → τ → Prop) : Prop :=
  Wp x s (fun a s' => Wp y t (Q a s') fun _ _ => False)
    fun e s' => Wp y t (fun _ _ => False) (E e s')

/-! ### Checks whose answer is known -/

theorem check_ok (a : α) : (check (.ok a) : EStateM ε σ α) = pure a := rfl

theorem check_pure (a : α) : (check (pure a) : EStateM ε σ α) = pure a := rfl

theorem check_throw (e : ε) : (check (throw e) : EStateM ε σ α) = throw e := rfl

theorem check_error (e : ε) : (check (.error e) : EStateM ε σ α) = throw e := rfl

section Rules

variable {x : EStateM ε σ α} {s : σ} {y : EStateM δ τ β} {t : τ} {Q : α → σ → β → τ → Prop}
  {E : ε → σ → δ → τ → Prop}

/-- The programs, taken one after the other. -/
theorem both_iff : Both x s y t Q E ↔ Wp x s (fun a s' => Wp y t (Q a s') fun _ _ => False)
    fun e s' => Wp y t (fun _ _ => False) (E e s') := Iff.rfl

theorem both_pure {a : α} {b : β} (h : Q a s b t) :
    Both (pure a : EStateM ε σ α) s (pure b : EStateM δ τ β) t Q E := by
  rwa [Both, wp_pure, wp_pure]

theorem both_throw {e : ε} {d : δ} (h : E e s d t) :
    Both (throw e : EStateM ε σ α) s (throw d : EStateM δ τ β) t Q E := by
  rwa [Both, wp_throw, wp_throw]

variable {R : γ → σ → κ → τ → Prop}

/-- **Sequencing**: what both return is what both go on with. -/
theorem both_bind {f : α → EStateM ε σ γ} {g : β → EStateM δ τ κ}
    (h : Both x s y t (fun a s' b t' => Both (f a) s' (g b) t' R E) E) :
    Both (x >>= f) s (y >>= g) t R E := by
  simp only [Both, Wp, bind, EStateM.bind] at h ⊢
  cases hx : x s <;> cases hy : y t <;> simp only [hx, hy] at h ⊢ <;> exact h

/-- **A common check** is passed by both or stops both. -/
theorem both_check {r : Except ε α} {E : ε → σ → ε → τ → Prop} {f : α → EStateM ε σ γ}
    {g : α → EStateM ε τ κ} (hok : ∀ a, r = .ok a → Both (f a) s (g a) t R E)
    (herror : ∀ e, r = .error e → E e s e t) : Both (check r >>= f) s (check r >>= g) t R E := by
  cases r with
  | ok a => exact both_bind (both_pure (hok a rfl))
  | error e => exact both_bind (both_throw (herror e rfl))

theorem both_get {f : σ → EStateM ε σ γ} {g : τ → EStateM δ τ κ} (h : Both (f s) s (g t) t R E) :
    Both (get >>= f) s (get >>= g) t R E := by
  refine both_bind ?_
  rwa [both_iff, wp_get, wp_get]

theorem both_ite {c : Prop} [Decidable c] {x' : EStateM ε σ α} {y' : EStateM δ τ β}
    (hpos : c → Both x s y t Q E) (hneg : ¬ c → Both x' s y' t Q E) :
    Both (if c then x else x') s (if c then y else y') t Q E := by
  by_cases h : c
  · rw [if_pos h, if_pos h]
    exact hpos h
  · rw [if_neg h, if_neg h]
    exact hneg h

theorem both_map {f : α → γ} {g : β → κ} (h : Both x s y t (fun a s' b t' => R (f a) s' (g b) t') E) :
    Both (f <$> x) s (g <$> y) t R E := by
  simpa only [Both, wp_map] using h

/-- **A transaction on one side**: where it throws, that side is as it was. -/
theorem both_transaction (h : Both x s y t Q fun e s' d _ => E e s' d t) :
    Both x s (transaction y) t Q E := by
  simpa only [Both, wp_transaction] using h

theorem Both.mono {Q' : α → σ → β → τ → Prop} {E' : ε → σ → δ → τ → Prop}
    (h : Both x s y t Q E) (hQ : ∀ a s' b t', Q a s' b t' → Q' a s' b t')
    (hE : ∀ e s' d t', E e s' d t' → E' e s' d t') : Both x s y t Q' E' :=
  Wp.mono h (fun a s' h => h.mono (hQ a s') fun _ _ h => h)
    fun e s' h => h.mono (fun _ _ h => h) (hE e s')

/-- **How both ended**, and the states they left behind. -/
theorem Both.outcome (h : Both x s y t Q E) :
    (∃ a b, result x s = .ok a ∧ result y t = .ok b ∧ Q a (final x s) b (final y t)) ∨
      ∃ e d, result x s = .error e ∧ result y t = .error d ∧ E e (final x s) d (final y t) := by
  simp only [Both, Wp, result, final] at h ⊢
  cases hx : x s <;> cases hy : y t <;> simp only [hx, hy] at h ⊢
  · exact .inl ⟨_, _, rfl, rfl, h⟩
  · exact .inr ⟨_, _, rfl, rfl, h⟩

end Rules

/-! ## Runs -/

/-- **What an admitted step shows beside an invariant**, every step of an admitted run shows. -/
theorem Admits.beside {ι : Type} {step : σ → ι → σ} {ok ok' : σ → ι → Prop} (I : σ → Prop)
    (hstep : ∀ s i, I s → ok s i → I (step s i) ∧ ok' s i) :
    ∀ {is : List ι} {s : σ}, I s → Admits step ok is s → Admits step ok' is s
  | [], _, _, _ => trivial
  | i :: _, s, hI, h =>
    ⟨(hstep s i hI h.1).2, Admits.beside I hstep (hstep s i hI h.1).1 h.2⟩

end Effect
