import MeiyeAgent.Machinery.Effect

/-!
# Machinery/Logs — what an operation appends to a log

An operation over a state that holds a log only ever appends to it.  `Emits log x Q E`: from any
state, `x` appends events of which `Q` holds when it returns, and `E` when it throws.  Each
construct of a block has a rule, so the events of a block are read off its operations in order.
-/

namespace Logs

open Effect

variable {ε σ τ α β ι : Type} {log : σ → List ι} {x : EStateM ε σ α} {f : α → EStateM ε σ β}
  {Q : α → List ι → Prop} {R : β → List ι → Prop} {E E' : List ι → Prop}

/-- **What is appended**: `Q` of the value returned and the events, `E` of the events of a throw. -/
def Emits (log : σ → List ι) (x : EStateM ε σ α) (Q : α → List ι → Prop)
    (E : List ι → Prop) : Prop :=
  ∀ s, Wp x s (fun a s' => ∃ events, log s' = log s ++ events ∧ Q a events)
    fun _ s' => ∃ events, log s' = log s ++ events ∧ E events

theorem Emits.pure {a : α} (h : Q a []) : Emits log (pure a : EStateM ε σ α) Q E :=
  fun _ => (wp_pure a).mpr ⟨[], (List.append_nil _).symm, h⟩

theorem Emits.throw {e : ε} (h : E []) : Emits log (throw e : EStateM ε σ α) Q E :=
  fun _ => (wp_throw e).mpr ⟨[], (List.append_nil _).symm, h⟩

theorem Emits.check {r : Except ε α} (hok : ∀ a, r = .ok a → Q a [])
    (herror : (∃ e, r = .error e) → E []) : Emits log (Effect.check r) Q E :=
  fun _ => wp_check.mpr ⟨fun a ha => ⟨[], (List.append_nil _).symm, hok a ha⟩,
    fun e he => ⟨[], (List.append_nil _).symm, herror ⟨e, he⟩⟩⟩

/-- One event. -/
theorem Emits.event {g : σ → σ} {i : ι} (hg : ∀ s, log (g s) = log s ++ [i])
    {Q : PUnit → List ι → Prop} (h : Q ⟨⟩ [i]) :
    Emits log (modify g : EStateM ε σ PUnit) Q E :=
  fun s => (wp_modify g).mpr ⟨[i], hg s, h⟩

/-- An operation on a part of the state the log is no part of. -/
theorem Emits.zoom {view : σ → τ} {replace : σ → τ → σ} {y : EStateM ε τ α}
    (hkeep : ∀ s t, log (replace s t) = log s) (hQ : ∀ a, Q a []) (hE : E []) :
    Emits log (Effect.zoom view replace y) Q E :=
  fun s => wp_zoom.mpr (Wp.of_forall
    (fun a t => ⟨[], (hkeep s t).trans (List.append_nil _).symm, hQ a⟩)
    fun _ t => ⟨[], (hkeep s t).trans (List.append_nil _).symm, hE⟩)

/-- **Sequencing**: the events of the second part follow those of the first. -/
theorem Emits.bind (hx : Emits log x Q E)
    (hf : ∀ a events, Q a events →
      Emits log (f a) (fun b more => R b (events ++ more)) fun more => E' (events ++ more))
    (hE : ∀ events, E events → E' events) : Emits log (x >>= f) R E' := by
  refine fun s => wp_bind.mpr ((hx s).mono ?_ ?_)
  · rintro a s' ⟨events, hlog, hq⟩
    refine (hf a events hq s').mono ?_ ?_
    · rintro b s'' ⟨more, hmore, hr⟩
      exact ⟨events ++ more, by rw [hmore, hlog, List.append_assoc], hr⟩
    · rintro _ s'' ⟨more, hmore, he⟩
      exact ⟨events ++ more, by rw [hmore, hlog, List.append_assoc], he⟩
  · rintro _ s' ⟨events, hlog, he⟩
    exact ⟨events, hlog, hE events he⟩

theorem Emits.mono {Q' : α → List ι → Prop} (h : Emits log x Q E)
    (hQ : ∀ a events, Q a events → Q' a events) (hE : ∀ events, E events → E' events) :
    Emits log x Q' E' :=
  fun s => (h s).mono (fun a _ ⟨events, hlog, hq⟩ => ⟨events, hlog, hQ a events hq⟩)
    fun _ _ ⟨events, hlog, he⟩ => ⟨events, hlog, hE events he⟩

theorem Emits.ite {c : Prop} [Decidable c] {y : EStateM ε σ α}
    (hthen : c → Emits log x Q E) (helse : ¬ c → Emits log y Q E) :
    Emits log (if c then x else y) Q E := by
  split
  · next h => exact hthen h
  · next h => exact helse h

/-- An operation that reads the state first. -/
theorem Emits.get_bind {f : σ → EStateM ε σ β} (h : ∀ s, Emits log (f s) R E) :
    Emits log (get >>= f) R E :=
  fun s => wp_bind.mpr (wp_get.mpr (h s s))

/-- An answered error is a return. -/
theorem Emits.recover {answer : ε → Option α} (h : Emits log x Q E)
    (hanswer : ∀ a events, E events → Q a events) : Emits log (Effect.recover answer x) Q E :=
  fun s => wp_recover.mpr ((h s).mono (fun _ _ hq => hq) fun _ _ ⟨events, hlog, he⟩ =>
    ⟨fun a _ => ⟨events, hlog, hanswer a events he⟩, fun _ => ⟨events, hlog, he⟩⟩)

/-! ### Loops

What a loop appends is read off an invariant of the part that is done. -/

/-- **A loop with an accumulator.** -/
theorem Emits.foldlM {κ : Type} {step : β → κ → EStateM ε σ β} {I : List κ → β → List ι → Prop}
    (hstep : ∀ done b events k, I done b events → Emits log (step b k)
      (fun b' more => I (done ++ [k]) b' (events ++ more)) fun more => E (events ++ more)) :
    ∀ (l done : List κ) (b : β) (events : List ι), I done b events →
      Emits log (l.foldlM step b) (fun b' more => I (done ++ l) b' (events ++ more))
        fun more => E (events ++ more)
  | [], done, b, events, h => by
    rw [List.foldlM_nil]
    refine .pure ?_
    rwa [List.append_nil, List.append_nil]
  | k :: l, done, b, events, h => by
    rw [List.foldlM_cons]
    refine (hstep done b events k h).bind (fun b' more hmore => ?_) fun _ he => he
    refine (Emits.foldlM hstep l _ _ _ hmore).mono (fun b'' rest hrest => ?_) fun rest he => ?_
    · rwa [List.append_assoc, List.append_assoc] at hrest
    · rwa [List.append_assoc] at he

/-- **A loop that answers element by element.** -/
theorem Emits.mapM {κ : Type} {step : κ → EStateM ε σ β}
    {I : List κ → List β → List ι → Prop}
    (hstep : ∀ done bs events k, I done bs events → Emits log (step k)
      (fun b more => I (done ++ [k]) (bs ++ [b]) (events ++ more)) fun more => E (events ++ more)) :
    ∀ (l done : List κ) (bs : List β) (events : List ι), I done bs events →
      Emits log (l.mapM step) (fun cs more => I (done ++ l) (bs ++ cs) (events ++ more))
        fun more => E (events ++ more)
  | [], done, bs, events, h => by
    rw [List.mapM_nil]
    refine .pure ?_
    rwa [List.append_nil, List.append_nil, List.append_nil]
  | k :: l, done, bs, events, h => by
    rw [List.mapM_cons]
    refine (hstep done bs events k h).bind (fun b more hmore => ?_) fun _ he => he
    refine (Emits.mapM hstep l _ _ _ hmore).bind (fun cs rest hrest => .pure ?_) fun rest he => ?_
    · rwa [List.append_assoc, List.append_assoc, List.append_assoc, List.singleton_append,
        List.singleton_append, ← List.append_nil rest] at hrest
    · rwa [List.append_assoc] at he

end Logs
