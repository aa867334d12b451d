import MeiyeAgent.Machinery.Effect

/-!
# Machinery/Sights — what is seen of a run, and what steps inserted into it change

`sights` lists the answers and the states of a run, step by step.  Steps that leave the state as it
is may be inserted anywhere: `Inserted.sights` says that nothing else that is seen changes.
-/

namespace Effect

variable {σ ι α : Type}

/-- **The second list is the first with elements of `p` inserted.** -/
inductive Inserted (p : α → Prop) : List α → List α → Prop
  | nil : Inserted p [] []
  | keep {as bs : List α} (a : α) (h : Inserted p as bs) : Inserted p (a :: as) (a :: bs)
  | add {as bs : List α} {b : α} (hb : p b) (h : Inserted p as bs) : Inserted p as (b :: bs)

/-- What is seen of a step: its answer, and the state it leaves. -/
structure Sight (ι α σ : Type) where
  step : ι
  answer : α
  after : σ
  deriving DecidableEq

/-- What is made of the answer changes no state. -/
theorem final_map {ε β : Type} {x : EStateM ε σ α} {s : σ} (f : α → β) :
    final (f <$> x) s = final x s := by
  unfold final
  simp only [Functor.map, EStateM.map]
  cases x s <;> rfl

variable (step : σ → ι → σ) (answer : σ → ι → α)

/-- **The sights of a run.** -/
def sights : List ι → σ → List (Sight ι α σ)
  | [], _ => []
  | i :: is, s => ⟨i, answer s i, step s i⟩ :: sights is (step s i)

variable {step answer} {p : ι → Prop} {is js : List ι} {s : σ}

/-- Steps that change nothing, inserted, change no state. -/
theorem Inserted.runAll (h : Inserted p is js)
    (hsame : Admits step (fun s j => p j → step s j = s) js s) :
    Effect.runAll step is s = Effect.runAll step js s := by
  induction h generalizing s with
  | nil => rfl
  | keep i _ ih => exact ih hsame.2
  | add hj _ ih =>
    rw [runAll_cons, hsame.1 hj]
    exact ih (hsame.1 hj ▸ hsame.2)

/-- **Steps that change nothing, inserted, change nothing that is seen of the others.** -/
theorem Inserted.sights (h : Inserted p is js)
    (hsame : Admits step (fun s j => p j → step s j = s) js s) :
    Inserted (fun sight => p sight.step) (Effect.sights step answer is s)
      (Effect.sights step answer js s) := by
  induction h generalizing s with
  | nil => exact .nil
  | keep i _ ih => exact .keep _ (ih hsame.2)
  | add hj _ ih =>
    refine .add hj ?_
    rw [hsame.1 hj]
    exact ih (hsame.1 hj ▸ hsame.2)

end Effect
