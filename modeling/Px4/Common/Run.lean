import Mathlib.Data.List.Basic
import Mathlib.Data.List.Induction

/-!
# Runs of event-driven systems

A system is a step function on states; everything the environment decides is part of the event. A
run is a list of events. `Along` states a property of every step of a run, `Always` one of every
state of it.
-/

namespace Run

open List

variable {σ ε : Type*}

/-- The state reached from `s` by the events `es`, taken in order. -/
def after (step : σ → ε → σ) (s : σ) (es : List ε) : σ :=
  es.foldl step s

variable {step : σ → ε → σ} {s : σ} {e : ε} {es fs : List ε}

@[simp]
theorem after_nil : after step s [] = s := rfl

@[simp]
theorem after_cons : after step s (e :: es) = after step (step s e) es := rfl

theorem after_append (step : σ → ε → σ) (s : σ) (es fs : List ε) :
    after step s (es ++ fs) = after step (after step s es) fs :=
  foldl_append

/-- `Q` holds at every step of the run: of the state before the event and the event. -/
def Along (step : σ → ε → σ) (Q : σ → ε → Prop) : σ → List ε → Prop
  | _, [] => True
  | s, e :: es => Q s e ∧ Along step Q (step s e) es

instance decidableAlong {step : σ → ε → σ} {Q : σ → ε → Prop} [∀ s e, Decidable (Q s e)] :
    (s : σ) → (es : List ε) → Decidable (Along step Q s es)
  | _, [] => isTrue trivial
  | s, e :: es =>
    have : Decidable (Along step Q (step s e) es) := decidableAlong (step s e) es
    inferInstanceAs (Decidable (_ ∧ _))

/-- `P` holds in every state of the run, the first and the last one included. -/
def Always (step : σ → ε → σ) (P : σ → Prop) : σ → List ε → Prop
  | s, [] => P s
  | s, e :: es => P s ∧ Always step P (step s e) es

/-- What the steps of a run put out, in order. -/
def emitted {α : Type*} (step : σ → ε → σ) (out : σ → ε → List α) : σ → List ε → List α
  | _, [] => []
  | s, e :: es => out s e ++ emitted step out (step s e) es

theorem emitted_append {α : Type*} {out : σ → ε → List α} : emitted step out s (es ++ fs) =
      emitted step out s es ++ emitted step out (after step s es) fs := by
  induction es generalizing s with
  | nil => rfl
  | cons e es ih => rw [cons_append, emitted, emitted, ih, append_assoc, after_cons]

variable {Q C Q' : σ → ε → Prop} {I P : σ → Prop}

variable {τ : Type*} {step' : τ → ε → τ} {t : τ}

theorem along_append :
    Along step Q s (es ++ fs) ↔ Along step Q s es ∧ Along step Q (after step s es) fs := by
  induction es generalizing s with
  | nil => simp [Along]
  | cons e es ih => simp [Along, ih, and_assoc]

theorem along_of_forall {C : ε → Prop} (h : ∀ e ∈ es, C e) : Along step (fun _ e => C e) s es := by
  induction es generalizing s with
  | nil => trivial
  | cons e es ih =>
    exact ⟨h e (mem_cons_self ..), ih fun f hf => h f (mem_cons_of_mem _ hf)⟩

theorem Along.imp (h : ∀ s e, Q s e → Q' s e) (hs : Along step Q s es) : Along step Q' s es := by
  induction es generalizing s with
  | nil => trivial
  | cons e es ih => exact ⟨h s e hs.1, ih hs.2⟩

theorem Along.and (h : Along step Q s es) (h' : Along step Q' s es) :
    Along step (fun s e => Q s e ∧ Q' s e) s es := by
  induction es generalizing s with
  | nil => trivial
  | cons e es ih => exact ⟨⟨h.1, h'.1⟩, ih h.2 h'.2⟩

/-- The invariant rule: what every step meeting the condition preserves holds after a run. -/
theorem after_of_invariant (hstep : ∀ s e, I s → C s e → I (step s e)) (hs : I s)
    (hC : Along step C s es) : I (after step s es) := by
  induction es generalizing s with
  | nil => exact hs
  | cons e es ih => exact ih (hstep s e hs hC.1) hC.2

/-- The simulation rule: a relation that the events of a kind preserve holds after a run. -/
theorem after_of_simulation {R : σ → τ → Prop} {C : ε → Prop}
    (hstep : ∀ s t e, R s t → C e → R (step s e) (step' t e)) (h : R s t)
    (hes : ∀ e ∈ es, C e) : R (after step s es) (after step' t es) := by
  induction es generalizing s t with
  | nil => exact h
  | cons e es ih =>
    exact ih (hstep s t e h (hes e (mem_cons_self ..))) fun f hf => hes f (mem_cons_of_mem _ hf)

/-- An invariant that may mention the events so far; each step knows that its event is next. -/
theorem after_of_history {P : List ε → σ → Prop} (hnil : P [] s)
    (hstep : ∀ pre e post, es = pre ++ e :: post → P pre (after step s pre) →
      P (pre ++ [e]) (step (after step s pre) e)) : P es (after step s es) := by
  suffices h : ∀ pre post, es = pre ++ post → P pre (after step s pre) from
    h es [] (append_nil es).symm
  intro pre
  induction pre using reverseRecOn with
  | nil => exact fun _ _ => hnil
  | append_singleton pre e ih =>
    intro post hes
    have hes' : es = pre ++ e :: post := by simpa using hes
    rw [after_append]
    exact hstep pre e post hes' (ih _ hes')

/-- A step property that follows from the invariant and the condition holds along the run. -/
theorem along_of_invariant (hstep : ∀ s e, I s → C s e → I (step s e))
    (hQ : ∀ s e, I s → C s e → Q s e) (hs : I s) (hC : Along step C s es) : Along step Q s es := by
  induction es generalizing s with
  | nil => trivial
  | cons e es ih => exact ⟨hQ s e hs hC.1, ih (hstep s e hs hC.1) hC.2⟩

/-- Two step properties that agree wherever the invariant holds agree along a run. -/
theorem along_iff_of_invariant {C : ε → Prop} (hstep : ∀ s e, I s → C e → I (step s e))
    (hQ : ∀ s e, I s → C e → (Q s e ↔ Q' s e)) (hs : I s)
    (hC : ∀ e ∈ es, C e) : Along step Q s es ↔ Along step Q' s es := by
  induction es generalizing s with
  | nil => exact Iff.rfl
  | cons e es ih =>
    have he := hC e (mem_cons_self ..)
    have hes := fun f hf => hC f (mem_cons_of_mem _ hf)
    exact and_congr (hQ s e hs he) (ih (hstep s e hs he) hes)

/-- What an invariant implies holds in every state of a run whose steps all meet the condition. -/
theorem always_of_invariant (hstep : ∀ s e, I s → C s e → I (step s e)) (hP : ∀ s, I s → P s)
    (hs : I s) (hC : Along step C s es) : Always step P s es := by
  induction es generalizing s with
  | nil => exact hP s hs
  | cons e es ih => exact ⟨hP s hs, ih (hstep s e hs hC.1) hC.2⟩

theorem Always.last (h : Always step P s es) : P (after step s es) := by
  induction es generalizing s with
  | nil => exact h
  | cons e es ih => exact ih h.2

/-- If the condition is exactly what a step needs, `P` holds everywhere iff all steps meet it. -/
theorem always_iff_along_of_invariant {D : ε → Prop} (hI : ∀ s e, I s → D e → I (step s e))
    (hstep : ∀ s e, I s → D e → P s → (P (step s e) ↔ C s e)) (hs : I s)
    (hP : P s) (hD : ∀ e ∈ es, D e) : Always step P s es ↔ Along step C s es := by
  induction es generalizing s with
  | nil => exact ⟨fun _ => trivial, fun _ => hP⟩
  | cons e es ih =>
    have he := hD e (mem_cons_self ..)
    have hes := fun f hf => hD f (mem_cons_of_mem _ hf)
    refine ⟨fun h => ?_, fun h => ?_⟩
    · -- `P` holds in the second state of the run
      have hnext : P (step s e) := by cases es with
        | nil => exact h.2
        | cons => exact h.2.1
      exact ⟨(hstep s e hs he hP).mp hnext, (ih (hI s e hs he) hnext hes).mp h.2⟩
    · have hnext := (hstep s e hs he hP).mpr h.1
      exact ⟨hP, (ih (hI s e hs he) hnext hes).mpr h.2⟩

/-- The rule for an invariant of its own. -/
theorem always_iff_along (hstep : ∀ s e, I s → (I (step s e) ↔ C s e)) (hs : I s) :
    Always step I s es ↔ Along step C s es :=
  always_iff_along_of_invariant (I := fun _ => True) (fun _ _ _ _ => trivial)
    (fun s e _ _ => hstep s e) trivial hs fun _ _ => trivial

/-! ## Steps that may fail -/

/-- The state reached by the events, if no step fails. -/
def tryAfter (step : σ → ε → Option σ) (s : σ) (es : List ε) : Option σ :=
  es.foldlM step s

/-- `C` holds at every step that the run comes to. -/
def TryAlong (step : σ → ε → Option σ) (C : σ → ε → Prop) : σ → List ε → Prop
  | _, [] => True
  | s, e :: es => C s e ∧ (step s e).elim True fun s' => TryAlong step C s' es

instance decidableTryAlong {step : σ → ε → Option σ} {C : σ → ε → Prop}
    [∀ s e, Decidable (C s e)] : (s : σ) → (es : List ε) → Decidable (TryAlong step C s es)
  | _, [] => isTrue trivial
  | s, e :: es =>
    have : Decidable ((step s e).elim True fun s' => TryAlong step C s' es) :=
      match step s e with
      | none => isTrue trivial
      | some s' => decidableTryAlong s' es
    inferInstanceAs (Decidable (_ ∧ _))

theorem tryAlong_of_forall {step} (h : ∀ s e, C s e) (s es) : TryAlong step C s es := by
  induction es generalizing s with
  | nil => trivial
  | cons e es ih =>
    refine ⟨h s e, ?_⟩
    cases step s e with
    | none => trivial
    | some s' => exact ih s'

/-- If no step from a state with the invariant fails, and it keeps the invariant, no run fails. -/
theorem tryAfter_of_invariant {step} (hstep : ∀ s e, I s → C s e → ∃ s', step s e = some s' ∧ I s')
    (hs : I s) (hC : TryAlong step C s es) : ∃ s', tryAfter step s es = some s' ∧ I s' := by
  induction es generalizing s with
  | nil => exact ⟨s, rfl, hs⟩
  | cons e es ih =>
    obtain ⟨s', hs', hI⟩ := hstep s e hs hC.1
    have hnext := hC.2
    rw [hs'] at hnext
    obtain ⟨s'', hs'', hI'⟩ := ih hI hnext
    refine ⟨s'', ?_, hI'⟩
    rw [tryAfter, foldlM_cons, hs']
    exact hs''

end Run
