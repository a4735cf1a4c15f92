import PeerWatch.Pipeline.System

/-!
# Runs

A part of the pipeline, and the pipeline itself, is given by what an event
makes of it, if it can happen at all.  A run is a sequence of events that can
happen one after another.  What a run did is not always to be read off where it
ended, so notes can be kept beside it: they tell of the run and do not change
it.

* `Run`, `Run.invariant`, `Run.iff_foldlM` — runs, from a start on;
* `noting`, `Run.noted` — runs with notes.
-/

namespace PeerWatch

section Runs

variable {σ ε γ : Type}

/-- Events that happen one after another, and where they lead. -/
inductive Run (step : σ → ε → Option σ) (start : σ) : List ε → σ → Prop
  | nil : Run step start [] start
  | snoc {es : List ε} {s s' : σ} {e : ε} (h : Run step start es s) (hstep : step s e = some s') :
    Run step start (es ++ [e]) s'

namespace Run

variable {step : σ → ε → Option σ} {start s s' : σ} {es es' : List ε} {e : ε}

theorem single (h : step start e = some s) : Run step start [e] s := .snoc .nil h

/-- A run goes on where another has led. -/
theorem append (h : Run step start es s) (h' : Run step s es' s') :
    Run step start (es ++ es') s' := by
  induction h' with
  | nil =>
      rw [List.append_nil]
      exact h
  | snoc _ hstep ih =>
      rw [← List.append_assoc]
      exact .snoc ih hstep

/-- **Invariants.**  What holds at the start and is kept by every event holds
wherever a run leads. -/
theorem invariant {P : σ → Prop} (hstart : P start)
    (hkept : ∀ s e s', P s → step s e = some s' → P s') (h : Run step start es s) : P s := by
  induction h with
  | nil => exact hstart
  | snoc _ hstep ih => exact hkept _ _ _ ih hstep

/-- Runs are the sequences of events that lead somewhere one after another. -/
theorem iff_foldlM : Run step start es s ↔ es.foldlM step start = some s := by
  constructor
  · intro h
    induction h with
    | nil => rfl
    | snoc _ hstep ih =>
        rw [List.foldlM_append, ih]
        simp [hstep]
  · intro h
    induction es generalizing start with
    | nil =>
        obtain rfl := Option.some.inj h
        exact .nil
    | cons e rest ih =>
        rw [List.foldlM_cons] at h
        obtain ⟨next, hnext, hrest⟩ := Option.bind_eq_some_iff.1 h
        exact (single hnext).append (ih hrest)

/-- Events that can be made one after another lead somewhere, to what is as it is
checked to be. -/
theorem exists_of_any {p : σ → Bool} (h : (es.foldlM step start).any p) :
    ∃ s, Run step start es s ∧ p s := by
  obtain ⟨s, hs, hp⟩ := (Option.any_eq_true _ _).1 h
  exact ⟨s, iff_foldlM.2 hs, hp⟩

end Run

/-- Steps with notes beside them. -/
def noting (step : σ → ε → Option σ) (note : γ → σ → ε → γ) (now : σ × γ) (e : ε) :
    Option (σ × γ) :=
  (step now.1 e).map fun s => (s, note now.2 now.1 e)

variable {step : σ → ε → Option σ} {note : γ → σ → ε → γ} {start s : σ} {g : γ} {es : List ε}

theorem noting_eq_some {now next : σ × γ} {e : ε} :
    noting step note now e = some next ↔
      step now.1 e = some next.1 ∧ next.2 = note now.2 now.1 e := by
  unfold noting
  rw [Option.map_eq_some_iff]
  constructor
  · intro h
    obtain ⟨s, hs, rfl⟩ := h
    exact ⟨hs, rfl⟩
  · intro h
    exact ⟨next.1, h.1, Prod.ext rfl h.2.symm⟩

/-- Notes can be kept of any run. -/
theorem Run.noted (h : Run step start es s) (note : γ → σ → ε → γ) (g : γ) :
    ∃ g', Run (noting step note) (start, g) es (s, g') := by
  induction h with
  | nil => exact ⟨g, .nil⟩
  | snoc _ hstep ih =>
      obtain ⟨g', hrun⟩ := ih
      exact ⟨_, .snoc hrun (noting_eq_some.2 ⟨hstep, rfl⟩)⟩

/-- Without its notes a run is a run. -/
theorem Run.unnoted {now : σ × γ} (h : Run (noting step note) (start, g) es now) :
    Run step start es now.1 := by
  induction h with
  | nil => exact .nil
  | snoc _ hstep ih => exact .snoc ih (noting_eq_some.1 hstep).1

end Runs

end PeerWatch
