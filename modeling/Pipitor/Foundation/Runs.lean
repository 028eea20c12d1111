import Mathlib.Data.List.Basic

/-!
# Runs of a transition function

A system is a function `step : σ → lbl → σ`; a run from `s` is a list of labels. `states` lists
what a run visits, the start included, and `moves` lists the steps it takes. `always_of_moves` is
the induction rule for a property that every admissible step keeps, and `always_iff_moves` its
exact form: where every admissible step keeps the property and every other step breaks it, the
property holds throughout a run exactly when all its steps are admissible.
-/

namespace Runs

variable {σ lbl : Type*} (step : σ → lbl → σ)

/-- The state at the end of a run. -/
def final (s : σ) (run : List lbl) : σ := run.foldl step s

/-- The states a run visits, its start first. -/
def states : σ → List lbl → List σ
  | s, [] => [s]
  | s, l :: run => s :: states (step s l) run

/-- The steps a run takes: the state before each label, and the label. -/
def moves : σ → List lbl → List (σ × lbl)
  | _, [] => []
  | s, l :: run => (s, l) :: moves (step s l) run

@[simp] theorem final_nil (s : σ) : final step s [] = s := rfl

@[simp] theorem final_cons (s : σ) (l : lbl) (run : List lbl) :
    final step s (l :: run) = final step (step s l) run := rfl

@[simp] theorem final_append (s : σ) (run run' : List lbl) :
    final step s (run ++ run') = final step (final step s run) run' :=
  List.foldl_append

theorem final_mem_states (s : σ) (run : List lbl) : final step s run ∈ states step s run := by
  induction run generalizing s with
  | nil => simp [states]
  | cons l run ih => exact List.mem_cons_of_mem _ (ih _)

theorem mem_states_start (s : σ) (run : List lbl) : s ∈ states step s run := by
  cases run <;> simp [states]

variable {step}

/-- The steps of a run are the labels after its initial segments. -/
theorem mem_moves_iff {s : σ} {run : List lbl} {m : σ × lbl} :
    m ∈ moves step s run ↔ ∃ run', run' ++ [m.2] <+: run ∧ final step s run' = m.1 := by
  induction run generalizing s with
  | nil => simp [moves]
  | cons l run ih =>
    simp only [moves, List.mem_cons, ih]
    constructor
    · rintro (rfl | ⟨run', hpre, hfinal⟩)
      · exact ⟨[], by simp, rfl⟩
      · exact ⟨l :: run', (List.prefix_cons_inj l).mpr hpre, hfinal⟩
    · rintro ⟨run', hpre, hfinal⟩
      cases run' with
      | nil =>
        obtain ⟨hl, -⟩ := List.cons_prefix_cons.mp hpre
        exact Or.inl (Prod.ext hfinal.symm hl)
      | cons l' run' =>
        obtain ⟨rfl, htail⟩ := List.cons_prefix_cons.mp hpre
        exact Or.inr ⟨run', htail, hfinal⟩

theorem moves_append (s : σ) (run run' : List lbl) :
    moves step s (run ++ run') = moves step s run ++ moves step (final step s run) run' := by
  induction run generalizing s with
  | nil => rfl
  | cons l run ih =>
    show (s, l) :: moves step (step s l) (run ++ run') = _
    rw [ih]
    rfl

theorem mem_of_mem_moves {s : σ} {run : List lbl} {m : σ × lbl} (h : m ∈ moves step s run) : m.2 ∈ run := by
  obtain ⟨run', hpre, -⟩ := mem_moves_iff.mp h
  exact hpre.subset (List.mem_append_right _ (List.mem_singleton_self _))

/-- An invariant of the step function holds at the end of every run. -/
theorem final_induction {I : σ → Prop} (hstep : ∀ s l, I s → I (step s l)) {s : σ} (hs : I s)
    (run : List lbl) : I (final step s run) := by
  induction run generalizing s with
  | nil => exact hs
  | cons l run ih => exact ih (hstep s l hs)

/-- A property of the state and of the steps before it that every step carries on. -/
theorem final_moves_induction {P : σ → List (σ × lbl) → Prop}
    (hstep : ∀ s ms l, P s ms → P (step s l) (ms ++ [(s, l)])) {s : σ} (hs : P s []) (run : List lbl) :
    P (final step s run) (moves step s run) := by
  suffices h : ∀ (run : List lbl) (s : σ) (ms : List (σ × lbl)), P s ms →
      P (final step s run) (ms ++ moves step s run) from h run s [] hs
  intro run
  induction run with
  | nil =>
    intro s ms h
    rwa [moves, List.append_nil]
  | cons l run ih =>
    intro s ms h
    have htail := ih (step s l) (ms ++ [(s, l)]) (hstep s ms l h)
    rwa [List.append_assoc] at htail

/-- What every step keeps that ends in `K` is kept by a run that stays in `K`. -/
theorem final_of_kept {P K : σ → Prop} (hstep : ∀ s l, P s → K (step s l) → P (step s l)) {s : σ} (hs : P s)
    {run : List lbl} (hrun : ∀ x ∈ states step s run, K x) : P (final step s run) := by
  induction run generalizing s with
  | nil => exact hs
  | cons l run ih =>
    have htail : ∀ x ∈ states step (step s l) run, K x := fun x hx => hrun x (List.mem_cons_of_mem _ hx)
    exact ih (hstep s l hs (htail _ (mem_states_start step _ _))) htail

/-- A property kept by every admissible step holds throughout a run of admissible steps. -/
theorem always_of_moves {I : σ → Prop} {C : σ → lbl → Prop}
    (hstep : ∀ s l, I s → C s l → I (step s l)) {s : σ} (hs : I s) {run : List lbl}
    (hrun : ∀ m ∈ moves step s run, C m.1 m.2) : ∀ x ∈ states step s run, I x := by
  induction run generalizing s with
  | nil => simpa [states] using hs
  | cons l run ih =>
    intro x hx
    rcases List.mem_cons.mp hx with rfl | hx
    · exact hs
    · exact ih (hstep s l hs (hrun (s, l) (by simp [moves])))
        (fun m hm => hrun m (List.mem_cons_of_mem _ hm)) x hx

/-- A transitive relation that, on top of an invariant, every admissible step is in holds between any two
states of a run, the earlier one first. -/
theorem pairwise_states {I : σ → Prop} {R : σ → σ → Prop} {C : σ → lbl → Prop}
    (htrans : ∀ {x y z}, R x y → R y z → R x z)
    (hstep : ∀ s l, I s → C s l → I (step s l) ∧ R s (step s l)) {s : σ} (hs : I s) {run : List lbl}
    (hrun : ∀ m ∈ moves step s run, C m.1 m.2) : (states step s run).Pairwise R := by
  induction run generalizing s with
  | nil => exact List.pairwise_singleton _ _
  | cons l run ih =>
    obtain ⟨hnext, hfirst⟩ := hstep s l hs (hrun (s, l) (by simp [moves]))
    have htail := ih hnext fun m hm => hrun m (List.mem_cons_of_mem _ hm)
    refine List.pairwise_cons.mpr ⟨fun x hx => ?_, htail⟩
    cases run with
    | nil =>
      obtain rfl : x = step s l := by simpa [states] using hx
      exact hfirst
    | cons l' run =>
      rcases List.mem_cons.mp hx with rfl | hx
      · exact hfirst
      · exact htrans hfirst ((List.pairwise_cons.mp htail).1 x hx)

/-- Where, on top of an invariant `I` and as far as the environment keeps to `A`, admissible steps keep
`P` and all others break it, `P` holds throughout a run exactly when every step of the run is admissible. -/
theorem always_iff_moves_amid {I P : σ → Prop} {A C : σ → lbl → Prop}
    (hinv : ∀ s l, I s → P s → A s l → C s l → I (step s l))
    (hstep : ∀ s l, I s → P s → A s l → (P (step s l) ↔ C s l)) {s : σ} (hI : I s) (hP : P s)
    {run : List lbl} (hA : ∀ m ∈ moves step s run, A m.1 m.2) :
    (∀ x ∈ states step s run, P x) ↔ ∀ m ∈ moves step s run, C m.1 m.2 := by
  induction run generalizing s with
  | nil => simp [states, moves, hP]
  | cons l run ih =>
    simp only [states, moves, List.forall_mem_cons] at hA ⊢
    obtain ⟨hAl, hA⟩ := hA
    constructor
    · rintro ⟨-, htail⟩
      have hnext : P (step s l) := htail _ (mem_states_start step _ run)
      have hC := (hstep s l hI hP hAl).mp hnext
      exact ⟨hC, (ih (hinv s l hI hP hAl hC) hnext hA).mp htail⟩
    · rintro ⟨hC, htail⟩
      have hnext : P (step s l) := (hstep s l hI hP hAl).mpr hC
      exact ⟨hP, (ih (hinv s l hI hP hAl hC) hnext hA).mpr htail⟩

/-- The same in any environment. -/
theorem always_iff_moves {I P : σ → Prop} {C : σ → lbl → Prop}
    (hinv : ∀ s l, I s → P s → C s l → I (step s l))
    (hstep : ∀ s l, I s → P s → (P (step s l) ↔ C s l)) {s : σ} (hI : I s) (hP : P s)
    (run : List lbl) :
    (∀ x ∈ states step s run, P x) ↔ ∀ m ∈ moves step s run, C m.1 m.2 :=
  always_iff_moves_amid (A := fun _ _ => True) (fun s l hs hp _ hc => hinv s l hs hp hc)
    (fun s l hs hp _ => hstep s l hs hp) hI hP (fun _ _ => trivial)

end Runs
