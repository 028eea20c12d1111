import Mathlib.Data.List.Basic

/-!
# Programs as sequences of atomic actions

A `Prog σ ε α` is a sequential program over a shared state `σ`: it ends with a value, aborts with
an `ε`, or makes one atomic action and goes on. `run` executes it without interruption, `act` makes
its next action. The same program thus has both readings, and no second model of it is needed to talk
about interleavings.

`Sat` is the triple of a program run alone, `Amid` that of a program among others: between any two of
its actions the others may change the state within the relation `rely`. Each has one rule for each
way to build a program. `Always` says what every action of a program does, whatever the others do, and
`Residual` what may be left of a program.
-/

namespace Resumption

/-- A sequential program over a shared state. `step update next` replaces the state `s` by
`update s` in one atomic action and goes on as `next s`. -/
inductive Prog (σ ε α : Type) : Type
  | done (a : α)
  | abort (e : ε)
  | step (update : σ → σ) (next : σ → Prog σ ε α)

namespace Prog

variable {σ ε α β : Type}

protected def bind : Prog σ ε α → (α → Prog σ ε β) → Prog σ ε β
  | .done a, f => f a
  | .abort e, _ => .abort e
  | .step update next, f => .step update fun s => (next s).bind f

instance : Monad (Prog σ ε) where
  pure := .done
  bind := Prog.bind

@[simp] theorem pure_eq (a : α) : (pure a : Prog σ ε α) = .done a := rfl

@[simp] theorem done_bind (a : α) (f : α → Prog σ ε β) : (.done a : Prog σ ε α) >>= f = f a := rfl

@[simp] theorem abort_bind (e : ε) (f : α → Prog σ ε β) :
    (.abort e : Prog σ ε α) >>= f = .abort e := rfl

@[simp] theorem step_bind (update : σ → σ) (next : σ → Prog σ ε α) (f : α → Prog σ ε β) :
    (.step update next : Prog σ ε α) >>= f = .step update fun s => next s >>= f := rfl

theorem bind_assoc {γ : Type} (p : Prog σ ε α) (f : α → Prog σ ε β) (g : β → Prog σ ε γ) :
    (p >>= f) >>= g = p >>= fun a => f a >>= g := by
  induction p with
  | done a => rfl
  | abort e => rfl
  | step update next ih => exact congrArg (Prog.step update) (funext ih)

theorem bind_done (p : Prog σ ε α) : p >>= .done = p := by
  induction p with
  | done a => rfl
  | abort e => rfl
  | step update next ih => exact congrArg (Prog.step update) (funext ih)

theorem forM_append {γ : Type} (body : γ → Prog σ ε Unit) (xs ys : List γ) :
    (xs ++ ys).forM body = xs.forM body >>= fun _ => ys.forM body := by
  induction xs with
  | nil => rfl
  | cons x xs ih =>
    show (body x >>= fun _ => (xs ++ ys).forM body) = (body x >>= fun _ => xs.forM body) >>= _
    rw [ih, bind_assoc]

/-! ### Atomic actions -/

/-- Look at the state. -/
def read (f : σ → α) : Prog σ ε α := .step id fun s => .done (f s)

/-- Change the state. -/
def modify (f : σ → σ) : Prog σ ε Unit := .step f fun _ => .done ()

/-- An action that may fail: a failure leaves the state as it was and aborts the program. -/
def attempt (f : σ → Except ε (α × σ)) : Prog σ ε α :=
  .step
    (fun s => match f s with
      | .ok (_, s') => s'
      | .error _ => s)
    fun s => match f s with
      | .ok (a, _) => .done a
      | .error e => .abort e

/-- Go on with the value of a computation that does not look at the state, or abort. -/
def ofExcept : Except ε α → Prog σ ε α
  | .ok a => .done a
  | .error e => .abort e

/-- Rename the error of an abort. -/
def mapAbort {ε' : Type} (f : ε → ε') : Prog σ ε α → Prog σ ε' α
  | .done a => .done a
  | .abort e => .abort (f e)
  | .step update next => .step update fun s => (next s).mapAbort f

/-! ### Running a program alone -/

/-- Run a program to its end, with nothing in between. -/
def run : Prog σ ε α → σ → Except ε α × σ
  | .done a, s => (.ok a, s)
  | .abort e, s => (.error e, s)
  | .step update next, s => (next s).run (update s)

@[simp] theorem run_done (a : α) (s : σ) : (.done a : Prog σ ε α).run s = (.ok a, s) := rfl

@[simp] theorem run_abort (e : ε) (s : σ) : (.abort e : Prog σ ε α).run s = (.error e, s) := rfl

@[simp] theorem run_step (update : σ → σ) (next : σ → Prog σ ε α) (s : σ) :
    (Prog.step update next).run s = (next s).run (update s) := rfl

theorem run_mapAbort {ε' : Type} (f : ε → ε') (p : Prog σ ε α) (s : σ) :
    (p.mapAbort f).run s = ((p.run s).1.mapError f, (p.run s).2) := by
  induction p generalizing s with
  | done a => rfl
  | abort e => rfl
  | step update next ih => exact ih s (update s)

theorem run_bind (p : Prog σ ε α) (f : α → Prog σ ε β) (s : σ) :
    (p >>= f).run s = match p.run s with
      | (.ok a, s') => (f a).run s'
      | (.error e, s') => (.error e, s') := by
  induction p generalizing s with
  | done a => rfl
  | abort e => rfl
  | step update next ih => exact ih s (update s)

theorem run_attempt_ok {f : σ → Except ε (α × σ)} {s s' : σ} {a : α} (h : f s = .ok (a, s')) :
    (attempt f).run s = (.ok a, s') := by
  unfold attempt
  rw [run_step, h]
  rfl

theorem run_attempt_error {f : σ → Except ε (α × σ)} {s : σ} {e : ε} (h : f s = .error e) :
    (attempt f).run s = (.error e, s) := by
  unfold attempt
  rw [run_step, h]
  rfl

/-- A triple: from `s` the program, run alone, ends with a value and a state in `Q`, or aborts with
an error and a state in `E`. -/
def Sat (p : Prog σ ε α) (s : σ) (Q : α → σ → Prop) (E : ε → σ → Prop) : Prop :=
  match p.run s with
  | (.ok a, s') => Q a s'
  | (.error e, s') => E e s'

variable {p : Prog σ ε α} {s : σ} {Q Q' : α → σ → Prop} {E E' : ε → σ → Prop}

theorem sat_done {a : α} : Sat (.done a) s Q E ↔ Q a s := Iff.rfl

theorem sat_abort {e : ε} : Sat (.abort e) s Q E ↔ E e s := Iff.rfl

theorem sat_read {f : σ → α} : Sat (read f) s Q E ↔ Q (f s) s := Iff.rfl

theorem sat_modify {f : σ → σ} {Q : Unit → σ → Prop} : Sat (modify f) s Q E ↔ Q () (f s) := Iff.rfl

theorem sat_attempt {f : σ → Except ε (α × σ)} (hok : ∀ a s', f s = .ok (a, s') → Q a s')
    (herr : ∀ e, f s = .error e → E e s) : Sat (attempt f) s Q E := by
  unfold Sat attempt
  rw [run_step]
  cases hf : f s with
  | ok r => exact hok r.1 r.2 hf
  | error e => exact herr e hf

theorem sat_ofExcept {x : Except ε α} (hok : ∀ a, x = .ok a → Q a s)
    (herr : ∀ e, x = .error e → E e s) : Sat (ofExcept x) s Q E := by
  cases x with
  | ok a => exact hok a rfl
  | error e => exact herr e rfl

theorem sat_trivial : Sat p s (fun _ _ => True) fun _ _ => True := by
  unfold Sat
  split <;> trivial

theorem sat_bind {f : α → Prog σ ε β} {Q : β → σ → Prop} {R : α → σ → Prop} (hp : Sat p s R E)
    (hf : ∀ a s', R a s' → Sat (f a) s' Q E) : Sat (p >>= f) s Q E := by
  unfold Sat at hp ⊢
  rw [run_bind]
  cases hr : p.run s with
  | mk r s' =>
    rw [hr] at hp
    cases r with
    | ok a => exact hf a s' hp
    | error e => exact hp

theorem Sat.mono (h : Sat p s Q E) (hQ : ∀ a s', Q a s' → Q' a s') (hE : ∀ e s', E e s' → E' e s') :
    Sat p s Q' E' := by
  unfold Sat at h ⊢
  cases hr : p.run s with
  | mk r s' =>
    rw [hr] at h
    cases r with
    | ok a => exact hQ a s' h
    | error e => exact hE e s' h

theorem Sat.and (h : Sat p s Q E) (h' : Sat p s Q' E') :
    Sat p s (fun a s' => Q a s' ∧ Q' a s') fun e s' => E e s' ∧ E' e s' := by
  unfold Sat at h h' ⊢
  cases hr : p.run s with
  | mk r s' =>
    rw [hr] at h h'
    cases r with
    | ok a => exact ⟨h, h'⟩
    | error e => exact ⟨h, h'⟩

theorem Sat.exists_ok (h : Sat p s Q fun _ _ => False) : ∃ a s', p.run s = (.ok a, s') ∧ Q a s' := by
  unfold Sat at h
  cases hr : p.run s with
  | mk r s' =>
    rw [hr] at h
    cases r with
    | ok a => exact ⟨a, s', rfl, h⟩
    | error e => exact h.elim

theorem Sat.run {P : σ → Prop} (h : Sat p s (fun _ s' => P s') fun _ s' => P s') : P (p.run s).2 := by
  unfold Sat at h
  cases hr : p.run s with
  | mk r s' =>
    rw [hr] at h
    cases r with
    | ok a => exact h
    | error e => exact h

theorem Sat.of_ok (h : Sat p s Q E) {a : α} (ha : (p.run s).1 = .ok a) : Q a (p.run s).2 := by
  unfold Sat at h
  cases hr : p.run s with
  | mk r s' =>
    rw [hr] at h ha
    cases ha
    exact h

theorem Sat.of_error (h : Sat p s Q E) {e : ε} (he : (p.run s).1 = .error e) : E e (p.run s).2 := by
  unfold Sat at h
  cases hr : p.run s with
  | mk r s' =>
    rw [hr] at h he
    cases he
    exact h

/-- A loop over a list keeps what each turn keeps. `R rest` is what holds before the elements of
`rest` are handled. -/
theorem sat_forM {γ : Type} {body : γ → Prog σ ε Unit} {R : List γ → σ → Prop}
    (hbody : ∀ x rest s, R (x :: rest) s → Sat (body x) s (fun _ s' => R rest s') E) :
    ∀ (xs : List γ) (s : σ), R xs s → Sat (xs.forM body) s (fun _ s' => R [] s') E := by
  intro xs
  induction xs with
  | nil => intro s hs; exact hs
  | cons x xs ih =>
    intro s hs
    exact sat_bind (hbody x xs s hs) fun _ s' hs' => ih s' hs'

/-! ### Running among others -/

/-- A triple under interference: while the others move the state along `rely`, every action of the
program moves it along `guar`, and the program ends with a value and a state in `Q`. -/
def Amid (rely guar : σ → σ → Prop) (Q : α → σ → Prop) : Prog σ ε α → σ → Prop
  | .done a, s => Q a s
  | .abort _, _ => True
  | .step update next, s =>
    ∀ s', rely s s' → guar s' (update s') ∧ Amid rely guar Q (next s') (update s')

section Amid

variable {rely guar : σ → σ → Prop} {Q : α → σ → Prop}

theorem amid_read {f : σ → α} (h : ∀ s', rely s s' → guar s' s' ∧ Q (f s') s') :
    Amid rely guar Q (read f : Prog σ ε α) s := h

theorem amid_modify {f : σ → σ} {Q : Unit → σ → Prop}
    (h : ∀ s', rely s s' → guar s' (f s') ∧ Q () (f s')) :
    Amid rely guar Q (modify f : Prog σ ε Unit) s := h

theorem amid_attempt {f : σ → Except ε (α × σ)}
    (hok : ∀ s', rely s s' → ∀ a s'', f s' = .ok (a, s'') → guar s' s'' ∧ Q a s'')
    (herr : ∀ s', rely s s' → guar s' s') : Amid rely guar Q (attempt f) s := by
  intro s' hr
  dsimp only
  cases hf : f s' with
  | ok r => exact hok s' hr r.1 r.2 hf
  | error e => exact ⟨herr s' hr, trivial⟩

theorem amid_bind {f : α → Prog σ ε β} {Q' : β → σ → Prop} {p : Prog σ ε α} {s : σ}
    (hp : Amid rely guar Q p s) (hf : ∀ a s', Q a s' → Amid rely guar Q' (f a) s') :
    Amid rely guar Q' (p >>= f) s := by
  induction p generalizing s with
  | done a => exact hf a s hp
  | abort e => trivial
  | step update next ih =>
    intro s' hr
    obtain ⟨hguar, hnext⟩ := hp s' hr
    exact ⟨hguar, ih s' hnext⟩

theorem Amid.mono {guar' : σ → σ → Prop} {Q' : α → σ → Prop} {p : Prog σ ε α} {s : σ}
    (h : Amid rely guar Q p s) (hguar : ∀ s s', guar s s' → guar' s s')
    (hpost : ∀ a s, Q a s → Q' a s) : Amid rely guar' Q' p s := by
  induction p generalizing s with
  | done a => exact hpost a s h
  | abort e => trivial
  | step update next ih =>
    intro s' hr
    obtain ⟨hg, hnext⟩ := h s' hr
    exact ⟨hguar _ _ hg, ih s' hnext⟩

/-- Moves of the others after which they can do no more than before do not hurt a program whose
postcondition they keep. -/
theorem Amid.stable {p : Prog σ ε α} {s s' : σ} (h : Amid rely guar Q p s)
    (hrely : ∀ s'', rely s' s'' → rely s s'') (hpost : ∀ a, Q a s → Q a s') :
    Amid rely guar Q p s' := by
  cases p with
  | done a => exact hpost a h
  | abort e => trivial
  | step update next => exact fun s'' hr => h s'' (hrely s'' hr)

end Amid

/-! ### One action at a time -/

/-- The next action, if the program has not ended. -/
def act : Prog σ ε α → σ → Prog σ ε α × σ
  | .step update next, s => (next s, update s)
  | p, s => (p, s)

/-- The program has an action left. -/
def UnderWay : Prog σ ε α → Prop
  | .step _ _ => True
  | _ => False

instance (p : Prog σ ε α) : Decidable p.UnderWay :=
  match p with
  | .done _ => .isFalse id
  | .abort _ => .isFalse id
  | .step _ _ => .isTrue trivial

theorem act_step (update : σ → σ) (next : σ → Prog σ ε α) (s : σ) :
    (Prog.step update next).act s = (next s, update s) := rfl

theorem act_of_not_underWay {p : Prog σ ε α} (h : ¬ p.UnderWay) (s : σ) : p.act s = (p, s) := by
  cases p with
  | done a => rfl
  | abort e => rfl
  | step update next => exact absurd trivial h

theorem act_attempt_ok {f : σ → Except ε (α × σ)} {s s' : σ} {a : α} (h : f s = .ok (a, s')) :
    (attempt f).act s = (.done a, s') := by
  unfold attempt
  rw [act_step, h]

theorem act_attempt_error {f : σ → Except ε (α × σ)} {s : σ} {e : ε} (h : f s = .error e) :
    (attempt f).act s = (.abort e, s) := by
  unfold attempt
  rw [act_step, h]

/-- The state that a program leaves behind when it is stopped after `n` actions, with no others in
between. -/
def cut : ℕ → Prog σ ε α → σ → σ
  | n + 1, .step update next, s => cut n (next s) (update s)
  | _, _, s => s

section Cut

variable (n : ℕ) (s : σ)

@[simp] theorem cut_zero (p : Prog σ ε α) : p.cut 0 s = s := by
  cases p <;> rfl

@[simp] theorem cut_done (a : α) : (.done a : Prog σ ε α).cut n s = s := by
  cases n <;> rfl

@[simp] theorem cut_abort (e : ε) : (.abort e : Prog σ ε α).cut n s = s := by
  cases n <;> rfl

@[simp] theorem cut_read (f : σ → α) (k : α → Prog σ ε β) :
    (read f >>= k).cut (n + 1) s = (k (f s)).cut n s := rfl

@[simp] theorem cut_modify (f : σ → σ) (k : Unit → Prog σ ε β) :
    (modify f >>= k).cut (n + 1) s = (k ()).cut n (f s) := rfl

theorem cut_attempt_ok {f : σ → Except ε (α × σ)} {a : α} {t : σ} (k : α → Prog σ ε β)
    (h : f s = .ok (a, t)) : (attempt f >>= k).cut (n + 1) s = (k a).cut n t := by
  show ((match f s with | .ok (a, _) => Prog.done a | .error e => .abort e) >>= k).cut n
    (match f s with | .ok (_, s') => s' | .error _ => s) = _
  rw [h]
  rfl

end Cut

/-- Every action of the program moves the state along `guar`, whatever the others do. -/
def Always (guar : σ → σ → Prop) (p : Prog σ ε α) : Prop :=
  ∀ s, Amid (fun _ _ => True) guar (fun _ _ => True) p s

section Always

variable {guar : σ → σ → Prop}

theorem always_done {a : α} : Always guar (.done a : Prog σ ε α) := fun _ => trivial

theorem always_abort {e : ε} : Always guar (.abort e : Prog σ ε α) := fun _ => trivial

theorem always_step {update : σ → σ} {next : σ → Prog σ ε α} (hguar : ∀ s, guar s (update s))
    (hnext : ∀ s, Always guar (next s)) : Always guar (.step update next) :=
  fun _ s _ => ⟨hguar s, hnext s _⟩

theorem always_read {f : σ → α} (h : ∀ s, guar s s) : Always guar (read f : Prog σ ε α) :=
  always_step h fun _ => always_done

theorem always_modify {f : σ → σ} (h : ∀ s, guar s (f s)) :
    Always guar (modify f : Prog σ ε Unit) :=
  always_step h fun _ => always_done

theorem always_attempt {f : σ → Except ε (α × σ)} (h : ∀ s a s', f s = .ok (a, s') → guar s s')
    (hrefl : ∀ s, guar s s) : Always guar (attempt f) :=
  fun _ => amid_attempt (fun s' _ a s'' hf => ⟨h s' a s'' hf, trivial⟩) fun s' _ => hrefl s'

theorem always_ofExcept {x : Except ε α} : Always guar (ofExcept x : Prog σ ε α) := by
  cases x with
  | ok a => exact always_done
  | error e => exact always_abort

theorem Always.bind {p : Prog σ ε α} {f : α → Prog σ ε β} (hp : Always guar p)
    (hf : ∀ a, Always guar (f a)) : Always guar (p >>= f) :=
  fun s => amid_bind (hp s) fun a s' _ => hf a s'

theorem always_forM {γ : Type} {body : γ → Prog σ ε Unit} (h : ∀ x, Always guar (body x))
    (xs : List γ) : Always guar (xs.forM body) := by
  induction xs with
  | nil => exact always_done
  | cons x xs ih => exact (h x).bind fun _ => ih

theorem Always.next {update : σ → σ} {next : σ → Prog σ ε α} (h : Always guar (.step update next))
    (s : σ) : guar s (update s) ∧ Always guar (next s) := by
  obtain ⟨hguar, hnext⟩ := h s s trivial
  exact ⟨hguar, fun s' => hnext.stable (fun _ _ => trivial) fun _ _ => trivial⟩

/-- A program run alone moves the state along a reflexive and transitive `guar`. -/
theorem Always.run {p : Prog σ ε α} (h : Always guar p) (hrefl : ∀ s, guar s s)
    (htrans : ∀ s s' s'', guar s s' → guar s' s'' → guar s s'') (s : σ) : guar s (p.run s).2 := by
  induction p generalizing s with
  | done a => exact hrefl s
  | abort e => exact hrefl s
  | step update next ih => exact htrans _ _ _ (h.next s).1 (ih s (h.next s).2 (update s))

theorem Always.sat {p : Prog σ ε α} (h : Always guar p) (hrefl : ∀ s, guar s s)
    (htrans : ∀ s s' s'', guar s s' → guar s' s'' → guar s s'') (s : σ) :
    Sat p s (fun _ s' => guar s s') fun _ s' => guar s s' := by
  have hrun := h.run hrefl htrans s
  unfold Sat
  split
  · rename_i hr
    rwa [hr] at hrun
  · rename_i hr
    rwa [hr] at hrun

end Always

/-- Every action of the program moves the state along `guar` until what is left of it satisfies `K`, if
it ever does. -/
inductive Until (guar : σ → σ → Prop) (K : Prog σ ε α → Prop) : Prog σ ε α → Prop
  | reached {p : Prog σ ε α} (h : K p) : Until guar K p
  | done (a : α) : Until guar K (.done a)
  | abort (e : ε) : Until guar K (.abort e)
  | step {update : σ → σ} {next : σ → Prog σ ε α} (hguar : ∀ s, guar s (update s))
      (hnext : ∀ s, Until guar K (next s)) : Until guar K (.step update next)

theorem Until.bind {guar : σ → σ → Prop} {K : Prog σ ε β → Prop} {p : Prog σ ε α}
    {f : α → Prog σ ε β} (hp : Always guar p) (hf : ∀ a, Until guar K (f a)) :
    Until guar K (p >>= f) := by
  induction p with
  | done a => exact hf a
  | abort e => exact .abort e
  | step update next ih => exact .step (fun s => (hp.next s).1) fun s => ih s (hp.next s).2

theorem Always.until {guar : σ → σ → Prop} {K : Prog σ ε α → Prop} {p : Prog σ ε α} (h : Always guar p) :
    Until guar K p := by
  have hbind : Until guar K (p >>= .done) := .bind h .done
  rwa [bind_done] at hbind

/-- What may be left of `p` after some of its actions, with others in between. -/
inductive Residual (p : Prog σ ε α) : Prog σ ε α → Prop
  | start : Residual p p
  | next {update : σ → σ} {next : σ → Prog σ ε α} (h : Residual p (.step update next)) (s : σ) :
      Residual p (next s)

theorem Residual.always {guar : σ → σ → Prop} {p q : Prog σ ε α} (h : Residual p q)
    (hp : Always guar p) : Always guar q := by
  induction h with
  | start => exact hp
  | next h s ih => exact (ih.next s).2

/-! ### Errors that do not occur -/

/-- The program does not abort with `e`, whatever happens between its actions. -/
def Avoids (e : ε) : Prog σ ε α → Prop
  | .done _ => True
  | .abort e' => e' ≠ e
  | .step _ next => ∀ s, (next s).Avoids e

section Avoids

variable {e : ε}

theorem avoids_done {a : α} : Avoids e (.done a : Prog σ ε α) := trivial

theorem avoids_read {f : σ → α} : Avoids e (read f : Prog σ ε α) := fun _ => trivial

theorem avoids_modify {f : σ → σ} : Avoids e (modify f : Prog σ ε Unit) := fun _ => trivial

theorem avoids_attempt {f : σ → Except ε (α × σ)} (h : ∀ s, f s ≠ .error e) : Avoids e (attempt f) := by
  intro s
  have hs := h s
  dsimp only
  cases hf : f s with
  | ok r => exact avoids_done
  | error e' =>
    rw [hf] at hs
    show e' ≠ e
    rintro rfl
    exact hs rfl

theorem Avoids.bind {p : Prog σ ε α} {f : α → Prog σ ε β} (hp : Avoids e p) (hf : ∀ a, Avoids e (f a)) :
    Avoids e (p >>= f) := by
  induction p with
  | done a => exact hf a
  | abort e' => exact hp
  | step update next ih => exact fun s => ih s (hp s)

end Avoids

/-! ### Parts of the state that play no part -/

/-- What `f` sets, the program neither looks at nor alters. -/
def Ignores (f : σ → σ) (p : Prog σ ε α) : Prop := ∀ s, p.run (f s) = ((p.run s).1, f (p.run s).2)

section Ignores

variable {f : σ → σ}

theorem ignores_done {a : α} : Ignores f (.done a : Prog σ ε α) := fun _ => rfl

theorem ignores_abort {e : ε} : Ignores f (.abort e : Prog σ ε α) := fun _ => rfl

theorem ignores_read {g : σ → α} (h : ∀ s, g (f s) = g s) : Ignores f (read g : Prog σ ε α) := by
  intro s
  show (Except.ok (g (f s)), f s) = (Except.ok (g s), f s)
  rw [h]

theorem ignores_modify {g : σ → σ} (h : ∀ s, g (f s) = f (g s)) : Ignores f (modify g : Prog σ ε Unit) := by
  intro s
  show (Except.ok (), g (f s)) = (Except.ok (), f (g s))
  rw [h]

theorem ignores_attempt {g : σ → Except ε (α × σ)}
    (h : ∀ s, g (f s) = (g s).map fun r => (r.1, f r.2)) : Ignores f (attempt g) := by
  intro s
  unfold attempt
  rw [run_step, run_step, h]
  cases g s with
  | ok r => rfl
  | error e => rfl

theorem Ignores.bind {p : Prog σ ε α} {q : α → Prog σ ε β} (hp : Ignores f p) (hq : ∀ a, Ignores f (q a)) :
    Ignores f (p >>= q) := by
  intro s
  rw [run_bind, run_bind, hp s]
  cases p.run s with
  | mk r s' =>
    cases r with
    | ok a => exact hq a s'
    | error e => rfl

end Ignores

end Prog

end Resumption
