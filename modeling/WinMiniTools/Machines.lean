import Mathlib.Data.List.Basic
import Mathlib.Data.Option.Basic

/-!
Machines that take labelled steps. A step may be disabled; a run takes a list of
labels, one after the other (`run`, `run_cons_some`). What every step preserves
holds after every run (`run_invariant`), and an amount that every step changes
by its gain less its loss changes by the totals of these over a run
(`run_balance`).
-/
namespace WinMiniTools.Machines
universe u v

/-- The step that a label takes, where it is enabled. -/
structure Machine (State : Type u) (Label : Type v) where
  step : State → Label → Option State

variable {State : Type u} {Label : Type v}
namespace Machine

/-- The state after the labels, in order, when each is enabled. -/
def run (m : Machine State Label) : State → List Label → Option State
  | s, [] => some s
  | s, a :: rest =>
    match m.step s a with
    | none => none
    | some t => run m t rest

@[simp] theorem run_nil (m : Machine State Label) (s : State) : m.run s [] = some s := rfl

theorem run_cons_some (m : Machine State Label) {s u : State} {a : Label} {rest : List Label} :
    m.run s (a :: rest) = some u ↔ ∃ t, m.step s a = some t ∧ m.run t rest = some u := by
  rw [run]
  cases m.step s a <;> simp

/-- What every step preserves holds after every run. -/
theorem run_invariant (m : Machine State Label) {Inv : State → Prop}
    (preserved : ∀ s a t, Inv s → m.step s a = some t → Inv t) {s t : State} {labels : List Label}
    (start : Inv s) (ran : m.run s labels = some t) : Inv t := by
  induction labels generalizing s with
  | nil => cases ran; exact start
  | cons a rest ih =>
    obtain ⟨next, step, later⟩ := m.run_cons_some.mp ran
    exact ih (preserved s a next start step) later

/-! ### What happens along a run -/

/-- A predicate of every state that the labels lead through. -/
def Along (m : Machine State Label) (P : State → Prop) : State → List Label → Prop
  | s, [] => P s
  | s, a :: rest =>
    P s ∧ match m.step s a with
      | none => True
      | some t => Along m P t rest

/-- A predicate of every step that the labels take. -/
def Steps (m : Machine State Label) (P : State → Label → State → Prop) : State → List Label → Prop
  | _, [] => True
  | s, a :: rest =>
    match m.step s a with
    | none => True
    | some t => P s a t ∧ Steps m P t rest

/-- The sum of an amount over all steps. -/
def total (m : Machine State Label) (amount : State → Label → State → Nat) : State → List Label → Nat
  | _, [] => 0
  | s, a :: rest =>
    match m.step s a with
    | none => 0
    | some t => amount s a t + total m amount t rest

theorem along_first (m : Machine State Label) {P : State → Prop} {s : State} {labels : List Label}
    (along : m.Along P s labels) : P s := by
  cases labels with
  | nil => exact along
  | cons a rest => exact along.1

theorem along_cons (m : Machine State Label) (P : State → Prop) {s t : State} {a : Label} (step : m.step s a = some t)
    (rest : List Label) : m.Along P s (a :: rest) ↔ P s ∧ m.Along P t rest := by
  rw [Along, step]

theorem steps_cons (m : Machine State Label) (P : State → Label → State → Prop) {s t : State} {a : Label}
    (step : m.step s a = some t) (rest : List Label) : m.Steps P s (a :: rest) ↔ P s a t ∧ m.Steps P t rest := by
  rw [Steps, step]

instance decidableAlong (m : Machine State Label) (P : State → Prop) [DecidablePred P] :
    (s : State) → (labels : List Label) → Decidable (m.Along P s labels)
  | s, [] => inferInstanceAs (Decidable (P s))
  | s, a :: rest =>
    match step : m.step s a with
    | none => decidable_of_iff (P s) (by simp only [Along, step, and_true])
    | some t =>
      have := decidableAlong m P t rest
      decidable_of_iff (P s ∧ m.Along P t rest) (m.along_cons P step rest).symm

theorem total_cons (m : Machine State Label) (amount : State → Label → State → Nat) {s t : State} {a : Label}
    (step : m.step s a = some t) (rest : List Label) :
    m.total amount s (a :: rest) = amount s a t + m.total amount t rest := by
  rw [total, step]

/-- What every step of a kind preserves holds after every run of such steps. -/
theorem run_steps (m : Machine State Label) {Inv : State → Prop} {Q : State → Label → State → Prop}
    (preserved : ∀ s a t, Inv s → Q s a t → m.step s a = some t → Inv t) {s t : State} {labels : List Label}
    (start : Inv s) (steps : m.Steps Q s labels) (ran : m.run s labels = some t) : Inv t := by
  induction labels generalizing s with
  | nil => cases ran; exact start
  | cons a rest ih =>
    obtain ⟨next, step, later⟩ := m.run_cons_some.mp ran
    obtain ⟨here, there⟩ := (m.steps_cons Q step rest).mp steps
    exact ih (preserved s a next start here step) there later

/-- What every step gains and loses, a run gains and loses in total. -/
theorem run_balance (m : Machine State Label) {worth : State → Nat} {gain loss : State → Label → State → Nat}
    (balance : ∀ s a t, m.step s a = some t → worth t + loss s a t = worth s + gain s a t) {s t : State}
    {labels : List Label} (ran : m.run s labels = some t) :
    worth t + m.total loss s labels = worth s + m.total gain s labels := by
  induction labels generalizing s with
  | nil => cases ran; rfl
  | cons a rest ih =>
    obtain ⟨next, step, later⟩ := m.run_cons_some.mp ran
    have here := balance s a next step
    have there := ih later
    rw [m.total_cons loss step, m.total_cons gain step]
    omega

/-- Steps between states of a run that amount to nothing amount to nothing in total. -/
theorem total_zero (m : Machine State Label) {P : State → Prop} {Q : State → Label → State → Prop}
    {amount : State → Label → State → Nat}
    (nothing : ∀ s a t, m.step s a = some t → P s → P t → Q s a t → amount s a t = 0) {s : State} {labels : List Label}
    (along : m.Along P s labels) (steps : m.Steps Q s labels) : m.total amount s labels = 0 := by
  induction labels generalizing s with
  | nil => rfl
  | cons a rest ih =>
    cases step : m.step s a with
    | none => rw [total, step]
    | some t =>
      obtain ⟨here, later⟩ := (m.steps_cons Q step rest).mp steps
      obtain ⟨now, rest'⟩ := (m.along_cons P step rest).mp along
      rw [m.total_cons amount step, nothing s a t step now (m.along_first rest') here, ih rest' later]

end Machine
end WinMiniTools.Machines
