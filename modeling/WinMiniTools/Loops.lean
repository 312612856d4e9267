import Mathlib.Data.Sum.Basic

/-!
Loops that terminate by a weight. One iteration (`body`) emits events and
either goes on in a new state or leaves the loop with a result; every iteration
that goes on lowers the weight, so a loop has its events and its result from
every state (`events`, `result`). They unfold by iterations (`events_next`,
`result_next`, `events_leave`, `result_leave`), and `induct` is the induction
over iterations.
-/
namespace WinMiniTools.Loops
universe u v w

/-- One iteration, and the weight that it lowers. -/
structure Loop (State : Type u) (Event : Type v) (Result : Type w) where
  body : State → List Event × (State ⊕ Result)
  weight : State → Nat
  progress : ∀ s t, (body s).2 = .inl t → weight t < weight s

variable {State : Type u} {Event : Type v} {Result : Type w}
namespace Loop

/-- At most the given number of iterations. -/
def iterate (l : Loop State Event Result) : Nat → State → List Event × (State ⊕ Result)
  | 0, s => ([], .inl s)
  | n + 1, s =>
    match l.body s with
    | (es, .inr r) => (es, .inr r)
    | (es, .inl t) => (es ++ (iterate l n t).1, (iterate l n t).2)

theorem iterate_leave (l : Loop State Event Result) {s : State} {es : List Event} {r : Result}
    (body : l.body s = (es, .inr r)) (n : Nat) : l.iterate (n + 1) s = (es, .inr r) := by
  rw [iterate, body]

theorem iterate_next (l : Loop State Event Result) {s t : State} {es : List Event}
    (body : l.body s = (es, .inl t)) (n : Nat) :
    l.iterate (n + 1) s = (es ++ (l.iterate n t).1, (l.iterate n t).2) := by
  rw [iterate, body]

theorem progress_of_body (l : Loop State Event Result) {s t : State} {es : List Event}
    (body : l.body s = (es, .inl t)) : l.weight t < l.weight s :=
  l.progress s t (by rw [body])

/-- The induction over the iterations of a loop. -/
theorem induct (l : Loop State Event Result) {P : State → Prop}
    (step : ∀ s, (∀ es t, l.body s = (es, .inl t) → P t) → P s) (s : State) : P s := by
  refine WellFounded.induction (measure l.weight).wf s ?_
  intro s ih
  exact step s (fun es t body => ih t (l.progress_of_body body))

/-- As many iterations as the weight allows leave the loop, and more change nothing. -/
theorem iterate_done (l : Loop State Event Result) (s : State) :
    (l.iterate (l.weight s + 1) s).2.isRight ∧
      ∀ n, l.weight s < n → l.iterate n s = l.iterate (l.weight s + 1) s := by
  induction s using l.induct with
  | step s ih =>
    cases body : l.body s with
    | mk es o =>
      cases o with
      | inr r =>
        refine ⟨by rw [l.iterate_leave body]; rfl, ?_⟩
        intro n enough
        obtain ⟨n, rfl⟩ := Nat.exists_eq_add_one_of_ne_zero (Nat.ne_of_gt (Nat.zero_lt_of_lt enough))
        rw [l.iterate_leave body, l.iterate_leave body]
      | inl t =>
        obtain ⟨done, stable⟩ := ih es t body
        have lower := l.progress_of_body body
        rw [l.iterate_next body, stable _ lower]
        refine ⟨done, ?_⟩
        intro n enough
        obtain ⟨n, rfl⟩ := Nat.exists_eq_add_one_of_ne_zero (Nat.ne_of_gt (Nat.zero_lt_of_lt enough))
        rw [l.iterate_next body, stable n (by omega)]

/-- The events of all iterations, in order. -/
def events (l : Loop State Event Result) (s : State) : List Event := (l.iterate (l.weight s + 1) s).1
/-- What the loop is left with. -/
def result (l : Loop State Event Result) (s : State) : Result :=
  (l.iterate (l.weight s + 1) s).2.getRight (l.iterate_done s).1

theorem events_leave (l : Loop State Event Result) {s : State} {es : List Event} {r : Result}
    (body : l.body s = (es, .inr r)) : l.events s = es := by
  rw [events, l.iterate_leave body]

theorem result_leave (l : Loop State Event Result) {s : State} {es : List Event} {r : Result}
    (body : l.body s = (es, .inr r)) : l.result s = r := by
  simp [result, l.iterate_leave body]

theorem events_next (l : Loop State Event Result) {s t : State} {es : List Event}
    (body : l.body s = (es, .inl t)) : l.events s = es ++ l.events t := by
  rw [events, l.iterate_next body, (l.iterate_done t).2 _ (l.progress_of_body body), events]

theorem result_next (l : Loop State Event Result) {s t : State} {es : List Event}
    (body : l.body s = (es, .inl t)) : l.result s = l.result t := by
  simp [result, l.iterate_next body, (l.iterate_done t).2 _ (l.progress_of_body body)]

end Loop
end WinMiniTools.Loops
