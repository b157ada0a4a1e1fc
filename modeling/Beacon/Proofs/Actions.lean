import Beacon.Act
import Mathlib.Tactic.Common

/-!
# Repeated actions

`Act.gather` has no bound on its rounds.  `Act.Ends` says that it comes to an
end from a state, and a repeated action has the effect of its rounds one after
the other exactly when it does.  What one round preserves, all of them preserve.
-/

namespace Beacon

variable {σ τ α β : Type}

namespace Act

/-- To answer with what an action gives adds nothing to it. -/
theorem bind_pure_apply (action : Act σ α) (f : α → β) (s : σ) :
    (action >>= fun a => pure (f a)) s =
      ⟨f (action s).value, (action s).state, (action s).output⟩ := by
  rw [bind_apply, pure_apply, Done.after, List.append_nil]

/-- Repeating the action from this state comes to an end. -/
inductive Ends (action : Act σ (Option α)) : σ → Prop
  | stop {s : σ} : (action s).value = none → Ends action s
  | more {s : σ} {a : α} : (action s).value = some a → Ends action (action s).state → Ends action s

/-- The rounds do not depend on what has been gathered before them. -/
theorem gather_go_of_ends {action : Act σ (Option α)} {s : σ} (hends : Ends action s) :
    ∃ done : Done σ (List α), ∀ given sofar,
      gather.go action given sofar s =
        some ⟨given.reverse ++ done.value, done.state, sofar.reverse ++ done.output⟩ := by
  induction hends with
  | @stop s hnone =>
      refine ⟨⟨[], (action s).state, (action s).output⟩, fun given sofar => ?_⟩
      rw [gather.go.eq_1]
      simp [hnone]
  | @more s a hsome _ ih =>
      obtain ⟨done, hdone⟩ := ih
      refine ⟨⟨a :: done.value, done.state, (action s).output ++ done.output⟩,
        fun given sofar => ?_⟩
      rw [gather.go.eq_1]
      simp [hsome, hdone]

theorem ends_of_gather_go {action : Act σ (Option α)} {s : σ} {given : List α}
    {sofar : List Output} {done : Done σ (List α)}
    (hdone : gather.go action given sofar s = some done) : Ends action s := by
  refine gather.go.partial_correctness action (fun _ _ s _ => Ends action s) ?_ given sofar s done
    hdone
  intro go ih given sofar s done hround
  cases hvalue : (action s).value with
  | none => exact .stop hvalue
  | some a =>
      simp only [hvalue] at hround
      exact .more hvalue (ih _ _ _ _ hround)

theorem gather_of_not_ends {action : Act σ (Option α)} {s : σ} (hends : ¬Ends action s) :
    gather action s = ⟨[], s, []⟩ := by
  unfold gather
  cases hgo : gather.go action [] [] s with
  | none => rfl
  | some done => exact absurd (ends_of_gather_go hgo) hends

theorem gather_of_none {action : Act σ (Option α)} {s : σ} (hnone : (action s).value = none) :
    gather action s = ⟨[], (action s).state, (action s).output⟩ := by
  unfold gather
  rw [gather.go.eq_1]
  simp [hnone]

theorem gather_of_some {action : Act σ (Option α)} {s : σ} {a : α}
    (hsome : (action s).value = some a) (hends : Ends action (action s).state) :
    gather action s =
      ⟨a :: (gather action (action s).state).value, (gather action (action s).state).state,
        (action s).output ++ (gather action (action s).state).output⟩ := by
  obtain ⟨done, hdone⟩ := gather_go_of_ends hends
  unfold gather
  rw [gather.go.eq_1]
  simp [hsome, hdone]

/-- What every round preserves holds after all of them. -/
theorem gather_invariant {action : Act σ (Option α)} {P : σ → Prop}
    (hround : ∀ s, P s → P (action s).state) {s : σ} (hs : P s) :
    P (gather action s).state := by
  by_cases hends : Ends action s
  · induction hends with
    | @stop s hnone =>
        rw [gather_of_none hnone]
        exact hround s hs
    | @more s a hsome hrest ih =>
        rw [gather_of_some hsome hrest]
        exact ih (hround s hs)
  · rw [gather_of_not_ends hends]
    exact hs

/-- A repeated action that comes to an end leaves a state in which it gives nothing, reached by
a last round that gave nothing. -/
theorem gather_last {action : Act σ (Option α)} {P : σ → Prop}
    (hround : ∀ s, P s → P (action s).state) {s : σ} (hends : Ends action s) (hs : P s) :
    ∃ last, P last ∧ (action last).value = none ∧
      (gather action s).state = (action last).state := by
  induction hends with
  | @stop s hnone => exact ⟨s, hs, hnone, by rw [gather_of_none hnone]⟩
  | @more s a hsome hrest ih =>
      rw [gather_of_some hsome hrest]
      exact ih (hround s hs)

/-- A measure that falls with every round that gives something bounds the rounds. -/
theorem ends_of_measure {action : Act σ (Option α)} {P : σ → Prop} (measure : σ → Nat)
    (hround : ∀ s a, P s → (action s).value = some a →
      P (action s).state ∧ measure (action s).state < measure s)
    {s : σ} (hs : P s) : Ends action s := by
  induction hn : measure s using Nat.strongRecOn generalizing s with
  | ind n ih =>
      cases hvalue : (action s).value with
      | none => exact .stop hvalue
      | some a =>
          obtain ⟨hnext, hless⟩ := hround s a hs hvalue
          exact .more hvalue (ih _ (hn ▸ hless) hnext rfl)

/-- A repeated action that always finds something to do never ends. -/
theorem not_ends_of_invariant {action : Act σ (Option α)} {P : σ → Prop}
    (hround : ∀ s, P s → (action s).value ≠ none ∧ P (action s).state)
    {s : σ} (hs : P s) : ¬Ends action s := by
  intro hends
  induction hends with
  | stop hnone => exact (hround _ hs).1 hnone
  | more _ _ ih => exact ih (hround _ hs).2

/-- The action leaves a view of the state as it is. -/
def Keeps (view : σ → β) (action : Act σ α) : Prop :=
  ∀ s, view (action s).state = view s

theorem Keeps.bind {γ : Type} {view : σ → γ} {action : Act σ α} {next : α → Act σ β}
    (hfirst : Keeps view action) (hnext : ∀ a, Keeps view (next a)) :
    Keeps view (action >>= next) := by
  intro s
  exact (hnext _ _).trans (hfirst s)

theorem Keeps.gather {view : σ → β} {action : Act σ (Option α)} (hround : Keeps view action) :
    Keeps view (Act.gather action) := by
  intro s
  refine gather_invariant (P := fun t => view t = view s) ?_ rfl
  intro t ht
  exact (hround t).trans ht

end Act

end Beacon
