import Mathlib

/-!
A state machine given by a step function that may fail (a failed assertion
of the code it models), the runs of its events, the states those runs
reach, and the rule that an invariant kept by every successful step holds
in every reachable state.
-/

namespace Transition

variable {S E ε : Type}

/-- Apply the events in turn, stopping at the first failure. -/
def run (step : S → E → Except ε S) : S → List E → Except ε S
  | s, [] => .ok s
  | s, e :: es =>
    match step s e with
    | .ok s' => run step s' es
    | .error err => .error err

/-- The states some run of successful steps reaches from `init`. -/
inductive Reachable (step : S → E → Except ε S) (init : S) : S → Prop
  | init : Reachable step init init
  | step {s s' : S} (e : E) : Reachable step init s → step s e = .ok s' → Reachable step init s'

variable {step : S → E → Except ε S} {init : S}

@[simp] theorem run_nil (s : S) : run step s [] = .ok s := rfl

theorem run_cons (s : S) (e : E) (es : List E) :
    run step s (e :: es) =
      match step s e with
      | .ok s' => run step s' es
      | .error err => .error err := rfl

theorem run_append (s : S) (es es' : List E) :
    run step s (es ++ es') = (run step s es).bind fun s' => run step s' es' := by
  induction es generalizing s with
  | nil => rfl
  | cons e es ih =>
    rw [List.cons_append, run_cons, run_cons]
    split
    · exact ih _
    · rfl

/-- The end of a successful run from a reachable state is reachable. -/
theorem Reachable.run {s s' : S} (hs : Reachable step init s) {es : List E}
    (h : Transition.run step s es = .ok s') : Reachable step init s' := by
  induction es generalizing s with
  | nil =>
    cases h
    exact hs
  | cons e es ih =>
    rw [run_cons] at h
    split at h
    · rename_i s'' hstep
      exact ih (hs.step e hstep) h
    · cases h

/-- The invariant rule. -/
theorem Reachable.invariant {P : S → Prop} (h0 : P init)
    (hstep : ∀ s e s', P s → step s e = .ok s' → P s') {s : S}
    (h : Reachable step init s) : P s := by
  induction h with
  | init => exact h0
  | step e _ hnext ih => exact hstep _ e _ ih hnext

/-- The invariant rule along one run whose events all satisfy `ok`: the
invariant need only be kept by the steps of such events. -/
theorem run_invariant {P : S → Prop} {ok : E → Prop}
    (hstep : ∀ s e s', ok e → P s → step s e = .ok s' → P s') {s s' : S} {es : List E}
    (hs : P s) (hes : ∀ e ∈ es, ok e) (h : run step s es = .ok s') : P s' := by
  induction es generalizing s with
  | nil =>
    cases h
    exact hs
  | cons e es ih =>
    rw [run_cons] at h
    split at h
    · rename_i s'' hnext
      exact ih (hstep s e s'' (hes e List.mem_cons_self) hs hnext)
        (fun e' he' => hes e' (List.mem_cons_of_mem e he')) h
    · cases h

end Transition
