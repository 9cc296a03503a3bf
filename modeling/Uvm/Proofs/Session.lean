/-! Calls on a state, one after the other. A call gives the state that it leaves behind, whether it
is accepted or refused, and a run goes on from there. Where refused calls leave the state as it was,
what a run leaves behind is told by the calls that were accepted. -/
namespace Uvm.Session

variable {σ α β ε : Type} {call : σ → α → σ × Except ε Unit}

/-- The state after calls, whatever became of each. -/
def run (call : σ → α → σ × Except ε Unit) (s : σ) (calls : List α) : σ :=
  calls.foldl (fun s a => (call s a).1) s

/-- The calls that were accepted, in order. -/
def accepted (call : σ → α → σ × Except ε Unit) (s : σ) : List α → List α
  | [] => []
  | a :: rest =>
    match (call s a).2 with
    | .ok () => a :: accepted call (call s a).1 rest
    | .error _ => accepted call (call s a).1 rest

theorem run_cons (s : σ) (a : α) (rest : List α) :
    run call s (a :: rest) = run call (call s a).1 rest :=
  rfl

theorem run_append (s : σ) (before after : List α) :
    run call s (before ++ after) = run call (run call s before) after :=
  List.foldl_append

theorem accepted_of_ok {s : σ} {a : α} (h : (call s a).2 = .ok ()) (rest : List α) :
    accepted call s (a :: rest) = a :: accepted call (call s a).1 rest := by
  simp only [accepted, h]

theorem accepted_of_error {s : σ} {a : α} {e : ε} (h : (call s a).2 = .error e) (rest : List α) :
    accepted call s (a :: rest) = accepted call (call s a).1 rest := by
  simp only [accepted, h]

/-- Where the state has no say in whether a call is accepted, each call is judged on its own. -/
theorem accepted_eq_filter {p : α → Bool} (hp : ∀ s a, (call s a).2 = .ok () ↔ p a = true) (s : σ)
    (calls : List α) : accepted call s calls = calls.filter p := by
  induction calls generalizing s with
  | nil => rfl
  | cons a rest ih =>
    cases h : (call s a).2 with
    | ok => rw [accepted_of_ok h, ih, List.filter_cons_of_pos ((hp s a).mp h)]
    | error e =>
      have hrefused : ¬ p a = true := by
        intro hpa
        rw [(hp s a).mpr hpa] at h
        cases h
      rw [accepted_of_error h, ih, List.filter_cons_of_neg hrefused]

/-- What one call keeps, a run keeps. -/
theorem run_keeps {P : σ → Prop} (hstep : ∀ s a, P s → P (call s a).1) {s : σ} (hs : P s)
    (calls : List α) : P (run call s calls) := by
  induction calls generalizing s with
  | nil => exact hs
  | cons a rest ih =>
    rw [run_cons]
    exact ih (hstep s a hs)

/-- Where every accepted call appends its part to a list in the state and a refused one appends
nothing, a run appends the parts of the accepted calls. -/
theorem run_appends {view : σ → List β} {part : α → List β}
    (hok : ∀ s a, (call s a).2 = .ok () → view (call s a).1 = view s ++ part a)
    (herror : ∀ s a e, (call s a).2 = .error e → view (call s a).1 = view s) (s : σ)
    (calls : List α) :
    view (run call s calls) = view s ++ (accepted call s calls).flatMap part := by
  induction calls generalizing s with
  | nil => exact (List.append_nil _).symm
  | cons a rest ih =>
    rw [run_cons, ih]
    cases h : (call s a).2 with
    | ok => rw [accepted_of_ok h, hok s a h, List.flatMap_cons, List.append_assoc]
    | error e => rw [accepted_of_error h, herror s a e h]

end Uvm.Session
