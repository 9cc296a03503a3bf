import Uvm.Command
import Uvm.Fault

/-! The log of a run, and results together with the events that led to them. The events of a step
that fails are kept, and so is what it has made of its state. -/
namespace Uvm

inductive Level where
  | debug
  | warn
  deriving DecidableEq, Repr

/-- An entry of the log. Where a label is defined, its name and its index are fields of their own;
all else is in the message. -/
structure Event where
  level : Level
  line : Nat
  message : Text
  label : Option (Text × Nat) := none
  deriving DecidableEq, Repr

namespace Event

def labelDefined (name : Text) (index line : Nat) : Event :=
  { level := .debug, line, message := "label defined", label := some (name, index) }

def encoded (line : Nat) (op : Op) (value : Nat) (bytes : List UInt8) : Event :=
  { level := .debug
    line
    message := op.mnemonic ++ " " ++ Text.decimal value ++ " -> ["
      ++ List.intercalate ", " (bytes.map Text.hexPairUpper) ++ "]" }

def dropped (command : Command) (fault : Fault) : Event :=
  { level := .warn
    line := command.line
    message := "skipping `" ++ command.source ++ "`: " ++ fault.message }

end Event

structure Traced (α : Type) where
  events : List Event
  result : Except Fault α

namespace Traced

variable {α β : Type}

def ok (a : α) : Traced α := ⟨[], .ok a⟩

def fail (fault : Fault) : Traced α := ⟨[], .error fault⟩

/-- A result that no event led to. -/
def ofExcept (result : Except Fault α) : Traced α := ⟨[], result⟩

/-- Puts an event before all others. -/
def after (event : Event) (t : Traced α) : Traced α := ⟨event :: t.events, t.result⟩

def map (f : α → β) (t : Traced α) : Traced β := ⟨t.events, t.result.map f⟩

/-- Goes on from a result; after a fault nothing more happens. -/
def andThen (t : Traced α) (next : α → Traced β) : Traced β :=
  match t.result with
  | .error fault => ⟨t.events, .error fault⟩
  | .ok a => ⟨t.events ++ (next a).events, (next a).result⟩

@[simp] theorem result_fail (fault : Fault) : (fail fault : Traced α).result = .error fault := rfl

@[simp] theorem result_after (event : Event) (t : Traced α) :
    (t.after event).result = t.result := rfl

@[simp] theorem result_map (f : α → β) (t : Traced α) : (t.map f).result = t.result.map f := rfl

theorem events_andThen_of_ok {t : Traced α} {a : α} (h : t.result = .ok a)
    (next : α → Traced β) : (t.andThen next).events = t.events ++ (next a).events := by
  simp only [andThen, h]

theorem events_andThen_of_error {t : Traced α} {fault : Fault} (h : t.result = .error fault)
    (next : α → Traced β) : (t.andThen next).events = t.events := by
  simp only [andThen, h]

theorem result_andThen (t : Traced α) (next : α → Traced β) :
    (t.andThen next).result = t.result.bind fun a => (next a).result := by
  unfold andThen
  cases t.result <;> rfl

end Traced

/-- What a step that works on a state leaves behind: the state, whether or not the step has failed,
the events and the outcome. -/
structure Step (σ : Type) extends Traced Unit where
  state : σ

namespace Step

variable {σ τ : Type}

def done (state : σ) : Step σ := { state, events := [], result := .ok () }

def logged (state : σ) (event : Event) : Step σ := { state, events := [event], result := .ok () }

def failed (state : σ) (fault : Fault) : Step σ := { state, events := [], result := .error fault }

/-- Puts events before all others. -/
def behind (events : List Event) (step : Step σ) : Step σ :=
  { step with events := events ++ step.events }

/-- The same step, its state seen as a part of a larger one. -/
def within (f : σ → τ) (step : Step σ) : Step τ := { step with state := f step.state }

/-- The state in place of the outcome; a failed step gives none. -/
def finish (step : Step σ) : Traced σ := step.map fun () => step.state

@[simp] theorem result_finish_done (state : σ) : (done state).finish.result = .ok state := rfl

theorem finish_behind_singleton (event : Event) (step : Step σ) :
    (step.behind [event]).finish = step.finish.after event := rfl

theorem finish_within (f : σ → τ) (step : Step σ) :
    (step.within f).finish = step.finish.map f := by
  obtain ⟨⟨events, result⟩, state⟩ := step
  cases result <;> rfl

end Step

end Uvm
