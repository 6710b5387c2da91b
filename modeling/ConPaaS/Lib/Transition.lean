import Mathlib.Data.List.Basic
import Mathlib.Order.Basic

namespace Transition

variable {σ ε : Type*} {step : σ → ε → σ → Prop} {start current result : σ} {events : List ε}

/-- The states a system reaches from `start`, with the events that led there
in the order they happened. -/
inductive Run (step : σ → ε → σ → Prop) (start : σ) : List ε → σ → Prop
  | start : Run step start [] start
  | next {events before event after} : Run step start events before →
      step before event after → Run step start (events ++ [event]) after

/-- The steps of a system that also meet a condition on the state before. -/
def Guarded (guard : σ → ε → Prop) (step : σ → ε → σ → Prop) (before : σ) (event : ε) (after : σ) : Prop :=
  guard before event ∧ step before event after

/-- What every step preserves holds in every state of a run that began with it. -/
theorem Run.invariant {inv : σ → Prop} (run : Run step start events current) (first : inv start)
    (preserved : ∀ {before event after}, inv before → step before event after → inv after) : inv current := by
  induction run with
  | start => exact first
  | next _ taken ih => exact preserved ih taken

/-- The same rule for a condition that may only be claimed of guarded steps. -/
theorem Run.guarded_invariant {guard : σ → ε → Prop} {inv : σ → Prop}
    (run : Run (Guarded guard step) start events current) (first : inv start)
    (preserved : ∀ {before event after}, inv before → guard before event → step before event after → inv after) :
    inv current :=
  run.invariant first fun held taken => preserved held taken.1 taken.2

theorem Run.mono {other : σ → ε → σ → Prop} (run : Run step start events current)
    (included : ∀ {before event after}, step before event after → other before event after) :
    Run other start events current := by
  induction run with
  | start => exact .start
  | next _ taken ih => exact .next ih (included taken)

/-- A run of a system whose steps are steps of another on what is seen of its
states. The steps so far are known to be. -/
theorem Run.simulated {τ ι : Type*} {other : τ → ι → τ → Prop} (run : Run step start events current)
    (inv : σ → Prop) (view : σ → τ) (first : inv start)
    (simulated : ∀ {before event after earlier}, inv before → Run other (view start) earlier (view before) →
      step before event after → inv after ∧ ∃ event, other (view before) event (view after)) :
    inv current ∧ ∃ events, Run other (view start) events (view current) := by
  induction run with
  | start => exact ⟨first, [], .start⟩
  | next _ taken ih =>
    obtain ⟨held, earlier, seen⟩ := ih
    obtain ⟨kept, event, step⟩ := simulated held seen taken
    exact ⟨kept, _, .next seen step⟩

theorem Run.trans {later : List ε} (first : Run step start events current)
    (second : Run step current later result) : Run step start (events ++ later) result := by
  induction second with
  | start => simpa only [List.append_nil] using first
  | next _ taken ih => simpa only [List.append_assoc] using Run.next ih taken

theorem Run.single {event : ε} (taken : step start event result) : Run step start [event] result :=
  Run.next Run.start taken

theorem Run.cons {event : ε} {middle : σ} (taken : step start event middle) (later : Run step middle events result) :
    Run step start (event :: events) result :=
  (Run.single taken).trans later

/-- The state a deterministic system is in after some events, if each of them
can happen. -/
def play (handle : σ → ε → Option σ) : σ → List ε → Option σ
  | state, [] => some state
  | state, event :: rest => (handle state event).bind fun state => play handle state rest

theorem Run.play {handle : σ → ε → Option σ} (played : Transition.play handle start events = some result) :
    Run (fun before event after => handle before event = some after) start events result := by
  induction events generalizing start with
  | nil =>
    cases played
    exact .start
  | cons event rest ih =>
    obtain ⟨middle, taken, later⟩ := Option.bind_eq_some_iff.mp played
    exact .cons taken (ih later)

/-- The same where every event also meets a condition on the state before it. -/
theorem Run.play_guarded {handle : σ → ε → Option σ} {guard : σ → ε → Prop} [∀ state event, Decidable (guard state event)]
    (played : Transition.play (fun state event => if guard state event then handle state event else none) start events = some result) :
    Run (Guarded guard fun before event after => handle before event = some after) start events result := by
  refine (Run.play played).mono fun taken => ?_
  split at taken
  · rename_i met
    exact ⟨met, taken⟩
  · cases taken

/-- A quantity that no step lowers is at the end of a run at least what it
was at its beginning, for states that keep an invariant. -/
theorem Run.monotone {ρ : Type*} [Preorder ρ] {inv : σ → Prop} {measure : σ → ρ}
    (run : Run step start events current) (first : inv start)
    (preserved : ∀ {before event after}, inv before → step before event after → inv after)
    (raised : ∀ {before event after}, inv before → step before event after → measure before ≤ measure after) :
    measure start ≤ measure current := by
  induction run with
  | start => exact le_rfl
  | next earlier taken ih => exact ih.trans (raised (earlier.invariant first preserved) taken)

end Transition
