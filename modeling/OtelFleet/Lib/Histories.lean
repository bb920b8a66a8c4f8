import Mathlib.Tactic.Common

-- Histories of a system that takes one step for every event.
namespace Histories

variable {σ ε : Type} (step : σ → ε → σ)

def run (s : σ) (events : List ε) : σ :=
  events.foldl step s

def Along (P : σ → ε → Prop) : σ → List ε → Prop
  | _, [] => True
  | s, e :: es => P s e ∧ Along P (step s e) es

instance decidableAlong {P : σ → ε → Prop} [∀ s e, Decidable (P s e)] :
    (s : σ) → (events : List ε) → Decidable (Along step P s events)
  | _, [] => isTrue trivial
  | s, e :: es =>
    have : Decidable (Along step P (step s e) es) := decidableAlong (step s e) es
    inferInstanceAs <| Decidable <| _ ∧ _

variable {step}

theorem Along.of_invariant {I : σ → Prop} (h : ∀ s e, I s → P s e → Q s e ∧ I (step s e)) (hs : I s)
    (hP : Along step P s events) : Along step Q s events := by
  induction events generalizing s
  case nil => trivial
  case cons e es hi =>
    have ⟨hQ, hI⟩ := h s e hs hP.left
    exact ⟨hQ, hi hI hP.right⟩

theorem Along.and (hP : Along step P s events) (hQ : Along step Q s events) :
    Along step (fun s e => P s e ∧ Q s e) s events := by
  induction events generalizing s
  case nil => trivial
  case cons e es hi => exact ⟨⟨hP.left, hQ.left⟩, hi hP.right hQ.right⟩

end Histories
