import Mathlib.Data.List.Basic

-- Runs of consecutive elements with the same key.
namespace Runs

variable {α β : Type} (key : α → β)

def current (b : β) (as : List α) : β :=
  as.foldl (fun _ a => key a) b

def starts [DecidableEq β] : β → List α → List α
  | _, [] => []
  | b, a :: as => (if key a = b then [] else [a]) ++ starts (key a) as

variable {key}

theorem current_concat : current key b (as ++ [a]) = key a := by
  simp [current]

theorem starts_concat [DecidableEq β] :
    starts key b (as ++ [a]) = starts key b as ++ if key a = current key b as then [] else [a] := by
  induction as generalizing b
  case nil => exact List.append_nil _
  case cons a' as hi =>
    simp only [List.cons_append, starts, hi, List.append_assoc]
    rfl

end Runs
