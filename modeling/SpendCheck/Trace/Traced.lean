/-!
# Values with a trace

A computation that leaves a trace: what happened, in order, beside the value.
The trace of two computations in a row is the one trace after the other.
-/

namespace SpendCheck

structure Traced (ε α : Type) where
  value : α
  trace : List ε

namespace Traced

variable {ε α β : Type}

/-- Leaves one entry. -/
def note (entry : ε) : Traced ε Unit := { value := (), trace := [entry] }

/-- Carries a trace over into a richer kind of entries. -/
def mapTrace {ε' : Type} (f : ε → ε') (x : Traced ε α) : Traced ε' α :=
  { value := x.value, trace := x.trace.map f }

instance : Monad (Traced ε) where
  pure a := { value := a, trace := [] }
  bind x f := { value := (f x.value).value, trace := x.trace ++ (f x.value).trace }

@[simp] theorem value_pure (a : α) : (pure a : Traced ε α).value = a := rfl

@[simp] theorem trace_pure (a : α) : (pure a : Traced ε α).trace = [] := rfl

@[simp] theorem value_bind (x : Traced ε α) (f : α → Traced ε β) :
    (x >>= f).value = (f x.value).value := rfl

@[simp] theorem trace_bind (x : Traced ε α) (f : α → Traced ε β) :
    (x >>= f).trace = x.trace ++ (f x.value).trace := rfl

theorem ext {x y : Traced ε α} (value : x.value = y.value) (trace : x.trace = y.trace) : x = y := by
  cases x; cases y; simp_all

instance : LawfulMonad (Traced ε) :=
  LawfulMonad.mk' (Traced ε) (fun _ => ext rfl (by simp [Functor.map]))
    (fun _ _ => ext rfl (by simp)) (fun _ _ _ => ext rfl (by simp))

end Traced
end SpendCheck
