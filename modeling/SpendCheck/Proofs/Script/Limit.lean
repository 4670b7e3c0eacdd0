import SpendCheck.Proofs.Script.Leads
import SpendCheck.Proofs.Trace.Follows

/-!
# Step limits

A limit is looked at in front of every opcode and nowhere else.  So a run under a limit
goes as the run that allows more steps, until it reaches its limit and says so.
-/

namespace SpendCheck
namespace Runner

open Exec

variable {tx : Transaction} {r : Runner} {limit steps : Nat}

/-- The same run, under this limit. -/
def limited (r : Runner) (limit : Nat) : Runner := { r with limit := some limit }

theorem exceeded?_limited :
    (r.limited limit).exceeded? steps = if limit < steps then some limit else none := by
  by_cases hsteps : limit < steps <;> simp [exceeded?, limited, Option.filter, hsteps]

/-- Up to the limit an opcode takes the same effect, since a limit is compared with the number
of steps and used for nothing else. -/
theorem follows_execute_limited (hallows : r.Allows limit) (m : Machine) (token : String) :
    Follows (.stepLimitExceeded limit) id
      ((r.limited limit).execute m token : Exec ScriptError (Session tx) Machine)
      (r.execute m token) := by
  simp only [execute, exceeded?_limited]
  by_cases hsteps : limit < m.steps + 1
  · rw [if_pos hsteps]
    exact follows_ran_out _
  · have hmore : r.exceeded? (m.steps + 1) = none :=
      exceeded?_eq_none.mpr (hallows.mono (Nat.le_of_not_lt hsteps))
    rw [if_neg hsteps, hmore]
    exact follows_refl _

theorem follows_feed_limited (hallows : r.Allows limit) (m : Machine) (token : String) :
    Follows (.stepLimitExceeded limit) id
      ((r.limited limit).feed m token : Exec ScriptError (Session tx) Machine)
      (r.feed m token) := by
  rw [feed, feed]
  cases m.pending with
  | some push => exact follows_refl _
  | none => exact follows_execute_limited hallows m token

theorem follows_run_limited (hallows : r.Allows limit) (script : Asm) (stack : Stack) :
    Follows (.stepLimitExceeded limit) id
      ((r.limited limit).run script stack : Exec ScriptError (Session tx) Stack)
      (r.run script stack) :=
  (Follows.foldlM (follows_feed_limited hallows) script _).bind fun _ => follows_refl _

/-- Either the limit is reached, or the run comes to what it comes to anyway. -/
theorem result_run_limited (hallows : r.Allows limit) (script : Asm) (stack : Stack)
    (s : Session tx) :
    (outcome ((r.limited limit).run script stack) s).result =
        .error (.stepLimitExceeded limit) ∨
      (outcome ((r.limited limit).run script stack) s).result =
        (outcome (r.run script stack) s).result :=
  (follows_run_limited hallows script stack).result s

end Runner
end SpendCheck
