import SpendCheck.Proofs.Script.Leads
import SpendCheck.Proofs.Signature.History

/-!
# Runs that agree

A script reaches its transaction only through signature checks.  So under a verifier
without a history two runs of one script agree where their checks do, be it in two
sessions of one transaction or in sessions of two transactions that have the context of
the input and the skeleton in common.
-/

namespace SpendCheck
namespace Runner

open Exec

section Transactions

variable {tx₁ tx₂ : Transaction} {r : Runner} (hfree : r.verifier.HistoryFree)
  (hcontext : Context.ofInput tx₁ r.inputIndex = Context.ofInput tx₂ r.inputIndex)
  (hskeleton : tx₁.skeleton = tx₂.skeleton)

include hfree hcontext hskeleton

theorem agree_check (signatures keys : List Bytes) :
    Agree (r.check signatures keys : Exec ScriptError (Session tx₁) Bool)
      (r.check signatures keys : Exec ScriptError (Session tx₂) Bool) :=
  ((Session.agree_checkSignatures hfree hcontext hskeleton signatures keys).adapt _).bind
    fun _ => (agree_traced _).bind fun _ => agree_pure _

theorem agree_settle (steps : Nat) (effect : Effect) :
    Agree (r.settle steps effect : Exec ScriptError (Session tx₁) Machine)
      (r.settle steps effect : Exec ScriptError (Session tx₂) Machine) := by
  cases effect with
  | settled stack => exact agree_pure _
  | awaits push stack => exact agree_pure _
  | asks signatures keys below =>
    exact (agree_check hfree hcontext hskeleton signatures keys).bind fun _ => agree_pure _

theorem agree_execute (m : Machine) (token : String) :
    Agree (r.execute m token : Exec ScriptError (Session tx₁) Machine)
      (r.execute m token : Exec ScriptError (Session tx₂) Machine) := by
  simp only [execute]
  cases r.exceeded? (m.steps + 1) with
  | some limit => exact agree_throw_bind _ _ _
  | none =>
    exact (agree_liftExcept _).bind fun opcode => (agree_traced _).bind fun _ =>
      (agree_liftExcept _).bind fun effect =>
        agree_settle hfree hcontext hskeleton (m.steps + 1) effect

theorem agree_feed (m : Machine) (token : String) :
    Agree (r.feed m token : Exec ScriptError (Session tx₁) Machine)
      (r.feed m token : Exec ScriptError (Session tx₂) Machine) := by
  simp only [feed]
  cases m.pending with
  | some push => exact (agree_liftExcept _).bind fun _ => agree_pure _
  | none => exact agree_execute hfree hcontext hskeleton m token

theorem agree_run (script : Asm) (stack : Stack) :
    Agree (r.run script stack : Exec ScriptError (Session tx₁) Stack)
      (r.run script stack : Exec ScriptError (Session tx₂) Stack) :=
  (Agree.foldlM (agree_feed hfree hcontext hskeleton) script _).bind fun _ => agree_liftExcept _

end Transactions

/-- Where a script leads to does not depend on what has been asked before. -/
theorem Leads.session {tx : Transaction} {r : Runner} (hfree : r.verifier.HistoryFree)
    {tokens : Asm} {m m' : Machine} {s s' : Session tx} {calls : List Call}
    (h : r.Leads tokens m s m' s' calls) (t : Session tx) :
    ∃ t', r.Leads tokens m t m' t' calls :=
  (Agree.foldlM (agree_feed hfree rfl rfl) tokens m).yields h t

end Runner
end SpendCheck
