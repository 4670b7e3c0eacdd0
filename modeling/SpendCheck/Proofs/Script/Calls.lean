import SpendCheck.Proofs.Script.Leads
import SpendCheck.Proofs.Signature.History
import SpendCheck.Proofs.Trace.Calls

/-!
# The calls of a run

Only signature checks call the verifier, and a check asks about what signatures of its input
commit to.  So all calls of a run are about its transaction and its input, whatever tokens run
and however the run ends.
-/

namespace SpendCheck

open Exec

/-- The call is about the transaction, and about what signatures of the input commit to, and is
made by the method for the rules of that. -/
def Call.IsAbout (tx : Transaction) (index : Nat) (call : Call) : Prop :=
  tx.skeleton = .ok call.skeleton ∧ Context.ofInput tx index = .ok call.context ∧
    call.method = call.context.regime.method

theorem Session.allCalls_checkSignatures {tx : Transaction} (verifier : Verifier) (index : Nat)
    (signatures keys : List Bytes) :
    AllCalls (Call.IsAbout tx index)
      (checkSignatures verifier index signatures keys : Exec ContextError (Session tx) Bool) := by
  intro s call hcall
  rw [outcome_checkSignatures] at hcall
  cases hcontext : Context.ofInput tx index with
  | error e =>
    rw [hcontext] at hcall
    cases hcall
  | ok context =>
    cases hloaded : loaded s with
    | error e => simp [hcontext, hloaded] at hcall
    | ok shared =>
      obtain rfl : call = callOf verifier shared context signatures keys := by
        simpa [hcontext, hloaded] using hcall
      exact ⟨shared.isSkeleton, hcontext, rfl⟩

namespace Runner

variable {tx : Transaction} (r : Runner)

theorem allCalls_check (signatures keys : List Bytes) :
    AllCalls (Call.IsAbout tx r.inputIndex)
      (r.check signatures keys : Exec ScriptError (Session tx) Bool) := by
  have hasked : AllCalls (Call.IsAbout tx r.inputIndex) _ :=
    Session.allCalls_checkSignatures r.verifier r.inputIndex signatures keys
  refine (hasked.adapt _).bind fun accepted => ?_
  exact (allCalls_note (Event.call?_checked ..)).bind fun _ => allCalls_pure accepted

theorem allCalls_settle (steps : Nat) (e : Effect) :
    AllCalls (Call.IsAbout tx r.inputIndex)
      (r.settle steps e : Exec ScriptError (Session tx) Machine) := by
  cases e with
  | settled stack => exact allCalls_pure _
  | awaits push stack => exact allCalls_pure _
  | asks signatures keys below =>
    exact (r.allCalls_check signatures keys).bind fun _ => allCalls_pure _

theorem allCalls_execute (m : Machine) (token : String) :
    AllCalls (Call.IsAbout tx r.inputIndex)
      (r.execute m token : Exec ScriptError (Session tx) Machine) := by
  rw [execute]
  cases r.exceeded? (m.steps + 1) with
  | some limit => exact allCalls_throw_bind _ _
  | none =>
    refine (allCalls_liftExcept _).bind fun opcode => ?_
    refine (allCalls_note (Event.call?_step ..)).bind fun _ => ?_
    exact (allCalls_liftExcept _).bind fun e => r.allCalls_settle _ e

theorem allCalls_feed (m : Machine) (token : String) :
    AllCalls (Call.IsAbout tx r.inputIndex)
      (r.feed m token : Exec ScriptError (Session tx) Machine) := by
  rw [feed]
  cases m.pending with
  | none => exact r.allCalls_execute m token
  | some push => exact (allCalls_liftExcept _).bind fun _ => allCalls_pure _

theorem allCalls_run (script : Asm) (stack : Stack) :
    AllCalls (Call.IsAbout tx r.inputIndex)
      (r.run script stack : Exec ScriptError (Session tx) Stack) :=
  (AllCalls.foldlM r.allCalls_feed script (Machine.start stack)).bind
    fun _ => allCalls_liftExcept _

theorem call_of_leads {r : Runner} {tokens : Asm} {m m' : Machine} {s s' : Session tx}
    {calls : List Call} (h : r.Leads tokens m s m' s' calls) :
    ∀ call ∈ calls, call.IsAbout tx r.inputIndex := by
  have hfeed : ∀ m token, AllCalls (Call.IsAbout tx r.inputIndex)
      (r.feed m token : Exec ScriptError (Session tx) Machine) := r.allCalls_feed
  have hall := AllCalls.foldlM hfeed tokens m s
  rw [h] at hall
  exact hall

end Runner
end SpendCheck
