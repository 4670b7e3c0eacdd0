import SpendCheck.Proofs.Script.Sequence
import SpendCheck.Proofs.Trace.Follows

/-!
# What lies below

A script runs over a deep stack as it runs over the top part of it, and leaves what lies
below that part as it was.  Only a script that asks for more than the top part holds can
tell the difference: over the top part alone it stops with an underflow.

Every way of taking items off a stack obeys this law, the counted one by induction on its
count.  From there it goes up to opcodes, to machines that take in a token, and to runs.
-/

namespace SpendCheck

open Exec

namespace Stack

variable {op : Opcode} (base : Stack)

/-- The rest of a stack, with something below it. -/
def restOver {α : Type} (base : Stack) (popped : α × Stack) : α × Stack :=
  (popped.1, popped.2 ++ base)

theorem popValue_over (stack : Stack) :
    SameUnless .stackUnderflow (restOver base) stack.popValue (stack ++ base).popValue := by
  cases stack with
  | nil => exact .ran_out _
  | cons top below => exact .ok (top, below)

theorem popBytes_over (stack : Stack) :
    SameUnless .stackUnderflow (restOver base) (stack.popBytes op)
      ((stack ++ base).popBytes op) := by
  refine (popValue_over base stack).bind fun popped => ?_
  obtain ⟨top, below⟩ := popped
  cases top with
  | bytes data => exact .ok (data, below)
  | bool value => exact .error _
  | literal token => exact .error _

/-- The count is a fact of the script, so the stack may end before it does, and then the
items below are counted in. -/
theorem popMany_over (count : Nat) (stack : Stack) (later : List Bytes) :
    SameUnless .stackUnderflow (restOver base) (stack.popMany op count later)
      ((stack ++ base).popMany op count later) := by
  induction count generalizing stack later with
  | zero =>
    rw [popMany, popMany]
    exact .ok (later, stack)
  | succ count ih =>
    rw [popMany_succ, popMany_succ]
    exact (popBytes_over base stack).bind fun popped => ih popped.2 (popped.1 :: later)

theorem popList_over (stack : Stack) :
    SameUnless .stackUnderflow (restOver base) (stack.popList op) ((stack ++ base).popList op) := by
  refine (popValue_over base stack).bind fun popped => ?_
  obtain ⟨top, below⟩ := popped
  simp only [restOver]
  cases top.pushNum? with
  | none => exact .error _
  | some count => exact popMany_over base count below []

end Stack

/-- The effect that leaves `base` below all that it leaves on the stack. -/
def Effect.over (base : Stack) : Effect → Effect
  | settled stack => settled (stack ++ base)
  | awaits push stack => awaits push (stack ++ base)
  | asks signatures keys below => asks signatures keys (below ++ base)

theorem Opcode.effect_over (op : Opcode) (stack base : Stack) :
    SameUnless .stackUnderflow (Effect.over base) (op.effect stack)
      (op.effect (stack ++ base)) := by
  cases op with
  | zero => exact .ok (Effect.settled stack)
  | dup =>
    cases stack with
    | nil => exact .ran_out _
    | cons top below => exact .ok (Effect.settled (top :: top :: below))
  | hash160 | sha256 =>
    exact (Stack.popBytes_over base stack).bind fun popped => .ok (Effect.settled (_ :: popped.2))
  | equal =>
    exact (Stack.popValue_over base stack).bind fun first =>
      (Stack.popValue_over base first.2).bind fun second =>
        .ok (Effect.settled (.bool (first.1 = second.1) :: second.2))
  | equalVerify =>
    refine (Stack.popValue_over base stack).bind fun first =>
      (Stack.popValue_over base first.2).bind fun second => ?_
    show SameUnless _ _ (if first.1 = second.1 then _ else _) (if first.1 = second.1 then _ else _)
    by_cases heq : first.1 = second.1
    · rw [if_pos heq, if_pos heq]
      exact .ok (Effect.settled second.2)
    · rw [if_neg heq, if_neg heq]
      exact .error _
  | pushData1 => exact .ok (Effect.awaits .any stack)
  | pushBytes length => exact .ok (Effect.awaits (.exactly length) stack)
  | checkSig =>
    exact (Stack.popBytes_over base stack).bind fun key =>
      (Stack.popBytes_over base key.2).bind fun signature =>
        .ok (Effect.asks [signature.1] [key.1] signature.2)
  | checkMultiSig =>
    exact (Stack.popList_over base stack).bind fun keys =>
      (Stack.popList_over base keys.2).bind fun signatures =>
        .ok (Effect.asks signatures.1 keys.1 signatures.2)
  | literal token => exact .ok (Effect.settled (.ofToken token :: stack))

/-- The machine with `base` below its stack. -/
def Machine.over (base : Stack) (m : Machine) : Machine := { m with stack := m.stack ++ base }

theorem Machine.finish_over (m : Machine) (base : Stack) :
    SameUnless .stackUnderflow (· ++ base) m.finish (m.over base).finish := by
  obtain ⟨stack, steps, pending⟩ := m
  cases pending with
  | none => exact .ok stack
  | some push => exact .error _

namespace Runner

variable {tx : Transaction} {r : Runner} {base : Stack}

theorem follows_settle_over (steps : Nat) (effect : Effect) :
    Follows .stackUnderflow (Machine.over base)
      (r.settle steps effect : Exec ScriptError (Session tx) Machine)
      (r.settle steps (effect.over base)) := by
  cases effect with
  | settled stack => exact follows_pure (Machine.ready stack steps)
  | awaits push stack => exact follows_pure (Machine.mk stack steps (some push))
  | asks signatures keys below =>
    exact (follows_refl (r.check signatures keys)).bind fun accepted =>
      follows_pure (Machine.ready (.bool accepted :: below) steps)

theorem follows_execute_over (m : Machine) (token : String) :
    Follows .stackUnderflow (Machine.over base)
      (r.execute m token : Exec ScriptError (Session tx) Machine)
      (r.execute (m.over base) token) := by
  have hsteps : (m.over base).steps = m.steps := rfl
  simp only [execute, hsteps]
  cases r.exceeded? (m.steps + 1) with
  | some limit => exact follows_throw _
  | none =>
    refine (follows_refl _).bind fun opcode => ?_
    -- The records of the two steps tell different depths of the stack.
    refine (follows_note (Event.call?_step ..) (Event.call?_step ..)).bind fun _ => ?_
    exact (follows_liftExcept (opcode.effect_over m.stack base)).bind
      (follows_settle_over (m.steps + 1))

theorem follows_feed_over (m : Machine) (token : String) :
    Follows .stackUnderflow (Machine.over base)
      (r.feed m token : Exec ScriptError (Session tx) Machine) (r.feed (m.over base) token) := by
  have hpending : (m.over base).pending = m.pending := rfl
  rw [feed, feed, hpending]
  cases m.pending with
  | none => exact follows_execute_over m token
  | some push =>
    exact (follows_refl _).bind fun value =>
      follows_pure (Machine.ready (value :: m.stack) m.steps)

theorem follows_run_over (script : Asm) (stack base : Stack) :
    Follows .stackUnderflow (· ++ base)
      (r.run script stack : Exec ScriptError (Session tx) Stack)
      (r.run script (stack ++ base)) :=
  (Follows.foldlM follows_feed_over script (.start stack)).bind fun m =>
    follows_liftExcept (m.finish_over base)

/-- What lies below the items that a script asks for has no part in its run: it is still
there when the script is through, and neither a failure nor a call depends on it.  Stacks
are listed from the bottom. -/
theorem run_over_base (r : Runner) (script : Asm) (base top : List StackValue)
    (s s' : Session tx) (calls : List Call) :
    (∀ left : List StackValue,
      outcome (r.run script (.ofBottomFirst top)) s =
        { result := .ok (.ofBottomFirst left), state := s', calls } →
      outcome (r.run script (.ofBottomFirst (base ++ top))) s =
        { result := .ok (.ofBottomFirst (base ++ left)), state := s', calls }) ∧
    (∀ e : ScriptError, e ≠ .stackUnderflow →
      outcome (r.run script (.ofBottomFirst top)) s = { result := .error e, state := s', calls } →
      outcome (r.run script (.ofBottomFirst (base ++ top))) s =
        { result := .error e, state := s', calls }) := by
  have hlisted : ∀ values : List StackValue,
      Stack.ofBottomFirst (base ++ values) = .ofBottomFirst values ++ .ofBottomFirst base :=
    fun values => List.reverse_append
  have hfollows : ¬ Fails (r.run script (.ofBottomFirst top)) s .stackUnderflow →
      outcome (r.run script (.ofBottomFirst top ++ .ofBottomFirst base)) s =
        (outcome (r.run script (.ofBottomFirst top)) s).map (· ++ .ofBottomFirst base) :=
    follows_run_over script (.ofBottomFirst top) (.ofBottomFirst base) s
  constructor
  · intro left hrun
    have hleft : ¬ Fails (r.run script (.ofBottomFirst top)) s .stackUnderflow :=
      not_fails_of_yields hrun _
    rw [hlisted, hlisted, hfollows hleft, hrun]
    rfl
  · intro e he hrun
    have hother : ¬ Fails (r.run script (.ofBottomFirst top)) s .stackUnderflow := by
      rw [Fails, hrun]
      simpa using he
    rw [hlisted, hfollows hother, hrun]
    rfl

/-- A literal and an outcome. -/
def buried : List StackValue := [.literal "OP_IF", .bool false]

/-- The operands of a check of one signature for two keys, over what its outcome is compared
with. -/
def oneOfTwo : List StackValue :=
  [.bool true, .bytes [1], .literal "OP_PUSHNUM_1", .bytes [2], .bytes [3],
    .literal "OP_PUSHNUM_2"]

/-- A count of three over one key and an outcome. -/
def tooFewKeys : List StackValue := [.bool true, .bytes [2], .literal "OP_PUSHNUM_3"]

/-- The counted operands end above what is buried, and so does a count that meets an outcome
before it meets the end. -/
theorem run_over_base_multiSig :
    approved ["OP_CHECKMULTISIG", "OP_EQUAL"] (.ofBottomFirst (buried ++ oneOfTwo)) =
      .ok (.ofBottomFirst (buried ++ [.bool true])) ∧
    approved ["OP_CHECKMULTISIG"] (.ofBottomFirst (buried ++ tooFewKeys)) =
      .error (.nonDataOperand .checkMultiSig (.bool true)) := by
  constructor
  · have htop : approved ["OP_CHECKMULTISIG", "OP_EQUAL"] (.ofBottomFirst oneOfTwo) =
        .ok (.ofBottomFirst [.bool true]) := by decide +kernel
    have hover := (run_over_base approving ["OP_CHECKMULTISIG", "OP_EQUAL"] buried oneOfTwo
      _ _ _).1 _ (yields_of_result htop)
    rw [approved, hover]
  · have htop : approved ["OP_CHECKMULTISIG"] (.ofBottomFirst tooFewKeys) =
        .error (.nonDataOperand .checkMultiSig (.bool true)) := by decide +kernel
    have hover := (run_over_base approving ["OP_CHECKMULTISIG"] buried tooFewKeys
      _ _ _).2 _ (by simp) (outcome_of_fails htop)
    rw [approved, hover]

end Runner
end SpendCheck
