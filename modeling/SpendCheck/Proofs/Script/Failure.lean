import SpendCheck.Proofs.Script.Leads
import SpendCheck.Proofs.Script.Popping

/-!
# Where failures come from

A token fails for one of five reasons: the limit, its spelling, the data it should be, the
operands it finds, or the lack of a context for signatures.  The last one is no verdict
and leaves the whole transaction without a judgement.  The run lemma says that no script
brings it about: such a failure comes from the transaction alone.
-/

namespace SpendCheck

open Exec

variable {tx : Transaction}

namespace ScriptError

/-- The failures of opcodes that do not find their operands on the stack. -/
def OfOperands : ScriptError → Prop
  | verifyFailed _ _ => True
  | nonDataOperand _ _ => True
  | invalidPushNum _ => True
  | stackUnderflow => True
  | _ => False

/-- The failures of pushes that do not find their data in the script. -/
def OfPushData : ScriptError → Prop
  | pushSizeMismatch _ _ => True
  | nonHexPushData _ => True
  | _ => False

end ScriptError

/-- What signatures of the input commit to cannot be made out, for this reason. -/
def Transaction.Lacks (tx : Transaction) (index : Nat) (e : ContextError) : Prop :=
  Context.ofInput tx index = .error e ∨ ∃ error, tx.skeleton = .error error ∧ e = .txData error

theorem Transaction.not_lacks {index : Nat} {context : Context} {skeleton : RawTx}
    (hcontext : Context.ofInput tx index = .ok context) (hskeleton : tx.skeleton = .ok skeleton)
    (e : ContextError) : ¬ tx.Lacks index e := by
  simp [Lacks, hcontext, hskeleton]

theorem Session.lacks_of_fails_checkSignatures {verifier : Verifier} {index : Nat}
    {signatures keys : List Bytes} {s : Session tx} {e : ContextError}
    (h : Fails (checkSignatures verifier index signatures keys) s e) : tx.Lacks index e := by
  simp only [checkSignatures, fails_bind, fails_liftExcept, fails_load, not_fails_traced,
    not_fails_set, not_fails_pure, and_false, exists_false, or_false] at h
  obtain hcontext | ⟨_, _, _, -, error, hloaded, rfl⟩ := h
  · exact .inl hcontext
  · exact .inr ⟨error, skeleton_of_loaded_error hloaded, rfl⟩

namespace Stack

variable {op : Opcode} {stack : Stack} {e : ScriptError}

theorem ofOperands_of_popBytes (h : stack.popBytes op = .error e) : e.OfOperands := by
  obtain ⟨-, rfl⟩ | ⟨_, _, -, -, rfl⟩ := popBytes_eq_error.mp h
  · exact trivial
  · exact trivial

theorem ofOperands_of_popList (h : stack.popList op = .error e) : e.OfOperands := by
  obtain ⟨-, rfl⟩ | ⟨_, _, -, -, rfl⟩ | ⟨_, _, _, _, -, -, -, hrest⟩ := popList_eq_error.mp h
  · exact trivial
  · exact trivial
  · exact ofOperands_of_popBytes hrest

end Stack

theorem Opcode.ofOperands_of_effect {op : Opcode} {stack : Stack} {e : ScriptError}
    (h : op.effect stack = .error e) : e.OfOperands := by
  cases op with
  | dup =>
    cases stack with
    | nil =>
      obtain rfl : .stackUnderflow = e := by simpa [effect] using h
      exact trivial
    | cons top below => simp [effect] at h
  | hash160 | sha256 =>
    obtain hpop | ⟨_, -, hpure⟩ := bind_eq_error.mp h
    · exact Stack.ofOperands_of_popBytes hpop
    · exact absurd hpure pure_ne_error
  | checkSig =>
    obtain hkey | ⟨_, -, hrest⟩ := bind_eq_error.mp h
    · exact Stack.ofOperands_of_popBytes hkey
    obtain hsignature | ⟨_, -, hpure⟩ := bind_eq_error.mp hrest
    · exact Stack.ofOperands_of_popBytes hsignature
    · exact absurd hpure pure_ne_error
  | checkMultiSig =>
    obtain hkeys | ⟨_, -, hrest⟩ := bind_eq_error.mp h
    · exact Stack.ofOperands_of_popList hkeys
    obtain hsignatures | ⟨_, -, hpure⟩ := bind_eq_error.mp hrest
    · exact Stack.ofOperands_of_popList hsignatures
    · exact absurd hpure pure_ne_error
  | equal =>
    match stack with
    | [] | [_] =>
      obtain rfl : .stackUnderflow = e := by simpa [effect] using h
      exact trivial
    | _ :: _ :: _ => simp [effect] at h
  | equalVerify =>
    match stack with
    | [] | [_] =>
      obtain rfl : .stackUnderflow = e := by simpa [effect] using h
      exact trivial
    | first :: second :: _ =>
      by_cases heq : first = second
      · simp [effect, heq] at h
      · obtain rfl : .verifyFailed first second = e := by simpa [effect, heq] using h
        exact trivial
  | zero | pushData1 | pushBytes | literal => simp [effect] at h

theorem Push.ofPushData_of_value {push : Push} {token : String} {e : ScriptError}
    (h : push.value token = .error e) : e.OfPushData := by
  cases push with
  | any => simp [value] at h
  | exactly length =>
    cases hdata : Hex.decode token with
    | error error =>
      obtain rfl : .nonHexPushData token = e := by simpa [value, hdata] using h
      exact trivial
    | ok data =>
      by_cases hlength : data.length = length.toNat
      · simp [value, hdata, hlength] at h
      · obtain rfl : .pushSizeMismatch length data.length = e := by
          simpa [value, hdata, hlength] using h
        exact trivial

theorem Machine.finish_eq_error {m : Machine} {e : ScriptError} : m.finish = .error e ↔
    ∃ push : Push, m.pending = some push ∧ e = .missingPushData push.opcode := by
  cases hpending : m.pending with
  | none => simp [Machine.finish, hpending]
  | some push => simp [Machine.finish, hpending, eq_comm]

namespace Runner

variable {r : Runner} {m : Machine} {s : Session tx} {e : ScriptError}

theorem lacks_of_fails_settle {steps : Nat} {effect : Effect}
    (h : Fails (r.settle steps effect) s e) :
    ∃ error, e = .context error ∧ tx.Lacks r.inputIndex error := by
  cases effect with
  | settled stack => exact absurd h not_fails_pure
  | awaits push stack => exact absurd h not_fails_pure
  | asks signatures keys below =>
    simp only [settle, check, fails_bind, fails_adapt, not_fails_traced, not_fails_pure,
      and_false, exists_false, or_false] at h
    obtain ⟨error, hcheck, rfl⟩ := h
    exact ⟨error, rfl, Session.lacks_of_fails_checkSignatures hcheck⟩

/-- What a token can fail for. -/
theorem cause_of_fails_feed {token : String} (h : Fails (r.feed m token) s e) :
    (∃ limit, e = .stepLimitExceeded limit) ∨ (∃ error, e = .token error) ∨ e.OfPushData ∨
      e.OfOperands ∨ ∃ error, e = .context error ∧ tx.Lacks r.inputIndex error := by
  cases hpending : m.pending with
  | some push =>
    rw [feed, hpending] at h
    simp only [fails_bind, fails_liftExcept, not_fails_pure, and_false, exists_false,
      or_false] at h
    exact .inr (.inr (.inl (Push.ofPushData_of_value h)))
  | none =>
    rw [feed, hpending] at h
    simp only [execute] at h
    cases hlimit : r.exceeded? (m.steps + 1) with
    | some limit =>
      obtain rfl : .stepLimitExceeded limit = e := by simpa [hlimit, fails_throw] using h
      exact .inl ⟨limit, rfl⟩
    | none =>
      simp only [hlimit, fails_bind, fails_liftExcept, not_fails_traced, false_or] at h
      obtain hparse | ⟨op, _, _, -, _, _, _, -, heffect | ⟨effect, _, _, -, hsettle⟩⟩ := h
      · cases hop : Opcode.parse token with
        | ok op => simp [hop, Except.mapError] at hparse
        | error error =>
          obtain rfl : .token error = e := by simpa [hop, Except.mapError] using hparse
          exact .inr (.inl ⟨error, rfl⟩)
      · exact .inr (.inr (.inr (.inl (Opcode.ofOperands_of_effect heffect))))
      · exact .inr (.inr (.inr (.inr (lacks_of_fails_settle hsettle))))

/-- A failure on the way is the failure of a token. -/
theorem fails_feed_of_fails_foldlM {tokens : Asm} (h : Fails (tokens.foldlM r.feed m) s e) :
    ∃ (m₁ : Machine) (s₁ : Session tx) (token : String), Fails (r.feed m₁ token) s₁ e := by
  induction tokens generalizing m s with
  | nil => exact absurd h not_fails_pure
  | cons token tokens ih =>
    rw [List.foldlM_cons, fails_bind] at h
    obtain hfeed | ⟨_, _, _, -, htokens⟩ := h
    · exact ⟨m, s, token, hfeed⟩
    · exact ih htokens

/-- No script brings a failure to make out a context about. -/
theorem lacks_of_fails_run {script : Asm} {stack : Stack} {error : ContextError}
    (h : Fails (r.run script stack) s (.context error)) : tx.Lacks r.inputIndex error := by
  rw [run, fails_bind] at h
  obtain hfold | ⟨m, _, _, -, hfinish⟩ := h
  · obtain ⟨_, _, _, hfeed⟩ := fails_feed_of_fails_foldlM hfold
    obtain ⟨_, he⟩ | ⟨_, he⟩ | hdata | hoperands | ⟨_, he, hlacks⟩ := cause_of_fails_feed hfeed
    · cases he
    · cases he
    · exact hdata.elim
    · exact hoperands.elim
    · rw [ScriptError.context.inj he]
      exact hlacks
  · obtain ⟨_, -, he⟩ := Machine.finish_eq_error.mp (fails_liftExcept.mp hfinish)
    cases he

end Runner
end SpendCheck
