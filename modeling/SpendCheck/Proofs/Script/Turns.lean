import SpendCheck.Proofs.Script.Leads
import SpendCheck.Proofs.Script.Popping
import SpendCheck.Proofs.Script.Tokens

/-!
# Scripts that ask nothing

A script that asks the verifier nothing turns one stack into another.  `Asm.Turns`
says how, in how many steps, and that this is all it does; such scripts compose by
composing their relations on stacks.  The opcodes that only work on the stack and
the three ways to push data are the bricks.
-/

namespace SpendCheck

theorem StackValue.ofToken_eq_bytes {token : String} {data : Bytes} :
    ofToken token = .bytes data ↔ Hex.decode token = .ok data := by
  unfold ofToken
  cases Hex.decode token <;> simp

namespace Asm

open Runner

/-- From a machine that waits for nothing the tokens lead exactly to the stacks that
`R` relates to its own, in `n` steps, leaving the session as it is. -/
def Turns (tokens : Asm) (n : Nat) (R : Stack → Stack → Prop) : Prop :=
  ∀ (tx : Transaction) (r : Runner) (stack : Stack) (steps : Nat) (s : Session tx) (m' : Machine)
    (s' : Session tx) (calls : List Call),
    r.Leads tokens (.ready stack steps) s m' s' calls ↔
      ∃ stack', R stack stack' ∧ r.Allows (steps + n) ∧ m' = .ready stack' (steps + n) ∧
        s' = s ∧ calls = []

theorem Turns.congr {tokens : Asm} {n : Nat} {R Q : Stack → Stack → Prop}
    (h : Turns tokens n R) (hRQ : ∀ stack stack', R stack stack' ↔ Q stack stack') :
    Turns tokens n Q := by
  intro tx r stack steps s m' s' calls
  rw [h]
  simp only [hRQ]

theorem Turns.leads {tokens : Asm} {n : Nat} {R : Stack → Stack → Prop} (h : Turns tokens n R)
    {tx : Transaction} {r : Runner} {stack stack' : Stack} {steps : Nat} {s : Session tx}
    (hR : R stack stack') (hsteps : r.Allows (steps + n)) :
    r.Leads tokens (.ready stack steps) s (.ready stack' (steps + n)) s [] :=
  (h ..).mpr ⟨stack', hR, hsteps, rfl, rfl, rfl⟩

theorem Turns.leads_append {tokens rest : Asm} {n : Nat} {R : Stack → Stack → Prop}
    (h : Turns tokens n R) {tx : Transaction} {r : Runner} {stack : Stack} {steps : Nat}
    {s s' : Session tx} {m' : Machine} {calls : List Call} :
    r.Leads (tokens ++ rest) (.ready stack steps) s m' s' calls ↔
      ∃ stack', R stack stack' ∧ r.Allows (steps + n) ∧
        r.Leads rest (.ready stack' (steps + n)) s m' s' calls := by
  rw [Runner.leads_append]
  constructor
  · intro hlead
    obtain ⟨m₁, s₁, c₁, c₂, htokens, hrest, rfl⟩ := hlead
    obtain ⟨stack', hR, hsteps, rfl, rfl, rfl⟩ := (h ..).mp htokens
    exact ⟨stack', hR, hsteps, hrest⟩
  · intro hlead
    obtain ⟨stack', hR, hsteps, hrest⟩ := hlead
    exact ⟨_, s, [], calls, h.leads hR hsteps, hrest, rfl⟩

theorem Turns.append {first second : Asm} {n k : Nat} {R Q : Stack → Stack → Prop}
    (hfirst : Turns first n R) (hsecond : Turns second k Q) :
    Turns (first ++ second) (n + k) fun stack stack' => ∃ mid, R stack mid ∧ Q mid stack' := by
  intro tx r stack steps s m' s' calls
  rw [hfirst.leads_append]
  constructor
  · intro hlead
    obtain ⟨mid, hR, -, hrest⟩ := hlead
    obtain ⟨stack', hQ, hsteps, rfl, rfl, rfl⟩ := (hsecond ..).mp hrest
    rw [Nat.add_assoc] at hsteps ⊢
    exact ⟨stack', ⟨mid, hR, hQ⟩, hsteps, rfl, rfl, rfl⟩
  · intro hlead
    obtain ⟨stack', ⟨mid, hR, hQ⟩, hsteps, rfl, rfl, rfl⟩ := hlead
    rw [← Nat.add_assoc] at hsteps ⊢
    have hfewer : r.Allows (steps + n) := hsteps.mono (Nat.le_add_right (steps + n) k)
    exact ⟨mid, hR, hfewer, (hsecond ..).mpr ⟨stack', hQ, hsteps, rfl, rfl, rfl⟩⟩

/-! ## Opcodes on the stack -/

theorem turns_of_effect {token : String} {op : Opcode} (hparse : Opcode.parse token = .ok op)
    {R : Stack → Stack → Prop}
    (heffect : ∀ stack e, op.effect stack = .ok e ↔ ∃ stack', R stack stack' ∧
      e = .settled stack') :
    Turns [token] 1 R := by
  intro tx r stack steps s m' s' calls
  rw [leads_singleton, yields_feed_ready]
  simp only [hparse, Except.ok.injEq]
  constructor
  · intro h
    rcases h with ⟨hsteps, _, e, rfl, he, hsettle⟩
    obtain ⟨stack', hR, rfl⟩ := (heffect stack e).mp he
    exact ⟨stack', hR, hsteps, yields_settle_settled.mp hsettle⟩
  · intro h
    rcases h with ⟨stack', hR, hsteps, hsettle⟩
    exact ⟨hsteps, op, _, rfl, (heffect stack _).mpr ⟨stack', hR, rfl⟩,
      yields_settle_settled.mpr hsettle⟩

theorem turns_zero : Turns ["OP_0"] 1 fun stack stack' => stack' = stack :=
  turns_of_effect Opcode.parse_zero fun stack e => by
    simp [Opcode.effect, eq_comm]

theorem turns_dup :
    Turns ["OP_DUP"] 1 fun stack stack' =>
      ∃ top below, stack = top :: below ∧ stack' = top :: top :: below :=
  turns_of_effect Opcode.parse_dup fun stack e => by
    cases stack <;> simp [Opcode.effect, eq_comm]

theorem turns_hash {token : String} {op : Opcode} (hparse : Opcode.parse token = .ok op)
    (hash : Bytes → Bytes)
    (heffect : ∀ stack, op.effect stack =
      (stack.popBytes op).map fun popped => .settled (.bytes (hash popped.1) :: popped.2)) :
    Turns [token] 1 fun stack stack' =>
      ∃ data below, stack = .bytes data :: below ∧ stack' = .bytes (hash data) :: below :=
  turns_of_effect hparse fun stack e => by
    rw [heffect]
    constructor
    · intro he
      cases hpop : stack.popBytes op with
      | error error => simp [hpop, Except.map] at he
      | ok popped =>
        obtain rfl : Effect.settled (.bytes (hash popped.1) :: popped.2) = e := by
          simpa [hpop, Except.map] using he
        exact ⟨_, ⟨popped.1, popped.2, Stack.popBytes_eq_ok.mp hpop, rfl⟩, rfl⟩
    · intro h
      rcases h with ⟨_, ⟨data, below, rfl, rfl⟩, rfl⟩
      rw [Stack.popBytes_eq_ok.mpr rfl]
      rfl

theorem turns_hash160 :
    Turns ["OP_HASH160"] 1 fun stack stack' =>
      ∃ data below, stack = .bytes data :: below ∧
        stack' = .bytes (hash160 data).toList :: below :=
  turns_hash Opcode.parse_hash160 (fun data => (hash160 data).toList) fun stack => by
    rw [Opcode.effect]
    cases stack.popBytes .hash160 <;> rfl

theorem turns_sha256 :
    Turns ["OP_SHA256"] 1 fun stack stack' =>
      ∃ data below, stack = .bytes data :: below ∧
        stack' = .bytes (Sha256.hash data).toList :: below :=
  turns_hash Opcode.parse_sha256 (fun data => (Sha256.hash data).toList) fun stack => by
    rw [Opcode.effect]
    cases stack.popBytes .sha256 <;> rfl

theorem turns_equal :
    Turns ["OP_EQUAL"] 1 fun stack stack' =>
      ∃ first second below, stack = first :: second :: below ∧
        stack' = .bool (decide (first = second)) :: below :=
  turns_of_effect Opcode.parse_equal fun stack e => by
    match stack with
    | [] => simp [Opcode.effect]
    | [_] => simp [Opcode.effect]
    | first :: second :: below => simp [Opcode.effect, eq_comm]

theorem turns_equalVerify :
    Turns ["OP_EQUALVERIFY"] 1 fun stack stack' =>
      ∃ value, stack = value :: value :: stack' :=
  turns_of_effect Opcode.parse_equalVerify fun stack e => by
    match stack with
    | [] => simp [Opcode.effect]
    | [_] => simp [Opcode.effect]
    | first :: second :: below =>
      by_cases heq : first = second
      · subst heq
        simp [Opcode.effect, eq_comm]
      · have hne : ∀ value stack', first :: second :: below ≠ value :: value :: stack' := by
          intro value stack' hcons
          injection hcons with h₁ hrest
          injection hrest with h₂
          exact heq (h₁.trans h₂.symm)
        simp [Opcode.effect, heq, hne]

/-! ## Data -/

/-- The tokens put `data` on top, and take one step for it. -/
def Pushes (tokens : Asm) (data : Bytes) : Prop :=
  Turns tokens 1 fun stack stack' => stack' = .bytes data :: stack

theorem pushes_literal {token : String} {data : Bytes} (hdata : Hex.decode token = .ok data) :
    Pushes [token] data :=
  turns_of_effect (Opcode.parse_of_decode hdata) fun stack e => by
    simp [Opcode.effect, StackValue.ofToken, hdata, eq_comm]

/-- A push opcode and the token behind it, where the token is of the right kind. -/
theorem pushes_opcode {mnemonic token : String} {op : Opcode} {push : Push} {data : Bytes}
    (hparse : Opcode.parse mnemonic = .ok op)
    (heffect : ∀ stack, op.effect stack = .ok (.awaits push stack))
    (hvalue : push.value token = .ok (.bytes data)) : Pushes [mnemonic, token] data := by
  intro tx r stack steps s m' s' calls
  rw [leads_cons]
  simp only [yields_feed_ready, hparse, Except.ok.injEq, leads_singleton]
  constructor
  · intro h
    rcases h with ⟨_, _, _, _, ⟨hsteps, _, e, rfl, he, hsettle⟩, hfeed, rfl⟩
    obtain rfl : .awaits push stack = e := by simpa [heffect] using he
    obtain ⟨rfl, rfl, rfl⟩ := yields_settle_awaits.mp hsettle
    obtain ⟨value, hv, rfl, rfl, rfl⟩ := (yields_feed_pending rfl).mp hfeed
    obtain rfl : .bytes data = value := by simpa [hvalue] using hv
    exact ⟨_, rfl, hsteps, rfl, rfl, rfl⟩
  · intro h
    rcases h with ⟨_, rfl, hsteps, rfl, rfl, rfl⟩
    exact ⟨_, _, [], [],
      ⟨hsteps, op, _, rfl, heffect stack, yields_settle_awaits.mpr ⟨rfl, rfl, rfl⟩⟩,
      (yields_feed_pending rfl).mpr ⟨_, hvalue, rfl, rfl, rfl⟩, rfl⟩

theorem pushes_pushBytes {n : UInt8} (hpos : 1 ≤ n) (hle : n ≤ 75) {token : String} {data : Bytes}
    (hdata : Hex.decode token = .ok data) (hlength : data.length = n.toNat) :
    Pushes [(Opcode.pushBytes n).render, token] data :=
  pushes_opcode (Opcode.parse_pushBytes hpos hle) (fun _ => rfl)
    (by simp [Push.value, hdata, hlength])

theorem pushes_pushData1 {token : String} {data : Bytes} (hdata : Hex.decode token = .ok data) :
    Pushes ["OP_PUSHDATA1", token] data :=
  pushes_opcode Opcode.parse_pushData1 (fun _ => rfl)
    (by simp [Push.value, StackValue.ofToken, hdata])

/-- The shortest push of so many bytes, written as `token`: by an opcode with the length
in its name up to 75 bytes, and by `OP_PUSHDATA1` beyond. -/
def pushOf (length : Nat) (token : String) : Asm :=
  if length ≤ 75 then ["OP_PUSHBYTES_" ++ toString length, token] else ["OP_PUSHDATA1", token]

theorem pushes_pushOf {token : String} {data : Bytes} (hdata : Hex.decode token = .ok data)
    (hne : data ≠ []) : Pushes (pushOf data.length token) data := by
  have hpos : 0 < data.length := List.length_pos_iff.mpr hne
  rw [pushOf]
  by_cases hle : data.length ≤ 75
  · have hlength : (UInt8.ofNat data.length).toNat = data.length := by
      rw [UInt8.toNat_ofNat']
      omega
    have hone : 1 ≤ UInt8.ofNat data.length := by
      rw [UInt8.le_iff_toNat_le, hlength]
      exact hpos
    have hmost : UInt8.ofNat data.length ≤ 75 := by
      rw [UInt8.le_iff_toNat_le, hlength]
      exact hle
    have hopcode : (Opcode.pushBytes (UInt8.ofNat data.length)).render =
        "OP_PUSHBYTES_" ++ toString data.length := by
      rw [Opcode.render, hlength, Opcode.pushBytesLead]
    rw [if_pos hle, ← hopcode]
    exact pushes_pushBytes hone hmost hdata hlength.symm
  · rw [if_neg hle]
    exact pushes_pushData1 hdata

end Asm
end SpendCheck
