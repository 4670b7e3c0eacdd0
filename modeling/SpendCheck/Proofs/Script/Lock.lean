import SpendCheck.Proofs.Script.Turns

/-!
# Locking scripts

The canonical locking scripts in token form, and what they do to the data that they
find on the stack.  The comparison at the end of a lock by script hash leaves its
outcome behind; the one in a lock by key hash fails, and a signature is checked
against the key that passes it.
-/

namespace SpendCheck

namespace Lock

/-- Pays to the hash of a script. -/
def scriptHash (hash : String) : Asm := ["OP_HASH160", "OP_PUSHBYTES_20", hash, "OP_EQUAL"]

/-- Pays to the hash of a key. -/
def keyHash (hash : String) : Asm :=
  ["OP_DUP", "OP_HASH160", "OP_PUSHBYTES_20", hash, "OP_EQUALVERIFY", "OP_CHECKSIG"]

/-- The witness program that names a key hash. -/
def witnessKeyHash (hash : String) : Asm := ["OP_0", "OP_PUSHBYTES_20", hash]

/-- The witness program that names a script hash. -/
def witnessScriptHash (hash : String) : Asm := ["OP_0", "OP_PUSHBYTES_32", hash]

end Lock

namespace Runner

open Exec

variable {tx : Transaction} {r : Runner} {m m' : Machine} {s s' : Session tx} {calls : List Call}

/-- Hex goes on the stack from any machine, be it as an opcode or as the data that a
push waits for.  So no push can swallow what stands behind a token of hex. -/
theorem ready_of_feed_hex {token : String} {data : Bytes} (hdata : Hex.decode token = .ok data)
    (h : Yields (r.feed m token) s m' s' calls) :
    ∃ steps, m' = .ready (.bytes data :: m.stack) steps ∧ s' = s ∧ calls = [] := by
  obtain ⟨stack, steps, pending⟩ := m
  cases pending with
  | none =>
    have hturn := (Asm.pushes_literal hdata tx r stack steps s m' s' calls).mp
      (leads_singleton.mpr h)
    obtain ⟨_, rfl, -, rfl, rfl, rfl⟩ := hturn
    exact ⟨_, rfl, rfl, rfl⟩
  | some push =>
    obtain ⟨value, hvalue, rfl, rfl, rfl⟩ := (yields_feed_pending rfl).mp h
    cases push with
    | any =>
      obtain rfl : .bytes data = value := by
        simpa [Push.value, StackValue.ofToken, hdata] using hvalue
      exact ⟨_, rfl, rfl, rfl⟩
    | exactly length =>
      by_cases hlength : data.length = length.toNat
      · obtain rfl : .bytes data = value := by
          simpa [Push.value, hdata, hlength] using hvalue
        exact ⟨_, rfl, rfl, rfl⟩
      · simp [Push.value, hdata, hlength] at hvalue

/-- An open push takes a token that is no hex as it stands, or not at all. -/
theorem literal_of_feed_pending {push : Push} (hm : m.pending = some push) {token : String}
    {error : HexError} (htoken : Hex.decode token = .error error)
    (h : Yields (r.feed m token) s m' s' calls) :
    m' = .ready (.literal token :: m.stack) m.steps := by
  obtain ⟨value, hvalue, rfl, -, -⟩ := (yields_feed_pending hm).mp h
  cases push with
  | any =>
    obtain rfl : .literal token = value := by
      simpa [Push.value, StackValue.ofToken, htoken] using hvalue
    rfl
  | exactly length => simp [Push.value, htoken] at hvalue

theorem leads_checkSig {stack : Stack} {steps : Nat} :
    r.Leads ["OP_CHECKSIG"] (.ready stack steps) s m' s' calls ↔
      ∃ key signature below accepted, stack = .bytes key :: .bytes signature :: below ∧
        r.Allows (steps + 1) ∧ Yields (r.check [signature] [key]) s accepted s' calls ∧
        m' = .ready (.bool accepted :: below) (steps + 1) := by
  have heffect : ∀ e, Opcode.checkSig.effect stack = .ok e ↔
      ∃ key signature below, stack = .bytes key :: .bytes signature :: below ∧
        e = .asks [signature] [key] below := by
    intro e
    simp only [Opcode.effect, bind_eq_ok, Prod.exists, Stack.popBytes_eq_ok, pure_eq_ok]
    constructor
    · intro h
      rcases h with ⟨key, _, rfl, signature, below, rfl, rfl⟩
      exact ⟨key, signature, below, rfl, rfl⟩
    · intro h
      rcases h with ⟨key, signature, below, rfl, rfl⟩
      exact ⟨key, _, rfl, signature, below, rfl, rfl⟩
  rw [leads_singleton, yields_feed_ready]
  simp only [Opcode.parse_checkSig, Except.ok.injEq]
  constructor
  · intro h
    rcases h with ⟨hsteps, _, e, rfl, he, hsettle⟩
    obtain ⟨key, signature, below, rfl, rfl⟩ := (heffect e).mp he
    obtain ⟨accepted, hcheck, rfl⟩ := yields_settle_asks.mp hsettle
    exact ⟨key, signature, below, accepted, rfl, hsteps, hcheck, rfl⟩
  · intro h
    rcases h with ⟨key, signature, below, accepted, rfl, hsteps, hcheck, rfl⟩
    exact ⟨hsteps, .checkSig, _, rfl, (heffect _).mpr ⟨key, signature, below, rfl, rfl⟩,
      yields_settle_asks.mpr ⟨accepted, hcheck, rfl⟩⟩

end Runner

namespace Asm

theorem pushes_keyHash {token : String} {hash : Hash160}
    (hhash : Hex.decode token = .ok hash.toList) : Pushes ["OP_PUSHBYTES_20", token] hash.toList :=
  pushes_pushBytes (n := 20) (by decide) (by decide) hhash (by simp)

theorem pushes_scriptHash {token : String} {hash : Hash256}
    (hhash : Hex.decode token = .ok hash.toList) : Pushes ["OP_PUSHBYTES_32", token] hash.toList :=
  pushes_pushBytes (n := 32) (by decide) (by decide) hhash (by simp)

theorem bytes_eq_iff {n : Nat} {a b : Vector UInt8 n} :
    StackValue.bytes a.toList = .bytes b.toList ↔ b = a := by
  rw [StackValue.bytes.injEq, Vector.toList_inj, eq_comm]

theorem turns_scriptHash {token : String} {hash : Hash160}
    (hhash : Hex.decode token = .ok hash.toList) :
    Turns (Lock.scriptHash token) 3 fun stack stack' =>
      ∃ data below, stack = .bytes data :: below ∧
        stack' = .bool (decide (hash160 data = hash)) :: below := by
  refine (turns_hash160.append ((pushes_keyHash hhash).append turns_equal)).congr ?_
  intro stack stack'
  constructor
  · intro h
    rcases h with ⟨_, ⟨data, below, rfl, rfl⟩, _, rfl, first, second, rest, hcons, rfl⟩
    obtain ⟨rfl, rfl, rfl⟩ : _ = first ∧ _ = second ∧ _ = rest := by simpa using hcons
    exact ⟨data, below, rfl, by simp only [bytes_eq_iff]⟩
  · intro h
    rcases h with ⟨data, below, rfl, rfl⟩
    exact ⟨_, ⟨data, below, rfl, rfl⟩, _, rfl, _, _, _, rfl, by simp only [bytes_eq_iff]⟩

theorem turns_pushed_scriptHash {push : Asm} {data : Bytes} {hash : String}
    {scriptHash : Hash160} (hpush : Pushes push data)
    (hhash : Hex.decode hash = .ok scriptHash.toList) :
    Turns (push ++ Lock.scriptHash hash) 4 fun stack stack' =>
      stack' = .bool (decide (hash160 data = scriptHash)) :: stack := by
  refine (hpush.append (turns_scriptHash hhash)).congr ?_
  intro stack stack'
  constructor
  · intro h
    obtain ⟨_, rfl, data', below, hcons, rfl⟩ := h
    obtain ⟨rfl, rfl⟩ : data = data' ∧ stack = below := by simpa using hcons
    rfl
  · intro h
    exact ⟨_, rfl, data, stack, rfl, h⟩

/-- A witness program that names a script hash compares it with the hash of what is on
top.  Its version takes no place on the stack. -/
theorem turns_witnessScriptHash {token : String} {hash : Hash256}
    (hhash : Hex.decode token = .ok hash.toList) :
    Turns ("OP_SHA256" :: Lock.witnessScriptHash token ++ ["OP_EQUAL"]) 4 fun stack stack' =>
      ∃ data below, stack = .bytes data :: below ∧
        stack' = .bool (decide (Sha256.hash data = hash)) :: below := by
  refine (turns_sha256.append (turns_zero.append
    ((pushes_scriptHash hhash).append turns_equal))).congr ?_
  intro stack stack'
  constructor
  · intro h
    rcases h with ⟨_, ⟨data, below, rfl, rfl⟩, _, rfl, _, rfl, first, second, rest, hcons, rfl⟩
    obtain ⟨rfl, rfl, rfl⟩ : _ = first ∧ _ = second ∧ _ = rest := by simpa using hcons
    exact ⟨data, below, rfl, by simp only [bytes_eq_iff]⟩
  · intro h
    rcases h with ⟨data, below, rfl, rfl⟩
    exact ⟨_, ⟨data, below, rfl, rfl⟩, _, rfl, _, rfl, _, _, _, rfl, by simp only [bytes_eq_iff]⟩

/-- The check in front of a signature check lets through the keys with one hash only,
and takes nothing from the stack. -/
theorem turns_keyHash {push : Asm} {keyHash : Hash160} (hpush : Pushes push keyHash.toList) :
    Turns (["OP_DUP", "OP_HASH160"] ++ push ++ ["OP_EQUALVERIFY"]) 4 fun stack stack' =>
      ∃ key below, stack = .bytes key :: below ∧ hash160 key = keyHash ∧ stack' = stack := by
  refine (((turns_dup.append turns_hash160).append hpush).append turns_equalVerify).congr ?_
  intro stack stack'
  constructor
  · intro h
    obtain ⟨_, ⟨_, ⟨_, ⟨top, rest, rfl, rfl⟩, data, below, hcons, rfl⟩, rfl⟩, value, hequal⟩ := h
    obtain ⟨rfl, rfl⟩ : top = .bytes data ∧ top :: rest = below := by simpa using hcons
    obtain ⟨rfl, hvalue, rfl⟩ :
        .bytes keyHash.toList = value ∧ .bytes (hash160 data).toList = value ∧
          .bytes data :: rest = stack' := by simpa using hequal
    exact ⟨data, rest, rfl, bytes_eq_iff.mp hvalue.symm, rfl⟩
  · intro h
    obtain ⟨key, below, rfl, rfl, rfl⟩ := h
    exact ⟨_, ⟨_, ⟨_, ⟨_, _, rfl, rfl⟩, key, _, rfl, rfl⟩, rfl⟩, _, rfl⟩

end Asm

namespace Runner

open Exec

variable {tx : Transaction} {r : Runner} {m m' : Machine} {s s' : Session tx} {calls : List Call}

theorem leads_keyHash {push : Asm} {keyHash : Hash160} (hpush : Asm.Pushes push keyHash.toList)
    {stack : Stack} {steps : Nat} :
    r.Leads (["OP_DUP", "OP_HASH160"] ++ push ++ ["OP_EQUALVERIFY"] ++ ["OP_CHECKSIG"])
        (.ready stack steps) s m' s' calls ↔
      ∃ key signature below accepted, stack = .bytes key :: .bytes signature :: below ∧
        hash160 key = keyHash ∧ r.Allows (steps + 5) ∧
        Yields (r.check [signature] [key]) s accepted s' calls ∧
        m' = .ready (.bool accepted :: below) (steps + 5) := by
  rw [(Asm.turns_keyHash hpush).leads_append]
  constructor
  · intro h
    obtain ⟨_, ⟨key, rest, rfl, hkey, rfl⟩, -, hcheckSig⟩ := h
    obtain ⟨key', signature, below, accepted, hcons, hsteps, hcheck, rfl⟩ :=
      leads_checkSig.mp hcheckSig
    obtain ⟨rfl, rfl⟩ : key = key' ∧ rest = .bytes signature :: below := by simpa using hcons
    exact ⟨key, signature, below, accepted, rfl, hkey, hsteps, hcheck, rfl⟩
  · intro h
    obtain ⟨key, signature, below, accepted, rfl, hkey, hsteps, hcheck, rfl⟩ := h
    have hfewer : r.Allows (steps + 4) := hsteps.mono (by omega)
    exact ⟨_, ⟨key, _, rfl, hkey, rfl⟩, hfewer,
      leads_checkSig.mpr ⟨key, signature, below, accepted, rfl, hsteps, hcheck, rfl⟩⟩

/-- An unlocking script that ends in an open push never gets past a lock by key hash: the
push takes the first opcode of the lock, which is no hex, and what it becomes has no
hash. -/
theorem pending_of_leads_keyHash {rest : Asm}
    (h : r.Leads ("OP_DUP" :: "OP_HASH160" :: rest) m s m' s' calls) :
    m.pending = none := by
  obtain ⟨m₁, s₁, _, _, hdup, htail, -⟩ := leads_cons.mp h
  obtain ⟨_, _, _, _, hhash, -, -⟩ := leads_cons.mp htail
  cases hpending : m.pending with
  | none => rfl
  | some push =>
    have hhex : Hex.decode "OP_DUP" = .error (.invalidChar 79) := by rfl
    obtain rfl := literal_of_feed_pending hpending hhex hdup
    obtain ⟨_, ⟨data, below, hcons, -⟩, -⟩ :=
      (Asm.turns_hash160 ..).mp (leads_singleton.mpr hhash)
    simp at hcons

end Runner
end SpendCheck
