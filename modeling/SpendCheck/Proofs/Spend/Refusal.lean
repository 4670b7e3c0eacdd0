import SpendCheck.Proofs.Script.Agree
import SpendCheck.Proofs.Script.Outcomes
import SpendCheck.Proofs.Spend.Nested

/-!
# Refused signatures

A signature that is refused leaves the outcome `false`, and nothing aborts there.  In
two of the templates for script hashes tokens of the unlocking script run behind the
signature check: one token in front of the redeem script, and all of them in front of
a nested key hash.  A comparison among them can take the `false` away, and then the
spend is accepted with a signature that no verifier has approved.  The equivalences
say when, and without a comparison in the unlocking script it never happens.
-/

namespace SpendCheck

open Exec

/-- The redeem script that asks for a signature by one key of 33 bytes. -/
def Lock.publicKey (key : String) : Asm := ["OP_PUSHBYTES_33", key, "OP_CHECKSIG"]

theorem Asm.pushes_publicKey {token : String} {key : Bytes} (hkey : Hex.decode token = .ok key)
    (hlength : key.length = 33) : Pushes ["OP_PUSHBYTES_33", token] key :=
  pushes_pushBytes (n := 33) (by decide) (by decide) hkey hlength

/-- The answer is `false`, whatever is asked and whatever has been asked before. -/
def Verifier.Refuses (verifier : Verifier) : Prop :=
  ∀ skeleton context signatures keys (cache : DigestCache skeleton),
    ((verifier.judge skeleton context signatures keys).run cache).value.1 = false

theorem Verifier.Refuses.historyFree {verifier : Verifier} (h : verifier.Refuses) :
    verifier.HistoryFree := fun skeleton context signatures keys cache cache' =>
  (h skeleton context signatures keys cache).trans (h skeleton context signatures keys cache').symm

/-- What signatures of the input commit to can be made out. -/
def Transaction.Commits (tx : Transaction) (index : Nat) : Prop :=
  (∃ context, Context.ofInput tx index = .ok context) ∧ ∃ skeleton, tx.skeleton = .ok skeleton

/-- Without an approval a check still needs what the signatures commit to, and no more. -/
theorem Session.yields_checkSignatures_refused {tx : Transaction} {verifier : Verifier}
    (hrefuses : verifier.Refuses) {index : Nat} {signatures keys : List Bytes} {s : Session tx}
    {accepted : Bool} :
    (∃ s' calls, Yields (checkSignatures verifier index signatures keys) s accepted s' calls) ↔
      accepted = false ∧ tx.Commits index := by
  have hanswer : ∀ shared : Shared tx, ∀ context,
      (answer verifier shared context signatures keys).1 = false :=
    fun shared context => hrefuses shared.skeleton context signatures keys shared.cache
  simp only [yields_checkSignatures, hanswer]
  constructor
  · intro h
    obtain ⟨_, _, context, shared, hcontext, -, rfl, -⟩ := h
    exact ⟨rfl, ⟨context, hcontext⟩, shared.skeleton, shared.isSkeleton⟩
  · intro h
    obtain ⟨rfl, ⟨context, hcontext⟩, skeleton, hskeleton⟩ := h
    cases hloaded : loaded s with
    | ok shared => exact ⟨_, _, context, shared, hcontext, rfl, rfl, rfl, rfl⟩
    | error error =>
      have herror := skeleton_of_loaded_error hloaded
      simp [hskeleton] at herror

namespace Runner

variable {tx : Transaction} {r : Runner} {m m' : Machine} {s : Session tx}

theorem leads_checkSig_refused (hrefuses : r.verifier.Refuses) {stack : Stack} {steps : Nat} :
    (∃ s' calls, r.Leads ["OP_CHECKSIG"] (.ready stack steps) s m' s' calls) ↔
      ∃ key signature below, stack = .bytes key :: .bytes signature :: below ∧
        r.Allows (steps + 1) ∧ tx.Commits r.inputIndex ∧
        m' = .ready (.bool false :: below) (steps + 1) := by
  simp only [leads_checkSig, yields_check]
  constructor
  · intro h
    obtain ⟨s', calls, key, signature, below, accepted, rfl, hsteps, hcheck, rfl⟩ := h
    obtain ⟨rfl, hcommits⟩ :=
      (Session.yields_checkSignatures_refused hrefuses).mp ⟨s', calls, hcheck⟩
    exact ⟨key, signature, below, rfl, hsteps, hcommits, rfl⟩
  · intro h
    obtain ⟨key, signature, below, rfl, hsteps, hcommits, rfl⟩ := h
    obtain ⟨s', calls, hcheck⟩ :=
      (Session.yields_checkSignatures_refused hrefuses).mpr ⟨rfl, hcommits⟩
    exact ⟨s', calls, key, signature, below, false, rfl, hsteps, hcheck, rfl⟩

/-- A redeem script for one key puts a `false` in the place of the signature.  Where the
unlocking tokens leave a push open it does not run: the push takes its first opcode, and
that is no signature. -/
theorem leads_publicKey_refused (hrefuses : r.verifier.Refuses) {token : String} {key : Bytes}
    (hkey : Hex.decode token = .ok key) (hlength : key.length = 33) :
    (∃ s' calls, r.Leads (Lock.publicKey token) m s m' s' calls) ↔
      ∃ signature below steps, m = .ready (.bytes signature :: below) steps ∧
        r.Allows (steps + 2) ∧ tx.Commits r.inputIndex ∧
        m' = .ready (.bool false :: below) (steps + 2) := by
  have hpush := Asm.pushes_publicKey hkey hlength
  have hsplit : Lock.publicKey token = ["OP_PUSHBYTES_33", token] ++ ["OP_CHECKSIG"] := rfl
  constructor
  · intro h
    obtain ⟨s', calls, hlead⟩ := h
    obtain ⟨stack, steps, pending⟩ := m
    cases pending with
    | none =>
      rw [hsplit] at hlead
      obtain ⟨_, rfl, hsteps, hcheck⟩ := hpush.leads_append.mp hlead
      obtain ⟨_, signature, below, hcons, hmore, hcommits, rfl⟩ :=
        (leads_checkSig_refused hrefuses).mp ⟨s', calls, hcheck⟩
      obtain ⟨-, rfl⟩ : key = _ ∧ stack = .bytes signature :: below := by simpa using hcons
      exact ⟨signature, below, steps, rfl, hmore, hcommits, rfl⟩
    | some push =>
      obtain ⟨m₁, s₁, _, _, hopcode, htail, -⟩ := leads_cons.mp hlead
      obtain ⟨m₂, s₂, _, _, htoken, hcheck, -⟩ := leads_cons.mp htail
      have hhex : Hex.decode "OP_PUSHBYTES_33" = .error (.oddLength 15) := by rfl
      obtain rfl := literal_of_feed_pending rfl hhex hopcode
      obtain ⟨steps₂, rfl, -, -⟩ := ready_of_feed_hex hkey htoken
      obtain ⟨_, _, _, hcons, -⟩ := (leads_checkSig_refused hrefuses).mp ⟨_, _, hcheck⟩
      simp [Machine.ready] at hcons
  · intro h
    obtain ⟨signature, below, steps, rfl, hsteps, hcommits, rfl⟩ := h
    have hfewer : r.Allows (steps + 1) := hsteps.mono (by omega)
    obtain ⟨s', calls, hcheck⟩ := (leads_checkSig_refused (s := s) hrefuses).mpr
      ⟨key, signature, below, rfl, hsteps, hcommits, rfl⟩
    exact ⟨s', calls, by rw [hsplit]; exact hpush.leads_append.mpr ⟨_, rfl, hfewer, hcheck⟩⟩

/-- A redeem script for one key and the two tokens behind it come to nothing but `true`
below the last of them just where the other one is a comparison, and finds a second
`false` under the one that the refused signature has left. -/
theorem leads_publicKey_comparison (hrefuses : r.verifier.Refuses) {token : String} {key : Bytes}
    (hkey : Hex.decode token = .ok key) (hlength : key.length = 33) {pushes : Asm}
    {comparison redeem : String} {data : Bytes} (hdata : Hex.decode redeem = .ok data) :
    (∃ below steps s' calls,
        r.Leads (pushes ++ (Lock.publicKey token ++ [comparison]) ++ [redeem]) m s
          (.ready (.bytes data :: below) steps) s' calls ∧
        (∀ value ∈ below, value = .bool true) ∧ r.Allows (steps + 3)) ↔
      comparison ∈ Opcode.comparisons ∧ tx.Commits r.inputIndex ∧
        ∃ signature below steps s' calls,
          r.Leads pushes m s (.ready (.bytes signature :: .bool false :: below) steps) s' calls ∧
          (∀ value ∈ below, value = .bool true) ∧ r.Allows (steps + 7) := by
  constructor
  · intro h
    obtain ⟨below, steps, s', calls, hlead, hbelow, hsteps⟩ := h
    obtain ⟨m₃, s₃, _, _, hchecked, hredeem, -⟩ := leads_append.mp hlead
    obtain ⟨m₁, s₁, c₁, _, hpushes, hrest, -⟩ := leads_append.mp hchecked
    obtain ⟨m₂, s₂, _, _, hkeyed, hcompared, -⟩ := leads_append.mp hrest
    obtain ⟨signature, stack, steps₁, rfl, -, hcommits, rfl⟩ :=
      (leads_publicKey_refused hrefuses hkey hlength).mp ⟨_, _, hkeyed⟩
    have hcomparison : comparison ∈ Opcode.comparisons := by
      by_contra hother
      have hkept : .bool false ∈ m₃.stack :=
        bool_mem_of_leads hcompared (by simpa using hother) List.mem_cons_self
      obtain ⟨_, hready, -⟩ := ready_of_feed_hex hdata (leads_singleton.mp hredeem)
      obtain ⟨hcons, -⟩ := Machine.ready_inj.mp hready
      obtain rfl : below = m₃.stack := by simpa using hcons
      simpa using hbelow _ hkept
    obtain ⟨R, hturns, hR⟩ := Asm.turns_comparison hcomparison
    obtain ⟨stack₃, hstack₃, -, rfl, -, -⟩ := (hturns ..).mp hcompared
    obtain ⟨_, rfl, -, hready, -, -⟩ := (Asm.pushes_literal hdata ..).mp hredeem
    obtain ⟨hcons, rfl⟩ := Machine.ready_inj.mp hready
    obtain rfl : below = stack₃ := by simpa using hcons
    obtain ⟨below, rfl, htrue⟩ := (hR _ _).mp ⟨_, hstack₃, hbelow⟩
    exact ⟨hcomparison, hcommits, signature, below, steps₁, s₁, c₁, hpushes, htrue, hsteps⟩
  · intro h
    obtain ⟨hcomparison, hcommits, signature, below, steps, s₁, c₁, hpushes, hbelow, hsteps⟩ := h
    obtain ⟨R, hturns, hR⟩ := Asm.turns_comparison hcomparison
    obtain ⟨stack₃, hstack₃, htrue⟩ := (hR (.bool false) _).mpr ⟨below, rfl, hbelow⟩
    obtain ⟨s₂, c₂, hkeyed⟩ := (leads_publicKey_refused (s := s₁) hrefuses hkey hlength).mpr
      ⟨signature, .bool false :: below, steps, rfl, hsteps.mono (by omega), hcommits, rfl⟩
    have hcompared : r.Leads [comparison] (.ready (.bool false :: .bool false :: below) (steps + 2))
        s₂ (.ready stack₃ (steps + 3)) s₂ [] := hturns.leads hstack₃ (hsteps.mono (by omega))
    have hredeem : r.Leads [redeem] (.ready stack₃ (steps + 3)) s₂
        (.ready (.bytes data :: stack₃) (steps + 4)) s₂ [] :=
      (Asm.pushes_literal hdata).leads rfl (hsteps.mono (by omega))
    exact ⟨stack₃, steps + 4, s₂, _, leads_append.mpr ⟨_, _, _, _, leads_append.mpr
      ⟨_, _, _, _, hpushes, leads_append.mpr ⟨_, _, _, _, hkeyed, hcompared, rfl⟩, rfl⟩,
      hredeem, rfl⟩, htrue, hsteps⟩

end Runner

/-- The revealed script asks for a signature by one key of 33 bytes. -/
def Input.RevealsPublicKey (i : Input) : Prop :=
  ∃ token key, i.redeemScript? = some (Lock.publicKey token) ∧ Hex.decode token = .ok key ∧
    key.length = 33

namespace Validator

variable {v : Validator} {tx : Transaction} {index : Nat} {i : Input} {hash : String}
  {scriptHash : Hash160}

/-- A plain spend gets over a refused signature.  Below the signature there lies another
`false`, and the token in front of the redeem script compares the two. -/
def OverturnsPlain (v : Validator) (tx : Transaction) (index : Nat) (i : Input)
    (scriptHash : Hash160) : Prop :=
  (∃ skeleton, tx.skeleton = .ok skeleton) ∧
    ∃ pushes comparison redeem data signature below steps s' calls,
      i.scriptSigTokens = pushes ++ [comparison, redeem] ∧ comparison ∈ Opcode.comparisons ∧
      Hex.decode redeem = .ok data ∧ hash160 data = scriptHash ∧
      (v.runner index).Leads pushes (.ready [] 0) (Session.fresh : Session tx)
        (.ready (.bytes signature :: .bool false :: below) steps) s' calls ∧
      (∀ value ∈ below, value = .bool true) ∧ (v.runner index).Allows (steps + 7)

/-- A nested spend gets over a refused signature.  Its unlocking tokens find the `false` on
the stack and leave the witness program above nothing but `true`. -/
def OverturnsNested (v : Validator) (tx : Transaction) (index : Nat) (i : Input)
    (scriptHash : Hash160) : Prop :=
  (∃ skeleton, tx.skeleton = .ok skeleton) ∧
    (∃ first second signature key, i.witness = some [first, second] ∧
      Hex.decode first = .ok signature ∧ Hex.decode second = .ok key) ∧
    ∃ unlocking program data below steps s' calls,
      i.scriptSigTokens = unlocking ++ [program] ∧
      Hex.decode program = .ok data ∧ hash160 data = scriptHash ∧
      (v.runner index).Leads i.scriptSigTokens (.ready [.bool false] 1)
        (Session.fresh : Session tx) (.ready (.bytes data :: below) steps) s' calls ∧
      (∀ value ∈ below, value = .bool true) ∧ (v.runner index).Allows (steps + 3)

section Refused

variable (hi : tx.inputs[index]? = some i) (hlock : i.prevout.tokens = Lock.scriptHash hash)
  (hhash : Hex.decode hash = .ok scriptHash.toList) (hrefuses : v.verifier.Refuses)

include hi hlock hhash hrefuses

theorem accepts_p2sh_refused_iff (hclassify : Template.classify i = .ok .p2sh)
    (hreveals : i.RevealsPublicKey) :
    v.Accepts tx index ↔ v.OverturnsPlain tx index i scriptHash := by
  obtain ⟨token, key, hrevealed, hkey, hlength⟩ := hreveals
  obtain ⟨htype, hwitness, -⟩ := Template.classify_eq_ok.mp hclassify
  have hcommitted : ∀ pushes comparison redeem,
      pushes ++ Lock.publicKey token ++ [comparison, redeem] ++ i.prevout.tokens =
        pushes ++ (Lock.publicKey token ++ [comparison]) ++ redeem :: Lock.scriptHash hash := by
    simp [hlock]
  constructor
  · intro haccepts
    obtain ⟨script, stack, steps, s', hscript, hlead, htrue⟩ :=
      leads_of_accepts hi hclassify haccepts
    obtain ⟨pushes, comparison, redeem, _, hunlocking, hredeem, rfl⟩ :=
      Program.scriptOf_p2sh.mp hscript
    obtain rfl := Option.some.inj (hrevealed.symm.trans hredeem)
    -- The check has been made, and so the last token of the unlocking script is hex.
    have hcommits : tx.Commits index := by
      rw [List.append_assoc] at hlead
      obtain ⟨_, _, _, _, hchecked, -, -⟩ := Runner.leads_append.mp hlead
      obtain ⟨_, _, _, _, -, hkeyed, -⟩ := Runner.leads_append.mp hchecked
      obtain ⟨_, _, _, -, -, hcommits, -⟩ :=
        (Runner.leads_publicKey_refused hrefuses hkey hlength).mp ⟨_, _, hkeyed⟩
      exact hcommits
    obtain ⟨last, data, hlast, hdata⟩ :=
      (Context.exists_ofInput_p2sh hi htype (.inl hwitness)).mp hcommits.1
    obtain rfl : redeem = last := by simpa [hunlocking] using hlast
    rw [hcommitted] at hlead
    obtain ⟨hhashed, below, steps, hran, hbelow, hsteps⟩ :=
      (Runner.leads_scriptHash hhash hdata).mp ⟨stack, steps, hlead, htrue⟩
    obtain ⟨hcomparison, -, signature, below, steps, s', calls, hpushes, htrue, hallows⟩ :=
      (Runner.leads_publicKey_comparison hrefuses hkey hlength hdata).mp
        ⟨below, steps, _, _, hran, hbelow, hsteps⟩
    exact ⟨hcommits.2, pushes, comparison, redeem, data, signature, below, steps, s', calls,
      hunlocking, hcomparison, hdata, hhashed, hpushes, htrue, hallows⟩
  · intro h
    obtain ⟨hskeleton, pushes, comparison, redeem, data, signature, below, steps, s', calls,
      hunlocking, hcomparison, hdata, hhashed, hpushes, htrue, hallows⟩ := h
    have hcontext := (Context.exists_ofInput_p2sh hi htype (.inl hwitness)).mpr
      ⟨redeem, data, by simp [hunlocking], hdata⟩
    obtain ⟨below, steps, s', calls, hran, hbelow, hsteps⟩ :=
      (Runner.leads_publicKey_comparison hrefuses hkey hlength hdata).mpr
        ⟨hcomparison, ⟨hcontext, hskeleton⟩, signature, below, steps, s', calls, hpushes, htrue,
          hallows⟩
    obtain ⟨stack, steps, hlead, htrue⟩ := (Runner.leads_scriptHash hhash hdata).mpr
      ⟨hhashed, below, steps, hran, hbelow, hsteps⟩
    have hprogram : Program.ofInput i = .ok ⟨.p2sh,
        pushes ++ Lock.publicKey token ++ [comparison, redeem] ++ i.prevout.tokens, []⟩ :=
      Program.ofInput_eq_ok.mpr ⟨.p2sh, _, Template.classify_eq_ok.mp hclassify,
        Program.scriptOf_p2sh.mpr ⟨_, _, _, _, hunlocking, hrevealed, rfl⟩, rfl⟩
    rw [accepts_iff_leads hi hprogram rfl]
    simp only [hcommitted]
    exact ⟨stack, steps, s', calls, hlead, htrue⟩

theorem accepts_p2shP2wpkh_refused_iff (hclassify : Template.classify i = .ok .p2shP2wpkh) :
    v.Accepts tx index ↔ v.OverturnsNested tx index i scriptHash := by
  obtain ⟨htype, first, second, hwitness⟩ := Template.classify_eq_ok.mp hclassify
  have hprogram : Program.ofInput i = .ok ⟨.p2shP2wpkh,
      ["OP_CHECKSIG"] ++ (i.scriptSigTokens ++ Lock.scriptHash hash),
      [.ofToken second, .ofToken first]⟩ := by
    rw [← Program.seed_take_two hwitness, ← hlock]
    exact Program.ofInput_eq_ok.mpr ⟨.p2shP2wpkh, _, ⟨htype, first, second, hwitness⟩, rfl, rfl⟩
  have hlast : i.witnessItems.getLast? = some second := by
    rw [Input.witnessItems, hwitness]
    rfl
  have hsplit : ∀ unlocking program, unlocking ++ [program] ++ Lock.scriptHash hash =
      unlocking ++ program :: Lock.scriptHash hash := by
    simp
  rw [accepts_iff_leads hi hprogram rfl]
  constructor
  · intro h
    obtain ⟨stack, steps, s', calls, hlead, htrue⟩ := h
    obtain ⟨m₁, s₁, c₁, c₂, hchecked, hrest, rfl⟩ := Runner.leads_append.mp hlead
    obtain ⟨key, signature, below, hstack, -, ⟨hcontext, hskeleton⟩, rfl⟩ :=
      (Runner.leads_checkSig_refused hrefuses).mp ⟨_, _, hchecked⟩
    obtain ⟨hsignature, hkey, rfl⟩ := StackValue.pair_eq_bytes.mp hstack
    obtain ⟨program, data, hprogram, hdata⟩ :=
      (Context.exists_ofInput_p2sh hi htype (.inr ⟨second, key, hlast, hkey⟩)).mp hcontext
    obtain ⟨unlocking, hunlocking⟩ := List.getLast?_eq_some_iff.mp hprogram
    rw [hunlocking, hsplit] at hrest
    obtain ⟨hhashed, below, steps, hran, hbelow, hsteps⟩ :=
      (Runner.leads_scriptHash hhash hdata).mp ⟨stack, steps, hrest, htrue⟩
    rw [← hunlocking] at hran
    obtain ⟨t, hran⟩ := hran.session hrefuses.historyFree Session.fresh
    exact ⟨hskeleton, ⟨first, second, signature, key, hwitness, hsignature, hkey⟩, unlocking,
      program, data, below, steps, t, c₂, hunlocking, hdata, hhashed, hran, hbelow, hsteps⟩
  · intro h
    obtain ⟨hskeleton, ⟨first', second', signature, key, hitems, hsignature, hkey⟩, unlocking,
      program, data, below, steps, t, c, hunlocking, hdata, hhashed, hran, hbelow, hsteps⟩ := h
    obtain ⟨rfl, rfl⟩ : first = first' ∧ second = second' := by simpa [hwitness] using hitems
    have hcontext :=
      (Context.exists_ofInput_p2sh hi htype (.inr ⟨second, key, hlast, hkey⟩)).mpr
        ⟨program, data, by simp [hunlocking], hdata⟩
    have hstack := StackValue.pair_eq_bytes.mpr ⟨hsignature, hkey, rfl⟩
    have hfirst : (v.runner index).Allows (0 + 1) :=
      (Runner.Allows.mono · (by omega)) hsteps
    obtain ⟨s₁, c₁, hchecked⟩ :=
      (Runner.leads_checkSig_refused (s := (Session.fresh : Session tx)) hrefuses).mpr
        ⟨key, signature, [], hstack, hfirst, ⟨hcontext, hskeleton⟩, rfl⟩
    obtain ⟨s₂, hran⟩ := hran.session hrefuses.historyFree s₁
    rw [hunlocking] at hran
    obtain ⟨stack, steps, hlocked, htrue⟩ := (Runner.leads_scriptHash hhash hdata).mpr
      ⟨hhashed, below, steps, hran, hbelow, hsteps⟩
    refine ⟨stack, steps, s₂, c₁ ++ c, ?_, htrue⟩
    refine Runner.leads_append.mpr ⟨_, s₁, c₁, c, hchecked, ?_, rfl⟩
    rw [hunlocking, hsplit]
    exact hlocked

/-- What a spend with a refused signature takes to be accepted.  A verifier that refuses
everything is overruled on exactly these terms, and never where the unlocking script
makes no comparison. -/
theorem refused_spend_terms :
    (Template.classify i = .ok .p2sh → i.RevealsPublicKey →
      (v.Accepts tx index ↔ v.OverturnsPlain tx index i scriptHash)) ∧
    (Template.classify i = .ok .p2shP2wpkh →
      (v.Accepts tx index ↔ v.OverturnsNested tx index i scriptHash)) ∧
    (Template.classify i = .ok .p2sh ∧ i.RevealsPublicKey ∨
        Template.classify i = .ok .p2shP2wpkh →
      (∀ token ∈ i.scriptSigTokens, token ∉ Opcode.comparisons) → ¬ v.Accepts tx index) := by
  have hplain := accepts_p2sh_refused_iff hi hlock hhash hrefuses
  have hnested := accepts_p2shP2wpkh_refused_iff hi hlock hhash hrefuses
  refine ⟨hplain, hnested, ?_⟩
  intro hasks hfree haccepts
  obtain ⟨hclassify, hreveals⟩ | hclassify := hasks
  · obtain ⟨-, pushes, comparison, redeem, _, _, _, _, _, _, hunlocking, hcomparison, -⟩ :=
      (hplain hclassify hreveals).mp haccepts
    exact hfree comparison (by simp [hunlocking]) hcomparison
  · obtain ⟨-, -, _, _, data, below, _, _, _, -, -, -, hran, hbelow, -⟩ :=
      (hnested hclassify).mp haccepts
    have hkept : .bool false ∈ .bytes data :: below :=
      Runner.bool_mem_of_leads hran hfree (List.mem_singleton_self _)
    have hfalse : .bool false ∈ below := by simpa using hkept
    simpa using hbelow _ hfalse

end Refused

/-- A validator that refuses every signature, under the usual configuration. -/
def refusing : Validator where
  verifier := Verifier.ofPredicate fun _ _ _ => false
  config := {}

theorem refuses_refusing : refusing.verifier.Refuses := by
  intro skeleton context signatures keys cache
  rw [refusing, Verifier.judge_ofPredicate]
  rfl

/-- A plain spend that unlocks with the outcome of a comparison, a signature and a second
comparison in front of the redeem script. -/
def comparedPlain : Input :=
  { Input.spending .p2sh
      "OP_HASH160 OP_PUSHBYTES_20 3b1644cad0b84a1a0a3d1e1db66a7e4fb0636956 OP_EQUAL" with
    scriptSigAsm := "00 01 OP_EQUAL 30 OP_EQUAL " ++
      "21020000000000000000000000000000000000000000000000000000000000000000ac"
    redeemScriptAsm := some ("OP_PUSHBYTES_33 " ++
      "020000000000000000000000000000000000000000000000000000000000000000 OP_CHECKSIG") }

def comparedPlainLock : Hash160 :=
  #v[0x3b, 0x16, 0x44, 0xca, 0xd0, 0xb8, 0x4a, 0x1a, 0x0a, 0x3d, 0x1e, 0x1d, 0xb6, 0x6a, 0x7e,
    0x4f, 0xb0, 0x63, 0x69, 0x56]

/-- A nested spend that compares the outcome of its signature check with itself. -/
def comparedNested : Input :=
  { foreignKey with
    scriptSigAsm :=
      "OP_DUP OP_EQUAL OP_PUSHBYTES_22 00140000000000000000000000000000000000000000" }

/-- The spends with a comparison, and a nested one without. -/
def refused : Transaction := .ofInputs [comparedPlain, comparedNested, foreignKey]

theorem revealsPublicKey_comparedPlain : comparedPlain.RevealsPublicKey :=
  ⟨"020000000000000000000000000000000000000000000000000000000000000000", _, by cbv, rfl, rfl⟩

theorem tokens_comparedPlain : comparedPlain.prevout.tokens =
    Lock.scriptHash "3b1644cad0b84a1a0a3d1e1db66a7e4fb0636956" := by cbv

theorem overturns_comparedPlain :
    refusing.OverturnsPlain refused 0 comparedPlain comparedPlainLock := by
  have hskeleton : ∃ skeleton, refused.skeleton = .ok skeleton := ⟨_, rfl⟩
  have hscriptSig : comparedPlain.scriptSigTokens = ["00", "01", "OP_EQUAL", "30"] ++ ["OP_EQUAL",
      "21020000000000000000000000000000000000000000000000000000000000000000ac"] := by cbv
  have hhashed : hash160 ([0x21, 0x02] ++ List.replicate 32 0x00 ++ [0xac]) =
      comparedPlainLock := by
    decide +kernel
  -- Two constants that differ leave a `false` below the signature.
  have hpushes : Asm.Turns ["00", "01", "OP_EQUAL", "30"] 4 _ :=
    (Asm.pushes_literal rfl).append ((Asm.pushes_literal rfl).append
      (Asm.turns_equal.append (Asm.pushes_literal rfl)))
  refine ⟨hskeleton, _, _, _, _, [0x30], [], _, _, _, hscriptSig, by decide, rfl, hhashed,
    hpushes.leads ⟨_, rfl, _, rfl, _, ⟨_, _, _, rfl, rfl⟩, rfl⟩ (allows_of_unlimited rfl 0 _),
    by simp, allows_of_unlimited rfl 0 _⟩

theorem overturns_comparedNested :
    refusing.OverturnsNested refused 1 comparedNested foreignKeyLock := by
  have hskeleton : ∃ skeleton, refused.skeleton = .ok skeleton := ⟨_, rfl⟩
  have hscriptSig : comparedNested.scriptSigTokens = ["OP_DUP", "OP_EQUAL"] ++
      ["OP_PUSHBYTES_22", "00140000000000000000000000000000000000000000"] := by cbv
  obtain ⟨-, hhashed, -⟩ := passes_foreignKey
  -- Compared with itself the `false` turns into `true`.
  have hcompared : Asm.Turns ["OP_DUP", "OP_EQUAL"] 2 _ := Asm.turns_dup.append Asm.turns_equal
  have hprogram : Asm.Pushes ["OP_PUSHBYTES_22", "00140000000000000000000000000000000000000000"]
      (Context.keyHashProgram (Vector.replicate 20 0)) := Asm.pushes_keyHashProgram rfl
  have hunlocks : (refusing.runner 1).Leads (["OP_DUP", "OP_EQUAL"] ++
      ["OP_PUSHBYTES_22", "00140000000000000000000000000000000000000000"])
      (.ready [.bool false] 1) (Session.fresh : Session refused)
      (.ready [.bytes (Context.keyHashProgram (Vector.replicate 20 0)), .bool true] 4)
      Session.fresh [] :=
    (hcompared.append hprogram).leads ⟨[.bool true], ⟨_, ⟨_, _, rfl, rfl⟩, _, _, _, rfl, rfl⟩, rfl⟩
      (allows_of_unlimited rfl 1 _)
  rw [← hscriptSig] at hunlocks
  exact ⟨hskeleton, ⟨"30", "02", [0x30], [0x02], rfl, rfl, rfl⟩,
    ["OP_DUP", "OP_EQUAL", "OP_PUSHBYTES_22"], "00140000000000000000000000000000000000000000",
    Context.keyHashProgram (Vector.replicate 20 0), [.bool true], 4, _, _, hscriptSig, rfl,
    hhashed, hunlocks, by simp, allows_of_unlimited rfl 1 _⟩

theorem refused_spend_terms_refused :
    refusing.Accepts refused 0 ∧ refusing.Accepts refused 1 ∧ ¬ refusing.Accepts refused 2 := by
  obtain ⟨hplain, -, -⟩ := @refused_spend_terms refusing refused 0 comparedPlain _
    comparedPlainLock rfl tokens_comparedPlain rfl refuses_refusing
  obtain ⟨-, hnested, -⟩ := @refused_spend_terms refusing refused 1 comparedNested _
    foreignKeyLock rfl tokens_foreignKey rfl refuses_refusing
  obtain ⟨-, -, hfree⟩ := @refused_spend_terms refusing refused 2 foreignKey _
    foreignKeyLock rfl tokens_foreignKey rfl refuses_refusing
  have hpushes : ∀ token ∈ foreignKey.scriptSigTokens, token ∉ Opcode.comparisons := by
    rw [scriptSigTokens_foreignKey]
    decide
  exact ⟨(hplain rfl revealsPublicKey_comparedPlain).mpr overturns_comparedPlain,
    (hnested rfl).mpr overturns_comparedNested, hfree (.inr rfl) hpushes⟩

/-- A refusal is not final, be the spend a plain or a nested one. -/
theorem not_refusal_final :
    (¬ ∀ (v : Validator) (tx : Transaction) (index : Nat) (i : Input) (hash : String)
      (scriptHash : Hash160), tx.inputs[index]? = some i →
      i.prevout.tokens = Lock.scriptHash hash → Hex.decode hash = .ok scriptHash.toList →
      v.verifier.Refuses → Template.classify i = .ok .p2sh → i.RevealsPublicKey →
      ¬ v.Accepts tx index) ∧
    (¬ ∀ (v : Validator) (tx : Transaction) (index : Nat) (i : Input) (hash : String)
      (scriptHash : Hash160), tx.inputs[index]? = some i →
      i.prevout.tokens = Lock.scriptHash hash → Hex.decode hash = .ok scriptHash.toList →
      v.verifier.Refuses → Template.classify i = .ok .p2shP2wpkh → ¬ v.Accepts tx index) := by
  constructor
  · intro hfinal
    have haccepts : refusing.Accepts refused 0 :=
      (@accepts_p2sh_refused_iff refusing refused 0 comparedPlain _ comparedPlainLock rfl
        tokens_comparedPlain rfl refuses_refusing rfl revealsPublicKey_comparedPlain).mpr
        overturns_comparedPlain
    exact hfinal refusing refused 0 comparedPlain _ comparedPlainLock rfl tokens_comparedPlain rfl
      refuses_refusing rfl revealsPublicKey_comparedPlain haccepts
  · intro hfinal
    have haccepts : refusing.Accepts refused 1 :=
      (@accepts_p2shP2wpkh_refused_iff refusing refused 1 comparedNested _ foreignKeyLock rfl
        tokens_foreignKey rfl refuses_refusing rfl).mpr overturns_comparedNested
    exact hfinal refusing refused 1 comparedNested _ foreignKeyLock rfl tokens_foreignKey
      rfl refuses_refusing rfl haccepts

end Validator
end SpendCheck
