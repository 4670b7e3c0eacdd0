import Mathlib.Data.List.GetD
import SpendCheck.Hash.Sha256

/-!
# SHA-256 on lists

The program reads the words of a schedule by their position.  The same words can be listed
with the latest one first, so that each new one is made from four of the first sixteen, and
the rounds can then follow the list.  Digests are worked out much faster in this form, which
matters where a proof has to know two of them.
-/

namespace SpendCheck.Sha256

variable (s : Chain) (block : Vector UInt32 16) (message : Bytes)

/-- The word that comes after a schedule, which is listed with the latest word first. -/
def nextWord (latest : List UInt32) : UInt32 :=
  smallSigma1 (latest.getD 1 0) + latest.getD 6 0 + smallSigma0 (latest.getD 14 0) +
    latest.getD 15 0

def extendTimes : Nat → List UInt32 → List UInt32
  | 0, latest => latest
  | n + 1, latest => extendTimes n (nextWord latest :: latest)

theorem extendTimes_succ (n : Nat) (latest : List UInt32) :
    extendTimes (n + 1) latest = nextWord (extendTimes n latest) :: extendTimes n latest := by
  induction n generalizing latest with
  | zero => rfl
  | succ n ih => exact ih (nextWord latest :: latest)

theorem toList_eq_ofFn {n : Nat} (words : Vector UInt32 n) :
    words.toList = List.ofFn fun i : Fin n => words[i] := by
  apply List.ext_getElem <;> simp

theorem getD_reverse_toList {n : Nat} (words : Vector UInt32 n) {i j : Nat} (hi : i < n)
    (hij : i + j + 1 = n) : words.toList.reverse.getD j 0 = words[i] := by
  have hj : j < words.toList.reverse.length := by simp; omega
  have hback : n - 1 - j = i := by omega
  rw [List.getD_eq_getElem _ _ hj, List.getElem_reverse]
  simp [hback]

theorem reverse_schedule (n : Nat) :
    (schedule block n).toList.reverse = extendTimes n block.toList.reverse := by
  induction n with
  | zero => rfl
  | succ n ih =>
    have hpush : ∀ {m : Nat} (words : Vector UInt32 m) (w : UInt32),
        (words.push w).toList.reverse = w :: words.toList.reverse := by
      intro m words w
      simp [Vector.toList_push]
    -- The latest word stands at `15 + n`, so the four that are read lie 1, 6, 14 and 15 before it.
    rw [extendTimes_succ, ← ih, nextWord,
      getD_reverse_toList (schedule block n) (i := 14 + n) (j := 1) (by omega) (by omega),
      getD_reverse_toList (schedule block n) (i := 9 + n) (j := 6) (by omega) (by omega),
      getD_reverse_toList (schedule block n) (i := 1 + n) (j := 14) (by omega) (by omega),
      getD_reverse_toList (schedule block n) (i := n) (j := 15) (by omega) (by omega)]
    exact hpush _ _

/-- The rounds of a block, with their constants and words in two lists. -/
def rounds : (constants words : List UInt32) → Chain → Chain
  | k :: constants, w :: words, s => rounds constants words (round s k w)
  | _, _, s => s

theorem rounds_ofFn {n : Nat} (constants words : Fin n → UInt32) :
    rounds (List.ofFn constants) (List.ofFn words) s =
      Fin.foldl n (fun t i => round t (constants i) (words i)) s := by
  induction n generalizing s with
  | zero => rfl
  | succ n ih => rw [List.ofFn_succ, List.ofFn_succ, rounds, ih, Fin.foldl_succ]

theorem rounds_toList {n : Nat} (constants words : Vector UInt32 n) :
    rounds constants.toList words.toList s =
      Fin.foldl n (fun t i => round t constants[i] words[i]) s := by
  rw [toList_eq_ofFn, toList_eq_ofFn, rounds_ofFn]

def Chain.add (s t : Chain) : Chain where
  a := s.a + t.a
  b := s.b + t.b
  c := s.c + t.c
  d := s.d + t.d
  e := s.e + t.e
  f := s.f + t.f
  g := s.g + t.g
  h := s.h + t.h

theorem compress_eq_rounds : compress s block =
    s.add (rounds roundConstants.toList (extendTimes 48 block.toList.reverse).reverse s) := by
  rw [← reverse_schedule, List.reverse_reverse, rounds_toList]
  rfl

/-- The first word of some bytes, most significant byte first, where zeros follow them. -/
def firstWord (bytes : Bytes) : UInt32 :=
  ((bytes.getD 0 0).toUInt32 <<< 24) ||| ((bytes.getD 1 0).toUInt32 <<< 16) |||
    ((bytes.getD 2 0).toUInt32 <<< 8) ||| (bytes.getD 3 0).toUInt32

def firstWords : Nat → Bytes → List UInt32
  | 0, _ => []
  | n + 1, bytes => firstWord bytes :: firstWords n (bytes.drop 4)

theorem wordAt_toArray (bytes : Bytes) (i : Nat) :
    wordAt bytes.toArray i = firstWord (bytes.drop i) := by
  have hbyte : ∀ j, bytes.toArray.getD (i + j) 0 = (bytes.drop i).getD j 0 := by
    intro j
    simp [List.getD_eq_getElem?_getD]
  simp only [wordAt, firstWord, hbyte]

theorem firstWords_eq_ofFn (n : Nat) (bytes : Bytes) :
    firstWords n bytes = List.ofFn fun j : Fin n => firstWord (bytes.drop (4 * j)) := by
  induction n generalizing bytes with
  | zero => rfl
  | succ n ih =>
    rw [firstWords, ih, List.ofFn_succ]
    simp [Nat.mul_add, Nat.add_comm]

theorem toList_blockAt (bytes : Bytes) (i : Nat) :
    (blockAt bytes.toArray i).toList = firstWords 16 (bytes.drop (64 * i)) := by
  have hword : ∀ j : Fin 16,
      (blockAt bytes.toArray i)[j] = firstWord ((bytes.drop (64 * i)).drop (4 * j)) := by
    intro j
    rw [blockAt, Fin.getElem_fin, Vector.getElem_ofFn, wordAt_toArray, List.drop_drop]
  rw [toList_eq_ofFn, firstWords_eq_ofFn, funext hword]

/-- One block mixed into the chaining words by lists. -/
def mix (s : Chain) (words : List UInt32) : Chain :=
  s.add (rounds roundConstants.toList (extendTimes 48 words.reverse).reverse s)

theorem hash_eq_mix : hash message =
    (Nat.fold ((pad message).length / 64)
      (fun i _ s => mix s (firstWords 16 ((pad message).drop (64 * i)))) initial).hash := by
  unfold hash
  simp only [compress_eq_rounds, toList_blockAt]
  rfl

end SpendCheck.Sha256
