import GraphqlLiteral.Proofs.Escape.Meaning
import Mathlib

/-!
# Digits one at a time and as a run

The reader of a number in braces holds it in a word and gives up as soon as it is
too large; `readRun` takes the whole run of digits and has a number of any size. The
two take the same texts and give the same numbers (`readToBrace_eq_readRun`).
`BraceLoop` holds the states in between. In each of them the word is the number of
the digits so far and small enough for one more (`BraceLoop.exists_done`).
-/

namespace GraphqlLiteral

/-- There is one error only, so a result is known by the values that it can be. -/
theorem EscapeError.eq_of_ok_iff {α : Type} {x y : Except EscapeError α}
    (h : ∀ a, x = .ok a ↔ y = .ok a) : x = y := by
  cases x with
  | ok a => exact ((h a).1 rfl).symm
  | error e =>
    cases y with
    | ok a => exact absurd ((h a).2 rfl) (by simp)
    | error e' =>
      cases e
      cases e'
      rfl

namespace UnicodeEscape

/-! ## The run as a whole -/

/-- A run of digits and its brace are read if the number is not too large. -/
theorem readRun_append {digits : List Char} (hne : digits ≠ [])
    (hdigits : ∀ c ∈ digits, Hex.IsDigit c) (hmax : Hex.value digits ≤ 0x10FFFF)
    (rest : List Char) :
    readRun (digits ++ '}' :: rest) = .ok (UInt32.ofNat (Hex.value digits), rest) := by
  unfold readRun
  rw [Hex.takeWhile_isDigit_append hdigits Hex.not_isDigit_closingBrace,
    Hex.dropWhile_isDigit_append hdigits Hex.not_isDigit_closingBrace]
  simp only [if_neg hne, if_neg (Nat.not_lt_of_le hmax)]

/-- And nothing else is. -/
theorem exists_run_of_readRun {v : CodePoint} {text rest : List Char}
    (h : readRun text = .ok (v, rest)) :
    ∃ digits, digits ≠ [] ∧ (∀ c ∈ digits, Hex.IsDigit c) ∧ Hex.value digits ≤ 0x10FFFF ∧
      v = UInt32.ofNat (Hex.value digits) ∧ text = digits ++ '}' :: rest := by
  dsimp only [readRun] at h
  split at h
  · next rest' hclosed =>
    split at h
    · simp at h
    · next hne =>
      split at h
      · simp at h
      · next hmax =>
        simp only [Except.ok.injEq, Prod.mk.injEq] at h
        obtain ⟨rfl, rfl⟩ := h
        refine ⟨_, hne, fun c hc => Hex.isDigit_of_mem_takeWhile hc, Nat.le_of_not_lt hmax, rfl, ?_⟩
        rw [← hclosed]
        exact List.takeWhile_append_dropWhile.symm
  · simp at h

theorem readRun_eq_ok_iff {v : CodePoint} {text rest : List Char} :
    readRun text = .ok (v, rest) ↔
      ∃ digits, digits ≠ [] ∧ (∀ c ∈ digits, Hex.IsDigit c) ∧ v.toNat = Hex.value digits ∧
        Hex.value digits ≤ 0x10FFFF ∧ text = digits ++ '}' :: rest := by
  refine ⟨?_, ?_⟩
  · intro h
    obtain ⟨digits, hne, hdigits, hmax, rfl, htext⟩ := exists_run_of_readRun h
    exact ⟨digits, hne, hdigits, CodePoint.toNat_ofNat_of_le hmax, hmax, htext⟩
  · intro ⟨digits, hne, hdigits, hv, hmax, htext⟩
    rw [htext, readRun_append hne hdigits hmax, ← hv, UInt32.ofNat_toNat]

/-- To give up early hides no success: the number does not fall again. -/
theorem readToBrace_eq_readRun (text : List Char) : readToBrace 0 0 text = readRun text := by
  apply EscapeError.eq_of_ok_iff
  rintro ⟨v, rest⟩
  rw [readToBrace_zero_eq_ok_iff, readRun_eq_ok_iff]

/-! ## The states of the loop -/

/-- The states in which `readToBrace` goes through `text`: the word, the number of
digits read, and the text that is left. -/
inductive BraceLoop (text : List Char) : CodePoint → Nat → List Char → Prop where
  | start : BraceLoop text 0 0 text
  | digit {value d : CodePoint} {count : Nat} {c : Char} {rest : List Char} :
      BraceLoop text value count (c :: rest) → Hex.digit? c = some d →
      ¬ CodePoint.maxScalar < Hex.push value d →
      BraceLoop text (Hex.push value d) (count + 1) rest

namespace BraceLoop

variable {text rest : List Char} {value : CodePoint} {count : Nat}

/-- The result of a run is the result from any of its states on. -/
theorem readToBrace_eq (h : BraceLoop text value count rest) :
    readToBrace 0 0 text = readToBrace value count rest := by
  induction h with
  | start => rfl
  | digit _ hd hmax ih => rw [ih, readToBrace_of_digit hd, if_neg hmax]

/-- The word holds the number of the digits so far, which is not too large. -/
theorem exists_done (h : BraceLoop text value count rest) :
    ∃ done, text = done ++ rest ∧ done.length = count ∧ (∀ c ∈ done, Hex.IsDigit c) ∧
      value.toNat = Hex.value done ∧ Hex.value done ≤ 0x10FFFF := by
  induction h with
  | start => exact ⟨[], rfl, rfl, by simp, rfl, Nat.zero_le _⟩
  | @digit value d count c rest _ hd hmax ih =>
    obtain ⟨done, htext, hlen, hdone, hvalue, hle⟩ := ih
    have hpush := Hex.toNat_push_of_toNat hvalue (by omega) hd
    have hc := (Hex.digit?_eq_some_iff.1 hd).1
    refine ⟨done ++ [c], by simp [htext], by simp [hlen], ?_, hpush, ?_⟩
    · exact List.forall_mem_append.2 ⟨hdone, List.forall_mem_singleton.2 hc⟩
    · rw [← hpush]
      exact Nat.le_of_not_lt fun hlt => hmax (UInt32.lt_iff_toNat_lt.2 hlt)

theorem toNat_le (h : BraceLoop text value count rest) : value.toNat ≤ 0x10FFFF := by
  obtain ⟨done, -, -, -, hvalue, hle⟩ := h.exists_done
  rw [hvalue]
  exact hle

/-- The loop gets behind every row of digits whose number is not too large. -/
theorem of_digits {done : List Char} (rest : List Char) (hdone : ∀ c ∈ done, Hex.IsDigit c)
    (hle : Hex.value done ≤ 0x10FFFF) :
    BraceLoop (done ++ rest) (UInt32.ofNat (Hex.value done)) done.length rest := by
  induction done using List.reverseRecOn generalizing rest with
  | nil => exact .start
  | append_singleton done c ih =>
    obtain ⟨hdone', hc⟩ := List.forall_mem_append.1 hdone
    obtain ⟨d, hd⟩ := Hex.exists_digit? (List.forall_mem_singleton.1 hc)
    have hle' := Nat.le_trans (Hex.value_le_value_append done [c]) hle
    have hvalue := CodePoint.toNat_ofNat_of_le hle'
    have hpush := Hex.toNat_push_of_toNat hvalue (by omega) hd
    have hmax : ¬ CodePoint.maxScalar < Hex.push (UInt32.ofNat (Hex.value done)) d := by
      rw [UInt32.lt_iff_toNat_lt, hpush]
      exact Nat.not_lt_of_le hle
    have hstep := (ih (c :: rest) hdone' hle').digit hd hmax
    rw [← hpush, UInt32.ofNat_toNat, List.append_assoc, List.length_append]
    exact hstep

end BraceLoop

/-- The reader that gives up early agrees, on texts of any length, with the one that
takes the run of digits first and then looks at its number. Whatever state its loop
comes to, the word is the number of the digits so far and at most 10FFFF. So the shift
drops no bit, to put the digit into the free bits is to add it, and the sum, too large
or not, fits in the word. -/
theorem readToBrace_agrees_and_word_is_exact (text : List Char) :
    readToBrace 0 0 text = readRun text ∧
    ∀ value count rest, BraceLoop text value count rest →
      readToBrace 0 0 text = readToBrace value count rest ∧
      (∃ done, text = done ++ rest ∧ done.length = count ∧ (∀ c ∈ done, Hex.IsDigit c) ∧
        value.toNat = Hex.value done) ∧
      value.toNat ≤ 0x10FFFF ∧
      (value <<< 4).toNat = 16 * value.toNat ∧
      ∀ c d, Hex.digit? c = some d →
        value <<< 4 ||| d = value <<< 4 + d ∧
        (Hex.push value d).toNat = 16 * value.toNat + d.toNat ∧
        16 * value.toNat + d.toNat < 2 ^ 32 := by
  refine ⟨readToBrace_eq_readRun text, ?_⟩
  intro value count rest h
  have hle := h.toNat_le
  have hsmall : value.toNat < 2 ^ 28 := by omega
  obtain ⟨done, htext, hlen, hdone, hvalue, -⟩ := h.exists_done
  refine ⟨h.readToBrace_eq, ⟨done, htext, hlen, hdone, hvalue⟩, hle,
    Hex.toNat_shiftLeft_four hsmall, ?_⟩
  intro c d hd
  have hlt := Hex.toNat_digit?_lt hd
  refine ⟨Hex.push_eq_add hsmall hlt, Hex.toNat_push hsmall hlt, ?_⟩
  omega

/-- One more digit behind the largest number: too large, and still exact. -/
theorem word_is_exact_behind_largest :
    BraceLoop ['1', '0', 'F', 'F', 'f', 'f', 'F', '}'] 0x10FFFF 6 ['F', '}'] ∧
    Hex.digit? 'F' = some 15 ∧
    (Hex.push 0x10FFFF 15).toNat = 16 * (0x10FFFF : CodePoint).toNat + (15 : UInt32).toNat ∧
    readToBrace 0 0 ['1', '0', 'F', 'F', 'f', 'f', 'F', '}'] =
      readRun ['1', '0', 'F', 'F', 'f', 'f', 'F', '}'] ∧
    readToBrace 0 0 ['1', '0', 'F', 'F', 'f', 'f', 'F', '}'] = .error .invalid := by
  obtain ⟨hrun, hword⟩ :=
    readToBrace_agrees_and_word_is_exact ['1', '0', 'F', 'F', 'f', 'f', 'F', '}']
  have hdigits : ∀ c ∈ ['1', '0', 'F', 'F', 'f', 'f'], Hex.IsDigit c := by
    simp only [List.forall_mem_cons]
    exact ⟨by decide, by decide, by decide, by decide, by decide, by decide, by simp⟩
  have hlargest : BraceLoop ['1', '0', 'F', 'F', 'f', 'f', 'F', '}'] 0x10FFFF 6 ['F', '}'] :=
    .of_digits ['F', '}'] hdigits (by decide)
  have hF : Hex.digit? 'F' = some 15 := by decide
  obtain ⟨-, -, -, -, hdigit⟩ := hword _ _ _ hlargest
  exact ⟨hlargest, hF, (hdigit 'F' 15 hF).2.1, hrun, by cbv⟩

end UnicodeEscape

end GraphqlLiteral
