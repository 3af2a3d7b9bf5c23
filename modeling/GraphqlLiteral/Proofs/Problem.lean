import GraphqlLiteral.Problem
import Mathlib

/-!
# Ranges that a span can hold

A range is refused exactly when its end lies past `Offset.limit`. A body that
ends within the limit is shown where it is, to the byte; one that ends past it is
another kind of problem, so that no rounded end is taken for an exact one. The sum
that gives the end stops at 64 bits, and this changes no verdict
(`LongOffset.limit_lt_toNat_advance_iff`): what the sum loses lies far behind the
limit.
-/

namespace GraphqlLiteral

namespace LongOffset

theorem toNat_limit : (Offset.limit.toUInt64).toNat = 2 ^ 32 - 1 := rfl

/-- A 64-bit offset past the limit, as a number. -/
theorem limit_lt_iff {n : LongOffset} : Offset.limit.toUInt64 < n ↔ 2 ^ 32 - 1 < n.toNat := by
  rw [UInt64.lt_iff_toNat_lt, toNat_limit]

/-- What fits in 64 bits is not clamped. -/
theorem toNat_clamp_of_le {n : Nat} (hn : n ≤ 2 ^ 64 - 1) : (clamp n).toNat = n := by
  rw [toNat_clamp]
  exact Nat.min_eq_left hn

/-- A sum that fits in 64 bits is exact. -/
theorem toNat_advance_of_le {a n : LongOffset} (h : a.toNat + n.toNat ≤ 2 ^ 64 - 1) :
    (a.advance n).toNat = a.toNat + n.toNat := toNat_clamp_of_le h

/-- The sum does not fall below where it starts. -/
theorem toNat_le_toNat_advance (a n : LongOffset) : a.toNat ≤ (a.advance n).toNat := by
  have ha := a.toNat_lt
  rw [toNat_advance]
  exact le_min (Nat.le_add_right _ _) (Nat.le_sub_one_of_lt ha)

/-- A sum that was stopped at 64 bits is past the limit, as the exact one is. -/
theorem limit_lt_toNat_advance_iff {a n : LongOffset} :
    2 ^ 32 - 1 < (a.advance n).toNat ↔ 2 ^ 32 - 1 < a.toNat + n.toNat := by
  have hlarge : 2 ^ 32 - 1 < UInt64.size - 1 := by decide
  rw [toNat_advance, lt_min_iff]
  exact and_iff_left hlarge

end LongOffset

namespace Span

variable {start stop : LongOffset}

theorem ofRange_of_le (hstart : start.toNat ≤ 2 ^ 32 - 1) (hstop : stop.toNat ≤ 2 ^ 32 - 1) :
    ofRange start stop = .ok ⟨start.toUInt32, stop.toUInt32⟩ := by
  rw [ofRange, if_neg, if_neg]
  · rw [LongOffset.limit_lt_iff]
    omega
  · rw [LongOffset.limit_lt_iff]
    omega

/-- A range that ends past the limit is refused, for its start if that is past the
limit too. -/
theorem ofRange_of_limit_lt (hstop : 2 ^ 32 - 1 < stop.toNat) :
    ofRange start stop =
      .error (if 2 ^ 32 - 1 < start.toNat then .startTooLarge start else .endTooLarge stop) := by
  unfold ofRange
  simp only [LongOffset.limit_lt_iff]
  by_cases hstart : 2 ^ 32 - 1 < start.toNat
  · rw [if_pos hstart, if_pos hstart]
  · rw [if_neg hstart, if_neg hstart, if_pos hstop]

/-- A range in the right order is refused for its end being past the limit, and for
nothing else. -/
theorem ofRange_eq_error_iff (hle : start.toNat ≤ stop.toNat) {e : SpanError} :
    ofRange start stop = .error e ↔ 2 ^ 32 - 1 < stop.toNat ∧
      e = if 2 ^ 32 - 1 < start.toNat then .startTooLarge start else .endTooLarge stop := by
  by_cases hstop : 2 ^ 32 - 1 < stop.toNat
  · rw [ofRange_of_limit_lt hstop, Except.error.injEq, eq_comm]
    exact (and_iff_right hstop).symm
  · rw [ofRange_of_le (by omega) (by omega)]
    simp only [reduceCtorEq, hstop, false_and]

end Span

namespace Problem

/-- A body that ends within the limit is shown exactly where it is. -/
theorem exists_undecodable_eq_of_le {start len : LongOffset}
    (hend : start.toNat + len.toNat ≤ 2 ^ 32 - 1) :
    ∃ span, undecodable start len = .invalidEscape span ∧
      span.start.toNat = start.toNat ∧ span.stop.toNat = start.toNat + len.toNat := by
  have hadvance : (start.advance len).toNat = start.toNat + len.toNat :=
    LongOffset.toNat_advance_of_le (by omega)
  refine ⟨⟨start.toUInt32, (start.advance len).toUInt32⟩, ?_, ?_, ?_⟩
  · rw [undecodable, Span.ofRange_of_le (by omega) (by omega)]
  · rw [UInt64.toNat_toUInt32]
    omega
  · rw [UInt64.toNat_toUInt32, hadvance]
    omega

/-- A body that ends past the limit is shown from its start on, and a start past
the limit is shown at the limit. -/
theorem undecodable_of_limit_lt {start len : LongOffset}
    (hend : 2 ^ 32 - 1 < start.toNat + len.toNat) :
    undecodable start len = .pastLimit (Offset.clamp start.toNat) := by
  have hstop := LongOffset.limit_lt_toNat_advance_iff.2 hend
  rw [undecodable, Span.ofRange_of_limit_lt hstop]

/-- The span of the problem is in the right order, also when its start or its end
is not where the body has it. -/
theorem start_le_stop_undecodable (start len : LongOffset) :
    (undecodable start len).span.start ≤ (undecodable start len).span.stop := by
  rw [UInt32.le_iff_toNat_le]
  by_cases hend : start.toNat + len.toNat ≤ 2 ^ 32 - 1
  · obtain ⟨span, hspan, hstart, hstop⟩ := exists_undecodable_eq_of_le hend
    rw [hspan]
    show span.start.toNat ≤ span.stop.toNat
    omega
  · have hlimit : Offset.limit.toNat = 2 ^ 32 - 1 := rfl
    rw [undecodable_of_limit_lt (by omega)]
    show (Offset.clamp start.toNat).toNat ≤ Offset.limit.toNat
    rw [hlimit, Offset.toNat_clamp]
    exact min_le_right _ _

/-- The place of a refused body by exact arithmetic, for every start and every
length. If its end can be told, the body is shown at exactly its range. If not, the
problem is of the other kind and reaches from the start, or from the limit where the
start is past it, up to the limit. The sum in 64 bits is past the limit exactly when
the exact one is, so to stop it never makes a range look as if it could be told, and
the range is refused in these cases only, for its start if that is too large and else
for its end. -/
theorem undecodable_agrees_with_exact_sum (start len : LongOffset) :
    (start.toNat + len.toNat ≤ 2 ^ 32 - 1 →
      ∃ span, undecodable start len = .invalidEscape span ∧
        span.start.toNat = start.toNat ∧ span.stop.toNat = start.toNat + len.toNat) ∧
    (2 ^ 32 - 1 < start.toNat + len.toNat →
      ∃ first, undecodable start len = .pastLimit first ∧
        (undecodable start len).span.start.toNat = min start.toNat (2 ^ 32 - 1) ∧
        (undecodable start len).span.stop.toNat = 2 ^ 32 - 1) ∧
    (2 ^ 32 - 1 < (start.advance len).toNat ↔ 2 ^ 32 - 1 < start.toNat + len.toNat) ∧
    (undecodable start len).span.start ≤ (undecodable start len).span.stop ∧
    ∀ e, Span.ofRange start (start.advance len) = .error e ↔
      2 ^ 32 - 1 < start.toNat + len.toNat ∧
        e = if 2 ^ 32 - 1 < start.toNat then .startTooLarge start
          else .endTooLarge (start.advance len) := by
  refine ⟨exists_undecodable_eq_of_le, ?_, LongOffset.limit_lt_toNat_advance_iff,
    start_le_stop_undecodable start len, ?_⟩
  · intro hend
    have hpast := undecodable_of_limit_lt hend
    refine ⟨Offset.clamp start.toNat, hpast, ?_, ?_⟩
    · rw [hpast]
      exact Offset.toNat_clamp start.toNat
    · rw [hpast]
      rfl
  · intro e
    rw [Span.ofRange_eq_error_iff (LongOffset.toNat_le_toNat_advance start len),
      LongOffset.limit_lt_toNat_advance_iff]

/-- The last place that a span can hold, a start within the limit under a sum that
does not fit in 64 bits, and an empty body right behind the limit. -/
theorem undecodable_at_both_limits :
    ((4294967295 : LongOffset).toNat + (0 : LongOffset).toNat ≤ 2 ^ 32 - 1 ∧
      ∃ span, undecodable 4294967295 0 = .invalidEscape span ∧
        span.start.toNat = 4294967295 ∧ span.stop.toNat = 4294967295) ∧
    (2 ^ 32 - 1 < (5 : LongOffset).toNat + (0xFFFFFFFFFFFFFFFF : LongOffset).toNat ∧
      (undecodable 5 0xFFFFFFFFFFFFFFFF).span.start.toNat = 5 ∧
      ∃ first, undecodable 5 0xFFFFFFFFFFFFFFFF = .pastLimit first) ∧
    2 ^ 32 - 1 < (4294967296 : LongOffset).toNat + (0 : LongOffset).toNat ∧
      (undecodable 4294967296 0).span.start.toNat = 2 ^ 32 - 1 ∧
      Span.ofRange 4294967296 (LongOffset.advance 4294967296 0) =
        .error (.startTooLarge 4294967296) := by
  have hfit : (4294967295 : LongOffset).toNat + (0 : LongOffset).toNat ≤ 2 ^ 32 - 1 := by decide
  have hsum : 2 ^ 32 - 1 < (5 : LongOffset).toNat + (0xFFFFFFFFFFFFFFFF : LongOffset).toNat := by
    decide
  have hpast : 2 ^ 32 - 1 < (4294967296 : LongOffset).toNat + (0 : LongOffset).toNat := by decide
  obtain ⟨hexact, -⟩ := undecodable_agrees_with_exact_sum 4294967295 0
  obtain ⟨-, hstopped, -⟩ := undecodable_agrees_with_exact_sum 5 0xFFFFFFFFFFFFFFFF
  obtain ⟨-, hbehind, -, -, hrange⟩ := undecodable_agrees_with_exact_sum 4294967296 0
  obtain ⟨first, hfirst, hfive, -⟩ := hstopped hsum
  obtain ⟨-, -, hlimit, -⟩ := hbehind hpast
  refine ⟨⟨hfit, hexact hfit⟩, ⟨hsum, ?_, first, hfirst⟩, hpast, ?_, ?_⟩
  · rw [hfive]
    decide
  · rw [hlimit]
    decide
  · rw [hrange, if_pos (by decide)]
    exact ⟨hpast, rfl⟩

end Problem

end GraphqlLiteral
