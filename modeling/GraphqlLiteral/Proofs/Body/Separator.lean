import GraphqlLiteral.Proofs.Body.Division
import Mathlib

/-!
# Characters that no escape holds

A character that cannot occur in an escape stands for itself wherever it is
met, and cuts a body into two that are decoded apart (`chars?_append_separator`).
A body that breaks off inside an escape gains nothing from what comes behind
such a character. Line feed and carriage return are two of them.
-/

namespace GraphqlLiteral

namespace Escape

/-- The characters of escapes that are no digits. -/
def marks : List Char := ['\\', '"', '/', '{', '}', 'n', 'r', 't', 'u']

/-- The character occurs in no escape. -/
def Separates (c : Char) : Prop := c ∉ marks ∧ ¬ Hex.IsDigit c

instance (c : Char) : Decidable (Separates c) := inferInstanceAs (Decidable (_ ∧ _))

theorem separates_lf : Separates '\n' := by decide

theorem separates_cr : Separates '\r' := by decide

theorem Separates.ne_of_mem_marks {c d : Char} (hc : Separates c) (hd : d ∈ marks) : c ≠ d :=
  fun h => hc.1 (h ▸ hd)

theorem Separates.ne_backslash {c : Char} (hc : Separates c) : c ≠ '\\' :=
  hc.ne_of_mem_marks (by simp [marks])

/-- A character that is written behind a backslash by itself is a mark or one of
the digits `b` and `f`. -/
theorem Separates.not_mem_simpleMeanings {c : Char} (hc : Separates c) (meaning : Char) :
    (c, meaning) ∉ simpleMeanings := by
  have hall : ∀ p ∈ simpleMeanings, p.1 ∈ marks ∨ Hex.IsDigit p.1 := by decide
  intro hmem
  rcases hall _ hmem with hmark | hdigit
  · exact hc.1 hmark
  · exact hc.2 hdigit

end Escape

open Escape

/-- The spelling of a Unicode escape holds no separator. -/
theorem UnicodeEscape.Spelled.not_mem {u : UnicodeEscape} {w : List Char} (hw : u.Spelled w)
    {c : Char} (hc : Separates c) : c ∉ w := by
  have hu : c ≠ 'u' := hc.ne_of_mem_marks (by simp [marks])
  cases hw with
  | @fixed digits _ _ hdigits _ =>
    rw [List.mem_cons, not_or]
    exact ⟨hu, fun hmem => hc.2 (hdigits c hmem)⟩
  | @braced digits _ _ hdigits _ _ =>
    simp only [List.mem_cons, List.mem_append, List.not_mem_nil, or_false, not_or]
    have hopen : c ≠ '{' := hc.ne_of_mem_marks (by simp [marks])
    have hclose : c ≠ '}' := hc.ne_of_mem_marks (by simp [marks])
    exact ⟨hu, hopen, fun hmem => hc.2 (hdigits c hmem), hclose⟩

/-- A piece that holds a separator is that character alone. -/
theorem Piece.Valid.eq_of_mem {p : Piece} (hp : p.Valid) {c : Char} (hc : Separates c)
    (hmem : c ∈ p.written) : p = ⟨[c], c⟩ := by
  have hslash := hc.ne_backslash
  cases hp with
  | plain _ =>
    obtain rfl := List.mem_singleton.1 hmem
    rfl
  | simple hmeaning =>
    simp only [List.mem_cons, hslash, List.not_mem_nil, or_false, false_or] at hmem
    subst hmem
    exact absurd hmeaning (hc.not_mem_simpleMeanings _)
  | scalar hu _ =>
    simp only [List.mem_cons, hslash, false_or] at hmem
    exact absurd hmem (hu.not_mem hc)
  | pair hlead htrail _ _ _ =>
    simp only [List.mem_cons, List.mem_append, hslash, false_or] at hmem
    rcases hmem with hmem | hmem
    · exact absurd hmem (hlead.not_mem hc)
    · exact absurd hmem (htrail.not_mem hc)

namespace Division

/-- The separator is a piece of its own in any division of the whole. -/
theorem exists_of_append_separator {c : Char} (hc : Separates c) {x y : List Char}
    {ps : List Piece} (h : Division (x ++ c :: y) ps) :
    ∃ qs rs, Division x qs ∧ Division y rs ∧ ps = qs ++ ⟨[c], c⟩ :: rs := by
  generalize hraw : x ++ c :: y = raw at h
  induction h using Division.along generalizing x with
  | nil => exact absurd hraw (by simp)
  | cons p rest ps hp hrest ih =>
    rcases List.append_eq_append_iff.1 hraw with ⟨v, hv, hcy⟩ | ⟨v, hx, hv⟩
    · -- The piece reaches the separator or ends right before it.
      cases v with
      | nil =>
        rw [List.append_nil] at hv
        rw [List.nil_append] at hcy
        subst hv hcy
        obtain ⟨qs, rs, hqs, hrs, rfl⟩ := ih (x := []) rfl
        refine ⟨p :: qs, rs, ?_, hrs, rfl⟩
        have hcons := hqs.cons hp
        rwa [List.append_nil] at hcons
      | cons d v =>
        obtain ⟨rfl, rfl⟩ := List.cons.inj hcy
        obtain rfl := hp.eq_of_mem hc (by rw [hv]; simp)
        -- So the piece is the separator, and nothing stands in front of it.
        obtain ⟨rfl, hcv⟩ : x = [] ∧ c :: v = [c] := by
          rcases List.append_eq_singleton_iff.1 hv.symm with hfirst | hlast
          · exact hfirst
          · exact absurd hlast.2 (List.cons_ne_nil _ _)
        obtain ⟨-, rfl⟩ := List.cons.inj hcv
        exact ⟨[], ps, .nil, hrest, rfl⟩
    · -- The piece ends in front of the separator.
      subst hx hv
      obtain ⟨qs, rs, hqs, hrs, rfl⟩ := ih rfl
      exact ⟨p :: qs, rs, hqs.cons hp, hrs, rfl⟩

end Division

namespace Body

/-- The two parts beside a separator are decoded apart. -/
theorem chars?_append_separator {c : Char} (hc : Separates c) (x y : List Char) :
    chars? (x ++ c :: y) = (chars? x).bind fun u => (chars? y).map fun v => u ++ c :: v := by
  ext z
  simp only [Option.bind_eq_some_iff, Option.map_eq_some_iff, chars?_eq_some_iff]
  refine ⟨?_, ?_⟩
  · intro ⟨ps, hps, hz⟩
    obtain ⟨qs, rs, hqs, hrs, rfl⟩ := hps.exists_of_append_separator hc
    refine ⟨_, ⟨qs, hqs, rfl⟩, _, ⟨rs, hrs, rfl⟩, ?_⟩
    rw [← hz]
    simp
  · intro ⟨_, ⟨qs, hqs, hu⟩, _, ⟨rs, hrs, hv⟩, hz⟩
    subst hu hv hz
    have hplain : Piece.Valid ⟨[c], c⟩ := .plain hc.ne_backslash
    exact ⟨qs ++ ⟨[c], c⟩ :: rs, hqs.append (hrs.cons hplain), by simp⟩

/-- A separator at the end changes nothing in front of it. -/
theorem chars?_append_separator_singleton {c : Char} (hc : Separates c) (x : List Char) :
    chars? (x ++ [c]) = (chars? x).map (· ++ [c]) := by
  rw [chars?_append_separator hc, chars?_nil]
  cases chars? x <;> rfl

/-- The characters of a body that a separator cuts in two. -/
theorem chars?_toList_append_separator {c : Char} (hc : Separates c) (x y : String) :
    chars? (x ++ String.singleton c ++ y).toList =
      (chars? x.toList).bind fun u => (chars? y.toList).map fun v => u ++ c :: v := by
  rw [← chars?_append_separator hc]
  simp

/-- A separator cuts a body into two that are decoded apart. The whole has the
values of the parts with the separator between them, and no other value. It has
none if a part has none, wherever the first part breaks off: a separator does not
end an escape, and what stands behind it does not go on with one. -/
theorem decode_append_separator {c : Char} (hc : Separates c) (x y : String) :
    (∀ z, decode (x ++ String.singleton c ++ y) = .ok z ↔
      ∃ u v, decode x = .ok u ∧ decode y = .ok v ∧ z = u ++ String.singleton c ++ v) ∧
    (decode (x ++ String.singleton c ++ y) = .error .invalid ↔
      decode x = .error .invalid ∨ decode y = .error .invalid) := by
  refine ⟨?_, ?_⟩
  · intro z
    rw [decode_eq_ok_iff_chars?, chars?_toList_append_separator hc]
    simp only [Option.bind_eq_some_iff, Option.map_eq_some_iff, decode_eq_ok_iff_chars?]
    refine ⟨?_, ?_⟩
    · intro ⟨u, hu, v, hv, hz⟩
      refine ⟨String.ofList u, String.ofList v, ?_, ?_, ?_⟩
      · rwa [String.toList_ofList]
      · rwa [String.toList_ofList]
      · rw [← String.toList_inj, ← hz]
        simp
    · intro ⟨u, v, hu, hv, hz⟩
      refine ⟨u.toList, hu, v.toList, hv, ?_⟩
      rw [hz]
      simp
  · simp only [decode_eq_error_iff_chars?]
    rw [chars?_toList_append_separator hc]
    cases chars? x.toList <;> simp

/-- A blank between two escapes, and one between the halves of a pair. -/
theorem decode_append_blank :
    Separates ' ' ∧
    (decode "\\t" = .ok "\t" ∧ decode "\\u\x7bDF\x7d" = .ok "ß" ∧
      decode ("\\t" ++ String.singleton ' ' ++ "\\u\x7bDF\x7d") =
        .ok ("\t" ++ String.singleton ' ' ++ "ß")) ∧
    decode "\\uD83D" = .error .invalid ∧
      decode ("\\uD83D" ++ String.singleton ' ' ++ "\\uDE00") = .error .invalid := by
  have hblank : Separates ' ' := by decide
  have htab : decode "\\t" = .ok "\t" := by cbv
  have heszett : decode "\\u\x7bDF\x7d" = .ok "ß" := by cbv
  have hhalf : decode "\\uD83D" = .error .invalid := by cbv
  obtain ⟨hok, -⟩ := decode_append_separator hblank "\\t" "\\u\x7bDF\x7d"
  obtain ⟨-, herror⟩ := decode_append_separator hblank "\\uD83D" "\\uDE00"
  exact ⟨hblank, ⟨htab, heszett, (hok _).2 ⟨_, _, htab, heszett, rfl⟩⟩, hhalf,
    herror.2 (.inl hhalf)⟩

end Body

end GraphqlLiteral
