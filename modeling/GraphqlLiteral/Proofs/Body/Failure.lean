import GraphqlLiteral.Proofs.Body.Division
import GraphqlLiteral.Proofs.Escape.Unfinished
import Mathlib

/-!
# Bodies without a value

A body without a value breaks off at one place. What stands there says what is wrong
with it, and whether a longer body could put it right.
-/

namespace GraphqlLiteral

/-!
## Where a body breaks off

A body without a value has a front with one, and behind it a backslash that
begins no piece, in one of the ways that `BadTail` lists. There is no second
place like that: a longer front would hold this backslash as the beginning of a
piece, and a shorter one would break off at a backslash that begins a piece.
-/

namespace Body

/-- The body `raw` breaks off behind `front`: there it has a value, and behind
the backslash that follows stands nothing that could be read. -/
structure BreaksOff (raw front tail : String) : Prop where
  raw_eq : raw = front ++ "\\" ++ tail
  front_decodes : ∃ s, decode front = .ok s
  badTail : BadTail tail.toList

/-! ### There is a place -/

/-- Behind the pieces at the front of a body without a value stands a backslash
that begins none. -/
theorem exists_break_of_chars?_eq_none {raw : List Char} (h : chars? raw = none) :
    ∃ ps front tail, Division front ps ∧ raw = front ++ '\\' :: tail ∧ BadTail tail := by
  induction raw using piece_induction with
  | nil =>
    rw [chars?_nil] at h
    exact absurd h (by simp)
  | piece p rest hp ih =>
    rw [chars?_append_of_valid hp, Option.map_eq_none_iff] at h
    obtain ⟨ps, front, tail, hps, rfl, htail⟩ := ih h
    exact ⟨p :: ps, p.written ++ front, tail, hps.cons hp, (List.append_assoc _ _ _).symm, htail⟩
  | error behind e hread =>
    cases e
    exact ⟨[], [], behind, .nil, rfl, Escape.readMeaning_eq_error_iff_badTail.1 hread⟩

/-! ### There is no second one -/

/-- A front with a value does not reach over the backslash where a shorter one
breaks off. -/
theorem eq_nil_of_front_append {front v tail tail' cs cs' : List Char}
    (hfront : chars? front = some cs) (hlonger : chars? (front ++ v) = some cs')
    (htail : BadTail tail) (heq : '\\' :: tail = v ++ '\\' :: tail') : v = [] := by
  by_contra hne
  -- What the longer front has more begins with a piece, and so does the tail.
  rw [chars?_append_of_eq_some hfront, Option.map_eq_some_iff] at hlonger
  obtain ⟨u, hu, -⟩ := hlonger
  obtain ⟨⟨written, m⟩, rest, hp, rfl⟩ := exists_piece_of_chars? hu hne
  rcases hp.plain_or_escape with ⟨c, hc, hpc⟩ | ⟨w, rfl⟩
  · obtain ⟨rfl, rfl⟩ := Piece.mk.inj hpc
    exact hc (List.cons.inj heq).1.symm
  · have hbehind : tail = w ++ (rest ++ '\\' :: tail') := by
      simpa using (List.cons.inj heq).2
    have hok := Escape.readMeaning_of_valid hp (rest ++ '\\' :: tail')
    rw [← hbehind, Escape.readMeaning_of_badTail htail] at hok
    exact absurd hok (by simp)

theorem front_unique {front front' tail tail' cs cs' : List Char}
    (hfront : chars? front = some cs) (hfront' : chars? front' = some cs')
    (htail : BadTail tail) (htail' : BadTail tail')
    (heq : front ++ '\\' :: tail = front' ++ '\\' :: tail') : front = front' := by
  rcases List.append_eq_append_iff.1 heq with ⟨v, rfl, hv⟩ | ⟨v, rfl, hv⟩
  · rw [eq_nil_of_front_append hfront hfront' htail hv, List.append_nil]
  · rw [eq_nil_of_front_append hfront' hfront htail' hv, List.append_nil]

/-! ### The body as a text -/

theorem breaksOff_iff {raw front tail : String} :
    BreaksOff raw front tail ↔
      raw.toList = front.toList ++ '\\' :: tail.toList ∧
        (∃ cs, chars? front.toList = some cs) ∧ BadTail tail.toList := by
  have hraw : raw = front ++ "\\" ++ tail ↔
      raw.toList = front.toList ++ '\\' :: tail.toList := by
    rw [← String.toList_inj]
    simp
  refine ⟨?_, ?_⟩
  · intro h
    exact ⟨hraw.1 h.raw_eq, exists_decode_eq_ok_iff.1 h.front_decodes, h.badTail⟩
  · intro ⟨h, hfront, htail⟩
    exact ⟨hraw.2 h, exists_decode_eq_ok_iff.2 hfront, htail⟩

theorem exists_breaksOff_of_error {raw : String} (h : decode raw = .error .invalid) :
    ∃ front tail, BreaksOff raw front tail := by
  obtain ⟨ps, front, tail, hps, hraw, htail⟩ :=
    exists_break_of_chars?_eq_none (decode_eq_error_iff_chars?.1 h)
  refine ⟨String.ofList front, String.ofList tail, breaksOff_iff.2 ?_⟩
  simp only [String.toList_ofList]
  exact ⟨hraw, ⟨_, chars?_of_division hps⟩, htail⟩

/-- Nothing behind the place where a body breaks off gives it a value again. -/
theorem BreaksOff.decode_eq_error {raw front tail : String} (h : BreaksOff raw front tail) :
    decode raw = .error .invalid := by
  obtain ⟨hraw, ⟨cs, hcs⟩, htail⟩ := breaksOff_iff.1 h
  rw [decode_eq_error_iff_chars?, hraw, chars?_append_of_eq_some hcs,
    chars?_backslash_of_error (Escape.readMeaning_of_badTail htail)]
  rfl

theorem BreaksOff.front_eq {raw front front' tail tail' : String} (h : BreaksOff raw front tail)
    (h' : BreaksOff raw front' tail') : front = front' := by
  obtain ⟨hraw, ⟨cs, hcs⟩, htail⟩ := breaksOff_iff.1 h
  obtain ⟨hraw', ⟨cs', hcs'⟩, htail'⟩ := breaksOff_iff.1 h'
  rw [← String.toList_inj]
  exact front_unique hcs hcs' htail htail' (hraw.symm.trans hraw')

/-- A body has no value exactly when it breaks off somewhere, and it breaks off
in one place only. -/
theorem decode_eq_error_iff_breaksOff_once (raw : String) :
    (decode raw = .error .invalid ↔ ∃ front tail, BreaksOff raw front tail) ∧
    (decode raw = .error .invalid → ∃! front, ∃ tail, BreaksOff raw front tail) := by
  refine ⟨⟨exists_breaksOff_of_error, ?_⟩, ?_⟩
  · intro ⟨front, tail, h⟩
    exact h.decode_eq_error
  · intro h
    obtain ⟨front, tail, hbreaks⟩ := exists_breaksOff_of_error h
    refine ⟨front, ⟨tail, hbreaks⟩, ?_⟩
    intro front' ⟨tail', hbreaks'⟩
    exact hbreaks'.front_eq hbreaks

/-- Two leading surrogates behind a pair: the first of the two is the place, and
so the second is none, nor the unknown escape at the end. -/
theorem breaksOff_once_at_first_leading :
    decode "\\uD83C\\uDF7A\\uD83D\\uD83D\\z" = .error .invalid ∧
    BreaksOff "\\uD83C\\uDF7A\\uD83D\\uD83D\\z" "\\uD83C\\uDF7A" "uD83D\\uD83D\\z" ∧
    ∃! front, ∃ tail, BreaksOff "\\uD83C\\uDF7A\\uD83D\\uD83D\\z" front tail := by
  obtain ⟨-, honce⟩ := decode_eq_error_iff_breaksOff_once "\\uD83C\\uDF7A\\uD83D\\uD83D\\z"
  have herror : decode "\\uD83C\\uDF7A\\uD83D\\uD83D\\z" = .error .invalid := by cbv
  have hplace : BreaksOff "\\uD83C\\uDF7A\\uD83D\\uD83D\\z" "\\uD83C\\uDF7A" "uD83D\\uD83D\\z" :=
    ⟨rfl, ⟨"🍺", by cbv⟩, Escape.readMeaning_eq_error_iff_badTail.1 rfl⟩
  exact ⟨herror, hplace, honce herror⟩

end Body

/-!
## Bodies that can go on

A body is the beginning of one with a value exactly when it has a value up to
some place and from there on holds the beginning of an escape, or nothing
(`exists_chars?_append_iff`). Where a body breaks off, it does so in one place, so
what stands there decides: an escape that ended too early can be finished, and
after any other failure nothing helps (`exists_chars?_append_iff_of_badTail`).
-/

/-- The reader fails at the beginning of an escape: what it could take there would
be the whole escape. -/
theorem Unfinished.readMeaning_eq_error {tail : List Char} (h : Unfinished ('\\' :: tail)) :
    Escape.readMeaning tail = .error .invalid := by
  obtain ⟨p, hp, -, ⟨more, hmore⟩, hne⟩ := h
  cases hread : Escape.readMeaning tail with
  | error e => rfl
  | ok r =>
    obtain ⟨c, rest⟩ := r
    obtain ⟨w, hw, rfl⟩ := Escape.readMeaning_eq_ok_iff.1 hread
    have hfront : '\\' :: w ++ (rest ++ more) = p.written ++ [] := by
      rw [← hmore]
      simp
    obtain ⟨rfl, hnil⟩ := hw.eq_of_append_eq hp hfront
    obtain ⟨rfl, -⟩ := List.append_eq_nil_iff.1 hnil
    exact absurd (by simp) hne

namespace Body

/-- The pieces of a longer body cut the body itself behind a piece, or inside an
escape. -/
theorem exists_front_of_division {raw behind : List Char} {ps : List Piece}
    (h : Division (raw ++ behind) ps) :
    ∃ front rest, raw = front ++ rest ∧ (∃ cs, chars? front = some cs) ∧
      (rest = [] ∨ Unfinished rest) := by
  generalize hlonger : raw ++ behind = longer at h
  induction h using Division.along generalizing raw with
  | nil =>
    obtain ⟨rfl, -⟩ := List.append_eq_nil_iff.1 hlonger
    exact ⟨[], [], rfl, ⟨[], chars?_nil⟩, .inl rfl⟩
  | cons p others ps hp _ ih =>
    rcases List.append_eq_append_iff.1 hlonger with ⟨v, hv, -⟩ | ⟨v, rfl, hv⟩
    · -- The body ends in the first piece.
      by_cases hwhole : raw = p.written
      · have hchars : chars? (p.written ++ []) = some [p.char] := by
          rw [chars?_append_of_valid hp, chars?_nil]
          rfl
        rw [List.append_nil, ← hwhole] at hchars
        exact ⟨raw, [], (List.append_nil raw).symm, ⟨_, hchars⟩, .inl rfl⟩
      · refine ⟨[], raw, rfl, ⟨[], chars?_nil⟩, ?_⟩
        cases hescape : p.isEscape with
        | true => exact .inr ⟨p, hp, hescape, ⟨v, hv.symm⟩, hwhole⟩
        | false =>
          -- There is no beginning of a plain character.
          obtain ⟨c, -, rfl⟩ := hp.eq_of_isEscape_eq_false hescape
          rcases List.append_eq_singleton_iff.1 hv.symm with hnil | hfull
          · exact .inl hnil.1
          · exact absurd hfull.1 hwhole
    · obtain ⟨front, rest, rfl, ⟨cs, hcs⟩, hrest⟩ := ih hv.symm
      refine ⟨p.written ++ front, rest, (List.append_assoc _ _ _).symm, ⟨p.char :: cs, ?_⟩, hrest⟩
      rw [chars?_append_of_valid hp, hcs]
      rfl

/-- What is missing of the escape gives a value to the whole. -/
theorem exists_chars?_append {front rest cs : List Char} (hfront : chars? front = some cs)
    (hrest : rest = [] ∨ Unfinished rest) :
    ∃ behind cs', chars? (front ++ rest ++ behind) = some cs' := by
  rcases hrest with rfl | ⟨p, hp, -, ⟨behind, hbehind⟩, -⟩
  · exact ⟨[], cs, by simpa using hfront⟩
  · refine ⟨behind, cs ++ [p.char], ?_⟩
    rw [List.append_assoc, hbehind, chars?_append_of_eq_some hfront, ← List.append_nil p.written,
      chars?_append_of_valid hp, chars?_nil]
    rfl

theorem exists_chars?_append_iff {raw : List Char} :
    (∃ behind cs, chars? (raw ++ behind) = some cs) ↔
      ∃ front rest, raw = front ++ rest ∧ (∃ cs, chars? front = some cs) ∧
        (rest = [] ∨ Unfinished rest) := by
  refine ⟨?_, ?_⟩
  · intro ⟨behind, cs, hcs⟩
    obtain ⟨ps, hps⟩ := exists_division_of_chars? hcs
    exact exists_front_of_division hps
  · intro ⟨front, rest, hraw, ⟨cs, hcs⟩, hrest⟩
    rw [hraw]
    exact exists_chars?_append hcs hrest

/-- A body that breaks off can go on exactly if it ends inside the escape at which
it breaks off. -/
theorem exists_chars?_append_iff_of_badTail {front tail cs : List Char}
    (hfront : chars? front = some cs) (htail : BadTail tail) :
    (∃ behind cs', chars? (front ++ '\\' :: tail ++ behind) = some cs') ↔ CutOff tail := by
  rw [← unfinished_cons_iff_cutOff]
  refine ⟨?_, fun h => exists_chars?_append hfront (.inr h)⟩
  intro h
  obtain ⟨front', rest, hraw, ⟨cs', hcs'⟩, hrest⟩ := exists_chars?_append_iff.1 h
  have hnone : chars? (front ++ '\\' :: tail) = none := by
    rw [chars?_append_of_eq_some hfront,
      chars?_backslash_of_error (Escape.readMeaning_of_badTail htail)]
    rfl
  rcases hrest with rfl | hrest
  · rw [hraw, List.append_nil, hcs'] at hnone
    exact absurd hnone (by simp)
  rcases hrest.eq_nil_or_eq_cons with rfl | ⟨tail', rfl⟩
  · rw [hraw, List.append_nil, hcs'] at hnone
    exact absurd hnone (by simp)
  -- Both are places where the body breaks off, and there is only one.
  have htail' := Escape.badTail_of_readMeaning_eq_error hrest.readMeaning_eq_error
  obtain rfl := front_unique hfront hcs' htail htail' hraw
  rwa [List.append_cancel_left hraw]

/-! ### The body as a text -/

/-- Some body with a value begins with `raw`. -/
def GoesOn (raw : String) : Prop := ∃ behind s, decode (raw ++ behind) = .ok s

theorem goesOn_iff_chars? {raw : String} :
    GoesOn raw ↔ ∃ behind cs, chars? (raw.toList ++ behind) = some cs := by
  refine ⟨?_, ?_⟩
  · intro ⟨behind, s, hs⟩
    rw [decode_eq_ok_iff_chars?, String.toList_append] at hs
    exact ⟨_, _, hs⟩
  · intro ⟨behind, cs, hcs⟩
    refine ⟨String.ofList behind, String.ofList cs, ?_⟩
    rw [decode_eq_ok_iff_chars?, String.toList_append, String.toList_ofList, String.toList_ofList]
    exact hcs

/-- A body can go on to one with a value exactly if it has a value up to an
escape that ended too early, or as a whole. Any other failure is for good: where a
body breaks off, either what stands there is the beginning of an escape, and then
the list of these tells so, or the body has no value with anything behind it. -/
theorem goesOn_iff_unfinished_and_fails_for_good (raw : String) :
    (GoesOn raw ↔ ∃ front rest, raw = front ++ rest ∧ (∃ s, decode front = .ok s) ∧
      (rest = "" ∨ Unfinished rest.toList)) ∧
    ∀ front tail, BreaksOff raw front tail →
      (Unfinished ('\\' :: tail.toList) ↔ CutOff tail.toList) ∧
      (CutOff tail.toList → GoesOn raw) ∧
      (¬ CutOff tail.toList → ∀ behind, decode (raw ++ behind) = .error .invalid) := by
  refine ⟨?_, ?_⟩
  · rw [goesOn_iff_chars?, exists_chars?_append_iff]
    refine ⟨?_, ?_⟩
    · intro ⟨front, rest, hraw, ⟨cs, hcs⟩, hrest⟩
      refine ⟨String.ofList front, String.ofList rest, ?_, exists_decode_eq_ok_iff.2 ⟨cs, ?_⟩, ?_⟩
      · rw [← String.toList_inj, hraw]
        simp
      · rwa [String.toList_ofList]
      · rwa [String.toList_ofList, ← String.toList_inj, String.toList_ofList]
    · intro ⟨front, rest, hraw, hfront, hrest⟩
      rw [← String.toList_inj] at hrest
      refine ⟨front.toList, rest.toList, ?_, exists_decode_eq_ok_iff.1 hfront, hrest⟩
      rw [hraw, String.toList_append]
  · intro front tail hbreaks
    obtain ⟨hraw, ⟨cs, hcs⟩, htail⟩ := breaksOff_iff.1 hbreaks
    have hgoesOn : GoesOn raw ↔ CutOff tail.toList := by
      rw [goesOn_iff_chars?, hraw]
      exact exists_chars?_append_iff_of_badTail hcs htail
    refine ⟨unfinished_cons_iff_cutOff, hgoesOn.2, ?_⟩
    intro hcut behind
    cases hd : decode (raw ++ behind) with
    | ok s => exact absurd (hgoesOn.1 ⟨behind, s, hd⟩) hcut
    | error e =>
      cases e
      rfl

/-- A partner that lacks its last digits, and four digits that lack two but can
only become a trailing surrogate. -/
theorem goesOn_inside_partner_and_not_inside_trailing :
    BreaksOff "x\\uD83D\\u\x7b0dE" "x" "uD83D\\u\x7b0dE" ∧
      GoesOn "x\\uD83D\\u\x7b0dE" ∧ decode ("x\\uD83D\\u\x7b0dE" ++ "00\x7d") = .ok "x😀" ∧
    BreaksOff "x\\uDc" "x" "uDc" ∧ ∀ behind, decode ("x\\uDc" ++ behind) = .error .invalid := by
  have hx : ∃ s, decode "x" = .ok s := ⟨"x", by cbv⟩
  have hpartner : BreaksOff "x\\uD83D\\u\x7b0dE" "x" "uD83D\\u\x7b0dE" :=
    ⟨rfl, hx, Escape.readMeaning_eq_error_iff_badTail.1 rfl⟩
  have htrailing : BreaksOff "x\\uDc" "x" "uDc" :=
    ⟨rfl, hx, Escape.readMeaning_eq_error_iff_badTail.1 rfl⟩
  obtain ⟨-, hfirst⟩ := goesOn_iff_unfinished_and_fails_for_good "x\\uD83D\\u\x7b0dE"
  obtain ⟨-, hsecond⟩ := goesOn_iff_unfinished_and_fails_for_good "x\\uDc"
  refine ⟨hpartner, (hfirst _ _ hpartner).2.1 ?_, by cbv, htrailing,
    (hsecond _ _ htrailing).2.2 ?_⟩
  · have hlead : UnicodeEscape.Spelled ⟨.fixed, 0xD83D⟩ ['u', 'D', '8', '3', 'D'] :=
      UnicodeEscape.spelled_of_read (by cbv)
    have hdigits : ∀ c ∈ ['0', 'd', 'E'], Hex.IsDigit c := by
      simp only [List.forall_mem_cons]
      exact ⟨by decide, by decide, by decide, by simp⟩
    have hrest : PartnerCutOff ['\\', 'u', '{', '0', 'd', 'E'] :=
      @PartnerCutOff.braced _ 2 hdigits ⟨by decide, by decide⟩
    exact CutOff.leading hlead (by decide) hrest
  · intro hcut
    generalize htail : "uDc".toList = tail at hcut
    cases hcut with
    | nothing => exact absurd htail (by decide)
    | fixed _ _ hfilled =>
      obtain rfl : ['D', 'c'] = _ := (List.cons.inj htail).2
      exact hfilled (by decide)
    | braced _ _ => exact absurd (List.cons.inj (List.cons.inj htail).2).1 (by decide)
    | leading hw _ _ =>
      have hlen := congrArg List.length htail
      have hfour := hw.four_le_length
      rw [List.length_append] at hlen
      simp at hlen
      omega

end Body

end GraphqlLiteral
