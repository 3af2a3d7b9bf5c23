import GraphqlLiteral.Body
import GraphqlLiteral.Proofs.Escape.Meaning
import Mathlib

/-!
# A body is a row of pieces

`Body.decode` accepts a body exactly when it can be cut into pieces, and gives back
the characters that the pieces write. There is never more than one way to cut, and no
piece reaches from one body into the next.
-/

namespace GraphqlLiteral

/-!
## The characters of a body

`Body.chars?` is the value of a body as a row of characters. The loop of
`Body.decode` is opened here and nowhere else: a run is followed character by
character, then piece by piece (`chars?_append_of_valid`), and what is said
about `chars?` later on uses no more than that.
-/

/-! ### The loop, character by character -/

namespace Decoding

theorem run_of_finished {d : Decoding} {text : String} (h : d.step = .ok (.finished text)) :
    d.run = .ok text := by
  rw [run]
  split <;> simp_all

theorem run_of_going {d next : Decoding} (h : d.step = .ok (.going next)) :
    d.run = next.run := by
  rw [run]
  split <;> simp_all

theorem run_of_error {d : Decoding} {e : EscapeError} (h : d.step = .error e) :
    d.run = .error e := by
  rw [run]
  split <;> simp_all

theorem run_nil (written : String) : run ⟨written, []⟩ = .ok written := by
  apply run_of_finished
  simp [step]

/-- A plain character may as well be copied by itself. -/
theorem run_cons_plain {c : Char} (hc : c ≠ '\\') (written : String) (cs : List Char) :
    run ⟨written, c :: cs⟩ = run ⟨written.push c, cs⟩ := by
  have hplain : isPlain c = true := by simpa [isPlain] using hc
  have hcopy : written ++ String.ofList (c :: cs.takeWhile isPlain) =
      written.push c ++ String.ofList (cs.takeWhile isPlain) := by
    rw [← String.toList_inj]
    simp
  have hstep : step ⟨written, c :: cs⟩ = step ⟨written.push c, cs⟩ := by
    simp only [step, List.takeWhile_cons, List.dropWhile_cons, hplain, if_true, hcopy]
  rw [run, run, hstep]

theorem run_backslash_of_ok {c : Char} {behind rest : List Char}
    (h : Escape.readMeaning behind = .ok (c, rest)) (written : String) :
    run ⟨written, '\\' :: behind⟩ = run ⟨written.push c, rest⟩ := by
  apply run_of_going
  simp [step, isPlain, h]

theorem run_backslash_of_error {e : EscapeError} {behind : List Char}
    (h : Escape.readMeaning behind = .error e) (written : String) :
    run ⟨written, '\\' :: behind⟩ = .error e := by
  apply run_of_error
  simp [step, isPlain, h]

end Decoding

/-! ### The loop, piece by piece -/

/-- A piece is one plain character, or it begins with a backslash. -/
theorem Piece.Valid.plain_or_escape {p : Piece} (hp : p.Valid) :
    (∃ c, c ≠ '\\' ∧ p = ⟨[c], c⟩) ∨ ∃ w, p.written = '\\' :: w := by
  cases hp with
  | plain hc => exact .inl ⟨_, hc, rfl⟩
  | simple => exact .inr ⟨_, rfl⟩
  | scalar => exact .inr ⟨_, rfl⟩
  | pair => exact .inr ⟨_, rfl⟩

theorem Piece.isEscape_plain {c : Char} (hc : c ≠ '\\') (m : Char) :
    isEscape ⟨[c], m⟩ = false := by
  simpa [isEscape] using hc

/-- A valid piece that is no escape is one plain character. -/
theorem Piece.Valid.eq_of_isEscape_eq_false {p : Piece} (hp : p.Valid)
    (hescape : p.isEscape = false) : ∃ c, c ≠ '\\' ∧ p = ⟨[c], c⟩ := by
  rcases hp.plain_or_escape with hplain | ⟨w, hw⟩
  · exact hplain
  · rw [isEscape, hw] at hescape
    exact absurd hescape (by simp)

namespace Body

/-- The value of a body as a row of characters. -/
def chars? (raw : List Char) : Option (List Char) :=
  (decode (String.ofList raw)).toOption.map String.toList

theorem chars?_eq_run (raw : List Char) :
    chars? raw = (Decoding.run ⟨"", raw⟩).toOption.map String.toList := by
  rw [chars?, decode, String.toList_ofList]

/-- What a run makes of the unread text does not depend on the text before. -/
theorem toOption_run (written : String) (raw : List Char) :
    (Decoding.run ⟨written, raw⟩).toOption.map String.toList =
      (chars? raw).map (written.toList ++ ·) := by
  induction hlen : raw.length using Nat.strong_induction_on generalizing written raw with
  | _ n ih =>
    rw [chars?_eq_run]
    cases raw with
    | nil => simp [Decoding.run_nil, Except.toOption]
    | cons c cs =>
      subst hlen
      -- Both runs go on with the same text, so the shorter text decides.
      by_cases hc : c = '\\'
      · subst hc
        cases hread : Escape.readMeaning cs with
        | error e => simp [Decoding.run_backslash_of_error hread, Except.toOption]
        | ok r =>
          obtain ⟨m, rest⟩ := r
          have hlt : rest.length < ('\\' :: cs).length :=
            Nat.lt_succ_of_lt (Escape.length_readMeaning_lt hread)
          rw [Decoding.run_backslash_of_ok hread, Decoding.run_backslash_of_ok hread,
            ih _ hlt _ rest rfl, ih _ hlt _ rest rfl]
          simp [Function.comp_def]
      · have hlt : cs.length < (c :: cs).length := Nat.lt_succ_self _
        rw [Decoding.run_cons_plain hc, Decoding.run_cons_plain hc,
          ih _ hlt _ cs rfl, ih _ hlt _ cs rfl]
        simp [Function.comp_def]

@[simp] theorem chars?_nil : chars? [] = some [] := by
  rw [chars?_eq_run, Decoding.run_nil]
  rfl

theorem chars?_backslash_of_ok {c : Char} {behind rest : List Char}
    (h : Escape.readMeaning behind = .ok (c, rest)) :
    chars? ('\\' :: behind) = (chars? rest).map (c :: ·) := by
  rw [chars?_eq_run, Decoding.run_backslash_of_ok h, toOption_run]
  simp

theorem chars?_backslash_of_error {e : EscapeError} {behind : List Char}
    (h : Escape.readMeaning behind = .error e) : chars? ('\\' :: behind) = none := by
  rw [chars?_eq_run, Decoding.run_backslash_of_error h]
  rfl

theorem chars?_cons_plain {c : Char} (hc : c ≠ '\\') (raw : List Char) :
    chars? (c :: raw) = (chars? raw).map (c :: ·) := by
  rw [chars?_eq_run, Decoding.run_cons_plain hc, toOption_run]
  simp

/-- A piece at the front adds its character, whatever comes behind it. -/
theorem chars?_append_of_valid {p : Piece} (hp : p.Valid) (rest : List Char) :
    chars? (p.written ++ rest) = (chars? rest).map (p.char :: ·) := by
  obtain ⟨written, m⟩ := p
  rcases hp.plain_or_escape with ⟨c, hc, heq⟩ | ⟨w, rfl⟩
  · rw [heq]
    exact chars?_cons_plain hc rest
  · exact chars?_backslash_of_ok (Escape.readMeaning_eq_ok_iff.2 ⟨w, hp, rfl⟩)

/-- At the front of a body stands a piece, unless there is nothing at all or a
backslash behind which the reader fails. -/
theorem piece_or_error (raw : List Char) :
    raw = [] ∨ (∃ (p : Piece) (rest : List Char), p.Valid ∧ raw = p.written ++ rest) ∨
      ∃ behind e, raw = '\\' :: behind ∧ Escape.readMeaning behind = .error e := by
  cases raw with
  | nil => exact .inl rfl
  | cons c behind =>
    refine .inr ?_
    by_cases hc : c = '\\'
    · subst hc
      cases hread : Escape.readMeaning behind with
      | error e => exact .inr ⟨behind, e, rfl, hread⟩
      | ok r =>
        obtain ⟨m, rest⟩ := r
        obtain ⟨w, hw, rfl⟩ := Escape.readMeaning_eq_ok_iff.1 hread
        exact .inl ⟨⟨'\\' :: w, m⟩, rest, hw, rfl⟩
    · exact .inl ⟨⟨[c], c⟩, behind, .plain hc, rfl⟩

/-- A body with a value has a piece at its front, if there is anything at all. -/
theorem exists_piece_of_chars? {raw cs : List Char} (h : chars? raw = some cs) (hne : raw ≠ []) :
    ∃ (p : Piece) (rest : List Char), p.Valid ∧ raw = p.written ++ rest := by
  rcases piece_or_error raw with hnil | hpiece | ⟨behind, e, rfl, hread⟩
  · exact absurd hnil hne
  · exact hpiece
  · rw [chars?_backslash_of_error hread] at h
    exact absurd h (by simp)

/-! ### The value of a text -/

theorem decode_eq_ok_iff_chars? {raw s : String} :
    decode raw = .ok s ↔ chars? raw.toList = some s.toList := by
  rw [chars?, String.ofList_toList]
  cases decode raw with
  | error e => simp [Except.toOption]
  | ok t => simp [Except.toOption, String.toList_inj]

theorem exists_decode_eq_ok_iff {raw : String} :
    (∃ s, decode raw = .ok s) ↔ ∃ cs, chars? raw.toList = some cs := by
  refine ⟨?_, ?_⟩
  · intro ⟨s, hs⟩
    exact ⟨s.toList, decode_eq_ok_iff_chars?.1 hs⟩
  · intro ⟨cs, hcs⟩
    exact ⟨String.ofList cs, decode_eq_ok_iff_chars?.2 (by rwa [String.toList_ofList])⟩

theorem decode_eq_error_iff_chars? {raw : String} {e : EscapeError} :
    decode raw = .error e ↔ chars? raw.toList = none := by
  rw [chars?, String.ofList_toList]
  cases decode raw with
  | error e' => cases e; cases e'; simp [Except.toOption]
  | ok t => simp [Except.toOption]

/-- A result is known by its characters, since there is one error only. -/
theorem result_ext {x y : Except EscapeError String}
    (h : x.toOption.map String.toList = y.toOption.map String.toList) : x = y := by
  cases x with
  | error e =>
    cases y with
    | error e' => cases e; cases e'; rfl
    | ok t => simp [Except.toOption] at h
  | ok s =>
    cases y with
    | error e' => simp [Except.toOption] at h
    | ok t =>
      have hst : s = t := by simpa [Except.toOption, String.toList_inj] using h
      rw [hst]

/-- The body has no value. -/
def isRefused (raw : String) : Bool :=
  match decode raw with
  | .ok _ => false
  | .error _ => true

theorem isRefused_iff {raw : String} : isRefused raw = true ↔ decode raw = .error .invalid := by
  rw [isRefused]
  cases decode raw with
  | ok s => simp
  | error e => cases e; simp

theorem isRefused_eq_false_iff {raw : String} :
    isRefused raw = false ↔ ∃ s, decode raw = .ok s := by
  rw [isRefused]
  cases decode raw with
  | ok s => simp
  | error e => simp

end Body

/-!
## Divisions

No piece begins another one, because the reader cannot take two different pieces at
one place. So a body has one division at most.
-/

/-- Two pieces at the front of one text are the same piece. -/
theorem Piece.Valid.eq_of_append_eq {p q : Piece} {rest rest' : List Char} (hp : p.Valid)
    (hq : q.Valid) (h : p.written ++ rest = q.written ++ rest') : p = q ∧ rest = rest' := by
  obtain ⟨w, c⟩ := p
  obtain ⟨w', c'⟩ := q
  rcases hp.plain_or_escape with ⟨d, hd, hpd⟩ | ⟨v, rfl⟩
  · rcases hq.plain_or_escape with ⟨d', -, hqd⟩ | ⟨v', rfl⟩
    · rw [hpd, hqd] at h
      obtain ⟨rfl, rfl⟩ := List.cons.inj h
      exact ⟨hpd.trans hqd.symm, rfl⟩
    · rw [hpd] at h
      exact absurd (List.cons.inj h).1 hd
  · rcases hq.plain_or_escape with ⟨d', hd', hqd⟩ | ⟨v', rfl⟩
    · rw [hqd] at h
      exact absurd (List.cons.inj h).1.symm hd'
    · -- Behind a backslash both pieces are what the reader takes there.
      have hread : Escape.readMeaning (v ++ rest) = .ok (c, rest) :=
        Escape.readMeaning_eq_ok_iff.2 ⟨v, hp, rfl⟩
      have hread' : Escape.readMeaning (v' ++ rest') = .ok (c', rest') :=
        Escape.readMeaning_eq_ok_iff.2 ⟨v', hq, rfl⟩
      have hbehind : v ++ rest = v' ++ rest' := (List.cons.inj h).2
      rw [hbehind, hread'] at hread
      simp only [Except.ok.injEq, Prod.mk.injEq] at hread
      obtain ⟨rfl, rfl⟩ := hread
      rw [List.append_cancel_right hbehind]
      exact ⟨rfl, rfl⟩

/-- A piece takes at least one character. -/
theorem Piece.Valid.written_ne_nil {p : Piece} (hp : p.Valid) : p.written ≠ [] := by
  rcases hp.plain_or_escape with ⟨c, -, rfl⟩ | ⟨w, hw⟩
  · exact List.cons_ne_nil _ _
  · rw [hw]
    exact List.cons_ne_nil _ _

/-- To go along a body piece by piece: to its end, or to a backslash behind which
the reader fails. -/
@[elab_as_elim]
theorem Body.piece_induction {motive : List Char → Prop} (nil : motive [])
    (piece : ∀ (p : Piece) (rest : List Char), p.Valid → motive rest →
      motive (p.written ++ rest))
    (error : ∀ behind e, Escape.readMeaning behind = .error e → motive ('\\' :: behind))
    (raw : List Char) : motive raw := by
  -- Each piece leaves less to go along, since none of them is empty.
  induction hlen : raw.length using Nat.strong_induction_on generalizing raw with
  | _ n ih =>
    subst hlen
    rcases Body.piece_or_error raw with rfl | ⟨p, rest, hp, rfl⟩ | ⟨behind, e, rfl, hread⟩
    · exact nil
    · have hpos := List.length_pos_iff.2 hp.written_ne_nil
      have hlt : rest.length < (p.written ++ rest).length := by
        rw [List.length_append]
        omega
      exact piece p rest hp (ih rest.length hlt rest rfl)
    · exact error behind e hread

namespace Division

theorem nil : Division [] [] := ⟨by simp, rfl⟩

theorem cons {p : Piece} {raw : List Char} {ps : List Piece} (hp : p.Valid)
    (h : Division raw ps) : Division (p.written ++ raw) (p :: ps) := by
  refine ⟨List.forall_mem_cons.2 ⟨hp, h.valid⟩, ?_⟩
  rw [List.flatMap_cons, h.written]

theorem append {x y : List Char} {ps qs : List Piece} (hp : Division x ps)
    (hq : Division y qs) : Division (x ++ y) (ps ++ qs) := by
  refine ⟨?_, ?_⟩
  · intro p hmem
    rcases List.mem_append.1 hmem with hmem | hmem
    · exact hp.valid p hmem
    · exact hq.valid p hmem
  · rw [List.flatMap_append, hp.written, hq.written]

/-- The pieces of a body that begins with a piece. -/
theorem exists_of_cons {p : Piece} {raw : List Char} {ps : List Piece}
    (h : Division raw (p :: ps)) :
    ∃ rest, p.Valid ∧ Division rest ps ∧ raw = p.written ++ rest := by
  obtain ⟨hp, hps⟩ := List.forall_mem_cons.1 h.valid
  exact ⟨ps.flatMap Piece.written, hp, ⟨hps, rfl⟩, h.written.symm⟩

/-- To go along the pieces of a body. -/
@[elab_as_elim]
theorem along {motive : (raw : List Char) → (ps : List Piece) → Division raw ps → Prop}
    (nil : motive [] [] .nil)
    (cons : ∀ (p : Piece) (rest : List Char) (ps : List Piece) (hp : p.Valid)
      (hrest : Division rest ps), motive rest ps hrest →
      motive (p.written ++ rest) (p :: ps) (hrest.cons hp))
    {raw : List Char} {ps : List Piece} (h : Division raw ps) : motive raw ps h := by
  induction ps generalizing raw with
  | nil =>
    obtain rfl : raw = [] := h.written.symm
    exact nil
  | cons p ps ih =>
    obtain ⟨rest, hp, hrest, rfl⟩ := h.exists_of_cons
    exact cons p rest ps hp hrest (ih hrest)

theorem eq_nil {ps : List Piece} (h : Division [] ps) : ps = [] := by
  cases ps with
  | nil => rfl
  | cons p ps =>
    obtain ⟨rest, hp, -, hraw⟩ := h.exists_of_cons
    exact absurd (List.append_eq_nil_iff.1 hraw.symm).1 hp.written_ne_nil

/-- A body can be cut into pieces in one way only. -/
theorem unique {raw : List Char} {ps qs : List Piece} (hp : Division raw ps)
    (hq : Division raw qs) : ps = qs := by
  induction ps generalizing raw qs with
  | nil =>
    obtain rfl : raw = [] := hp.written.symm
    exact hq.eq_nil.symm
  | cons p ps ih =>
    obtain ⟨rest, hpv, hrest, rfl⟩ := hp.exists_of_cons
    cases qs with
    | nil =>
      have hnil : p.written ++ rest = [] := hq.written.symm
      exact absurd (List.append_eq_nil_iff.1 hnil).1 hpv.written_ne_nil
    | cons q qs =>
      obtain ⟨rest', hqv, hrest', hraw⟩ := hq.exists_of_cons
      obtain ⟨rfl, rfl⟩ := hpv.eq_of_append_eq hqv hraw
      rw [ih hrest hrest']

end Division

namespace Body

/-- The characters of a body are those of its pieces. -/
theorem chars?_of_division {raw : List Char} {ps : List Piece} (h : Division raw ps) :
    chars? raw = some (ps.map Piece.char) := by
  induction h using Division.along with
  | nil => exact chars?_nil
  | cons p rest ps hp _ ih =>
    rw [chars?_append_of_valid hp, ih]
    rfl

/-- A body with a value can be cut into pieces. -/
theorem exists_division_of_chars? {raw cs : List Char} (h : chars? raw = some cs) :
    ∃ ps, Division raw ps := by
  induction raw using piece_induction generalizing cs with
  | nil => exact ⟨[], .nil⟩
  | piece p rest hp ih =>
    rw [chars?_append_of_valid hp, Option.map_eq_some_iff] at h
    obtain ⟨cs', hcs', -⟩ := h
    obtain ⟨ps, hps⟩ := ih hcs'
    exact ⟨p :: ps, hps.cons hp⟩
  | error behind e hread =>
    rw [chars?_backslash_of_error hread] at h
    exact absurd h (by simp)

theorem chars?_eq_some_iff {raw cs : List Char} :
    chars? raw = some cs ↔ ∃ ps, Division raw ps ∧ ps.map Piece.char = cs := by
  refine ⟨?_, ?_⟩
  · intro h
    obtain ⟨ps, hps⟩ := exists_division_of_chars? h
    rw [chars?_of_division hps, Option.some.injEq] at h
    exact ⟨ps, hps, h⟩
  · intro ⟨ps, hps, hcs⟩
    rw [← hcs]
    exact chars?_of_division hps

/-- The decoder is the grammar: a body has the value `s` exactly when it is a
row of pieces that write the characters of `s` in order, and there is at most
one such row. -/
theorem decode_eq_ok_iff_division_and_unique (raw s : String) :
    (decode raw = .ok s ↔
      ∃ ps, Division raw.toList ps ∧ ps.map Piece.char = s.toList) ∧
    ∀ ps qs, Division raw.toList ps → Division raw.toList qs → ps = qs := by
  refine ⟨?_, fun ps qs hp hq => hp.unique hq⟩
  rw [decode_eq_ok_iff_chars?, chars?_eq_some_iff]

/-!
## A body behind another one

Where a body has a value, decoding can begin anew behind it: the value of the
whole is the value of the front and then that of the rest, and a rest without a
value spoils the whole (`decode_append_of_decode_eq_ok`). Digits, a brace or a
surrogate at the beginning of the rest never join the last escape of the front.
-/

/-- Pieces at the front add their characters, whatever comes behind them. -/
theorem chars?_append_of_division {raw : List Char} {ps : List Piece} (h : Division raw ps)
    (rest : List Char) : chars? (raw ++ rest) = (chars? rest).map (ps.map Piece.char ++ ·) := by
  induction h using Division.along with
  | nil => simp
  | cons p behind ps hp _ ih =>
    rw [List.append_assoc, chars?_append_of_valid hp, ih, Option.map_map]
    rfl

/-- A front with a value adds that value to whatever comes behind it. -/
theorem chars?_append_of_eq_some {front cs : List Char} (h : chars? front = some cs)
    (rest : List Char) : chars? (front ++ rest) = (chars? rest).map (cs ++ ·) := by
  obtain ⟨ps, hps, rfl⟩ := chars?_eq_some_iff.1 h
  exact chars?_append_of_division hps rest

/-- What stands behind a front with a value is decoded as if it stood alone: its
value comes behind that of the front, and its failure is that of the whole. So
nothing but the value of the front counts, however its escapes are written and
wherever they end. -/
theorem decode_append_of_decode_eq_ok {a x : String} (ha : decode a = .ok x) (b : String) :
    (∀ y, decode b = .ok y → decode (a ++ b) = .ok (x ++ y)) ∧
    (∀ e, decode b = .error e → decode (a ++ b) = .error e) ∧
    ∀ a', decode a' = .ok x → decode (a' ++ b) = decode (a ++ b) := by
  have hfront : ∀ a', decode a' = .ok x →
      chars? (a' ++ b).toList = (chars? b.toList).map (x.toList ++ ·) := by
    intro a' ha'
    rw [String.toList_append]
    exact chars?_append_of_eq_some (decode_eq_ok_iff_chars?.1 ha') b.toList
  refine ⟨?_, ?_, ?_⟩
  · intro y hb
    rw [decode_eq_ok_iff_chars?, hfront a ha, decode_eq_ok_iff_chars?.1 hb, String.toList_append]
    rfl
  · intro e hb
    rw [decode_eq_error_iff_chars?, hfront a ha, decode_eq_error_iff_chars?.1 hb]
    rfl
  · intro a' ha'
    apply result_ext
    have hsame : chars? (a' ++ b).toList = chars? (a ++ b).toList :=
      (hfront a' ha').trans (hfront a ha).symm
    rwa [chars?, chars?, String.ofList_toList, String.ofList_toList] at hsame

/-- Behind a pair, braces are text and a trailing surrogate stays alone. -/
theorem decode_append_behind_pair :
    decode "\\uD83C\\uDF7A" = .ok "🍺" ∧
    decode ("\\uD83C\\uDF7A" ++ "\x7b41\x7d\\n") = .ok ("🍺" ++ "\x7b41\x7d\n") ∧
    decode ("\\uD83C\\uDF7A" ++ "\\uDF7A") = .error .invalid := by
  have hpair : decode "\\uD83C\\uDF7A" = .ok "🍺" := by cbv
  refine ⟨hpair, ?_, ?_⟩
  · obtain ⟨hok, -, -⟩ := decode_append_of_decode_eq_ok hpair "\x7b41\x7d\\n"
    exact hok _ (by cbv)
  · obtain ⟨-, herror, -⟩ := decode_append_of_decode_eq_ok hpair "\\uDF7A"
    exact herror _ (by cbv)

end Body

end GraphqlLiteral
