import GraphqlLiteral.Token
import GraphqlLiteral.Proofs.Body.Division
import GraphqlLiteral.Proofs.Problem
import Mathlib

/-!
# Bodies in a source

The value of a body in a source is a matter of its content. Where it stands decides
what is told of it if it has none, and a run over several bodies adds up.
-/

namespace GraphqlLiteral

/-!
## The value of a body in a source

What `LocatedBody.value` gives and what it adds to the log, told from
`Body.decode` alone. A body that needs no decoding is never refused, and only
the empty body decodes to the empty text (`decode_eq_ok_empty_iff`), so the empty
value of a refused body is no other body's value.
-/

namespace Body

/-! ### Decoding that changes nothing, or leaves nothing -/

/-- A body without a backslash is its own value. -/
theorem chars?_of_not_mem {raw : List Char} (h : '\\' ∉ raw) : chars? raw = some raw := by
  induction raw with
  | nil => exact chars?_nil
  | cons c raw ih =>
    rw [List.mem_cons, not_or] at h
    rw [chars?_cons_plain (Ne.symm h.1), ih h.2]
    rfl

/-- Every piece writes a character, so only the empty body has an empty value. -/
theorem chars?_eq_some_nil_iff {raw : List Char} : chars? raw = some [] ↔ raw = [] := by
  refine ⟨?_, ?_⟩
  · intro h
    obtain ⟨ps, hps, hnil⟩ := chars?_eq_some_iff.1 h
    obtain rfl : ps = [] := List.map_eq_nil_iff.1 hnil
    exact hps.written.symm
  · intro h
    rw [h]
    exact chars?_nil

theorem decode_eq_ok_empty_iff {raw : String} : decode raw = .ok "" ↔ raw = "" := by
  rw [decode_eq_ok_iff_chars?, ← String.toList_inj]
  exact chars?_eq_some_nil_iff

theorem hasEscape_iff {raw : String} : hasEscape raw = true ↔ '\\' ∈ raw.toList := by
  rw [hasEscape, List.contains_iff_mem]

theorem decode_of_hasEscape_eq_false {raw : String} (h : hasEscape raw = false) :
    decode raw = .ok raw := by
  rw [decode_eq_ok_iff_chars?]
  apply chars?_of_not_mem
  rw [← hasEscape_iff, h]
  exact Bool.false_ne_true

/-! ### With and without decoding -/

/-- A body that is refused needs decoding. -/
theorem value_of_decode_eq_error {raw : String} {e : EscapeError} (h : decode raw = .error e) :
    value raw = .error e := by
  cases hescape : hasEscape raw with
  | false =>
    rw [decode_of_hasEscape_eq_false hescape] at h
    exact absurd h (by simp)
  | true => simp only [value, hescape, if_true, h]

theorem value_of_decode_eq_ok {raw s : String} (h : decode raw = .ok s) :
    value raw = .ok (if hasEscape raw then .decoded s else .verbatim raw) := by
  cases hescape : hasEscape raw with
  | false => simp [value, hescape]
  | true => simp [value, hescape, h]

end Body

namespace LocatedBody

variable {b : LocatedBody} {log : ProblemLog}

theorem value_of_decode_eq_error {e : EscapeError} (h : Body.decode b.content = .error e) :
    b.value log = (.decoded "", log.push b.undecodable) := by
  simp only [value, Body.value_of_decode_eq_error h]

theorem value_of_decode_eq_ok {s : String} (h : Body.decode b.content = .ok s) :
    b.value log =
      (if Body.hasEscape b.content then .decoded s else .verbatim b.content, log) := by
  simp only [value, Body.value_of_decode_eq_ok h]

/-- The empty decoded value means that the body was refused. -/
theorem value_fst_eq_decoded_empty_iff (log : ProblemLog) :
    (b.value log).1 = .decoded "" ↔ Body.decode b.content = .error .invalid := by
  cases hd : Body.decode b.content with
  | error e =>
    cases e
    simp [value_of_decode_eq_error hd]
  | ok s =>
    rw [value_of_decode_eq_ok hd]
    cases hescape : Body.hasEscape b.content with
    | false => simp
    | true =>
      -- A body with a backslash is not empty, and so its value is not.
      have hs : s ≠ "" := by
        intro hs
        rw [hs, Body.decode_eq_ok_empty_iff] at hd
        rw [hd] at hescape
        exact absurd hescape (by decide)
      simpa using hs

/-- The body alone decides which value it has. -/
theorem value_fst_eq_verbatim_iff (log : ProblemLog) {s : String} :
    (b.value log).1 = .verbatim s ↔ Body.hasEscape b.content = false ∧ b.content = s := by
  cases hescape : Body.hasEscape b.content with
  | false =>
    rw [value_of_decode_eq_ok (Body.decode_of_hasEscape_eq_false hescape), hescape]
    simp
  | true =>
    cases hd : Body.decode b.content with
    | error e => simp [value_of_decode_eq_error hd]
    | ok s' => simp [value_of_decode_eq_ok hd, hescape]

/-- A value is empty if the body is, or if the body was refused. -/
theorem value_fst_text_eq_empty_iff :
    (b.value log).1.text = "" ↔
      b.content = "" ∨ Body.decode b.content = .error .invalid := by
  cases hvalue : (b.value log).1 with
  | verbatim s =>
    obtain ⟨hescape, rfl⟩ := (value_fst_eq_verbatim_iff log).1 hvalue
    simp [Value.text, Body.decode_of_hasEscape_eq_false hescape]
  | decoded s =>
    -- The body has a backslash, or the value would be the body.
    have hne : b.content ≠ "" := by
      intro hempty
      have hescape : Body.hasEscape b.content = false := by
        rw [hempty]
        decide
      rw [(value_fst_eq_verbatim_iff log).2 ⟨hescape, rfl⟩] at hvalue
      exact absurd hvalue (by simp)
    rw [← value_fst_eq_decoded_empty_iff log, hvalue]
    simp [Value.text, hne]

/-- A problem is added for a refused body and for no other. -/
theorem exists_value_snd_eq_push_iff :
    (∃ p, (b.value log).2 = log.push p) ↔ Body.decode b.content = .error .invalid := by
  cases hd : Body.decode b.content with
  | error e =>
    cases e
    simp [value_of_decode_eq_error hd]
  | ok s =>
    rw [value_of_decode_eq_ok hd]
    simp only [reduceCtorEq, iff_false, not_exists]
    intro p hpush
    have hsize := congrArg Array.size hpush
    rw [Array.size_push] at hsize
    omega

/-- What is no refused body leaves the log as it is. -/
theorem value_snd_of_ne_error (h : Body.decode b.content ≠ .error .invalid) :
    (b.value log).2 = log := by
  cases hd : Body.decode b.content with
  | error e =>
    cases e
    exact absurd hd h
  | ok s => rw [value_of_decode_eq_ok hd]

/-! ### Where a refused body is shown -/

/-- A body within the limit is shown exactly. -/
theorem exists_undecodable_eq_of_le
    (h : b.base.toNat + b.content.utf8ByteSize ≤ 2 ^ 32 - 1) :
    ∃ span, b.undecodable = .invalidEscape span ∧ span.start.toNat = b.base.toNat ∧
      span.stop.toNat = b.base.toNat + b.content.utf8ByteSize := by
  have hlen : (LongOffset.clamp b.content.utf8ByteSize).toNat = b.content.utf8ByteSize :=
    LongOffset.toNat_clamp_of_le (by omega)
  have hfit : b.base.toUInt64.toNat + (LongOffset.clamp b.content.utf8ByteSize).toNat ≤
      2 ^ 32 - 1 := by
    rw [UInt32.toNat_toUInt64, hlen]
    exact h
  obtain ⟨span, hspan, hstart, hstop⟩ := Problem.exists_undecodable_eq_of_le hfit
  rw [UInt32.toNat_toUInt64] at hstart
  rw [UInt32.toNat_toUInt64, hlen] at hstop
  exact ⟨span, hspan, hstart, hstop⟩

/-- A body that reaches past the limit is shown from where it begins. -/
theorem undecodable_of_limit_lt
    (h : 2 ^ 32 - 1 < b.base.toNat + b.content.utf8ByteSize) :
    b.undecodable = .pastLimit b.base := by
  have hlen : min b.content.utf8ByteSize (2 ^ 32) ≤
      (LongOffset.clamp b.content.utf8ByteSize).toNat := by
    rw [LongOffset.toNat_clamp]
    exact min_le_min_left _ (by decide)
  have hpast : 2 ^ 32 - 1 <
      b.base.toUInt64.toNat + (LongOffset.clamp b.content.utf8ByteSize).toNat := by
    rw [UInt32.toNat_toUInt64]
    omega
  have hbase : Offset.clamp b.base.toUInt64.toNat = b.base := by
    rw [← UInt32.toNat_inj, Offset.toNat_clamp, UInt32.toNat_toUInt64]
    exact Nat.min_eq_left (Nat.le_sub_one_of_lt b.base.toNat_lt)
  rw [undecodable, Problem.undecodable_of_limit_lt hpast, hbase]

end LocatedBody

/-!
## Several bodies and one log

A run over bodies that share a log. The value of a body is a matter of its
content (`hasValue_value`, `HasValue.unique`); where it stands, and what the log
held before, make no difference. A refused body puts one problem behind the
others, and no other body touches the log (`value_snd`). So the log after a run
is the log in front of it with the problems of the refused bodies in order
(`toList_logAfter`).
-/

/-- What the value of a body is, told by its content alone. -/
structure Body.HasValue (raw : String) (value : Value) : Prop where
  verbatim_iff : value = .verbatim raw ↔ '\\' ∉ raw.toList
  of_ok : ∀ s, '\\' ∈ raw.toList → decode raw = .ok s → value = .decoded s
  of_error : decode raw = .error .invalid → value = .decoded ""

/-- The content leaves no choice. -/
theorem Body.HasValue.unique {raw : String} {value value' : Value} (h : HasValue raw value)
    (h' : HasValue raw value') : value = value' := by
  by_cases hmem : '\\' ∈ raw.toList
  · cases hd : decode raw with
    | ok s => rw [h.of_ok s hmem hd, h'.of_ok s hmem hd]
    | error e =>
      cases e
      rw [h.of_error hd, h'.of_error hd]
  · rw [h.verbatim_iff.2 hmem, h'.verbatim_iff.2 hmem]

namespace LocatedBody

/-- The problem of a refused body and its span: the bytes of the body if its end
is within the limit, and all bytes from its start on if not. -/
inductive ShownBy (b : LocatedBody) : Problem → Prop where
  | exactly {span : Span} :
      b.base.toNat + b.content.utf8ByteSize ≤ 2 ^ 32 - 1 → span.start = b.base →
      span.stop.toNat = b.base.toNat + b.content.utf8ByteSize → ShownBy b (.invalidEscape span)
  | pastLimit {start : Offset} :
      2 ^ 32 - 1 < b.base.toNat + b.content.utf8ByteSize →
      (Problem.pastLimit start).span = ⟨b.base, 0xFFFFFFFF⟩ → ShownBy b (.pastLimit start)

/-! ### One body -/

theorem shownBy_undecodable (b : LocatedBody) : b.ShownBy b.undecodable := by
  by_cases hfit : b.base.toNat + b.content.utf8ByteSize ≤ 2 ^ 32 - 1
  · obtain ⟨span, hspan, hstart, hstop⟩ := exists_undecodable_eq_of_le hfit
    rw [hspan]
    exact .exactly hfit (UInt32.toNat_inj.1 hstart) hstop
  · have hpast := Nat.lt_of_not_le hfit
    rw [undecodable_of_limit_lt hpast]
    exact .pastLimit hpast rfl

variable (b : LocatedBody) (log : ProblemLog)

theorem hasValue_value : Body.HasValue b.content (b.value log).1 := by
  refine ⟨?_, ?_, ?_⟩
  · rw [value_fst_eq_verbatim_iff, and_iff_left rfl, Bool.eq_false_iff, Ne, Body.hasEscape_iff]
  · intro s hmem hs
    rw [value_of_decode_eq_ok hs, if_pos (Body.hasEscape_iff.2 hmem)]
  · exact (value_fst_eq_decoded_empty_iff log).2

/-- What a body adds to the log stands behind what was there. -/
theorem value_snd :
    (b.value log).2 = log ++ if Body.isRefused b.content then #[b.undecodable] else #[] := by
  cases hbad : Body.isRefused b.content with
  | true =>
    rw [value_of_decode_eq_error (Body.isRefused_iff.1 hbad)]
    rfl
  | false =>
    obtain ⟨s, hs⟩ := Body.isRefused_eq_false_iff.1 hbad
    rw [value_of_decode_eq_ok hs]
    exact Array.append_empty.symm

/-! ### A run -/

variable {b} {bs : List LocatedBody}

theorem logAfter_append (bs bs' : List LocatedBody) :
    logAfter log (bs ++ bs') = logAfter (logAfter log bs) bs' := List.foldl_append

theorem logAfter_singleton (b : LocatedBody) : logAfter log [b] = (b.value log).2 := rfl

theorem length_values (bs : List LocatedBody) : (values log bs).length = bs.length := by
  induction bs generalizing log with
  | nil => rfl
  | cons b bs ih => rw [values, List.length_cons, List.length_cons, ih]

/-- A step of a run gives a value of the body and the log so far. -/
theorem getElem?_values {i : Nat} (hb : bs[i]? = some b) :
    (values log bs)[i]? =
      some ((b.value (logAfter log (bs.take i))).1, logAfter log (bs.take (i + 1))) := by
  induction bs generalizing log i with
  | nil => simp at hb
  | cons c bs ih =>
    rw [values]
    cases i with
    | zero =>
      obtain rfl : c = b := by simpa using hb
      rfl
    | succ i =>
      have hlater := ih (c.value log).2 (i := i) (by simpa using hb)
      rw [List.getElem?_cons_succ, hlater, List.take_succ_cons, List.take_succ_cons]
      rfl

theorem logAfter_take_succ {i : Nat} (hb : bs[i]? = some b) :
    logAfter log (bs.take (i + 1)) = (b.value (logAfter log (bs.take i))).2 := by
  rw [List.take_add_one, hb, Option.toList_some, logAfter_append, logAfter_singleton]

/-- The log after a run: the problems of the refused bodies stand behind the
problems from before, in the order of the bodies. -/
theorem toList_logAfter (bs : List LocatedBody) :
    (logAfter log bs).toList =
      log.toList ++ (bs.filter fun b => Body.isRefused b.content).map undecodable := by
  induction bs generalizing log with
  | nil => exact (List.append_nil _).symm
  | cons b bs ih =>
    rw [← List.singleton_append, logAfter_append, ih, logAfter_singleton, value_snd,
      Array.toList_append, List.append_assoc, List.filter_append, List.map_append]
    cases hbad : Body.isRefused b.content with
    | true => simp [hbad]
    | false => simp [hbad]

/-- Bodies with one content have one value, in any run at any place. -/
theorem map_fst_getElem?_values (log' : ProblemLog) {bs' : List LocatedBody} {b' : LocatedBody}
    {i j : Nat} (hb : bs[i]? = some b) (hb' : bs'[j]? = some b')
    (hcontent : b.content = b'.content) :
    (values log bs)[i]?.map Prod.fst = (values log' bs')[j]?.map Prod.fst := by
  have hvalue := hasValue_value b (logAfter log (bs.take i))
  have hvalue' := hasValue_value b' (logAfter log' (bs'.take j))
  rw [hcontent] at hvalue
  rw [getElem?_values log hb, getElem?_values log' hb', Option.map_some, Option.map_some,
    hvalue.unique hvalue']

/-- A run over bodies that share a log. Each body has the value that its content
has, which is the same wherever the content stands. A refused body adds one problem,
which shows it exactly or up to the limit; a body with a value adds nothing, wherever
it ends. So after the run the log has one more problem for each refused body, in
their order, and what it held before is as it was. -/
theorem values_and_log_of_run (log : ProblemLog) (bs : List LocatedBody) :
    (values log bs).length = bs.length ∧
    (∀ i b, bs[i]? = some b →
      (∃ value, (values log bs)[i]? = some (value, logAfter log (bs.take (i + 1))) ∧
        Body.HasValue b.content value) ∧
      ((∃ s, Body.decode b.content = .ok s) →
        logAfter log (bs.take (i + 1)) = logAfter log (bs.take i)) ∧
      (Body.decode b.content = .error .invalid →
        ∃ p, b.ShownBy p ∧
          logAfter log (bs.take (i + 1)) = (logAfter log (bs.take i)).push p)) ∧
    (∀ (log' : ProblemLog) (bs' : List LocatedBody) (i j : Nat) (b b' : LocatedBody),
      bs[i]? = some b → bs'[j]? = some b' → b.content = b'.content →
      (values log bs)[i]?.map Prod.fst = (values log' bs')[j]?.map Prod.fst) ∧
    ∃ problems,
      List.Forall₂ ShownBy (bs.filter fun b => Body.isRefused b.content) problems ∧
      (logAfter log bs).toList = log.toList ++ problems := by
  refine ⟨length_values log bs, ?_, ?_, ?_⟩
  · intro i b hb
    refine ⟨⟨_, getElem?_values log hb, hasValue_value b _⟩, ?_, ?_⟩
    · rintro ⟨s, hs⟩
      rw [logAfter_take_succ log hb, value_of_decode_eq_ok hs]
    · intro hbad
      refine ⟨b.undecodable, b.shownBy_undecodable, ?_⟩
      rw [logAfter_take_succ log hb, value_of_decode_eq_error hbad]
  · intro log' bs' i j b b' hb hb' hcontent
    exact map_fst_getElem?_values log log' hb hb' hcontent
  · refine ⟨_, ?_, toList_logAfter log bs⟩
    rw [List.forall₂_map_right_iff, List.forall₂_same]
    exact fun b _ => b.shownBy_undecodable

/-- A refused body that ends at the limit, one with a value that reaches past it,
and one that is refused there, with the content of the first. -/
theorem run_across_limit :
    let log : ProblemLog := #[.unterminated ⟨0, 1⟩]
    let bs : List LocatedBody :=
      [⟨"\\q", 0xFFFFFFFD⟩, ⟨"a\\nb", 0xFFFFFFFE⟩, ⟨"\\q", 0xFFFFFFFE⟩]
    bs[1]? = some ⟨"a\\nb", 0xFFFFFFFE⟩ ∧ Body.decode "a\\nb" = .ok "a\nb" ∧
      (values log bs)[1]? = some (.decoded "a\nb", logAfter log (bs.take 2)) ∧
      logAfter log (bs.take 2) = logAfter log (bs.take 1) ∧
    bs[2]? = some ⟨"\\q", 0xFFFFFFFE⟩ ∧ Body.decode "\\q" = .error .invalid ∧
      (∃ p, ShownBy ⟨"\\q", 0xFFFFFFFE⟩ p ∧
        logAfter log (bs.take 3) = (logAfter log (bs.take 2)).push p) ∧
    (values log bs)[0]?.map Prod.fst = (values log bs)[2]?.map Prod.fst ∧
    (logAfter log bs).toList =
      [.unterminated ⟨0, 1⟩, .invalidEscape ⟨0xFFFFFFFD, 0xFFFFFFFF⟩, .pastLimit 0xFFFFFFFE] := by
  intro log bs
  obtain ⟨-, hstep, hequal, -⟩ := values_and_log_of_run log bs
  have hok : Body.decode "a\\nb" = .ok "a\nb" := by cbv
  have hbad : Body.decode "\\q" = .error .invalid := by cbv
  obtain ⟨⟨value, hvalue, hcontent⟩, hsame, -⟩ := hstep 1 ⟨"a\\nb", 0xFFFFFFFE⟩ rfl
  obtain ⟨-, -, hpush⟩ := hstep 2 ⟨"\\q", 0xFFFFFFFE⟩ rfl
  rw [hcontent.of_ok "a\nb" (by decide) hok] at hvalue
  exact ⟨rfl, hok, hvalue, hsame ⟨_, hok⟩, rfl, hbad, hpush hbad,
    hequal log bs 0 2 ⟨"\\q", 0xFFFFFFFD⟩ ⟨"\\q", 0xFFFFFFFE⟩ rfl rfl rfl, by cbv⟩

end LocatedBody

end GraphqlLiteral
