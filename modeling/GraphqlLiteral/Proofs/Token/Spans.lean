import GraphqlLiteral.Proofs.Token.Read
import Mathlib

/-!
# What a token tells, and where

A token adds at most one problem to the log, and `Tells` says which one. Offsets
are added in three places: the quote is skipped in an `Offset`, the end of the
body is taken in a `LongOffset`, the end of the whole token in an `Offset` again.
All three stop at the limit instead of wrapping. A span of a body is exact
nevertheless, since a body that ends past the limit is told as another kind of
problem (`read?_tells_exact_spans`). The source may be of any size.
-/

namespace GraphqlLiteral

/-- There are texts of every size. -/
theorem Text.exists_utf8ByteSize_eq (n : Nat) : ∃ s : String, s.utf8ByteSize = n := by
  induction n with
  | zero => exact ⟨"", rfl⟩
  | succ n ih =>
    obtain ⟨s, hs⟩ := ih
    exact ⟨s.push 'a', by rw [String.utf8ByteSize_push, hs]; rfl⟩

namespace TokenRange

/-- The span is the content in the source, between a quote and a quote. -/
structure QuotedAt (source content : String) (span : Span) : Prop where
  opening : Text.slice? source (span.start.toNat - 1) 1 = some "\""
  inside : Text.slice? source span.start.toNat (span.stop.toNat - span.start.toNat) = some content
  closing : Text.slice? source span.stop.toNat 1 = some "\""

/-- What a token that covers `text` adds to the log. -/
inductive Tells (t : TokenRange) (source text : String) : ProblemLog → Prop where
  /-- A missing quote is shown by the whole token, up to the limit. -/
  | unterminated {span : Span} :
      IsUnterminated text → span.start = t.offset →
      span.stop.toNat = min (t.offset.toNat + t.length.toNat) (2 ^ 32 - 1) →
      Tells t source text #[.unterminated span]
  /-- A body with a value adds nothing, wherever it ends. -/
  | nothing {content : String} :
      text = "\"" ++ content ++ "\"" → (∃ s, Body.decode content = .ok s) →
      Tells t source text #[]
  /-- A refused body within the limit is shown exactly. -/
  | exactly {content : String} {span : Span} :
      text = "\"" ++ content ++ "\"" → Body.decode content = .error .invalid →
      t.offset.toNat + t.length.toNat - 1 ≤ 2 ^ 32 - 1 →
      span.start.toNat = t.offset.toNat + 1 →
      span.stop.toNat = t.offset.toNat + t.length.toNat - 1 → QuotedAt source content span →
      Tells t source text #[.invalidEscape span]
  /-- A refused body that ends past the limit is shown up to the limit. -/
  | pastLimit {content : String} {start : Offset} :
      text = "\"" ++ content ++ "\"" → Body.decode content = .error .invalid →
      2 ^ 32 - 1 < t.offset.toNat + t.length.toNat - 1 →
      (Problem.pastLimit start).span.start.toNat = min (t.offset.toNat + 1) (2 ^ 32 - 1) →
      (Problem.pastLimit start).span.stop.toNat = 2 ^ 32 - 1 →
      Tells t source text #[.pastLimit start]

variable {t : TokenRange} {source text content : String}

/-! ## The body of a token -/

theorem Covers.length_eq (h : t.Covers source ("\"" ++ content ++ "\"")) :
    t.length.toNat = content.utf8ByteSize + 2 := by
  obtain ⟨before, after, -, -, hlength⟩ := h
  rw [← hlength, utf8ByteSize_quoted]

/-- The quote is skipped, unless it stands at the limit. -/
theorem toNat_base_body (t : TokenRange) (content : String) :
    (t.body content).base.toNat = min (t.offset.toNat + 1) (2 ^ 32 - 1) :=
  Offset.toNat_advance t.offset 1

/-- The two quotes and what is between them, by their bytes. -/
theorem Covers.quotedAt (h : t.Covers source ("\"" ++ content ++ "\"")) {span : Span}
    (hstart : span.start.toNat = t.offset.toNat + 1)
    (hstop : span.stop.toNat = t.offset.toNat + 1 + content.utf8ByteSize) :
    QuotedAt source content span := by
  obtain ⟨before, after, hsource, hoffset, -⟩ := h
  have hquote : "\"".utf8ByteSize = 1 := rfl
  refine ⟨?_, ?_, ?_⟩
  · rw [hstart, Text.slice?_eq_some_iff]
    refine ⟨before, content ++ "\"" ++ after, ?_, by omega, hquote⟩
    rw [hsource, ← String.toList_inj]
    simp
  · rw [hstart, hstop, Text.slice?_eq_some_iff]
    refine ⟨before ++ "\"", "\"" ++ after, ?_, ?_, by omega⟩
    · rw [hsource, ← String.toList_inj]
      simp
    · rw [String.utf8ByteSize_append, hoffset, hquote]
  · rw [hstop, Text.slice?_eq_some_iff]
    refine ⟨before ++ "\"" ++ content, after, ?_, ?_, hquote⟩
    · rw [hsource, ← String.toList_inj]
      simp
    · rw [String.utf8ByteSize_append, String.utf8ByteSize_append, hoffset, hquote]

/-- No span runs backwards. -/
theorem Tells.start_le_stop {added : ProblemLog} (h : t.Tells source text added)
    (hcovers : t.Covers source text) : ∀ p ∈ added, p.span.start ≤ p.span.stop := by
  intro p hp
  rw [UInt32.le_iff_toNat_le]
  cases h with
  | @unterminated span _ hstart hstop =>
    obtain rfl := Array.mem_singleton.1 hp
    have hlimit := Nat.le_sub_one_of_lt t.offset.toNat_lt
    show span.start.toNat ≤ span.stop.toNat
    rw [hstart, hstop]
    exact Nat.le_min.2 ⟨Nat.le_add_right _ _, hlimit⟩
  | nothing => exact absurd hp (Array.not_mem_empty p)
  | @exactly content span htext _ _ hstart hstop _ =>
    obtain rfl := Array.mem_singleton.1 hp
    subst htext
    have hlength := hcovers.length_eq
    show span.start.toNat ≤ span.stop.toNat
    omega
  | pastLimit _ _ _ hstart hstop =>
    obtain rfl := Array.mem_singleton.1 hp
    rw [hstart, hstop]
    exact Nat.min_le_right _ _

theorem Tells.size_le {added : ProblemLog} (h : t.Tells source text added) :
    added.size ≤ 1 := by
  cases h with
  | nothing => exact Nat.zero_le 1
  | unterminated | exactly | pastLimit => exact Nat.le_refl 1

/-- A refused body is told once, exactly or at the limit. -/
theorem Covers.tells_undecodable (h : t.Covers source ("\"" ++ content ++ "\""))
    (hbad : Body.decode content = .error .invalid) :
    t.Tells source ("\"" ++ content ++ "\"") #[(t.body content).undecodable] := by
  have hlength := h.length_eq
  have hbase := t.toNat_base_body content
  by_cases hfit : t.offset.toNat + t.length.toNat - 1 ≤ 2 ^ 32 - 1
  · -- The end fits, and so does the start: nothing has stopped at the limit.
    have hstart : (t.body content).base.toNat = t.offset.toNat + 1 := by
      rw [hbase]
      exact Nat.min_eq_left (by omega)
    have hend : (t.body content).base.toNat + content.utf8ByteSize ≤ 2 ^ 32 - 1 := by omega
    obtain ⟨span, hspan, hlow, hhigh⟩ := LocatedBody.exists_undecodable_eq_of_le hend
    rw [hstart] at hlow hhigh
    have hquoted := h.quotedAt hlow hhigh
    have hstop : span.stop.toNat = t.offset.toNat + t.length.toNat - 1 := by
      rw [hhigh, hlength]
      show t.offset.toNat + 1 + content.utf8ByteSize = _
      omega
    rw [hspan]
    exact .exactly rfl hbad hfit hlow hstop hquoted
  · -- A start that has stopped at the limit has at least one byte behind it.
    have hpos : 0 < content.utf8ByteSize := by
      rw [Nat.pos_iff_ne_zero, Ne, String.utf8ByteSize_eq_zero_iff]
      rintro rfl
      rw [Body.decode_eq_ok_empty_iff.2 rfl] at hbad
      exact absurd hbad (by simp)
    have hpast : 2 ^ 32 - 1 < (t.body content).base.toNat + content.utf8ByteSize := by
      rw [hbase]
      omega
    rw [LocatedBody.undecodable_of_limit_lt hpast]
    exact .pastLimit rfl hbad (Nat.lt_of_not_le hfit) hbase rfl

end TokenRange

namespace TokenReader

open TokenRange

/-- A token gives one value and tells one thing, whatever the log held before. -/
theorem exists_forall_read?_tells {source text : String} {t : TokenRange}
    (h : t.Covers source text) :
    ∃ value added, t.Tells source text added ∧
      ∀ log, (mk source log).read? t = some (value, ⟨source, log ++ added⟩) := by
  rcases isUnterminated_or_quoted text with hquoted | ⟨content, rfl⟩
  · refine ⟨.verbatim "", #[.unterminated t.span], ?_, ?_⟩
    · exact .unterminated hquoted rfl (Offset.toNat_advance t.offset t.length)
    · exact fun log => read?_of_isUnterminated (r := ⟨source, log⟩) h hquoted
  · cases hd : Body.decode content with
    | ok s =>
      refine ⟨if Body.hasEscape content then .decoded s else .verbatim content, #[],
        .nothing rfl ⟨s, hd⟩, ?_⟩
      intro log
      rw [read?_of_quoted (r := ⟨source, log⟩) h, LocatedBody.value_of_decode_eq_ok hd,
        Array.append_empty]
      rfl
    | error e =>
      cases e
      refine ⟨.decoded "", #[(t.body content).undecodable], h.tells_undecodable hd, ?_⟩
      intro log
      rw [read?_of_quoted (r := ⟨source, log⟩) h, LocatedBody.value_of_decode_eq_error hd]
      rfl

/-- Reading a token adds to the log what the token tells, and takes nothing from
it. -/
theorem exists_read?_tells {r : TokenReader} {t : TokenRange} {text : String}
    (h : t.Covers r.source text) :
    ∃ value added, r.read? t = some (value, { r with problems := r.problems ++ added }) ∧
      t.Tells r.source text added := by
  obtain ⟨value, added, htells, hread⟩ := exists_forall_read?_tells h
  exact ⟨value, added, hread r.problems, htells⟩

/-- A token in the source is read, and it adds to the log what it should tell. No
offset wraps, no span runs backwards, and none that has stopped at the limit is
given for an exact one. -/
theorem read?_tells_exact_spans {r : TokenReader} {t : TokenRange} {text : String}
    (h : t.Covers r.source text) :
    ∃ value added, r.read? t = some (value, { r with problems := r.problems ++ added }) ∧
      t.Tells r.source text added ∧ ∀ p ∈ added, p.span.start ≤ p.span.stop := by
  obtain ⟨value, added, hread, htells⟩ := exists_read?_tells h
  exact ⟨value, added, hread, htells, htells.start_le_stop h⟩

/-- The body of the first token ends at the limit. The second token begins there,
with the last quote of the first. -/
theorem read?_at_limit :
    ∃ source : String,
      ((TokenRange.mk 0xFFFFFFFC 4).Covers source "\"\\z\"" ∧
        ∃ value, (ofSource source).read? ⟨0xFFFFFFFC, 4⟩ =
          some (value, ⟨source, #[.invalidEscape ⟨0xFFFFFFFD, 0xFFFFFFFF⟩]⟩)) ∧
      (TokenRange.mk 0xFFFFFFFF 4).Covers source "\"\\z\"" ∧
        ∃ value, (ofSource source).read? ⟨0xFFFFFFFF, 4⟩ =
          some (value, ⟨source, #[.pastLimit 0xFFFFFFFF]⟩) := by
  obtain ⟨filler, hfiller⟩ := Text.exists_utf8ByteSize_eq 0xFFFFFFFC
  have hfirst : (TokenRange.mk 0xFFFFFFFC 4).Covers (filler ++ "\"\\z\"" ++ "\\z\"")
      "\"\\z\"" := ⟨filler, "\\z\"", rfl, hfiller, rfl⟩
  have hsecond : (TokenRange.mk 0xFFFFFFFF 4).Covers (filler ++ "\"\\z\"" ++ "\\z\"")
      "\"\\z\"" := by
    refine ⟨filler ++ "\"\\z", "", ?_, ?_, rfl⟩
    · rw [← String.toList_inj]
      simp
    · rw [String.utf8ByteSize_append, hfiller]
      rfl
  have hquoted : ¬ IsUnterminated "\"\\z\"" := fun h => isUnterminated_iff.1 h ⟨"\\z", rfl⟩
  have hrefused : ∀ content, "\"\\z\"" = "\"" ++ content ++ "\"" →
      ¬ ∃ s, Body.decode content = .ok s := by
    rintro content htext ⟨s, hs⟩
    obtain rfl : "\\z" = content := quoted_inj.1 htext
    have hbad : Body.decode "\\z" = .error .invalid := by cbv
    rw [hbad] at hs
    exact absurd hs (by simp)
  refine ⟨filler ++ "\"\\z\"" ++ "\\z\"", ⟨hfirst, ?_⟩, hsecond, ?_⟩
  · obtain ⟨value, added, hread, htells, -⟩ :=
      read?_tells_exact_spans (r := ofSource (filler ++ "\"\\z\"" ++ "\\z\"")) hfirst
    cases htells with
    | unterminated h => exact absurd h hquoted
    | nothing htext hok => exact absurd hok (hrefused _ htext)
    | @exactly content span _ _ _ hstart hstop _ =>
      obtain ⟨start, stop⟩ := span
      obtain rfl : start = 0xFFFFFFFD := UInt32.toNat_inj.1 hstart
      obtain rfl : stop = 0xFFFFFFFF := UInt32.toNat_inj.1 hstop
      exact ⟨value, hread⟩
    | pastLimit _ _ hpast => exact absurd hpast (by decide)
  · obtain ⟨value, added, hread, htells, -⟩ :=
      read?_tells_exact_spans (r := ofSource (filler ++ "\"\\z\"" ++ "\\z\"")) hsecond
    cases htells with
    | unterminated h => exact absurd h hquoted
    | nothing htext hok => exact absurd hok (hrefused _ htext)
    | exactly _ _ hfit => exact absurd hfit (by decide)
    | @pastLimit content start _ _ _ hstart _ =>
      obtain rfl : start = 0xFFFFFFFF := UInt32.toNat_inj.1 hstart
      exact ⟨value, hread⟩

end TokenReader

end GraphqlLiteral
