import GraphqlLiteral.Proofs.Body.Located
import Mathlib

/-!
# Reading one token

A token is read in one of two ways, and the value that it gets says whether the body
was refused.
-/

namespace GraphqlLiteral

/-!
## The two ways

A token that covers a text is read in one of two ways: a text without both of
its quotes gives the empty value and one problem, a quoted text the value of the
body between the quotes (`read?_of_isUnterminated`, `read?_of_quoted`). The
reader is opened here; what is said about tokens later on uses these two.
-/

namespace TokenRange

/-- The bytes of the token are those of `text`, which stands in the source
between two parts of it. So the token lies within the source, and no character
is cut at its ends. -/
def Covers (t : TokenRange) (source text : String) : Prop :=
  ∃ before after, source = before ++ text ++ after ∧
    before.utf8ByteSize = t.offset.toNat ∧ text.utf8ByteSize = t.length.toNat

/-- The body between the quotes of a token. -/
def body (t : TokenRange) (content : String) : LocatedBody := ⟨content, t.offset.advance 1⟩

/-- A text that is no quoted body: too short, or without one of its quotes. -/
def IsUnterminated (text : String) : Prop :=
  text.utf8ByteSize < 2 ∨ text.toList.head? ≠ some '"' ∨ text.toList.getLast? ≠ some '"'

theorem text?_eq_some_iff_covers {t : TokenRange} {source text : String} :
    t.text? source = some text ↔ t.Covers source text :=
  Text.slice?_eq_some_iff

/-! ### Quotes -/

theorem toList_quoted (content : String) :
    ("\"" ++ content ++ "\"").toList = '"' :: (content.toList ++ ['"']) := by
  simp

theorem utf8ByteSize_quoted (content : String) :
    ("\"" ++ content ++ "\"").utf8ByteSize = content.utf8ByteSize + 2 := by
  rw [String.utf8ByteSize_append, String.utf8ByteSize_append]
  show 1 + content.utf8ByteSize + 1 = _
  omega

/-- The quotes of a text are taken off where there are two of them. -/
theorem unquote?_eq_some_iff {text content : String} :
    unquote? text = some content ↔ text = "\"" ++ content ++ "\"" := by
  rw [← String.toList_inj, toList_quoted, unquote?]
  refine ⟨?_, ?_⟩
  · intro h
    split at h
    · next rest htext =>
      split at h
      · next hlast =>
        obtain ⟨front, rfl⟩ := List.getLast?_eq_some_iff.1 hlast
        rw [List.dropLast_concat, Option.some.injEq] at h
        rw [htext, ← h, String.toList_ofList]
      · simp at h
    · simp at h
  · intro h
    rw [h]
    simp

/-- The quotes of a token hold one content only. -/
theorem quoted_inj {content content' : String} :
    "\"" ++ content ++ "\"" = "\"" ++ content' ++ "\"" ↔ content = content' := by
  rw [← unquote?_eq_some_iff, unquote?_eq_some_iff.2 rfl, Option.some.injEq]

theorem quoted_eq_empty_token_iff {content : String} :
    "\"" ++ content ++ "\"" = "\"\"" ↔ content = "" := by
  show _ = "\"" ++ "" ++ "\"" ↔ _
  exact quoted_inj

/-- A text is a quoted body, or it is unterminated. -/
theorem isUnterminated_iff {text : String} :
    IsUnterminated text ↔ ¬ ∃ content, text = "\"" ++ content ++ "\"" := by
  refine ⟨?_, ?_⟩
  · rintro h ⟨content, rfl⟩
    rw [IsUnterminated, utf8ByteSize_quoted, toList_quoted, ← List.cons_append,
      List.getLast?_concat] at h
    simp at h
  · intro h
    by_contra hquoted
    simp only [IsUnterminated, not_or, ne_eq, not_not, not_lt] at hquoted
    obtain ⟨hsize, hhead, hlast⟩ := hquoted
    obtain ⟨rest, htext⟩ := List.head?_eq_some_iff.1 hhead
    -- A quote by itself is one byte, so the last quote is another one.
    have hrest : rest ≠ [] := by
      rintro rfl
      rw [← String.ofList_toList (s := text), htext] at hsize
      exact absurd hsize (by decide)
    rw [htext, List.getLast?_cons_of_ne_nil hrest] at hlast
    obtain ⟨front, rfl⟩ := List.getLast?_eq_some_iff.1 hlast
    exact h ⟨String.ofList front, by rw [← String.toList_inj, htext]; simp⟩

theorem isUnterminated_or_quoted (text : String) :
    IsUnterminated text ∨ ∃ content, text = "\"" ++ content ++ "\"" := by
  rw [isUnterminated_iff]
  exact (em _).symm

end TokenRange

namespace TokenReader

open TokenRange

variable {r : TokenReader} {t : TokenRange}

/-- A token without both of its quotes is one problem, and its value is empty. -/
theorem read?_of_isUnterminated {text : String} (hcovers : t.Covers r.source text)
    (h : IsUnterminated text) :
    r.read? t =
      some (.verbatim "", { r with problems := r.problems.push (.unterminated t.span) }) := by
  have hnone : unquote? text = none := by
    rw [Option.eq_none_iff_forall_ne_some]
    intro content hcontent
    exact isUnterminated_iff.1 h ⟨content, unquote?_eq_some_iff.1 hcontent⟩
  rw [read?, text?_eq_some_iff_covers.2 hcovers]
  simp only [hnone]

/-- A quoted token is read as the body between its quotes. -/
theorem read?_of_quoted {content : String}
    (hcovers : t.Covers r.source ("\"" ++ content ++ "\"")) :
    r.read? t =
      some (((t.body content).value r.problems).1,
        { r with problems := ((t.body content).value r.problems).2 }) := by
  rw [read?, text?_eq_some_iff_covers.2 hcovers]
  simp only [unquote?_eq_some_iff.2 rfl, body]

end TokenReader

/-!
## What an empty value means

A refused body gets an empty value, and the empty text is a value as well. The
two are never taken for each other: the empty text in its decoded form is the
mark of a refused body and of nothing else, and in its verbatim form it is the
empty token or an unterminated one (`empty_value_marks_failure`).
-/

namespace TokenReader

open TokenRange

/-- What a token that covers `text` tells by its value and by the log: `before`
is the log in front of it, `after` the log behind it. -/
structure MarksFailure (text : String) (value : Value) (before after : ProblemLog) : Prop where
  /-- A problem is new when the value is empty though the token is not. -/
  recorded_iff : (∃ p, after = before.push p) ↔ value.text = "" ∧ text ≠ "\"\""
  /-- Otherwise there is no new one. -/
  unchanged : ¬ (value.text = "" ∧ text ≠ "\"\"") → after = before
  decoded_iff : value = .decoded "" ↔
    ∃ content, text = "\"" ++ content ++ "\"" ∧ Body.decode content = .error .invalid
  verbatim_iff : value = .verbatim "" ↔ IsUnterminated text ∨ text = "\"\""

theorem marksFailure_of_isUnterminated {text : String} (h : IsUnterminated text)
    (log : ProblemLog) (p : Problem) : MarksFailure text (.verbatim "") log (log.push p) := by
  have hquoted := isUnterminated_iff.1 h
  have hne : text ≠ "\"\"" := fun htext => hquoted ⟨"", htext⟩
  refine ⟨?_, ?_, ?_, ?_⟩
  · exact iff_of_true ⟨p, rfl⟩ ⟨rfl, hne⟩
  · intro hnot
    exact absurd ⟨rfl, hne⟩ hnot
  · refine iff_of_false (by simp) ?_
    intro ⟨content, htext, _⟩
    exact hquoted ⟨content, htext⟩
  · exact iff_of_true rfl (.inl h)

theorem marksFailure_of_quoted (b : LocatedBody) (log : ProblemLog) :
    MarksFailure ("\"" ++ b.content ++ "\"") (b.value log).1 log (b.value log).2 := by
  have hterminated : ¬ IsUnterminated ("\"" ++ b.content ++ "\"") := by
    rw [isUnterminated_iff, not_not]
    exact ⟨b.content, rfl⟩
  -- The empty body is never refused, so a refused one is another token.
  have hbad : (b.value log).1.text = "" ∧ "\"" ++ b.content ++ "\"" ≠ "\"\"" ↔
      Body.decode b.content = .error .invalid := by
    rw [LocatedBody.value_fst_text_eq_empty_iff, Ne, quoted_eq_empty_token_iff]
    refine ⟨?_, ?_⟩
    · intro ⟨hempty, hne⟩
      exact hempty.resolve_left hne
    · intro hd
      refine ⟨.inr hd, ?_⟩
      intro hempty
      rw [Body.decode_eq_ok_empty_iff.2 hempty] at hd
      exact absurd hd (by simp)
  refine ⟨?_, ?_, ?_, ?_⟩
  · rw [hbad]
    exact LocatedBody.exists_value_snd_eq_push_iff
  · rw [hbad]
    exact LocatedBody.value_snd_of_ne_error
  · rw [LocatedBody.value_fst_eq_decoded_empty_iff]
    refine ⟨fun hd => ⟨b.content, rfl, hd⟩, ?_⟩
    intro ⟨content, htext, hd⟩
    rwa [quoted_inj.1 htext]
  · rw [LocatedBody.value_fst_eq_verbatim_iff, quoted_eq_empty_token_iff,
      or_iff_right hterminated]
    refine ⟨And.right, ?_⟩
    intro hempty
    refine ⟨?_, hempty⟩
    rw [hempty]
    decide

/-- An empty value marks a failure, and the form of the value tells which. A body
adds a problem exactly when its value is the empty decoded text, which no body
with a backslash decodes to. A token adds one exactly when its value is empty and
the token is not the empty one. -/
theorem empty_value_marks_failure :
    (∀ (b : LocatedBody) (log : ProblemLog),
      ((∃ p, (b.value log).2 = log.push p) ↔ (b.value log).1 = .decoded "") ∧
      ((b.value log).1 ≠ .decoded "" → (b.value log).2 = log)) ∧
    (∀ raw : String, '\\' ∈ raw.toList → Body.decode raw ≠ .ok "") ∧
    ∀ (r : TokenReader) (t : TokenRange) (text : String), t.Covers r.source text →
      ∃ value next, r.read? t = some (value, next) ∧
        MarksFailure text value r.problems next.problems := by
  refine ⟨?_, ?_, ?_⟩
  · intro b log
    rw [Ne, LocatedBody.value_fst_eq_decoded_empty_iff]
    exact ⟨LocatedBody.exists_value_snd_eq_push_iff, LocatedBody.value_snd_of_ne_error⟩
  · intro raw hmem hd
    rw [Body.decode_eq_ok_empty_iff] at hd
    rw [hd] at hmem
    exact absurd hmem (by decide)
  · intro r t text h
    by_cases hquoted : IsUnterminated text
    · exact ⟨_, _, read?_of_isUnterminated h hquoted,
        marksFailure_of_isUnterminated hquoted r.problems _⟩
    · rw [isUnterminated_iff, not_not] at hquoted
      obtain ⟨content, rfl⟩ := hquoted
      exact ⟨_, _, read?_of_quoted h, marksFailure_of_quoted (t.body content) r.problems⟩

/-- A refused token and an empty one in the same source. -/
theorem empty_value_of_refused_and_of_empty_token :
    ((TokenRange.mk 0 4).Covers "\"\\z\"\"\"" "\"\\z\"" ∧
      ∃ next p, (ofSource "\"\\z\"\"\"").read? ⟨0, 4⟩ = some (.decoded "", next) ∧
        next.problems = #[].push p) ∧
    (TokenRange.mk 4 2).Covers "\"\\z\"\"\"" "\"\"" ∧
      ∃ next, (ofSource "\"\\z\"\"\"").read? ⟨4, 2⟩ = some (.verbatim "", next) ∧
        next.problems = #[] := by
  have hrefused : (TokenRange.mk 0 4).Covers "\"\\z\"\"\"" "\"\\z\"" :=
    ⟨"", "\"\"", rfl, rfl, rfl⟩
  have hempty : (TokenRange.mk 4 2).Covers "\"\\z\"\"\"" "\"\"" := ⟨"\"\\z\"", "", rfl, rfl, rfl⟩
  refine ⟨⟨hrefused, ?_⟩, hempty, ?_⟩
  · obtain ⟨value, next, hread, hmarks⟩ :=
      empty_value_marks_failure.2.2 (ofSource "\"\\z\"\"\"") _ _ hrefused
    obtain rfl : value = .decoded "" := hmarks.decoded_iff.2 ⟨"\\z", rfl, by cbv⟩
    obtain ⟨p, hp⟩ := hmarks.recorded_iff.2 ⟨rfl, by decide⟩
    exact ⟨next, p, hread, hp⟩
  · obtain ⟨value, next, hread, hmarks⟩ :=
      empty_value_marks_failure.2.2 (ofSource "\"\\z\"\"\"") _ _ hempty
    obtain rfl : value = .verbatim "" := hmarks.verbatim_iff.2 (.inr rfl)
    exact ⟨next, hread, hmarks.unchanged fun h => h.2 rfl⟩

end TokenReader

end GraphqlLiteral
