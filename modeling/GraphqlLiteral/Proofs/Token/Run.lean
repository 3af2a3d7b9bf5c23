import GraphqlLiteral.Proofs.Token.Spans
import Mathlib

/-!
# Reading many tokens

A run over tokens is the sum of its parts. Each token gives the value that a
reader with nothing behind it gets (`alone`), and what the token tells is put
behind the problems from before it. A step is told once (`map_fst_read?`,
`after_singleton`), and a run from its steps (`getElem?_readAll`,
`toList_problems_after`). So the tokens may overlap, come again or be no tokens
at all, and their order is no more than the order of what they give.
-/

namespace GraphqlLiteral

/-! ## Ranges of bytes -/

/-- Between two places where a character ends stands a text. -/
theorem Text.exists_between {source : String} {i j : Nat} (hij : i ≤ j)
    (hi : (String.Pos.Raw.mk i).IsValid source) (hj : (String.Pos.Raw.mk j).IsValid source) :
    ∃ before text after, source = before ++ text ++ after ∧
      before.utf8ByteSize = i ∧ text.utf8ByteSize = j - i := by
  obtain ⟨before, behind, hbehind, hi⟩ := String.Pos.Raw.isValid_iff_exists_append.1 hi
  obtain ⟨front, after, hfront, hj⟩ := String.Pos.Raw.isValid_iff_exists_append.1 hj
  have hbefore : before.utf8ByteSize = i := (congrArg String.Pos.Raw.byteIdx hi).symm
  have hsize : front.utf8ByteSize = j := (congrArg String.Pos.Raw.byteIdx hj).symm
  have hsplit : before.toList ++ behind.toList = front.toList ++ after.toList := by
    rw [← String.toList_append, ← String.toList_append, ← hbehind, hfront]
  rcases List.append_eq_append_iff.1 hsplit with ⟨text, htext, -⟩ | ⟨text, htext, -⟩
  · have hwhole : front = before ++ String.ofList text := by
      rw [← String.toList_inj, String.toList_append, String.toList_ofList, htext]
    rw [hwhole, String.utf8ByteSize_append] at hsize
    exact ⟨before, String.ofList text, after, by rw [hfront, hwhole], hbefore, by omega⟩
  · -- The second place is in front of the first one, so they are the same.
    have hwhole : before = front ++ String.ofList text := by
      rw [← String.toList_inj, String.toList_append, String.toList_ofList, htext]
    rw [hwhole, String.utf8ByteSize_append] at hbefore
    refine ⟨front, "", after, by rw [hfront, String.append_empty], by omega, ?_⟩
    show 0 = j - i
    omega

namespace TokenRange

/-- A range is a token when both of its ends are where a character ends. -/
theorem exists_covers_iff {t : TokenRange} {source : String} :
    (∃ text, t.Covers source text) ↔
      (String.Pos.Raw.mk t.offset.toNat).IsValid source ∧
      (String.Pos.Raw.mk (t.offset.toNat + t.length.toNat)).IsValid source := by
  refine ⟨?_, ?_⟩
  · rintro ⟨text, before, after, rfl, hoffset, hlength⟩
    rw [← hoffset, ← hlength]
    refine ⟨String.Pos.Raw.isValid_iff_exists_append.2 ⟨before, text ++ after, ?_, rfl⟩,
      String.Pos.Raw.isValid_iff_exists_append.2 ⟨before ++ text, after, rfl, ?_⟩⟩
    · rw [String.append_assoc]
    · rw [← String.utf8ByteSize_append]
      rfl
  · intro ⟨hstart, hstop⟩
    obtain ⟨before, text, after, hsource, hbefore, htext⟩ :=
      Text.exists_between (Nat.le_add_right _ _) hstart hstop
    exact ⟨text, before, after, hsource, hbefore, by omega⟩

end TokenRange

namespace TokenReader

open TokenRange

/-! ## One token -/

/-- What a reader gets from a token when it has read nothing else: the value, if
the range is a token, and the problems after it. -/
def alone (source : String) (t : TokenRange) : Option Value × ProblemLog :=
  (((ofSource source).read? t).map Prod.fst, ((ofSource source).after [t]).problems)

theorem read?_eq_none_iff {r : TokenReader} {t : TokenRange} :
    r.read? t = none ↔ ¬ ∃ text, t.Covers r.source text := by
  simp only [← text?_eq_some_iff_covers, read?]
  cases t.text? r.source with
  | none => simp
  | some text => cases hquoted : unquote? text <;> simp [hquoted]

theorem after_singleton_eq (r : TokenReader) (t : TokenRange) :
    r.after [t] = ((r.read? t).map Prod.snd).getD r := rfl

/-- The two things that can happen to a reader. Neither depends on its log. -/
theorem alone_cases (source : String) (t : TokenRange) :
    (alone source t = (none, #[]) ∧ ∀ log, (mk source log).read? t = none) ∨
    ∃ value added, alone source t = (some value, added) ∧ added.size ≤ 1 ∧
      ∀ log, (mk source log).read? t = some (value, ⟨source, log ++ added⟩) := by
  by_cases hcovers : ∃ text, t.Covers source text
  · obtain ⟨text, htext⟩ := hcovers
    obtain ⟨value, added, htells, hread⟩ := exists_forall_read?_tells htext
    refine .inr ⟨value, added, ?_, htells.size_le, hread⟩
    have hfresh : (ofSource source).read? t = some (value, ⟨source, #[] ++ added⟩) := hread #[]
    rw [alone, after_singleton_eq, hfresh, Array.empty_append]
    rfl
  · have hnone : ∀ log, (mk source log).read? t = none := fun log =>
      read?_eq_none_iff.2 hcovers
    refine .inl ⟨?_, hnone⟩
    have hfresh : (ofSource source).read? t = none := hnone #[]
    rw [alone, after_singleton_eq, hfresh]
    rfl

variable (r : TokenReader) (t : TokenRange)

/-- A reader gets the value that it would get alone. -/
theorem map_fst_read? : (r.read? t).map Prod.fst = (alone r.source t).1 := by
  rcases alone_cases r.source t with ⟨halone, hread⟩ | ⟨value, added, halone, -, hread⟩
  · rw [halone, hread r.problems]
    rfl
  · rw [halone, hread r.problems]
    rfl

/-- A reader keeps its problems and gets those of the token behind them. -/
theorem after_singleton :
    r.after [t] = { r with problems := r.problems ++ (alone r.source t).2 } := by
  rw [after_singleton_eq]
  rcases alone_cases r.source t with ⟨halone, hread⟩ | ⟨value, added, halone, -, hread⟩
  · rw [halone, hread r.problems, Array.append_empty]
    rfl
  · rw [halone, hread r.problems]
    rfl

/-! ## A run over tokens -/

variable {r t} {ts : List TokenRange}

theorem after_append (r : TokenReader) (ts ts' : List TokenRange) :
    r.after (ts ++ ts') = (r.after ts).after ts' := List.foldl_append

theorem source_after (r : TokenReader) (ts : List TokenRange) :
    (r.after ts).source = r.source := by
  induction ts generalizing r with
  | nil => rfl
  | cons t ts ih =>
    have hfirst : (r.after [t]).source = r.source := by rw [after_singleton]
    exact (ih (r.after [t])).trans hfirst

theorem readAll_cons (r : TokenReader) (t : TokenRange) (ts : List TokenRange) :
    r.readAll (t :: ts) = ((alone r.source t).1, r.after [t]) :: (r.after [t]).readAll ts := by
  rw [← map_fst_read?, readAll]
  cases hread : r.read? t with
  | none => rw [after_singleton_eq, hread]; rfl
  | some p => rw [after_singleton_eq, hread]; rfl

/-- A step of a run gives the value that the token has alone. -/
theorem getElem?_readAll {i : Nat} (ht : ts[i]? = some t) :
    (r.readAll ts)[i]? = some ((alone r.source t).1, r.after (ts.take (i + 1))) := by
  induction ts generalizing r i with
  | nil => simp at ht
  | cons u ts ih =>
    rw [readAll_cons]
    cases i with
    | zero =>
      obtain rfl : u = t := by simpa using ht
      rfl
    | succ i =>
      have hlater := ih (r := r.after [u]) (i := i) (by simpa using ht)
      rw [source_after] at hlater
      rw [List.getElem?_cons_succ, hlater, List.take_succ_cons]
      rfl

/-- A step of a run puts the problems that the token has alone behind those from
before. -/
theorem after_take_succ {i : Nat} (ht : ts[i]? = some t) :
    r.after (ts.take (i + 1)) =
      ⟨r.source, (r.after (ts.take i)).problems ++ (alone r.source t).2⟩ := by
  rw [List.take_add_one, ht, Option.toList_some, after_append, after_singleton, source_after]

theorem map_fst_readAll (r : TokenReader) (ts : List TokenRange) :
    (r.readAll ts).map Prod.fst = ts.map fun t => (alone r.source t).1 := by
  induction ts generalizing r with
  | nil => rfl
  | cons t ts ih => rw [readAll_cons, List.map_cons, List.map_cons, ih, source_after]

/-- The problems of a run are those of its tokens, in order. -/
theorem toList_problems_after (r : TokenReader) (ts : List TokenRange) :
    (r.after ts).problems.toList =
      r.problems.toList ++ ts.flatMap fun t => (alone r.source t).2.toList := by
  induction ts generalizing r with
  | nil => exact (List.append_nil _).symm
  | cons t ts ih =>
    have hlater := ih (r.after [t])
    rw [source_after] at hlater
    rw [← List.singleton_append, after_append, hlater, after_singleton, Array.toList_append,
      List.append_assoc, List.flatMap_append, List.flatMap_singleton]

/-- A run over tokens is the sum of single reads. A range is no token exactly when
it ends behind the source or one of its ends is inside a character, and then the
reader stays as it was. In a run each token gives the value that it has alone and
adds the problems that it has alone, at most one, behind those from before. So
the order of the tokens is the order of the values and the problems, and nothing
else depends on it. -/
theorem readAll_is_sum_of_single_reads (r : TokenReader) (ts : List TokenRange) :
    (∀ t, r.read? t = none ↔ r.source.utf8ByteSize < t.offset.toNat + t.length.toNat ∨
      ¬ (String.Pos.Raw.mk t.offset.toNat).IsValid r.source ∨
      ¬ (String.Pos.Raw.mk (t.offset.toNat + t.length.toNat)).IsValid r.source) ∧
    (r.readAll ts).length = ts.length ∧
    (∀ i t, ts[i]? = some t →
      (r.readAll ts)[i]? = some ((alone r.source t).1, r.after (ts.take (i + 1))) ∧
      (alone r.source t).2.size ≤ 1 ∧
      r.after (ts.take (i + 1)) =
        ⟨r.source, (r.after (ts.take i)).problems ++ (alone r.source t).2⟩ ∧
      ((alone r.source t).1 = none → r.after (ts.take (i + 1)) = r.after (ts.take i))) ∧
    (r.after ts).problems.toList =
      r.problems.toList ++ (ts.flatMap fun t => (alone r.source t).2.toList) ∧
    ∀ ts', ts.Perm ts' →
      (ts.zip ((r.readAll ts).map Prod.fst)).Perm (ts'.zip ((r.readAll ts').map Prod.fst)) ∧
      (r.after ts).problems.toList.Perm (r.after ts').problems.toList := by
  refine ⟨?_, ?_, ?_, toList_problems_after r ts, ?_⟩
  · intro t
    rw [read?_eq_none_iff, exists_covers_iff, not_and_or]
    refine ⟨.inr, ?_⟩
    rintro (hlong | hends)
    · -- Behind the source no character ends.
      exact .inr fun hstop => absurd hstop.le_utf8ByteSize (Nat.not_le_of_lt hlong)
    · exact hends
  · rw [← List.length_map, map_fst_readAll, List.length_map]
  · intro i t ht
    refine ⟨getElem?_readAll ht, ?_, after_take_succ ht, ?_⟩
    · rcases alone_cases r.source t with ⟨halone, -⟩ | ⟨value, added, halone, hsize, -⟩
      · rw [halone]
        exact Nat.zero_le 1
      · rw [halone]
        exact hsize
    · intro hnone
      rcases alone_cases r.source t with ⟨halone, -⟩ | ⟨value, added, halone, -⟩
      · rw [after_take_succ ht, halone, Array.append_empty, ← source_after r (ts.take i)]
      · rw [halone] at hnone
        exact absurd hnone (by simp)
  · intro ts' hperm
    rw [map_fst_readAll, map_fst_readAll, toList_problems_after, toList_problems_after,
      ← List.map_prod_left_eq_zip, ← List.map_prod_left_eq_zip]
    exact ⟨hperm.map _, (hperm.flatMap_right _).append_left _⟩

/-- A refused token, a range that cuts a character in two, the last quote of the
refused token, that token again, and a range past the end of the source. -/
theorem readAll_overlapping_and_repeated :
    let r := ofSource "\"\\z\"é\"\""
    let ts : List TokenRange := [⟨0, 4⟩, ⟨5, 1⟩, ⟨3, 1⟩, ⟨0, 4⟩, ⟨6, 3⟩]
    ts[1]? = some ⟨5, 1⟩ ∧ (alone r.source ⟨5, 1⟩).1 = none ∧
      r.after (ts.take 2) = r.after (ts.take 1) ∧
    r.source.utf8ByteSize < (6 : Offset).toNat + (3 : UInt32).toNat ∧ r.read? ⟨6, 3⟩ = none ∧
    ts.Perm ts.reverse ∧
      (r.after ts).problems.toList.Perm (r.after ts.reverse).problems.toList ∧
    (r.after ts).problems.toList =
      [.invalidEscape ⟨1, 3⟩, .unterminated ⟨3, 4⟩, .invalidEscape ⟨1, 3⟩] := by
  intro r ts
  obtain ⟨hnone, -, hstep, -, hperm⟩ := readAll_is_sum_of_single_reads r ts
  obtain ⟨-, -, -, hsame⟩ := hstep 1 ⟨5, 1⟩ rfl
  have hcut : (alone r.source ⟨5, 1⟩).1 = none := by cbv
  have hlong : r.source.utf8ByteSize < (6 : Offset).toNat + (3 : UInt32).toNat := by decide
  have hreverse : ts.Perm ts.reverse := (List.reverse_perm ts).symm
  exact ⟨rfl, hcut, hsame hcut, hlong, (hnone ⟨6, 3⟩).2 (.inl hlong), hreverse,
    (hperm ts.reverse hreverse).2, by cbv⟩

end TokenReader

end GraphqlLiteral
