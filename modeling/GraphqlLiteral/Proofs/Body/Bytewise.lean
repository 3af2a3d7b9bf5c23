import GraphqlLiteral.Proofs.Body.Located
import GraphqlLiteral.Proofs.Body.Steps
import Mathlib

/-!
# Bytes and characters come to the same

A backslash is one byte, and no other character holds that byte. So a search among
the bytes of a body finds the places that a search among its characters finds.
-/

namespace GraphqlLiteral

/-!
## Characters among bytes

No byte of a longer UTF-8 form is below 128, so an ASCII character stands in a text
where its byte stands among the bytes of the text, and nowhere else (`mem_bytes_iff`).
A search for the first such byte therefore finds the first such character, at the
number of bytes in front of it (`FindsFirst.bytes_append`).
-/

namespace Text

/-! ### The bytes of a text -/

@[simp] theorem bytes_append (as bs : List Char) : bytes (as ++ bs) = bytes as ++ bytes bs :=
  List.flatMap_append

theorem bytes_cons (c : Char) (cs : List Char) :
    bytes (c :: cs) = String.utf8EncodeChar c ++ bytes cs := List.flatMap_cons

theorem bytes_toList (s : String) : bytes s.toList = s.toUTF8.data.toList := by
  have hs : s.toUTF8 = (bytes s.toList).toByteArray := by
    rw [bytes, String.toUTF8_eq_toByteArray, ← List.utf8Encode, ← String.toByteArray_ofList,
      String.ofList_toList]
  rw [hs, List.data_toByteArray]

theorem length_bytes (cs : List Char) : (bytes cs).length = byteLength cs := by
  induction cs with
  | nil => simp [bytes]
  | cons c cs ih =>
    rw [bytes_cons, List.length_append, ih, String.length_utf8EncodeChar, byteLength_cons]

/-! ### Bytes below 128 -/

/-- An ASCII character is one byte. -/
theorem utf8EncodeChar_of_lt {c : Char} (hc : c.toNat < 128) :
    String.utf8EncodeChar c = [UInt8.ofNat c.toNat] := by
  have hle : c.val.toNat ≤ 127 := Nat.le_of_lt_succ hc
  simp only [String.utf8EncodeChar, if_pos hle]
  rfl

/-- A byte of a longer form holds some bits below a mark. -/
theorem le_toNat_ofNat_add {bits mark : Nat} (hmark : 128 ≤ mark) (hbyte : bits + mark < 256) :
    128 ≤ (UInt8.ofNat (bits + mark)).toNat := by
  rw [UInt8.toNat_ofNat_of_lt' hbyte]
  omega

/-- The other characters have no byte below 128. -/
theorem le_toNat_of_mem_utf8EncodeChar {c : Char} (hc : 128 ≤ c.toNat) {b : UInt8}
    (hb : b ∈ String.utf8EncodeChar c) : 128 ≤ b.toNat := by
  have hlong : ¬ c.val.toNat ≤ 127 := Nat.not_le_of_lt hc
  simp only [String.utf8EncodeChar, if_neg hlong] at hb
  -- Two, three or four bytes.
  split at hb
  · simp only [List.mem_cons, List.not_mem_nil, or_false] at hb
    rcases hb with rfl | rfl
    · exact le_toNat_ofNat_add (by omega) (by omega)
    · exact le_toNat_ofNat_add (by omega) (by omega)
  · split at hb
    · simp only [List.mem_cons, List.not_mem_nil, or_false] at hb
      rcases hb with rfl | rfl | rfl
      · exact le_toNat_ofNat_add (by omega) (by omega)
      · exact le_toNat_ofNat_add (by omega) (by omega)
      · exact le_toNat_ofNat_add (by omega) (by omega)
    · simp only [List.mem_cons, List.not_mem_nil, or_false] at hb
      rcases hb with rfl | rfl | rfl | rfl
      · exact le_toNat_ofNat_add (by omega) (by omega)
      · exact le_toNat_ofNat_add (by omega) (by omega)
      · exact le_toNat_ofNat_add (by omega) (by omega)
      · exact le_toNat_ofNat_add (by omega) (by omega)

theorem toNat_ofNat_of_ascii {c : Char} (hc : c.toNat < 128) :
    (UInt8.ofNat c.toNat).toNat = c.toNat :=
  UInt8.toNat_ofNat_of_lt' (Nat.lt_trans hc (by decide))

/-- The byte of an ASCII character belongs to no other character. -/
theorem mem_utf8EncodeChar_iff {c d : Char} (hc : c.toNat < 128) :
    UInt8.ofNat c.toNat ∈ String.utf8EncodeChar d ↔ d = c := by
  have hbyte := toNat_ofNat_of_ascii hc
  by_cases hd : d.toNat < 128
  · rw [utf8EncodeChar_of_lt hd, List.mem_singleton, ← UInt8.toNat_inj, hbyte,
      toNat_ofNat_of_ascii hd, Char.toNat_inj, eq_comm]
  · refine ⟨?_, ?_⟩
    · intro hmem
      have hle := le_toNat_of_mem_utf8EncodeChar (Nat.le_of_not_lt hd) hmem
      omega
    · intro hdc
      rw [hdc] at hd
      exact absurd hc hd

theorem mem_bytes_iff {c : Char} (hc : c.toNat < 128) {cs : List Char} :
    UInt8.ofNat c.toNat ∈ bytes cs ↔ c ∈ cs := by
  simp only [bytes, List.mem_flatMap, mem_utf8EncodeChar_iff hc, exists_eq_right]

/-! ### Searching -/

/-- To look at one byte after the other is a search of that kind. -/
theorem findsFirst_firstByte? : FindsFirst firstByte? where
  found {b bs i} h := by
    obtain ⟨hi, hget, hbefore⟩ := List.findIdx?_eq_some_iff_getElem.1 h
    refine ⟨?_, ?_⟩
    · rw [List.getElem?_eq_getElem hi, Option.some.injEq]
      simpa using hget
    · intro hmem
      obtain ⟨j, hj, hb⟩ := List.mem_take_iff_getElem.1 hmem
      exact hbefore j (Nat.lt_of_lt_of_le hj (Nat.min_le_left _ _)) (by simpa using hb)
  absent {b bs} h := by
    have hnone := List.findIdx?_eq_none_iff.1 h
    intro hmem
    simpa using hnone b hmem

namespace FindsFirst

variable {search : UInt8 → List UInt8 → Option Nat}

theorem eq_none_iff (h : FindsFirst search) {b : UInt8} {bs : List UInt8} :
    search b bs = none ↔ b ∉ bs := by
  refine ⟨h.absent, ?_⟩
  intro hmem
  cases hsearch : search b bs with
  | none => rfl
  | some i => exact absurd (List.mem_of_getElem? (h.found hsearch).1) hmem

/-- A byte that does not stand in front is found where it stands first. -/
theorem eq_length_of_not_mem (h : FindsFirst search) {b : UInt8} {front : List UInt8}
    (hfront : b ∉ front) (behind : List UInt8) :
    search b (front ++ b :: behind) = some front.length := by
  cases hsearch : search b (front ++ b :: behind) with
  | none => exact absurd (List.mem_append_right _ List.mem_cons_self) (h.absent hsearch)
  | some i =>
    obtain ⟨hget, hbefore⟩ := h.found hsearch
    rcases Nat.lt_trichotomy i front.length with hlt | heq | hgt
    · -- It would stand in front.
      rw [List.getElem?_append_left hlt] at hget
      exact absurd (List.mem_of_getElem? hget) hfront
    · rw [heq]
    · -- An earlier place would have been passed over.
      obtain ⟨k, hk⟩ := Nat.exists_eq_add_of_lt hgt
      refine absurd ?_ hbefore
      rw [hk, Nat.add_assoc, List.take_length_add_append, List.take_succ_cons]
      exact List.mem_append_right _ List.mem_cons_self

/-- An ASCII character is found if it stands in the text. -/
theorem bytes_eq_none_iff (h : FindsFirst search) {c : Char} (hc : c.toNat < 128)
    {cs : List Char} : search (UInt8.ofNat c.toNat) (bytes cs) = none ↔ c ∉ cs := by
  rw [h.eq_none_iff, mem_bytes_iff hc]

/-- It is found at the number of bytes in front of it. -/
theorem bytes_append (h : FindsFirst search) {c : Char} (hc : c.toNat < 128) {plain : List Char}
    (hplain : c ∉ plain) (behind : List Char) :
    search (UInt8.ofNat c.toNat) (bytes (plain ++ c :: behind)) = some (byteLength plain) := by
  have hfront : UInt8.ofNat c.toNat ∉ bytes plain := fun hmem => hplain ((mem_bytes_iff hc).1 hmem)
  rw [Text.bytes_append, bytes_cons, utf8EncodeChar_of_lt hc, List.singleton_append,
    h.eq_length_of_not_mem hfront, length_bytes]

end FindsFirst

end Text

/-!
## The three machines

A step that searches the bytes cuts where a step that looks at characters does, and
never through a character (`stepBytes_eq_step`), and a run of such steps has the value
of the body (`runBytes_eq_run`). A machine that takes one character at a time has it
too (`decodeChars_eq_run`).
-/

namespace Decoding

variable {search : UInt8 → List UInt8 → Option Nat}

/-! ### Searching -/

theorem search_of_not_mem (h : Text.FindsFirst search) {cs : List Char} (hplain : '\\' ∉ cs) :
    search 0x5C (Text.bytes cs) = none :=
  (h.bytes_eq_none_iff (c := '\\') (by decide)).2 hplain

theorem search_of_split (h : Text.FindsFirst search) {cs plain behind : List Char}
    (hplain : '\\' ∉ plain) (hcs : cs = plain ++ '\\' :: behind) :
    search 0x5C (Text.bytes cs) = some (Text.byteLength plain) := by
  rw [hcs]
  exact h.bytes_append (c := '\\') (by decide) hplain behind

/-- The place that is found is the one behind the plain characters that come next. -/
theorem exists_behind_of_search (h : Text.FindsFirst search) {cs : List Char} {place : Nat}
    (hplace : search 0x5C (Text.bytes cs) = some place) :
    ∃ behind, '\\' ∉ cs.takeWhile isPlain ∧ cs = cs.takeWhile isPlain ++ '\\' :: behind ∧
      place = Text.byteLength (cs.takeWhile isPlain) := by
  rcases plain_or_backslash cs with ⟨hplain, -, -⟩ | ⟨behind, hplain, -, hcs⟩
  · rw [search_of_not_mem h hplain] at hplace
    exact absurd hplace (by simp)
  · rw [search_of_split h hplain hcs, Option.some.injEq] at hplace
    exact ⟨behind, hplain, hcs, hplace.symm⟩

/-! ### One step -/

/-- The two cuts at a backslash are between characters. -/
theorem splitBytes?_at_backslash {cs plain behind : List Char}
    (hcs : cs = plain ++ '\\' :: behind) :
    Text.splitBytes? cs (Text.byteLength plain) = some (plain, '\\' :: behind) ∧
      Text.splitBytes? cs (Text.byteLength plain + 1) = some (plain ++ ['\\'], behind) := by
  have hone : Text.byteLength ['\\'] = 1 := rfl
  refine ⟨Text.splitBytes?_eq_some_iff.2 ⟨hcs, rfl⟩, Text.splitBytes?_eq_some_iff.2 ⟨?_, ?_⟩⟩
  · rw [hcs, List.append_assoc, List.singleton_append]
  · rw [Text.byteLength_append, hone]

theorem stepBytes_of_not_mem (h : Text.FindsFirst search) {d : Decoding}
    (hplain : '\\' ∉ d.unread) :
    d.stepBytes search = some (.ok (.finished (d.written ++ String.ofList d.unread))) := by
  simp only [stepBytes, search_of_not_mem h hplain]

theorem stepBytes_of_split (h : Text.FindsFirst search) {d : Decoding} {plain behind : List Char}
    (hplain : '\\' ∉ plain) (hunread : d.unread = plain ++ '\\' :: behind) :
    d.stepBytes search = some ((Escape.readMeaning behind).map fun p =>
      .going ⟨(d.written ++ String.ofList plain).push p.1, p.2⟩) := by
  obtain ⟨hbefore, hbehind⟩ := splitBytes?_at_backslash hunread
  simp only [stepBytes, search_of_split h hplain hunread, hbefore, hbehind]
  cases Escape.readMeaning behind with
  | error e => rfl
  | ok p => rfl

/-- A step by bytes cuts through no character, and comes to what a step by characters
comes to. -/
theorem stepBytes_eq_step (h : Text.FindsFirst search) (d : Decoding) :
    d.stepBytes search = some d.step := by
  rcases plain_or_backslash d.unread with ⟨hplain, -, -⟩ | ⟨behind, hplain, hdrop, hunread⟩
  · rw [stepBytes_of_not_mem h hplain, step_of_not_mem hplain]
  · rw [stepBytes_of_split h hplain hunread, step_of_dropWhile hdrop]

/-! ### A whole run -/

/-- Step by step, the two runs come to the same. -/
theorem runBytes_eq_run (h : Text.FindsFirst search) (d : Decoding) :
    d.runBytes search = some d.run := by
  fun_induction runBytes search d with
  | case1 d hstep =>
    -- A cut through a character.
    rw [stepBytes_eq_step h] at hstep
    exact absurd hstep (by simp)
  | case2 d e hstep =>
    rw [stepBytes_eq_step h, Option.some.injEq] at hstep
    rw [run_of_error hstep]
  | case3 d text hstep =>
    rw [stepBytes_eq_step h, Option.some.injEq] at hstep
    rw [run_of_finished hstep]
  | case4 d next hstep ih =>
    rw [stepBytes_eq_step h, Option.some.injEq] at hstep
    rw [ih, run_of_going hstep]

end Decoding

namespace Body

/-! ### One character after the other -/

theorem push_ofList (cs : List Char) (c : Char) :
    (String.ofList cs).push c = String.ofList (cs ++ [c]) := by
  rw [← String.toList_inj]
  simp

/-- The two agree behind any text that is written already. -/
theorem decodeChars_eq_run (written unread : List Char) :
    decodeChars written unread =
      (Decoding.run ⟨String.ofList written, unread⟩).map String.toList := by
  fun_induction decodeChars written unread with
  | case1 written =>
    rw [Decoding.run_nil]
    simp [Except.map]
  | case2 written behind e hread =>
    rw [Decoding.run_backslash_of_error hread]
    rfl
  | case3 written behind m rest hread ih =>
    rw [ih, Decoding.run_backslash_of_ok hread, push_ofList]
  | case4 written c behind hc ih => rw [ih, Decoding.run_cons_plain hc, push_ofList]

/-! ### The body as a text -/

variable {search : UInt8 → List UInt8 → Option Nat}

theorem search_eq_none_iff (h : Text.FindsFirst search) (rest : String) :
    search 0x5C rest.toUTF8.data.toList = none ↔ '\\' ∉ rest.toList := by
  rw [← Text.bytes_toList]
  exact h.bytes_eq_none_iff (c := '\\') (by decide)

/-- A text is cut in three at the place that is found. -/
theorem exists_split_of_search (h : Text.FindsFirst search) {rest : String} {place : Nat}
    (hplace : search 0x5C rest.toUTF8.data.toList = some place) :
    ∃ plain behind : String, rest = plain ++ "\\" ++ behind ∧ '\\' ∉ plain.toList ∧
      place = plain.utf8ByteSize := by
  rw [← Text.bytes_toList] at hplace
  obtain ⟨behind, hplain, hrest, hsize⟩ := Decoding.exists_behind_of_search h hplace
  refine ⟨String.ofList (rest.toList.takeWhile Decoding.isPlain), String.ofList behind, ?_, ?_,
    hsize⟩
  · rw [← String.toList_inj]
    simpa using hrest
  · rwa [String.toList_ofList]

/-- Both sides of a backslash are places where a character ends. -/
theorem isValid_at_backslash {rest plain behind : String} (hrest : rest = plain ++ "\\" ++ behind) :
    plain.utf8ByteSize + 1 ≤ rest.utf8ByteSize ∧
      (String.Pos.Raw.mk plain.utf8ByteSize).IsValid rest ∧
      (String.Pos.Raw.mk (plain.utf8ByteSize + 1)).IsValid rest := by
  have hfront : (plain ++ "\\").utf8ByteSize = plain.utf8ByteSize + 1 := by
    rw [String.utf8ByteSize_append]
    rfl
  refine ⟨?_, String.Pos.Raw.isValid_iff_exists_append.2 ⟨plain, "\\" ++ behind, ?_, rfl⟩,
    String.Pos.Raw.isValid_iff_exists_append.2 ⟨plain ++ "\\", behind, hrest, ?_⟩⟩
  · rw [hrest, String.utf8ByteSize_append, hfront]
    exact Nat.le_add_right _ _
  · rw [hrest, String.append_assoc]
  · rw [← hfront]
    rfl

/-- To search the bytes of a text for the one byte of a backslash is to search its
characters for a backslash, whatever other characters are among them. The place that is
found is the number of bytes in front of the first backslash, and there as well as one
byte further on the text can be cut. So a decoding that cuts by bytes cuts through no
character at any of its steps, also if it fails later on. What it copies are the
characters in front of the first backslash, and its result is that of the decoding by
characters, whether these are taken up to the next backslash or one at a time. -/
theorem search_by_bytes_agrees_with_characters (h : Text.FindsFirst search) :
    (∀ rest : String,
      (search 0x5C rest.toUTF8.data.toList = none ↔ '\\' ∉ rest.toList) ∧
      ∀ place, search 0x5C rest.toUTF8.data.toList = some place →
        ∃ plain behind : String, rest = plain ++ "\\" ++ behind ∧ '\\' ∉ plain.toList ∧
          place = plain.utf8ByteSize ∧ place + 1 ≤ rest.utf8ByteSize ∧
          (String.Pos.Raw.mk place).IsValid rest ∧
          (String.Pos.Raw.mk (place + 1)).IsValid rest) ∧
    (∀ raw n d, Decoding.Reached raw n d →
      d.stepBytes search = some d.step ∧
      ∀ place, search 0x5C (Text.bytes d.unread) = some place →
        ∃ behind, Text.splitBytes? d.unread place =
            some (d.unread.takeWhile Decoding.isPlain, '\\' :: behind) ∧
          Text.splitBytes? d.unread (place + 1) =
            some (d.unread.takeWhile Decoding.isPlain ++ ['\\'], behind)) ∧
    ∀ raw, decodeBytes search raw = some (decode raw) ∧
      decodeChars [] raw.toList = (decode raw).map String.toList ∧
      (search 0x5C raw.toUTF8.data.toList).isSome = hasEscape raw := by
  refine ⟨?_, ?_, ?_⟩
  · intro rest
    refine ⟨search_eq_none_iff h rest, ?_⟩
    intro place hplace
    obtain ⟨plain, behind, hrest, hplain, rfl⟩ := exists_split_of_search h hplace
    exact ⟨plain, behind, hrest, hplain, rfl, isValid_at_backslash hrest⟩
  · intro raw n d _
    refine ⟨Decoding.stepBytes_eq_step h d, ?_⟩
    intro place hplace
    obtain ⟨behind, -, hunread, rfl⟩ := Decoding.exists_behind_of_search h hplace
    exact ⟨behind, Decoding.splitBytes?_at_backslash hunread⟩
  · intro raw
    refine ⟨Decoding.runBytes_eq_run h _, decodeChars_eq_run [] raw.toList, ?_⟩
    rw [Bool.eq_iff_iff, hasEscape_iff, Option.isSome_iff_ne_none, ne_eq, search_eq_none_iff h,
      not_not]

/-- The search that looks at one byte after the other, in a text whose other characters
take two, three and four bytes. -/
theorem search_behind_long_characters :
    Text.FindsFirst Text.firstByte? ∧
    Text.firstByte? 0x5C "é中😀\\n\\".toUTF8.data.toList = some 9 ∧
    (String.Pos.Raw.mk 9).IsValid "é中😀\\n\\" ∧ (String.Pos.Raw.mk 10).IsValid "é中😀\\n\\" ∧
    Decoding.Reached "é中😀\\n\\" 1 ⟨"é中😀\n", ['\\']⟩ ∧
    Text.splitBytes? ['\\'] 1 = some (['\\'], []) ∧
    decodeBytes Text.firstByte? "é中😀\\n\\" = some (.error .invalid) := by
  obtain ⟨hsearch, hstep, hrun⟩ :=
    search_by_bytes_agrees_with_characters Text.findsFirst_firstByte?
  have hplace : Text.firstByte? 0x5C "é中😀\\n\\".toUTF8.data.toList = some 9 := by cbv
  obtain ⟨-, -, -, -, -, -, hbefore, hbehind⟩ := (hsearch "é中😀\\n\\").2 9 hplace
  have hreached : Decoding.Reached "é中😀\\n\\" 1 ⟨"é中😀\n", ['\\']⟩ := .step .start (by cbv)
  -- What the one step leaves unread is a backslash with nothing behind it.
  obtain ⟨behind, -, hcut⟩ := (hstep _ _ _ hreached).2 0 (by cbv)
  have hfailed : decode "é中😀\\n\\" = .error .invalid := by cbv
  refine ⟨Text.findsFirst_firstByte?, hplace, hbefore, hbehind, hreached, ?_, ?_⟩
  · obtain ⟨hchars, -⟩ := Text.splitBytes?_eq_some_iff.1 hcut
    obtain rfl : behind = [] := by simpa [Decoding.isPlain] using hchars
    exact hcut
  · rw [← hfailed]
    exact (hrun _).1

end Body

end GraphqlLiteral
