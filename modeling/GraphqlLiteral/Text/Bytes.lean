/-!
# Texts by their bytes

A text is a row of characters, and in UTF-8 a row of bytes. It can be cut by byte
offsets, and its bytes can be searched.
-/

namespace GraphqlLiteral

/-!
## Slices by byte offset

`slice?` cuts the bytes of a range out of a text. A range that leaves the text
or cuts a character in two has no slice, and every other range has exactly one:
`slice?_eq_some_iff`.
-/

namespace Text

/-- The size of a row of characters in UTF-8. -/
def byteLength (cs : List Char) : Nat := (String.ofList cs).utf8ByteSize

@[simp] theorem byteLength_nil : byteLength [] = 0 := by simp [byteLength]

@[simp] theorem byteLength_cons (c : Char) (cs : List Char) :
    byteLength (c :: cs) = c.utf8Size + byteLength cs := by
  simp [byteLength, String.ofList_cons]

@[simp] theorem byteLength_append (as bs : List Char) :
    byteLength (as ++ bs) = byteLength as + byteLength bs := by
  simp [byteLength]

/-- Cuts a text behind its first `n` bytes. -/
def splitBytes? : List Char → Nat → Option (List Char × List Char)
  | cs, 0 => some ([], cs)
  | [], _ + 1 => none
  | c :: cs, n + 1 =>
    if c.utf8Size ≤ n + 1 then
      match splitBytes? cs (n + 1 - c.utf8Size) with
      | none => none
      | some (front, back) => some (c :: front, back)
    else none

/-- The parts of a cut are what they should be, and there is a cut wherever a
character ends. -/
theorem splitBytes?_eq_some_iff {cs front back : List Char} {n : Nat} :
    splitBytes? cs n = some (front, back) ↔ cs = front ++ back ∧ byteLength front = n := by
  induction cs generalizing n front with
  | nil =>
    cases n with
    | zero =>
      constructor
      · intro h
        simp only [splitBytes?, Option.some.injEq, Prod.mk.injEq] at h
        simp [← h.1, ← h.2]
      · intro h
        obtain ⟨rfl, rfl⟩ := List.append_eq_nil_iff.1 h.1.symm
        rfl
    | succ n =>
      constructor
      · intro h
        simp [splitBytes?] at h
      · intro h
        obtain ⟨rfl, rfl⟩ := List.append_eq_nil_iff.1 h.1.symm
        simp at h
  | cons c cs ih =>
    have hc := c.utf8Size_pos
    cases n with
    | zero =>
      constructor
      · intro h
        simp only [splitBytes?, Option.some.injEq, Prod.mk.injEq] at h
        simp [← h.1, ← h.2]
      · intro h
        cases front with
        | nil => simp [splitBytes?, h.1]
        | cons d front =>
          have hd := d.utf8Size_pos
          simp only [byteLength_cons] at h
          omega
    | succ n =>
      constructor
      · intro h
        simp only [splitBytes?] at h
        split at h
        · split at h
          · simp at h
          · next hle _ tail back' heq =>
            simp only [Option.some.injEq, Prod.mk.injEq] at h
            obtain ⟨rfl, rfl⟩ := h
            obtain ⟨hcs, hlen⟩ := ih.1 heq
            refine ⟨by simp [hcs], ?_⟩
            simp only [byteLength_cons]
            omega
        · simp at h
      · intro h
        cases front with
        | nil => simp at h
        | cons d front =>
          obtain ⟨hcs, hlen⟩ := h
          simp only [List.cons_append, List.cons.injEq] at hcs
          obtain ⟨rfl, hcs⟩ := hcs
          simp only [byteLength_cons] at hlen
          have hle : c.utf8Size ≤ n + 1 := by omega
          have hsplit : splitBytes? cs (n + 1 - c.utf8Size) = some (front, back) :=
            ih.2 ⟨hcs, by omega⟩
          simp [splitBytes?, hle, hsplit]

/-- The `len` bytes of a text at `start`, if they begin and end between
characters of it. -/
def slice? (source : String) (start len : Nat) : Option String :=
  match splitBytes? source.toList start with
  | none => none
  | some (_, back) =>
    match splitBytes? back len with
    | none => none
    | some (middle, _) => some (String.ofList middle)

/-- A slice is the middle of a division of the text in three. -/
theorem slice?_eq_some_iff {source t : String} {start len : Nat} :
    slice? source start len = some t ↔
      ∃ before after, source = before ++ t ++ after ∧
        before.utf8ByteSize = start ∧ t.utf8ByteSize = len := by
  constructor
  · intro h
    unfold slice? at h
    split at h
    · simp at h
    · next front back hfront =>
      split at h
      · simp at h
      · next middle rest hmiddle =>
        obtain ⟨hsource, hstart⟩ := splitBytes?_eq_some_iff.1 hfront
        obtain ⟨hback, hlen⟩ := splitBytes?_eq_some_iff.1 hmiddle
        obtain rfl : String.ofList middle = t := by simpa using h
        refine ⟨String.ofList front, String.ofList rest, ?_, hstart, hlen⟩
        rw [← String.toList_inj]
        simp [hsource, hback]
  · rintro ⟨before, after, rfl, rfl, rfl⟩
    have hfront : splitBytes? (before ++ t ++ after).toList before.utf8ByteSize =
        some (before.toList, t.toList ++ after.toList) :=
      splitBytes?_eq_some_iff.2 ⟨by simp, by simp [byteLength]⟩
    have hmiddle : splitBytes? (t.toList ++ after.toList) t.utf8ByteSize =
        some (t.toList, after.toList) :=
      splitBytes?_eq_some_iff.2 ⟨rfl, by simp [byteLength]⟩
    simp only [slice?, hfront, hmiddle, String.ofList_toList]

/-!
## Searching bytes

A search for a byte is taken as given. All that is asked of it is `FindsFirst`, and
`firstByte?` is one that keeps to it.
-/

/-- A text in UTF-8. -/
def bytes (cs : List Char) : List UInt8 := cs.flatMap String.utf8EncodeChar

/-- What is promised of a search for a byte in a row of bytes. -/
structure FindsFirst (search : UInt8 → List UInt8 → Option Nat) : Prop where
  /-- The place that is found holds the byte, and none in front of it does. -/
  found {b : UInt8} {bs : List UInt8} {i : Nat} :
    search b bs = some i → bs[i]? = some b ∧ b ∉ bs.take i
  /-- The byte is nowhere if no place is found. -/
  absent {b : UInt8} {bs : List UInt8} : search b bs = none → b ∉ bs

/-- The search that looks at one byte after the other. -/
def firstByte? (b : UInt8) (bs : List UInt8) : Option Nat := bs.findIdx? (· == b)

end Text

end GraphqlLiteral
