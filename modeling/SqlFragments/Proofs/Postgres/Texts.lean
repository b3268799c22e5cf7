import SqlFragments.Proofs.Postgres.Acceptance

/-!
# Texts as parameters

A type that holds text takes the text form of every value other than nothing.  Its bytes are
those of the text in UTF-8, and three types have one byte before them that says the version.

Main results:

- `encode_of_isTextLike`: what is sent for a value in a text type.
- `texts_read_back`: the text form of every value is read back from its bytes.
-/

namespace SqlFragments.Postgres

/-! ## Bytes of texts -/

/-- The list of an array of bytes is the list of its data. -/
theorem toList_eq_data (bytes : ByteArray) : bytes.toList = bytes.data.toList := by
  have hloop : ∀ i r, ByteArray.toList.loop bytes i r = r.reverse ++ bytes.data.toList.drop i := by
    intro i r
    fun_induction ByteArray.toList.loop bytes i r with
    | case1 i r h ih =>
      have hget : bytes.get! i = bytes.data.toList[i] := getElem!_pos bytes.data i h
      rw [ih, List.drop_eq_getElem_cons h, hget, List.reverse_cons, List.append_assoc]
      rfl
    | case2 i r h =>
      have hend : bytes.data.toList.length ≤ i := Nat.le_of_not_lt h
      rw [List.drop_eq_nil_of_le hend, List.append_nil]
  exact hloop 0 []

/-- The text that bytes are in UTF-8, if they are one. -/
def decodeUTF8 (bytes : List UInt8) : Option String := String.fromUTF8? bytes.toByteArray

/-- The bytes of a text are decoded to the text. -/
theorem decodeUTF8_toUTF8 (s : String) : decodeUTF8 s.toUTF8.toList = some s := by
  have hbytes : s.toUTF8.toList.toByteArray = s.toUTF8 := by
    apply ByteArray.ext
    rw [toList_eq_data, List.data_toByteArray, Array.toArray_toList]
  rw [decodeUTF8, hbytes, String.fromUTF8?, String.toUTF8_eq_toByteArray, dif_pos s.isValidUTF8]
  rfl

/-! ## Text types -/

/-- The bytes before a text: the version of the types that have one. -/
def versionBytes (t : ColumnType) : List UInt8 :=
  if t.name ∈ ["ltree", "lquery", "ltxtquery"] then [1] else []

variable {v : Value} {t : ColumnType}

/-- What is sent for a value in a text type: its text after the version byte, if the type has
one. -/
theorem encode_of_isTextLike (hv : v.isNull = false) (ht : t.IsTextLike) :
    encode v t = .ok (some (versionBytes t ++ v.display.toUTF8.toList)) := by
  have hversioned : ColumnType.versionedText.contains t.name = true ↔
      t.name ∈ ["ltree", "lquery", "ltxtquery"] := List.contains_iff_mem
  rw [encode_of_isText hv (t.isText_iff.2 ht), encodeText, versionBytes]
  simp only [hversioned]
  split <;> rfl

/-- The text of the bytes of a parameter, after the version that its type asks for. -/
def readText (t : ColumnType) (bytes : List UInt8) : Option String :=
  if versionBytes t <+: bytes then decodeUTF8 (bytes.drop (versionBytes t).length) else none

/-- A value that is not null is sent to a text type as bytes that read back as its text. -/
theorem readText_of_isTextLike (hv : v.isNull = false) (ht : t.IsTextLike) :
    ∃ bytes, encode v t = .ok (some bytes) ∧ readText t bytes = some v.display := by
  refine ⟨_, encode_of_isTextLike hv ht, ?_⟩
  rw [readText, if_pos (List.prefix_append _ _), List.drop_left, decodeUTF8_toUTF8]

/-- A type that holds text loses nothing of a text, since it is read back from its bytes and
two texts never have the same ones.  A truth value is read back as its name in lower case, and
a number of double precision as it is laid out plainly. -/
theorem texts_read_back (ht : t.IsTextLike) :
    (∀ s, ∃ bytes, encode (.text s) t = .ok (some bytes) ∧ readText t bytes = some s) ∧
    (∀ s s', encode (.text s) t = encode (.text s') t → s = s') ∧
    (∀ b, ∃ bytes, encode (.bool b) t = .ok (some bytes) ∧
      readText t bytes = some (if b then "true" else "false")) ∧
    ∀ x, ∃ bytes, encode (.float x) t = .ok (some bytes) ∧
      readText t bytes = some (Number.Layout.plain.write x) := by
  refine ⟨fun s => readText_of_isTextLike rfl ht, ?_, fun b => readText_of_isTextLike rfl ht,
    fun x => readText_of_isTextLike rfl ht⟩
  intro s s' hsame
  obtain ⟨bytes, hsent, hread⟩ := readText_of_isTextLike (v := .text s) rfl ht
  obtain ⟨bytes', hsent', hread'⟩ := readText_of_isTextLike (v := .text s') rfl ht
  obtain rfl : bytes = bytes' := by
    rw [hsame, hsent'] at hsent
    exact (Option.some.inj (Except.ok.inj hsent)).symm
  exact Option.some.inj (hread.symm.trans hread')

end SqlFragments.Postgres
